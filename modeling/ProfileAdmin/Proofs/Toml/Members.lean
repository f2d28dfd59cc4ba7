import Mathlib.Data.List.Basic
import ProfileAdmin.Toml.Document

/-!
# Proofs.Toml.Members — tables that grow

1. **Look-up** of a member by its key.
2. **Adjusting** the members with a key: they are changed or left out, and no others are.
3. **Placing** a member: where the old one was, or at the end. A change under a key is what becomes
   of the node there, placed.
4. **Leaving out** what stands at a path, through tables.
5. **Tidy tables**, in which no key stands twice.
-/

namespace ProfileAdmin.Toml

open Document (Value)

variable {key k : String} {node old : Node} {ms ms' : Members} {moves : Bool}

namespace Members

/-! ## Look-up -/

theorem get?_cons (k key : String) (node : Node) (ms : Members) :
    get? key ((k, node) :: ms) = if k = key then some node else get? key ms := by
  unfold get?
  rw [List.lookup_cons]
  by_cases h : k = key
  · rw [if_pos h, h, beq_self_eq_true]
  · rw [if_neg h, beq_false_of_ne (Ne.symm h)]

/-- What stands in front is found first. -/
theorem get?_append (key : String) (ms ms' : Members) :
    get? key (ms ++ ms') = (get? key ms).or (get? key ms') :=
  List.lookup_append

theorem get?_single (k key : String) (node : Node) :
    get? key [(k, node)] = if k = key then some node else none :=
  get?_cons k key node []

/-- A key without a member is the key of none. -/
theorem get?_eq_none_iff (key : String) (ms : Members) :
    get? key ms = none ↔ key ∉ ms.map Prod.fst := by
  unfold get?
  rw [List.lookup_eq_none_iff]
  simp only [List.mem_map, not_exists, not_and, bne_iff_ne]
  exact forall_congr' fun m => imp_congr_right fun _ => ne_comm

/-- What is found is there. -/
theorem mem_of_get? (h : get? key ms = some node) : (key, node) ∈ ms := by
  obtain ⟨before, after, rfl, -⟩ := List.lookup_eq_some_iff.mp h
  exact List.mem_append_right before List.mem_cons_self

/-! ## Adjusting -/

/-- Changes or leaves out the members with a key. -/
def adjust (key : String) (f : Node → Option Node) (ms : Members) : Members :=
  ms.filterMap fun m => if m.1 = key then (f m.2).map fun node => (m.1, node) else some m

theorem adjust_cons (key : String) (f : Node → Option Node) (m : String × Node) (ms : Members) :
    adjust key f (m :: ms) =
      (if m.1 = key then (f m.2).map fun node => (m.1, node) else some m).toList ++
        adjust key f ms := by
  unfold adjust
  rw [List.filterMap_cons]
  split <;> rename_i h <;> rw [h] <;> rfl

theorem adjust_cons_self (key : String) (f : Node → Option Node) (node : Node) (ms : Members) :
    adjust key f ((key, node) :: ms) =
      ((f node).map fun node => (key, node)).toList ++ adjust key f ms := by
  rw [adjust_cons, if_pos rfl]

theorem adjust_cons_of_ne (h : k ≠ key) (f : Node → Option Node) (node : Node) (ms : Members) :
    adjust key f ((k, node) :: ms) = (k, node) :: adjust key f ms := by
  rw [adjust_cons, if_neg h]
  rfl

/-- Members in two lists are adjusted in each. -/
theorem adjust_append (key : String) (f : Node → Option Node) (ms ms' : Members) :
    adjust key f (ms ++ ms') = adjust key f ms ++ adjust key f ms' :=
  List.filterMap_append

/-- Members with other keys are not adjusted. -/
theorem get?_adjust_of_ne (h : k ≠ key) (f : Node → Option Node) (ms : Members) :
    get? k (adjust key f ms) = get? k ms := by
  induction ms with
  | nil => rfl
  | cons m ms ih =>
      rw [adjust_cons, get?_append, ih, get?_cons]
      by_cases hm : m.1 = key
      · have hk : m.1 ≠ k := fun heq => h (heq.symm.trans hm)
        rw [if_pos hm, if_neg hk]
        cases f m.2 with
        | none => rfl
        | some node =>
            show (get? k [(m.1, node)]).or _ = _
            rw [get?_single, if_neg hk]
            rfl
      · rw [if_neg hm]
        show (get? k [(m.1, m.2)]).or _ = _
        rw [get?_single]
        split <;> rfl

/-- What is left out is found no more. -/
theorem get?_adjust_none (key : String) (ms : Members) :
    get? key (adjust key (fun _ => none) ms) = none := by
  induction ms with
  | nil => rfl
  | cons m ms ih =>
      rw [adjust_cons, get?_append, ih, Option.or_none]
      by_cases hm : m.1 = key
      · rw [if_pos hm]
        rfl
      · rw [if_neg hm]
        show get? key [(m.1, m.2)] = none
        rw [get?_single, if_neg hm]

/-- What is changed is found as changed. -/
theorem get?_adjust_self (key : String) (f : Node → Node) (ms : Members) :
    get? key (adjust key (fun node => some (f node)) ms) = (get? key ms).map f := by
  induction ms with
  | nil => rfl
  | cons m ms ih =>
      rw [adjust_cons, get?_append, ih, get?_cons]
      by_cases hm : m.1 = key
      · rw [if_pos hm, if_pos hm]
        show (get? key [(m.1, f m.2)]).or _ = _
        rw [get?_single, if_pos hm]
        rfl
      · rw [if_neg hm, if_neg hm]
        show (get? key [(m.1, m.2)]).or _ = _
        rw [get?_single, if_neg hm]
        rfl

theorem adjust_single_of_ne (h : k ≠ key) (f : Node → Option Node) (node : Node) :
    adjust key f [(k, node)] = [(k, node)] :=
  adjust_cons_of_ne h f node []

theorem adjust_single_self (key : String) (f : Node → Option Node) (node : Node) :
    adjust key f [(key, node)] = ((f node).map fun node => (key, node)).toList := by
  rw [adjust_cons_self]
  exact List.append_nil _

/-- One member, or none, is adjusted. -/
theorem adjust_toList (key : String) (f : Node → Option Node) (o : Option Node) :
    adjust key f (o.map fun node => (key, node)).toList =
      ((o.bind f).map fun node => (key, node)).toList := by
  cases o with
  | none => rfl
  | some node => exact adjust_single_self key f node

/-- Members are adjusted in any order, if that makes no difference where the keys are the same. -/
theorem adjust_comm {f f' : Node → Option Node}
    (h : key = k → ∀ node, (f' node).bind f = (f node).bind f') (ms : Members) :
    adjust key f (adjust k f' ms) = adjust k f' (adjust key f ms) := by
  induction ms with
  | nil => rfl
  | cons m ms ih =>
      obtain ⟨name, node⟩ := m
      -- The member has both keys, one of them, or none.
      by_cases hkey : name = key
      · subst hkey
        by_cases hk : name = k
        · subst hk
          rw [adjust_cons_self, adjust_cons_self, adjust_append, adjust_append, adjust_toList,
            adjust_toList, h rfl node, ih]
        · rw [adjust_cons_of_ne hk, adjust_cons_self, adjust_cons_self, adjust_append, ih]
          cases f node with
          | none => rfl
          | some new =>
              show _ = adjust k f' [(name, new)] ++ _
              rw [adjust_single_of_ne hk]
              rfl
      · by_cases hk : name = k
        · subst hk
          rw [adjust_cons_of_ne hkey, adjust_cons_self, adjust_cons_self, adjust_append, ih]
          cases f' node with
          | none => rfl
          | some new =>
              show adjust key f [(name, new)] ++ _ = _
              rw [adjust_single_of_ne hkey]
              rfl
        · rw [adjust_cons_of_ne hk, adjust_cons_of_ne hkey, adjust_cons_of_ne hkey,
            adjust_cons_of_ne hk, ih]

/-- To erase is to leave out. -/
theorem erase_eq (key : String) (ms : Members) : erase key ms = adjust key (fun _ => none) ms := by
  induction ms with
  | nil => rfl
  | cons m ms ih =>
      obtain ⟨name, node⟩ := m
      by_cases hname : name = key
      · subst hname
        rw [adjust_cons_self, ← ih]
        exact List.filter_cons_of_neg (by simp)
      · rw [adjust_cons_of_ne hname, ← ih]
        exact List.filter_cons_of_pos (by simpa using hname)

theorem adjust_erase (key k : String) (f : Node → Option Node) (ms : Members) :
    adjust key f (erase k ms) = erase k (adjust key f ms) := by
  rw [erase_eq, erase_eq]
  refine adjust_comm (fun _ node => ?_) ms
  cases f node <;> rfl

theorem get?_erase_self (key : String) (ms : Members) : get? key (erase key ms) = none := by
  rw [erase_eq, get?_adjust_none]

/-- What has another key is not erased. -/
theorem get?_erase_of_ne (h : k ≠ key) (ms : Members) : get? k (erase key ms) = get? k ms := by
  rw [erase_eq, get?_adjust_of_ne h]

/-! ## Placing -/

/-- Puts a member where there is one with its key, else at the end. -/
def set (key : String) (node : Node) : Members → Members
  | [] => [(key, node)]
  | (k, old) :: others =>
    if k = key then (k, node) :: others else (k, old) :: set key node others

/-- Puts a member where the old one was, or takes that one out and puts the new one at the end. -/
def placed (moves : Bool) (key : String) (node : Node) (ms : Members) : Members :=
  if moves then erase key ms ++ [(key, node)] else set key node ms

/-- A change under a key: what becomes of the node there, placed. -/
def alterBy? (moves : Bool) (key : String) (change : Option Node → Option Node) (ms : Members) :
    Option Members :=
  (change (get? key ms)).map fun node => placed moves key node ms

/-- A change under a key puts the new node where the old one was, or at the end. -/
theorem alter?_eq (key : String) (change : Option Node → Option Node) (ms : Members) :
    alter? key change ms = alterBy? false key change ms := by
  induction ms with
  | nil => cases h : change none <;> simp [alter?, alterBy?, get?, placed, set, h]
  | cons m ms ih =>
      obtain ⟨k, old⟩ := m
      unfold alter? alterBy?
      rw [get?_cons]
      by_cases h : k = key
      · rw [if_pos h, if_pos h]
        cases hchange : change (some old) <;> simp [placed, set, h]
      · rw [if_neg h, if_neg h, ih]
        unfold alterBy?
        cases change (get? key ms) <;> simp [placed, set, h]

/-- What is put is found. -/
theorem get?_set_self (key : String) (node : Node) (ms : Members) :
    get? key (set key node ms) = some node := by
  induction ms with
  | nil => rw [set, get?_single, if_pos rfl]
  | cons m ms ih =>
      by_cases h : m.1 = key
      · rw [set, if_pos h, get?_cons, if_pos h]
      · rw [set, if_neg h, get?_cons, if_neg h, ih]

/-- What is put makes no difference to other keys. -/
theorem get?_set_of_ne (h : k ≠ key) (node : Node) (ms : Members) :
    get? k (set key node ms) = get? k ms := by
  induction ms with
  | nil => rw [set, get?_single, if_neg (Ne.symm h)]; rfl
  | cons m ms ih =>
      by_cases hm : m.1 = key
      · have hk : m.1 ≠ k := fun heq => h (heq.symm.trans hm)
        rw [set, if_pos hm, get?_cons, get?_cons, if_neg hk, if_neg hk]
      · rw [set, if_neg hm, get?_cons, get?_cons, ih]

/-- A member that is put where it already is changes nothing. -/
theorem set_of_get? (h : get? key ms = some node) : set key node ms = ms := by
  induction ms with
  | nil => exact nomatch h
  | cons m ms ih =>
      obtain ⟨k, old⟩ := m
      rw [get?_cons] at h
      by_cases hm : k = key
      · rw [if_pos hm] at h
        rw [set, if_pos hm, Option.some.inj h]
      · rw [if_neg hm] at h
        rw [set, if_neg hm, ih h]

/-- What is placed is found. -/
theorem get?_placed_self (moves : Bool) (key : String) (node : Node) (ms : Members) :
    get? key (placed moves key node ms) = some node := by
  cases moves with
  | false => exact get?_set_self key node ms
  | true =>
      show get? key (erase key ms ++ [(key, node)]) = _
      rw [get?_append, get?_erase_self, get?_single, if_pos rfl]
      rfl

/-- What has another key is found as before. -/
theorem get?_placed_of_ne (h : k ≠ key) (moves : Bool) (node : Node) (ms : Members) :
    get? k (placed moves key node ms) = get? k ms := by
  cases moves with
  | false => exact get?_set_of_ne h node ms
  | true =>
      show get? k (erase key ms ++ [(key, node)]) = _
      rw [get?_append, get?_erase_of_ne h, get?_single, if_neg (Ne.symm h), Option.or_none]

/-- Members with different keys are adjusted and put in any order. -/
theorem adjust_set_of_ne (h : k ≠ key) (f : Node → Option Node) (node : Node) (ms : Members) :
    adjust key f (set k node ms) = set k node (adjust key f ms) := by
  induction ms with
  | nil => exact adjust_single_of_ne h f node
  | cons m ms ih =>
      obtain ⟨name, old⟩ := m
      by_cases hk : name = k
      · have hkey : name ≠ key := hk.trans_ne h
        rw [set, if_pos hk, adjust_cons_of_ne hkey, adjust_cons_of_ne hkey, set, if_pos hk]
      · rw [set, if_neg hk]
        by_cases hkey : name = key
        · subst hkey
          rw [adjust_cons_self, adjust_cons_self, ih]
          cases f old with
          | none => rfl
          | some new =>
              show (name, new) :: _ = set k node ((name, new) :: _)
              rw [set, if_neg hk]
              rfl
        · rw [adjust_cons_of_ne hkey, adjust_cons_of_ne hkey, ih, set, if_neg hk]

/-- A node can be changed before it is put, or after that. -/
theorem adjust_set_self (key : String) (f : Node → Node) (node : Node) (ms : Members) :
    adjust key (fun node => some (f node)) (set key node ms) =
      set key (f node) (adjust key (fun node => some (f node)) ms) := by
  induction ms with
  | nil => exact adjust_single_self key _ node
  | cons m ms ih =>
      obtain ⟨name, old⟩ := m
      by_cases hk : name = key
      · subst hk
        rw [set, if_pos rfl, adjust_cons_self, adjust_cons_self]
        show (name, f node) :: _ = set name (f node) ((name, f old) :: _)
        rw [set, if_pos rfl]
      · rw [set, if_neg hk, adjust_cons_of_ne hk, adjust_cons_of_ne hk, ih, set, if_neg hk]

/-- It makes no difference what is left out. -/
theorem adjust_none_set (key : String) (node : Node) (ms : Members) :
    adjust key (fun _ => none) (set key node ms) = adjust key (fun _ => none) ms := by
  induction ms with
  | nil => exact adjust_single_self key _ node
  | cons m ms ih =>
      obtain ⟨name, old⟩ := m
      by_cases hk : name = key
      · subst hk
        rw [set, if_pos rfl, adjust_cons_self, adjust_cons_self]
      · rw [set, if_neg hk, adjust_cons_of_ne hk, adjust_cons_of_ne hk, ih]

/-- So it is with nodes that are placed, with different keys. -/
theorem adjust_placed_of_ne (h : k ≠ key) (f : Node → Option Node) (moves : Bool) (node : Node)
    (ms : Members) :
    adjust key f (placed moves k node ms) = placed moves k node (adjust key f ms) := by
  cases moves with
  | false => exact adjust_set_of_ne h f node ms
  | true =>
      show adjust key f (erase k ms ++ [(k, node)]) = erase k (adjust key f ms) ++ [(k, node)]
      rw [adjust_append, adjust_erase, adjust_single_of_ne h]

/-- And with the same. -/
theorem adjust_placed_self (key : String) (f : Node → Node) (moves : Bool) (node : Node)
    (ms : Members) :
    adjust key (fun node => some (f node)) (placed moves key node ms) =
      placed moves key (f node) (adjust key (fun node => some (f node)) ms) := by
  cases moves with
  | false => exact adjust_set_self key f node ms
  | true =>
      show adjust key _ (erase key ms ++ [(key, node)]) = erase key _ ++ [(key, f node)]
      rw [adjust_append, adjust_erase, adjust_single_self]
      rfl

end Members

/-! ## Leaving out -/

/-- Changes the members of a table. -/
def Node.mapTable (f : Members → Members) : Node → Node
  | .table origin inner => .table origin (f inner)
  | node => node

/-- Leaves out what stands at a path. Only tables are on the way. -/
def Members.without : List String → Members → Members
  | [], ms => ms
  | key :: path, ms =>
    ms.adjust key fun node =>
      if path.isEmpty then none else some (node.mapTable (Members.without path))

/-- What stands at a path. Only tables are on the way. -/
def Members.at? : List String → Members → Option Node
  | [], _ => none
  | key :: path, ms =>
    match Members.get? key ms with
    | some node =>
      if path.isEmpty then some node
      else match node with
        | .table _ inner => Members.at? path inner
        | _ => none
    | none => none

namespace Members

/-- At a path of one key a member is left out. -/
theorem without_single (key : String) (ms : Members) :
    without [key] ms = adjust key (fun _ => none) ms :=
  rfl

/-- At a longer path a table is changed. -/
theorem without_cons {path : List String} (h : path ≠ []) (key : String) (ms : Members) :
    without (key :: path) ms = adjust key (fun node => some (node.mapTable (without path))) ms := by
  obtain ⟨next, path, rfl⟩ := List.exists_cons_of_ne_nil h
  rfl

theorem without_nil (path : List String) : without path [] = [] := by
  cases path <;> rfl

theorem at?_single (key : String) (ms : Members) : at? [key] ms = get? key ms := by
  unfold at?
  cases get? key ms <;> rfl

/-- It does not matter what is left out first. -/
theorem without_comm (path path' : List String) (ms : Members) :
    without path (without path' ms) = without path' (without path ms) := by
  induction path generalizing path' ms with
  | nil => rfl
  | cons key path ih =>
      cases path' with
      | nil => rfl
      | cons k path' =>
          refine adjust_comm (fun _ node => ?_) ms
          -- A path that ends here leaves out the node, and with it what the other path would
          -- change.
          by_cases hpath : path.isEmpty = true
          · simp only [if_pos hpath, Option.bind_none]
            split <;> rfl
          · by_cases hpath' : path'.isEmpty = true
            · simp only [if_neg hpath, if_pos hpath', Option.bind_some, Option.bind_none]
            · simp only [if_neg hpath, if_neg hpath', Option.bind_some]
              cases node with
              | table origin inner =>
                  exact congrArg (fun inner => some (Node.table origin inner)) (ih path' inner)
              | value | tables => rfl

end Members

/-! ## Tidy tables -/

/-- No key stands twice, in this table and in those below. -/
inductive Node.Tidy : Node → Prop where
  | value (v : Value) : Tidy (.value v)
  | table {origin : Origin} {inner : Members} (hnames : (inner.map Prod.fst).Nodup)
      (hinner : ∀ m ∈ inner, Tidy m.2) : Tidy (.table origin inner)
  | tables {items : List Members} (hnames : ∀ inner ∈ items, (inner.map Prod.fst).Nodup)
      (hinner : ∀ inner ∈ items, ∀ m ∈ inner, Tidy m.2) : Tidy (.tables items)

/-- No key stands twice, in this table and in those below. -/
structure Members.Tidy (ms : Members) : Prop where
  names : (ms.map Prod.fst).Nodup
  nodes : ∀ m ∈ ms, m.2.Tidy

namespace Members

theorem tidy_nil : Tidy [] :=
  ⟨List.nodup_nil, fun _ hm => nomatch hm⟩

/-- What is found in a tidy table is tidy. -/
theorem Tidy.get? (h : Tidy ms) (hget : Members.get? key ms = some node) : node.Tidy :=
  h.nodes (key, node) (mem_of_get? hget)

/-- A member was there, or is the one that was put. -/
theorem mem_set {m : String × Node} (h : m ∈ ms.set key node) : m = (key, node) ∨ m ∈ ms := by
  induction ms with
  | nil => exact Or.inl (List.mem_singleton.mp h)
  | cons other ms ih =>
      by_cases hk : other.1 = key
      · rw [set, if_pos hk] at h
        rcases List.mem_cons.mp h with rfl | hm
        · exact Or.inl (by rw [hk])
        · exact Or.inr (List.mem_cons_of_mem other hm)
      · rw [set, if_neg hk] at h
        rcases List.mem_cons.mp h with rfl | hm
        · exact Or.inr List.mem_cons_self
        · exact (ih hm).imp_right (List.mem_cons_of_mem other)

/-- A table stays tidy when a tidy node is put. -/
theorem Tidy.set (h : Tidy ms) (hnode : node.Tidy) (key : String) : Tidy (ms.set key node) := by
  refine ⟨?_, fun m hm => ?_⟩
  · have hnames := h.names
    clear h
    induction ms with
    | nil => exact List.nodup_cons.mpr ⟨List.not_mem_nil, List.nodup_nil⟩
    | cons other ms ih =>
        obtain ⟨hother, hnames⟩ := List.nodup_cons.mp hnames
        by_cases hk : other.1 = key
        · rw [Members.set, if_pos hk]
          exact List.nodup_cons.mpr ⟨hother, hnames⟩
        · rw [Members.set, if_neg hk]
          refine List.nodup_cons.mpr ⟨?_, ih hnames⟩
          rw [← get?_eq_none_iff] at hother ⊢
          rwa [get?_set_of_ne hk]
  · rcases mem_set hm with rfl | hm
    · exact hnode
    · exact h.nodes m hm

/-- And when it is placed, wherever that is. -/
theorem Tidy.placed (h : Tidy ms) (hnode : node.Tidy) (moves : Bool) (key : String) :
    Tidy (ms.placed moves key node) := by
  cases moves with
  | false => exact h.set hnode key
  | true =>
      refine ⟨?_, fun m hm => ?_⟩
      -- When the old member is erased, its key is free.
      · have hfresh : key ∉ (erase key ms).map Prod.fst :=
          (get?_eq_none_iff key _).mp (get?_erase_self key ms)
        have hkept : ((erase key ms).map Prod.fst).Nodup :=
          h.names.sublist (List.Sublist.map Prod.fst List.filter_sublist)
        show ((erase key ms ++ [(key, node)]).map Prod.fst).Nodup
        rw [List.map_append]
        refine List.nodup_append.mpr
          ⟨hkept, List.nodup_cons.mpr ⟨List.not_mem_nil, List.nodup_nil⟩, ?_⟩
        intro name hname other hother heq
        rw [heq, List.mem_singleton.mp hother] at hname
        exact hfresh hname
      · rcases List.mem_append.mp hm with hm | hm
        · exact h.nodes m (List.mem_of_mem_filter hm)
        · rw [List.mem_singleton.mp hm]
          exact hnode

end Members

end ProfileAdmin.Toml
