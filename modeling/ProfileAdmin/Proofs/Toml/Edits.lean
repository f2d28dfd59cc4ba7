import ProfileAdmin.Proofs.Toml.Members

/-!
# Proofs.Toml.Edits — what a statement can do to a document

1. **Edits** at a path. Every statement is one: it opens a table, adds a table to a list, or puts a
   value, perhaps below tables on the way.
2. **What becomes of a node** at the key where an edit begins.
3. **Far from a path** an edit does the same whether something stands there or not, and it changes
   nothing there.
-/

namespace ProfileAdmin.Toml

open Document (Value)

variable {key k : String} {path rest : List String} {node new : Node} {ms ms' : Members}
  {moves : Bool} {change : Option Node → Option Node} {inside : Origin → Members → Option Members}
  {g : Members → Option Members} {o : Option Node}

/-! ## Edits -/

/-- A path that is apart from another one is not empty. -/
theorem exists_cons_of_apart {place : List String} (h : ¬ path <+: place) :
    ∃ k rest, path = k :: rest := by
  refine List.exists_cons_of_ne_nil ?_
  rintro rfl
  exact h List.nil_prefix

/-- A path that stands in front of no other one goes on behind their common key. -/
theorem ne_nil_of_apart {place : List String} (h : ¬ k :: path <+: key :: place) (hk : key = k) :
    path ≠ [] := by
  rintro rfl
  exact h (List.cons_prefix_cons.mpr ⟨hk.symm, List.nil_prefix⟩)

/-- A node on the way to a table below it. -/
def Node.through? (way : Way) (inside : Origin → Members → Option Members) :
    Option Node → Option Node
  | none => (inside way.origin []).map (.table way.origin)
  | some (.value _) => none
  | some (.table origin inner) =>
    if way = .key ∧ origin = .opened then none else (inside origin inner).map (.table origin)
  | some (.tables items) =>
    items.getLast?.bind fun last => (inside .opened last).map fun inner =>
      .tables (items.dropLast ++ [inner])

/-- A node that gets a header. -/
def Node.opened? : Option Node → Option Node
  | none => some (.table .opened [])
  | some (.table .implied inner) => some (.table .opened inner)
  | some _ => none

/-- A node that gets one more table. -/
def Node.extended? : Option Node → Option Node
  | none => some (.tables [[]])
  | some (.tables items) => some (.tables (items ++ [[]]))
  | some _ => none

/-- A node that gets a value. -/
def Node.given? (v : Value) : Option Node → Option Node
  | none => some (.value v)
  | some _ => none

namespace Members

/-- To go along a path is to change the node at its first key. -/
theorem within?_cons (way : Way) (inside : Origin → Members → Option Members) (key : String)
    (path : List String) (origin : Origin) :
    within? way inside (key :: path) origin =
      alterBy? false key (Node.through? way (within? way inside path)) := by
  funext ms
  rw [within?, alter?_eq]
  congr 1
  funext node
  -- In a list of tables the way leads through the last one.
  cases node with
  | none => cases h : within? way inside path way.origin [] <;> simp [Node.through?, h]
  | some node =>
      cases node with
      | value => rfl
      | table origin inner =>
          cases h : within? way inside path origin inner <;> simp [Node.through?, h]
      | tables items =>
          cases hlast : items.getLast? with
          | none => simp [Node.through?, hlast]
          | some last =>
              cases h : within? way inside path .opened last <;> simp [Node.through?, hlast, h]

/-- A header changes the node at its last key, and moves it to the end. -/
theorem openTable?_eq (key : String) : openTable? key = alterBy? true key Node.opened? := by
  funext ms
  unfold openTable? alterBy?
  cases h : get? key ms with
  | none =>
      -- There is nothing to move: without a member, erasing changes nothing.
      have hkept : erase key ms = ms := by
        refine List.filter_eq_self.mpr fun m hm => bne_iff_ne.mpr fun heq => ?_
        exact (get?_eq_none_iff key ms).mp h (heq ▸ List.mem_map_of_mem hm)
      show some (ms ++ [(key, .table .opened [])]) = some (erase key ms ++ _)
      rw [hkept]
  | some node =>
      cases node with
      | value => rfl
      | table origin inner => cases origin <;> rfl
      | tables => rfl

/-- So does the header of an item, but it moves nothing. -/
theorem openItem?_eq (key : String) : openItem? key = alterBy? false key Node.extended? := by
  funext ms
  unfold openItem?
  rw [alter?_eq]
  congr 1

/-- A value is put where there is none. -/
theorem put?_eq (key : String) (v : Value) : put? key v = alterBy? false key (Node.given? v) := by
  funext ms
  unfold put?
  rw [alter?_eq]
  congr 1

end Members

open Members

/-- What can happen at a path. -/
inductive Edit : List String → (Members → Option Members) → Prop where
  /-- Nothing, as it is refused. -/
  | refused (key : String) (path : List String) : Edit (key :: path) fun _ => none
  | table (key : String) : Edit [key] (alterBy? true key Node.opened?)
  | item (key : String) : Edit [key] (alterBy? false key Node.extended?)
  | value (key : String) (v : Value) : Edit [key] (alterBy? false key (Node.given? v))
  /-- Something in a table on the way. -/
  | through (way : Way) (key : String) {path : List String}
      {inside : Origin → Members → Option Members} (h : ∀ origin, Edit path (inside origin)) :
      Edit (key :: path) (alterBy? false key (Node.through? way inside))

/-- A change of the table at a path happens below it. -/
theorem edit_within? (way : Way) (h : ∀ origin, Edit rest (inside origin)) (path : List String)
    (origin : Origin) : Edit (path ++ rest) (within? way inside path origin) := by
  induction path generalizing origin with
  | nil => exact h origin
  | cons key path ih =>
      rw [within?_cons]
      exact Edit.through way key ih

/-- A value below dotted keys is put by an edit. -/
theorem edit_putAt? (path : List String) (key : String) (v : Value) :
    Edit (path ++ [key]) (putAt? path key v) := by
  refine edit_within? .key (fun origin => ?_) path .opened
  -- The table at the end of the path must not have a header of its own, unless the path is empty.
  by_cases h : (path.isEmpty || origin = .dotted) = true
  · have hput : (fun inner : Members => if (path.isEmpty || origin = .dotted) = true then
        put? key v inner else none) = put? key v := by
      funext inner
      rw [if_pos h]
    show Edit [key] (fun inner => if (path.isEmpty || origin = .dotted) = true then _ else none)
    rw [hput, put?_eq]
    exact Edit.value key v
  · have hnone : (fun inner : Members => if (path.isEmpty || origin = .dotted) = true then
        put? key v inner else none) = fun _ => none := by
      funext inner
      rw [if_neg h]
    show Edit [key] (fun inner => if (path.isEmpty || origin = .dotted) = true then _ else none)
    rw [hnone]
    exact Edit.refused key []

/-- All of a key. -/
def Key.parts (k : Key) : List String :=
  k.path ++ [k.name]

/-- Where a statement has its effect, below the table that is open. -/
def Statement.place (header : List String) : Statement → List String
  | .table k => k.parts
  | .item k => k.parts
  | .pair k _ => header ++ k.parts

/-- Which table is open behind a statement. -/
def Statement.header (header : List String) : Statement → List String
  | .table k => k.parts
  | .item k => k.parts
  | .pair _ _ => header

/-- What a statement does to the members of the document. -/
def Statement.effect? (header : List String) : Statement → Members → Option Members
  | .table k => within? .header (fun _ => openTable? k.name) k.path .opened
  | .item k => within? .header (fun _ => openItem? k.name) k.path .opened
  | .pair k v => within? .header (fun _ => putAt? k.path k.name v) header .opened

/-- A statement has its effect on the members, and opens a table or leaves the old one open. -/
theorem Draft.step_eq (ms : Members) (header : List String) (st : Statement) :
    Draft.step ⟨ms, header⟩ st = (st.effect? header ms).map fun ms => ⟨ms, st.header header⟩ := by
  cases st with
  | table k =>
      show Option.bind _ _ =
        Option.map _ (within? .header (fun _ => openTable? k.name) k.path .opened ms)
      cases within? .header (fun _ => openTable? k.name) k.path .opened ms <;> rfl
  | item k =>
      show Option.bind _ _ =
        Option.map _ (within? .header (fun _ => openItem? k.name) k.path .opened ms)
      cases within? .header (fun _ => openItem? k.name) k.path .opened ms <;> rfl
  | pair k v =>
      show Option.bind _ _ =
        Option.map _ (within? .header (fun _ => putAt? k.path k.name v) header .opened ms)
      cases within? .header (fun _ => putAt? k.path k.name v) header .opened ms <;> rfl

/-- Every statement is an edit. -/
theorem edit_statement (header : List String) (st : Statement) :
    Edit (st.place header) (st.effect? header) := by
  cases st with
  | table k =>
      refine edit_within? .header (fun _ => ?_) k.path .opened
      rw [openTable?_eq]
      exact Edit.table k.name
  | item k =>
      refine edit_within? .header (fun _ => ?_) k.path .opened
      rw [openItem?_eq]
      exact Edit.item k.name
  | pair k v => exact edit_within? .header (fun _ => edit_putAt? k.path k.name v) header .opened

/-! ## What becomes of a node -/

namespace Node

variable {f : Members → Members}

/-- A header makes a new table, or opens one that was only implied. -/
theorem opened?_cases (h : opened? o = some new) :
    (o = none ∧ new = .table .opened []) ∨
      ∃ inner, o = some (.table .implied inner) ∧ new = .table .opened inner := by
  rcases o with _ | _ | ⟨_ | _ | _, inner⟩ | _
  case none => exact Or.inl ⟨rfl, (Option.some.inj h).symm⟩
  case some.table.implied => exact Or.inr ⟨inner, rfl, (Option.some.inj h).symm⟩
  all_goals exact nomatch h

/-- One more table is the first of a list, or the last of one that is there. -/
theorem extended?_cases (h : extended? o = some new) :
    (o = none ∧ new = .tables [[]]) ∨
      ∃ items, o = some (.tables items) ∧ new = .tables (items ++ [[]]) := by
  rcases o with _ | _ | _ | items
  case none => exact Or.inl ⟨rfl, (Option.some.inj h).symm⟩
  case some.tables => exact Or.inr ⟨items, rfl, (Option.some.inj h).symm⟩
  all_goals exact nomatch h

/-- A value is given where nothing stands. -/
theorem given?_cases {v : Value} (h : given? v o = some new) : o = none ∧ new = .value v := by
  cases o with
  | none => exact ⟨rfl, (Option.some.inj h).symm⟩
  | some node => exact nomatch h

/-- On the way, a table is made, or an old one is changed, or the last one of a list. -/
theorem through?_cases {way : Way} (h : through? way inside o = some new) :
    (o = none ∧ ∃ inner, inside way.origin [] = some inner ∧ new = .table way.origin inner) ∨
      (∃ origin old inner, o = some (.table origin old) ∧ inside origin old = some inner ∧
        new = .table origin inner) ∨
      ∃ items last inner, o = some (.tables items) ∧ items.getLast? = some last ∧
        inside .opened last = some inner ∧ new = .tables (items.dropLast ++ [inner]) := by
  rcases o with _ | _ | ⟨origin, old⟩ | items
  case none =>
    obtain ⟨inner, hinner, rfl⟩ := Option.map_eq_some_iff.mp h
    exact Or.inl ⟨rfl, inner, hinner, rfl⟩
  case some.value => exact nomatch h
  case some.table =>
    unfold through? at h
    dsimp only at h
    split at h
    · exact nomatch h
    · obtain ⟨inner, hinner, rfl⟩ := Option.map_eq_some_iff.mp h
      exact Or.inr (Or.inl ⟨origin, old, inner, rfl, hinner, rfl⟩)
  case some.tables =>
    obtain ⟨last, hlast, hlater⟩ := Option.bind_eq_some_iff.mp h
    obtain ⟨inner, hinner, rfl⟩ := Option.map_eq_some_iff.mp hlater
    exact Or.inr (Or.inr ⟨items, last, inner, rfl, hlast, hinner, rfl⟩)

/-- A change of the tables below commutes with what happens there, if it leaves no trace in an empty
one. -/
theorem through?_mapTable (way : Way) (hnil : f [] = [])
    (hcomm : ∀ origin inner, inside origin (f inner) = (inside origin inner).map f)
    (o : Option Node) :
    through? way inside (o.map (mapTable f)) = (through? way inside o).map (mapTable f) := by
  rcases o with _ | _ | ⟨origin, inner⟩ | items
  case none =>
    -- The table that comes into being is made from an empty one.
    have hempty := hcomm way.origin []
    rw [hnil] at hempty
    show (inside way.origin []).map (Node.table way.origin) =
      ((inside way.origin []).map (Node.table way.origin)).map (mapTable f)
    rw [Option.map_map]
    nth_rewrite 1 [hempty]
    rw [Option.map_map]
    rfl
  case some.value => rfl
  case some.table =>
    show through? way inside (some (.table origin (f inner))) = _
    unfold through?
    dsimp only
    rw [hcomm origin inner]
    split
    · rfl
    · rw [Option.map_map, Option.map_map]
      rfl
  case some.tables =>
    show _ = Option.map _ (items.getLast?.bind _)
    rw [Option.map_bind]
    refine Option.bind_congr fun last _ => ?_
    show _ = Option.map _ (Option.map _ _)
    rw [Option.map_map]
    rfl

/-- A header does not look at what is in the table. -/
theorem opened?_mapTable (hnil : f [] = []) (o : Option Node) :
    opened? (o.map (mapTable f)) = (opened? o).map (mapTable f) := by
  rcases o with _ | _ | ⟨_ | _ | _, inner⟩ | _
  case none => exact congrArg (fun inner => some (Node.table .opened inner)) hnil.symm
  all_goals rfl

/-- Neither does the header of an item. -/
theorem extended?_mapTable (f : Members → Members) (o : Option Node) :
    extended? (o.map (mapTable f)) = (extended? o).map (mapTable f) := by
  rcases o with _ | _ | _ | items <;> rfl

/-- Neither does a value. -/
theorem given?_mapTable (f : Members → Members) (v : Value) (o : Option Node) :
    given? v (o.map (mapTable f)) = (given? v o).map (mapTable f) := by
  cases o <;> rfl

end Node

/-! ## Far from a path -/

namespace Members

/-- A change under a key leaves everything apart from it as it is. -/
theorem without_alterBy? (h : key = k → path ≠ [])
    (hinner : key = k → ∀ o, change (o.map (Node.mapTable (without path))) =
      (change o).map (Node.mapTable (without path))) (moves : Bool) (ms : Members) :
    alterBy? moves key change (ms.without (k :: path)) =
      (alterBy? moves key change ms).map (without (k :: path)) := by
  unfold alterBy?
  by_cases hk : key = k
  · subst hk
    have hpath := h rfl
    rw [without_cons hpath, get?_adjust_self, hinner rfl]
    cases change (get? key ms) with
    | none => rfl
    | some node =>
        show some _ = some (without (key :: path) _)
        rw [without_cons hpath, adjust_placed_self]
  · have hget : get? key (ms.without (k :: path)) = get? key ms := get?_adjust_of_ne hk _ ms
    rw [hget]
    cases change (get? key ms) with
    | none => rfl
    | some node => exact congrArg some (adjust_placed_of_ne hk _ moves node ms).symm

/-- An edit elsewhere can be made before something is left out, or after that. -/
theorem without_edit {place : List String} (hedit : Edit place g) (h : ¬ path <+: place)
    (ms : Members) : g (ms.without path) = (g ms).map (without path) := by
  -- Either the keys differ, or the path goes on below the key where the edit begins.
  induction hedit generalizing path ms with
  | refused => rfl
  | table key =>
      obtain ⟨k, path, rfl⟩ := exists_cons_of_apart h
      exact without_alterBy? (ne_nil_of_apart h)
        (fun _ => Node.opened?_mapTable (without_nil path)) true ms
  | item key =>
      obtain ⟨k, path, rfl⟩ := exists_cons_of_apart h
      exact without_alterBy? (ne_nil_of_apart h)
        (fun _ => Node.extended?_mapTable (without path)) false ms
  | value key v =>
      obtain ⟨k, path, rfl⟩ := exists_cons_of_apart h
      exact without_alterBy? (ne_nil_of_apart h)
        (fun _ => Node.given?_mapTable (without path) v) false ms
  | @through way key place inside _ ih =>
      obtain ⟨k, path, rfl⟩ := exists_cons_of_apart h
      refine without_alterBy? (ne_nil_of_apart h) (fun hk => ?_) false ms
      have hbelow : ¬ path <+: place :=
        fun hfront => h (List.cons_prefix_cons.mpr ⟨hk.symm, hfront⟩)
      exact Node.through?_mapTable way (without_nil path) fun origin inner => ih origin hbelow inner

/-- What stands at a path below a node. -/
def below? (path : List String) : Option Node → Option Node
  | some (.table _ inner) => at? path inner
  | _ => none

/-- A path goes on below its first key. -/
theorem at?_cons (h : path ≠ []) (key : String) (ms : Members) :
    at? (key :: path) ms = below? path (get? key ms) := by
  obtain ⟨next, path, rfl⟩ := List.exists_cons_of_ne_nil h
  rw [at?]
  cases get? key ms with
  | none => rfl
  | some node => cases node <;> rfl

/-- In an empty table nothing stands at any path. -/
theorem at?_nil (path : List String) : at? path [] = none := by
  cases path <;> rfl

/-- A change under a key shows at no path apart from it. -/
theorem at?_alterBy? (hdone : alterBy? moves key change ms = some ms') (h : key = k → path ≠ [])
    (hinner : key = k → ∀ o new, change o = some new → below? path (some new) = below? path o) :
    at? (k :: path) ms' = at? (k :: path) ms := by
  obtain ⟨new, hnew, rfl⟩ := Option.map_eq_some_iff.mp hdone
  by_cases hk : key = k
  · subst hk
    rw [at?_cons (h rfl), at?_cons (h rfl), get?_placed_self]
    exact hinner rfl _ new hnew
  · have hget : get? k (placed moves key new ms) = get? k ms :=
      get?_placed_of_ne (Ne.symm hk) moves new ms
    unfold at?
    rw [hget]

/-- An edit elsewhere changes nothing at a path. -/
theorem at?_edit {place : List String} (hedit : Edit place g) (h : ¬ path <+: place)
    (hdone : g ms = some ms') : at? path ms' = at? path ms := by
  obtain ⟨k, path, rfl⟩ := exists_cons_of_apart h
  induction hedit generalizing k path ms ms' with
  | refused => exact nomatch hdone
  | table key =>
      refine at?_alterBy? hdone (ne_nil_of_apart h) fun _ o new hnew => ?_
      rcases Node.opened?_cases hnew with ⟨rfl, rfl⟩ | ⟨inner, rfl, rfl⟩
      · exact at?_nil path
      · rfl
  | item key =>
      refine at?_alterBy? hdone (ne_nil_of_apart h) fun _ o new hnew => ?_
      rcases Node.extended?_cases hnew with ⟨rfl, rfl⟩ | ⟨items, rfl, rfl⟩ <;> rfl
  | value key v =>
      refine at?_alterBy? hdone (ne_nil_of_apart h) fun _ o new hnew => ?_
      obtain ⟨rfl, rfl⟩ := Node.given?_cases hnew
      rfl
  | @through way key place inside _ ih =>
      refine at?_alterBy? hdone (ne_nil_of_apart h) fun hk o new hnew => ?_
      have hbelow : ¬ path <+: place :=
        fun hfront => h (List.cons_prefix_cons.mpr ⟨hk.symm, hfront⟩)
      obtain ⟨next, path, rfl⟩ := exists_cons_of_apart hbelow
      rcases Node.through?_cases hnew with ⟨rfl, inner, hinner, rfl⟩ |
        ⟨origin, old, inner, rfl, hinner, rfl⟩ | ⟨items, last, inner, rfl, -, -, rfl⟩
      -- What stands in a new table was made from an empty one.
      · show at? (next :: path) inner = none
        rw [ih way.origin hinner next path hbelow, at?_nil]
      · exact ih origin hinner next path hbelow
      · rfl

end Members

end ProfileAdmin.Toml
