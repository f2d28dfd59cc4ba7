import ProfileAdmin.Proofs.Toml.Edits

/-!
# Proofs.Toml.Shape — what every edit leaves as it is

1. **Tables that stay**: a table that is there stays one, and where nothing else than a table stands
   nothing else is put from below.
2. **Keys**: none comes to stand twice in one table.
3. **Values** under a new key of a table that is there are accepted.
-/

namespace ProfileAdmin.Toml

open Document (Value)

variable {key k : String} {path : List String} {ms ms' : Members} {moves : Bool}
  {change : Option Node → Option Node} {g : Members → Option Members}

namespace Members

/-! ## Tables that stay -/

/-- Tables lead to a path, and one stands there. -/
def Room : List String → Members → Prop
  | [], _ => True
  | key :: path, ms =>
    ∃ origin inner, get? key ms = some (.table origin inner) ∧ Room path inner

/-- A table under another key stays as it is. -/
theorem room_alterBy? (hdone : alterBy? moves key change ms = some ms')
    (hroom : Room (k :: path) ms)
    (hinner : ∀ origin old new, change (some (.table origin old)) = some new → Room path old →
      ∃ origin inner, new = .table origin inner ∧ Room path inner) : Room (k :: path) ms' := by
  obtain ⟨new, hnew, rfl⟩ := Option.map_eq_some_iff.mp hdone
  obtain ⟨origin, old, hget, hold⟩ := hroom
  by_cases hk : key = k
  · subst hk
    rw [hget] at hnew
    obtain ⟨origin', inner, rfl, hroom⟩ := hinner origin old new hnew hold
    exact ⟨origin', inner, get?_placed_self moves key _ ms, hroom⟩
  · refine ⟨origin, old, ?_, hold⟩
    rw [get?_placed_of_ne (Ne.symm hk), hget]

/-- A table stays a table. -/
theorem room_edit {place : List String} (hedit : Edit place g) (hroom : Room path ms)
    (hdone : g ms = some ms') : Room path ms' := by
  -- What becomes of a table at the key is looked at; the rest of the path is the induction.
  induction hedit generalizing path ms ms' with
  | refused => exact nomatch hdone
  | table key =>
      cases path with
      | nil => trivial
      | cons k path =>
          refine room_alterBy? hdone hroom fun origin old new hnew hold => ?_
          rcases Node.opened?_cases hnew with ⟨heq, -⟩ | ⟨inner, heq, rfl⟩
          · exact nomatch heq
          · cases heq
            exact ⟨.opened, old, rfl, hold⟩
  | item key =>
      cases path with
      | nil => trivial
      | cons k path =>
          refine room_alterBy? hdone hroom fun origin old new hnew hold => ?_
          rcases Node.extended?_cases hnew with ⟨heq, -⟩ | ⟨items, heq, -⟩ <;> exact nomatch heq
  | value key v =>
      cases path with
      | nil => trivial
      | cons k path =>
          refine room_alterBy? hdone hroom fun origin old new hnew hold => ?_
          exact nomatch (Node.given?_cases hnew).1
  | @through way key place inside _ ih =>
      cases path with
      | nil => trivial
      | cons k path =>
          refine room_alterBy? hdone hroom fun origin old new hnew hold => ?_
          rcases Node.through?_cases hnew with ⟨heq, -⟩ | ⟨origin', old', inner, heq, hinner, rfl⟩ |
            ⟨items, last, inner, heq, -⟩
          · exact nomatch heq
          · cases heq
            exact ⟨origin, inner, rfl, ih origin hold hinner⟩
          · exact nomatch heq

/-- If something stands under a key it is a table. -/
def OnlyTable (key : String) (ms : Members) : Prop :=
  ∀ node, get? key ms = some node → ∃ origin inner, node = .table origin inner

/-- What stands under another key stays there. -/
theorem onlyTable_alterBy? (hdone : alterBy? moves key change ms = some ms')
    (honly : OnlyTable k ms)
    (hinner : key = k → ∀ o new, change o = some new →
      (∀ node, o = some node → ∃ origin inner, node = Node.table origin inner) →
        ∃ origin inner, new = .table origin inner) : OnlyTable k ms' := by
  obtain ⟨new, hnew, rfl⟩ := Option.map_eq_some_iff.mp hdone
  intro node hnode
  by_cases hk : key = k
  · subst hk
    rw [get?_placed_self] at hnode
    rw [← Option.some.inj hnode]
    exact hinner rfl _ new hnew honly
  · rw [get?_placed_of_ne (Ne.symm hk)] at hnode
    exact honly node hnode

/-- Only at its own place can an edit put something else than a table. -/
theorem onlyTable_edit {place : List String} (hedit : Edit place g) (h : place ≠ [k])
    (honly : OnlyTable k ms) (hdone : g ms = some ms') : OnlyTable k ms' := by
  cases hedit with
  | refused => exact nomatch hdone
  | table key | item key | value key v =>
      refine onlyTable_alterBy? hdone honly fun hk => ?_
      exact absurd (by rw [hk]) h
  | through way key =>
      refine onlyTable_alterBy? hdone honly fun hk o new hnew hold => ?_
      -- Whatever is on the way to another place is a table.
      rcases Node.through?_cases hnew with ⟨-, inner, -, rfl⟩ | ⟨origin, old, inner, -, -, rfl⟩ |
        ⟨items, last, inner, rfl, -⟩
      · exact ⟨way.origin, inner, rfl⟩
      · exact ⟨origin, inner, rfl⟩
      · obtain ⟨origin, inner, heq⟩ := hold _ rfl
        exact nomatch heq

/-- The header of a table. -/
theorem room_openTable? (hdone : openTable? key ms = some ms') :
    Room [key] ms' ∧ OnlyTable key ms' := by
  rw [openTable?_eq] at hdone
  obtain ⟨new, hnew, rfl⟩ := Option.map_eq_some_iff.mp hdone
  obtain ⟨origin, inner, rfl⟩ : ∃ origin inner, new = .table origin inner := by
    rcases Node.opened?_cases hnew with ⟨-, rfl⟩ | ⟨inner, -, rfl⟩
    · exact ⟨.opened, [], rfl⟩
    · exact ⟨.opened, inner, rfl⟩
  refine ⟨⟨origin, inner, get?_placed_self true key _ ms, trivial⟩, fun node hnode => ?_⟩
  rw [get?_placed_self] at hnode
  exact ⟨origin, inner, (Option.some.inj hnode).symm⟩

/-! ## Keys -/

/-- If the new node is tidy, so is the table that it is put in. -/
theorem tidy_alterBy? (hdone : alterBy? moves key change ms = some ms') (htidy : Tidy ms)
    (hinner : ∀ o new, change o = some new → (∀ node, o = some node → node.Tidy) → new.Tidy) :
    Tidy ms' := by
  obtain ⟨new, hnew, rfl⟩ := Option.map_eq_some_iff.mp hdone
  exact htidy.placed (hinner _ new hnew fun node hget => htidy.get? hget) moves key

/-- No edit puts a key twice. -/
theorem tidy_edit {place : List String} (hedit : Edit place g) (htidy : Tidy ms)
    (hdone : g ms = some ms') : Tidy ms' := by
  induction hedit generalizing ms ms' with
  | refused => exact nomatch hdone
  | table key =>
      refine tidy_alterBy? hdone htidy fun o new hnew hold => ?_
      rcases Node.opened?_cases hnew with ⟨-, rfl⟩ | ⟨inner, rfl, rfl⟩
      · exact Node.Tidy.table tidy_nil.names tidy_nil.nodes
      -- What is in the table stays there, under the same keys.
      · cases hold _ rfl with
        | table hnames hnodes => exact Node.Tidy.table hnames hnodes
  | item key =>
      refine tidy_alterBy? hdone htidy fun o new hnew hold => ?_
      have hsingle : ∀ inner ∈ ([[]] : List Members), Tidy inner := by
        intro inner hin
        rw [List.mem_singleton.mp hin]
        exact tidy_nil
      rcases Node.extended?_cases hnew with ⟨-, rfl⟩ | ⟨items, rfl, rfl⟩
      · exact Node.Tidy.tables (fun inner hin => (hsingle inner hin).names)
          fun inner hin => (hsingle inner hin).nodes
      · cases hold _ rfl with
        | tables hnames hnodes =>
            have hall : ∀ inner ∈ items ++ [[]], Tidy inner := by
              intro inner hin
              rcases List.mem_append.mp hin with hin | hin
              · exact ⟨hnames inner hin, hnodes inner hin⟩
              · exact hsingle inner hin
            exact Node.Tidy.tables (fun inner hin => (hall inner hin).names)
              fun inner hin => (hall inner hin).nodes
  | value key v =>
      refine tidy_alterBy? hdone htidy fun o new hnew _ => ?_
      rw [(Node.given?_cases hnew).2]
      exact Node.Tidy.value v
  | @through way key place inside _ ih =>
      refine tidy_alterBy? hdone htidy fun o new hnew hold => ?_
      rcases Node.through?_cases hnew with ⟨-, inner, hinner, rfl⟩ |
        ⟨origin, old, inner, rfl, hinner, rfl⟩ | ⟨items, last, inner, rfl, hlast, hinner, rfl⟩
      · have hnew := ih way.origin tidy_nil hinner
        exact Node.Tidy.table hnew.names hnew.nodes
      · cases hold _ rfl with
        | table hnames hnodes =>
            have hnew := ih origin ⟨hnames, hnodes⟩ hinner
            exact Node.Tidy.table hnew.names hnew.nodes
      · cases hold _ rfl with
        | tables hnames hnodes =>
            have hmem : last ∈ items := List.mem_of_getLast? hlast
            have hnew := ih .opened ⟨hnames last hmem, hnodes last hmem⟩ hinner
            -- Only the last table of the list is another one.
            have hall : ∀ table ∈ items.dropLast ++ [inner], Tidy table := by
              intro table hin
              rcases List.mem_append.mp hin with hin | hin
              · have hin := List.dropLast_subset items hin
                exact ⟨hnames table hin, hnodes table hin⟩
              · rw [List.mem_singleton.mp hin]
                exact hnew
            exact Node.Tidy.tables (fun table hin => (hall table hin).names)
              fun table hin => (hall table hin).nodes

/-! ## Values -/

/-- A value is accepted under a new key of a table that is there. It stands there then, and
nothing else is different. -/
theorem exists_put (v : Value) (origin : Origin) (hroom : Room path ms)
    (hfresh : at? (path ++ [key]) ms = none) :
    ∃ ms', within? .header (fun _ => putAt? [] key v) path origin ms = some ms' ∧
      at? (path ++ [key]) ms' = some (.value v) ∧
        ms'.without (path ++ [key]) = ms.without (path ++ [key]) := by
  -- Along the path, so that each table on the way is put back with the one below changed.
  induction path generalizing ms origin with
  | nil =>
      rw [List.nil_append, at?_single] at hfresh
      refine ⟨set key (.value v) ms, ?_, ?_, ?_⟩
      · show put? key v ms = _
        rw [put?_eq, alterBy?, hfresh]
        rfl
      · rw [List.nil_append, at?_single, get?_set_self]
      · rw [List.nil_append, without_single, without_single, adjust_none_set]
  | cons k path ih =>
      obtain ⟨origin', inner, hget, hinner⟩ := hroom
      have hpath : path ++ [key] ≠ [] :=
        List.append_ne_nil_of_right_ne_nil path (List.cons_ne_nil key [])
      rw [List.cons_append, at?_cons hpath, hget] at hfresh
      obtain ⟨new, hdone, hthere, hsame⟩ := ih origin' hinner hfresh
      refine ⟨set k (.table origin' new) ms, ?_, ?_, ?_⟩
      · rw [within?_cons, alterBy?, hget]
        show Option.map _ (Option.map _ _) = _
        rw [hdone]
        rfl
      · rw [List.cons_append, at?_cons hpath, get?_set_self]
        exact hthere
      · rw [List.cons_append, without_cons hpath, without_cons hpath, adjust_set_self]
        refine set_of_get? ?_
        rw [get?_adjust_self, hget]
        exact congrArg (fun inner => some (Node.table origin' inner)) hsame.symm

end Members

end ProfileAdmin.Toml
