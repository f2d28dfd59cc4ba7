import ProfileAdmin.Schema.Record
import ProfileAdmin.Proofs.Schema.Meaning

/-!
# Proofs.Schema.Record — what records make of objects

1. **Members under their names**: a name is given by any body that denotes it.
2. **Meanings of fields**: every field looks only at the members of its name.
3. **Reading**: the members are taken up in the order of the text, and what has been met in
   the end is what each field sees by itself.
4. **Writing**: every field that is not left out becomes one member.
5. **The meaning of a record.**
-/

namespace ProfileAdmin.Schema

open Json
open Text.Utf8 (encode)

/-! ## Members under their names -/

/-- The members of an object under their names, if all of these denote texts. -/
def named? (ms : List (Body × Tree)) : Option (List (String × Tree)) :=
  ms.mapM fun m => m.1.text?.map (·, m.2)

/-- What the members give to a name, in their order. -/
def valuesOf (name : String) (named : List (String × Tree)) : List Tree :=
  (named.filter fun m => m.1 = name).map Prod.snd

theorem valuesOf_cons_self (name : String) (tree : Tree) (named : List (String × Tree)) :
    valuesOf name ((name, tree) :: named) = tree :: valuesOf name named := by
  simp [valuesOf]

theorem valuesOf_cons_of_ne {name other : String} (h : other ≠ name) (tree : Tree)
    (named : List (String × Tree)) :
    valuesOf name ((other, tree) :: named) = valuesOf name named := by
  simp [valuesOf, h]

theorem named?_cons (m : Body × Tree) (ms : List (Body × Tree)) :
    named? (m :: ms) =
      m.1.text?.bind fun name => (named? ms).map fun named => (name, m.2) :: named := by
  rw [named?, List.mapM_cons]
  cases m.1.text? with
  | none => rfl
  | some name => cases hrest : named? ms <;> simp_all [named?]

/-- Names that are written for texts denote these. -/
theorem named?_of (named : List (String × Tree)) :
    named? (named.map fun m => (Body.of m.1, m.2)) = some named := by
  induction named with
  | nil => rfl
  | cons m named ih =>
      rw [List.map_cons, named?_cons, text?_of, ih]
      rfl

/-- Members are taken up as their names say. -/
theorem foldlM_takeNamed {σ : Type} (take : String → Tree → σ → Option σ) (ms : List (Body × Tree))
    (acc : σ) :
    ms.foldlM (takeNamed take) acc =
      (named? ms).bind fun named => named.foldlM (fun acc m => take m.1 m.2 acc) acc := by
  induction ms generalizing acc with
  | nil => rfl
  | cons m ms ih =>
      rw [List.foldlM_cons, named?_cons, takeNamed]
      cases m.1.text? with
      | none => rfl
      | some name =>
          rw [Option.bind_some, Option.bind_some, Option.bind_map]
          -- A member that is refused ends both, even if a later name denotes nothing.
          cases htake : take name m.2 acc with
          | none =>
              cases named? ms with
              | none => rfl
              | some named => simp [htake]
          | some acc =>
              refine (ih acc).trans ?_
              cases named? ms with
              | none => rfl
              | some named => simp [htake]

/-! ## Meanings of fields -/

/-- The names of fields. -/
def Fields.names : {types : List Type} → Fields types → List String
  | _, .nil => []
  | _, .cons field rest => field.name :: rest.names

theorem not_mem_names_cons {α : Type} {types : List Type} {field : Field α} {rest : Fields types}
    {name : String} :
    name ∉ Fields.names (.cons field rest) ↔ name ≠ field.name ∧ name ∉ rest.names := by
  simp [Fields.names]

/-- A meaning for each field. No two fields have the same name, and what is left out in
writing is what stands for an absent member. -/
inductive Meanings : {types : List Type} → Fields types → Type 1 where
  | nil : Meanings .nil
  | cons {α : Type} {types : List Type} {field : Field α} {rest : Fields types}
      (m : Meaning field.shape) (omits : ∀ a, field.omitted a = true → field.absent = some a)
      (fresh : field.name ∉ rest.names) (others : Meanings rest) : Meanings (.cons field rest)

variable {types : List Type} {fields : Fields types}

namespace Meanings

/-- A tree is one that the field of a name is spoken of for. -/
def regular : {types : List Type} → {fields : Fields types} → Meanings fields → String → Tree → Prop
  | _, _, .nil, _, _ => True
  | _, .cons field _, .cons m _ _ others, name, tree =>
    (name = field.name → m.regular tree) ∧ others.regular name tree

/-- The greatest height among the fields. -/
def height : {types : List Type} → {fields : Fields types} → Meanings fields → Nat
  | _, _, .nil => 0
  | _, _, .cons m _ _ others => max m.height others.height

/-- What a field makes of all members of its name: there is at most one. -/
def single {α : Type} (absent : Option α) (sense : Tree → Option α) : List Tree → Option α
  | [] => absent
  | [tree] => sense tree
  | _ => none

/-- A row with the value of one more field in front. -/
def front {α : Type} {types : List Type} (a : α) (row : Row types) : Row (α :: types) :=
  (a, row)

/-- What the fields make of members. -/
def row : {types : List Type} → {fields : Fields types} → Meanings fields →
    List (String × Tree) → Option (Row types)
  | _, _, .nil, _ => some ()
  | _, .cons field _, .cons m _ _ others, named =>
    (single field.absent m.sense (valuesOf field.name named)).bind fun a =>
      (others.row named).map (front a)

/-- Members under other names make no difference. -/
theorem row_cons_of_not_mem (ms : Meanings fields) {name : String} (h : name ∉ fields.names)
    (tree : Tree) (named : List (String × Tree)) :
    ms.row ((name, tree) :: named) = ms.row named := by
  induction ms with
  | nil => rfl
  | cons m omits fresh others ih =>
      obtain ⟨hne, hothers⟩ := not_mem_names_cons.mp h
      rw [row, row, valuesOf_cons_of_ne hne, ih hothers]

theorem regular_of_not_mem (ms : Meanings fields) {name : String} (h : name ∉ fields.names)
    (tree : Tree) : ms.regular name tree := by
  induction ms with
  | nil => trivial
  | cons m omits fresh others ih =>
      obtain ⟨hne, hothers⟩ := not_mem_names_cons.mp h
      exact ⟨fun heq => absurd heq hne, ih hothers⟩

/-! ## Reading -/

/-- One member is taken up, if it is a field that has not been met. -/
def take (name : String) (tree : Tree) : {types : List Type} → {fields : Fields types} →
    Meanings fields → Draft types → Option (Draft types)
  | _, _, .nil, () => some ()
  | _, .cons field _, .cons m _ _ others, (met, draft) =>
    if name = field.name then
      if met.isSome then none else (m.sense tree).map fun a => (some a, draft)
    else (others.take name tree draft).map fun draft => (met, draft)

/-- A name that is no field's leaves everything as it is. -/
theorem take_of_not_mem (ms : Meanings fields) {name : String} (h : name ∉ fields.names)
    (tree : Tree) (draft : Draft types) : ms.take name tree draft = some draft := by
  induction ms with
  | nil => rfl
  | cons m omits fresh others ih =>
      obtain ⟨met, draft⟩ := draft
      obtain ⟨hne, hothers⟩ := not_mem_names_cons.mp h
      rw [take, if_neg hne, ih hothers]
      rfl

/-- A draft with what has been met of one more field in front. -/
def also {α : Type} {types : List Type} (met : Option α) (draft : Draft types) :
    Draft (α :: types) :=
  (met, draft)

/-- What one field makes of a member. -/
def meet {α : Type} (sense : Tree → Option α) (met : Option α) (tree : Tree) : Option (Option α) :=
  if met.isSome then none else (sense tree).map some

section

variable {α : Type} {field : Field α} {rest : Fields types} {m : Meaning field.shape}
  {omits : ∀ a, field.omitted a = true → field.absent = some a} {fresh : field.name ∉ rest.names}
  {others : Meanings rest} {name : String} {tree : Tree}

/-- A member of its name goes to the first field. -/
theorem take_cons_self (met : Option α) (draft : Draft types) :
    (cons m omits fresh others).take field.name tree (also met draft) =
      (meet m.sense met tree).map fun met => also met draft := by
  rw [also, take, if_pos rfl, meet]
  by_cases hmet : met.isSome = true
  · rw [if_pos hmet, if_pos hmet]
    rfl
  · rw [if_neg hmet, if_neg hmet]
    cases m.sense tree <;> rfl

/-- A member of another name goes to the other fields. -/
theorem take_cons_of_ne (h : name ≠ field.name) (met : Option α) (draft : Draft types) :
    (cons m omits fresh others).take name tree (also met draft) =
      (others.take name tree draft).map fun draft => also met draft := by
  rw [also, take, if_neg h]
  rfl

/-- A field that has been met is refused, and any other is read behind the colon. -/
theorem step_cons_self (levels : Nat) (met : Option α) (draft : Draft types) :
    Fields.step (.cons field rest) levels field.name (also met draft) =
      if met.isSome then stopLoose (.repeatedMember field.name)
      else (do colon; (fun a => also (some a) draft) <$> field.shape.read levels) := by
  unfold Fields.step
  rw [also, Fields.readMember, if_pos rfl]
  rfl

/-- A field that is not asked for keeps what it has met. -/
theorem outcome_step_of_ne (h : name ≠ field.name) (levels : Nat) (met : Option α)
    (draft : Draft types) (s : List UInt8) :
    outcome (Fields.step (.cons field rest) levels name (also met draft)) s =
      (outcome (rest.step levels name draft) s).map fun x => (also met x.1, x.2) := by
  unfold Fields.step
  rw [also, Fields.readMember, if_neg h]
  -- Some other field reads the value, or it is passed over.
  cases rest.readMember levels name draft with
  | some r =>
      rw [Option.map_some, outcome_bind]
      cases outcome r s <;> rfl
  | none =>
      rw [Option.map_none]
      simp only [outcome_bind]
      cases outcome colon s with
      | none => rfl
      | some x =>
          rw [Option.bind_some, Option.bind_some]
          cases outcome Json.skip x.2 <;> rfl

end

/-- Behind a name, what the fields make of the value is read. -/
theorem behindName_step (ms : Meanings fields) {levels : Nat} (hlevels : ms.height ≤ levels)
    {name : String} {tree : Tree} (hregular : ms.regular name tree) (draft : Draft types) :
    BehindName (fields.step levels name draft) tree (ms.take name tree draft) := by
  -- A name that is not the one of the first field is left to the others.
  induction ms with
  | nil => exact behindName_skip tree draft
  | @cons α types field rest m omits fresh others ih =>
      obtain ⟨met, draft⟩ := draft
      obtain ⟨hm, hothers⟩ := Nat.max_le.mp hlevels
      change BehindName (Fields.step _ _ _ (also met draft)) _ (take _ _ _ (also met draft))
      by_cases hname : name = field.name
      · subst hname
        rw [take_cons_self, step_cons_self, meet]
        -- A field that has been met before refuses the member, and so does its meaning.
        by_cases hmet : met.isSome = true
        · rw [if_pos hmet, if_pos hmet]
          exact fun _ _ _ _ _ _ _ _ => rfl
        · rw [if_neg hmet, if_neg hmet, Option.map_map]
          exact ((m.reads hm (hregular.1 rfl)).map fun a => also (some a) draft).behindName
      · intro bytes gap ahead s hspells hgap hahead hs
        rw [outcome_step_of_ne hname, ih hothers hregular.2 draft bytes gap ahead s hspells hgap
          hahead hs, take_cons_of_ne hname, Option.map_map, Option.map_map]
        rfl

/-- Each field takes up the members of its name, and leaves the others alone. -/
theorem foldlM_take_cons {α : Type} {field : Field α} {rest : Fields types}
    (m : Meaning field.shape) (omits : ∀ a, field.omitted a = true → field.absent = some a)
    (fresh : field.name ∉ rest.names) (others : Meanings rest) (named : List (String × Tree))
    (met : Option α) (draft : Draft types) :
    named.foldlM (fun d n => (cons m omits fresh others).take n.1 n.2 d) (also met draft) =
      ((valuesOf field.name named).foldlM (meet m.sense) met).bind fun met =>
        (named.foldlM (fun d n => others.take n.1 n.2 d) draft).map (also met) := by
  induction named generalizing met draft with
  | nil => rfl
  | cons n named ih =>
      obtain ⟨name, tree⟩ := n
      rw [List.foldlM_cons, List.foldlM_cons]
      by_cases hname : name = field.name
      · -- The name is fresh, so no other field takes the member up.
        subst hname
        rw [valuesOf_cons_self, List.foldlM_cons, others.take_of_not_mem fresh, take_cons_self]
        cases meet m.sense met tree with
        | none => rfl
        | some met => exact ih met draft
      · rw [valuesOf_cons_of_ne hname, take_cons_of_ne hname]
        cases others.take name tree draft with
        | none => cases List.foldlM (meet m.sense) met (valuesOf field.name named) <;> rfl
        | some draft => exact ih met draft

/-- With the fallback for an absent member, this is what the field makes of all of them. -/
theorem foldlM_meet {α : Type} (absent : Option α) (sense : Tree → Option α) (trees : List Tree) :
    (trees.foldlM (meet sense) none).bind (fun met => met <|> absent) =
      single absent sense trees := by
  -- A second member of the name is refused, whatever it is.
  cases trees with
  | nil => cases absent <;> rfl
  | cons tree trees =>
      rw [List.foldlM_cons]
      have hfirst : meet sense none tree = (sense tree).map some := rfl
      rw [hfirst]
      cases trees with
      | nil => cases hsense : sense tree <;> simp [single, hsense]
      | cons next trees =>
          cases sense tree with
          | none => rfl
          | some a => rfl

/-- A field is complete if it has been met or has a fallback. -/
theorem toOption_complete_cons {α : Type} {field : Field α} {rest : Fields types}
    (met : Option α) (draft : Draft types) :
    (Fields.complete (.cons field rest) (also met draft)).toOption =
      (met <|> field.absent).bind fun a =>
        (rest.complete draft).toOption.map (front a) := by
  rw [also, Fields.complete]
  cases met <|> field.absent with
  | none => rfl
  | some a => cases rest.complete draft <;> rfl

/-- The members are taken up one by one, and in the end each field has seen its own. -/
theorem bind_complete (ms : Meanings fields) (named : List (String × Tree)) :
    (named.foldlM (fun d n => ms.take n.1 n.2 d) fields.blank).bind
        (fun draft => (fields.complete draft).toOption) = ms.row named := by
  induction ms with
  | nil =>
      -- Without fields, members come and go.
      have hkeep : named.foldlM (fun d n => nil.take n.1 n.2 d) Fields.nil.blank = some () := by
        induction named with
        | nil => rfl
        | cons n named ih => exact ih
      rw [hkeep]
      rfl
  | @cons α types field rest m omits fresh others ih =>
      have hblank : Fields.blank (.cons field rest) = also none rest.blank := rfl
      -- What the first field has seen is parted from what the others have.
      rw [hblank, foldlM_take_cons, row, ← foldlM_meet, ← ih, Option.bind_assoc, Option.bind_assoc]
      refine congrArg _ (funext fun met => ?_)
      cases named.foldlM (fun d n => others.take n.1 n.2 d) rest.blank with
      | none => cases met <|> field.absent <;> rfl
      | some draft => exact toOption_complete_cons met draft

end Meanings

/-! ## Writing -/

/-- A member that is written. -/
structure Entry where
  name : String
  tree : Tree
  chars : List Char

/-- The member of an entry. -/
def Entry.member (e : Entry) : Member :=
  .tight e.name e.tree (encode e.chars)

/-- What is written is found under the name that it was written with. -/
theorem named?_entries (es : List Entry) :
    named? ((es.map Entry.member).map Member.pair) = some (es.map fun e => (e.name, e.tree)) := by
  rw [List.map_map, ← named?_of, List.map_map]
  rfl

/-- Entries spell the object of their members, if each spells its own tree. -/
theorem spells_object_entries (es : List Entry) (h : ∀ e ∈ es, Spells e.tree (encode e.chars)) :
    Spells (.object ((es.map Entry.member).map Member.pair))
      (encode (writeObject (es.map fun e => writeMember e.name e.chars))) := by
  refine spells_writeObject _ _ ?_ ?_ ?_
  · rw [List.map_map, List.map_map]
    exact List.map_congr_left fun e _ => Member.written_tight e.name e.tree e.chars
  · exact List.forall_mem_map.mpr fun e _ => Member.clear_tight _ _ _
  · exact List.forall_mem_map.mpr h

theorem valuesOf_of_not_mem {name : String} {es : List Entry} (h : ∀ e ∈ es, e.name ≠ name) :
    valuesOf name (es.map fun e => (e.name, e.tree)) = [] := by
  induction es with
  | nil => rfl
  | cons e es ih =>
      obtain ⟨he, hes⟩ := List.forall_mem_cons.mp h
      rw [List.map_cons, valuesOf_cons_of_ne he, ih hes]

namespace Meanings

/-- The members that are written for a row: those of the fields that are not left out. -/
def entries : {types : List Type} → {fields : Fields types} → Meanings fields → Row types →
    List Entry
  | _, _, .nil, () => []
  | _, .cons field _, .cons m _ _ others, (a, row) =>
    let rest := others.entries row
    if field.omitted a then rest else ⟨field.name, m.tree a, field.shape.write a⟩ :: rest

/-- The texts that are written for a row are those of its entries. -/
theorem written_eq (ms : Meanings fields) (row : Row types) :
    fields.written row = (ms.entries row).map fun e => writeMember e.name e.chars := by
  induction ms with
  | nil => rfl
  | cons m omits fresh others ih =>
      obtain ⟨a, row⟩ := row
      rw [Fields.written, entries]
      split
      · exact ih row
      · exact congrArg _ (ih row)

/-- An entry has the name of a field. -/
theorem name_mem_names (ms : Meanings fields) (row : Row types) :
    ∀ e ∈ ms.entries row, e.name ∈ fields.names := by
  induction ms with
  | nil => exact fun e he => absurd he List.not_mem_nil
  | cons m omits fresh others ih =>
      obtain ⟨a, row⟩ := row
      rw [entries]
      split
      · exact fun e he => List.mem_cons_of_mem _ (ih row e he)
      · refine List.forall_mem_cons.mpr ⟨List.mem_cons_self, fun e he => ?_⟩
        exact List.mem_cons_of_mem _ (ih row e he)

/-- The text of an entry spells its tree. -/
theorem spells_entries (ms : Meanings fields) (row : Row types) :
    ∀ e ∈ ms.entries row, Spells e.tree (encode e.chars) := by
  induction ms with
  | nil => exact fun e he => absurd he List.not_mem_nil
  | cons m omits fresh others ih =>
      obtain ⟨a, row⟩ := row
      rw [entries]
      split
      · exact ih row
      · exact List.forall_mem_cons.mpr ⟨m.spells a, ih row⟩

/-- The trees that are written are trees that the fields are spoken of for. -/
theorem regular_entries (ms : Meanings fields) (row : Row types) :
    ∀ e ∈ ms.entries row, ms.regular e.name e.tree := by
  induction ms with
  | nil => exact fun e he => absurd he List.not_mem_nil
  | @cons α types field rest m omits fresh others ih =>
      obtain ⟨a, row⟩ := row
      have hothers : ∀ e ∈ others.entries row,
          (cons m omits fresh others).regular e.name e.tree := by
        intro e he
        have hmem := others.name_mem_names row e he
        exact ⟨fun heq => absurd (heq ▸ hmem) fresh, ih row e he⟩
      rw [entries]
      split
      · exact hothers
      · refine List.forall_mem_cons.mpr ⟨⟨fun _ => m.regular_tree a, ?_⟩, hothers⟩
        exact others.regular_of_not_mem fresh _

/-- The members that are written for a row give it back. -/
theorem row_entries (ms : Meanings fields) (row : Row types) :
    ms.row ((ms.entries row).map fun e => (e.name, e.tree)) = some row := by
  induction ms with
  | nil => rfl
  | @cons α types field rest m omits fresh others ih =>
      obtain ⟨a, row⟩ := row
      -- None of the other entries has the name of this field.
      have hnone : valuesOf field.name ((others.entries row).map fun e => (e.name, e.tree)) = [] :=
        valuesOf_of_not_mem fun e he heq => fresh (heq ▸ others.name_mem_names row e he)
      rw [entries, Meanings.row]
      by_cases homitted : field.omitted a = true
      · rw [if_pos homitted, hnone, ih row, single, omits a homitted]
        rfl
      · rw [if_neg homitted, List.map_cons, valuesOf_cons_self, hnone,
          others.row_cons_of_not_mem fresh, ih row, single, m.sense_tree]
        rfl

end Meanings

/-! ## The meaning of a record -/

namespace Meanings

section

variable {α : Type} {name : String} {s : Shape α} {rest : Fields types}

/-- A member that has to be there. -/
def required (m : Meaning s) (others : Meanings rest) (fresh : name ∉ rest.names := by decide) :
    Meanings (.cons (Schema.required name s) rest) :=
  .cons m (fun _ h => nomatch h) fresh others

/-- A member with a fallback that is always written. -/
def defaulted {absent : α} (m : Meaning s) (others : Meanings rest)
    (fresh : name ∉ rest.names := by decide) :
    Meanings (.cons (Schema.defaulted name s absent) rest) :=
  .cons m (fun _ h => nomatch h) fresh others

/-- A text that is not written when it is empty. -/
def nonEmptyText (others : Meanings rest) (fresh : name ∉ rest.names := by decide) :
    Meanings (.cons (Schema.nonEmptyText name) rest) :=
  .cons (.textAs _) (fun _ h => congrArg some (String.isEmpty_iff.mp h).symm) fresh others

/-- A member that is not written when there is no value. -/
def possible (m : Meaning s) (others : Meanings rest)
    (hnull : ∀ a, m.tree a ≠ .null := by exact fun _ h => nomatch h)
    (fresh : name ∉ rest.names := by decide) :
    Meanings (.cons (Schema.possible name s) rest) :=
  .cons (m.optional hnull) (fun _ h => congrArg some (Option.isNone_iff_eq_none.mp h).symm) fresh
    others

end

end Meanings

/-- What a record makes of a tree. -/
def recordSense (ms : Meanings fields) : Tree → Option (Row types)
  | .object members => (named? members).bind ms.row
  | _ => none

/-- All members are read. -/
theorem outcome_readMembers (ms : Meanings fields) {levels : Nat} (hlevels : ms.height ≤ levels)
    {members : List (Body × Tree)}
    (hregular : ∀ m ∈ members, ∀ name, m.1.text? = some name → ms.regular name m.2)
    {rest : List UInt8} (hspells : Spells (.object members) (0x7B :: rest)) :
    ∃ inner, rest = inner ++ [0x7D] ∧ ∀ s,
      outcome (fields.readMembers levels) (inner ++ 0x7D :: s) =
        (recordSense ms (.object members)).map (·, 0x7D :: s) := by
  obtain ⟨inner, hrest, hmembers⟩ := outcome_members_inner hspells
  refine ⟨inner, hrest, fun s => ?_⟩
  have hsteps : ∀ m ∈ members,
      Steps (fields.step levels) (fun name tree draft => ms.take name tree draft) m :=
    fun m hm name hname draft => ms.behindName_step hlevels (hregular m hm name hname) draft
  -- What the members leave behind when they are taken up, completed, is what the record makes of
  -- them.
  have hrow : recordSense ms (.object members) =
      (members.foldlM (takeNamed fun name tree draft => ms.take name tree draft) fields.blank).bind
        fun draft => (fields.complete draft).toOption := by
    rw [foldlM_takeNamed, Option.bind_assoc]
    exact congrArg ((named? members).bind ·) (funext fun named => (ms.bind_complete named).symm)
  unfold Fields.readMembers
  rw [outcome_bind, hmembers fields.blank s hsteps, hrow]
  cases members.foldlM (takeNamed fun name tree draft => ms.take name tree draft) fields.blank with
  | none => rfl
  | some draft =>
      rw [Option.map_some, Option.bind_some, Option.bind_some]
      cases fields.complete draft <;> rfl

/-- Records. -/
def Meaning.record (title : String) (ms : Meanings fields) :
    Meaning (Schema.record title fields) where
  regular tree := (∀ items, tree ≠ .list items) ∧
    ∀ members, tree = .object members →
      ∀ m ∈ members, ∀ name, m.1.text? = some name → ms.regular name m.2
  sense := recordSense ms
  height := ms.height + 1
  reads := by
    intro levels hlevels tree hregular
    obtain ⟨levels, rfl⟩ := Nat.exists_eq_add_one_of_ne_zero (Nat.ne_zero_of_lt hlevels)
    refine readsAs_peekValue fun b rest t hopens hspells _ => ?_
    cases tree with
    | list items => exact absurd rfl (hregular.1 items)
    | object members =>
        obtain rfl := hopens
        rw [if_neg (by decide), if_pos rfl]
        obtain ⟨inner, rfl, hread⟩ := outcome_readMembers ms (Nat.le_of_succ_le_succ hlevels)
          (hregular.2 members rfl) hspells
        rw [List.append_assoc]
        exact outcome_bracketed .object (hread t)
    | null | flag v | number | text body =>
        rw [if_neg (hopens.ne (by simp [Tree.kind, kindOf])),
          if_neg (hopens.ne (by simp [Tree.kind, kindOf])), outcome_unexpected]
        rfl
  tree row := .object (((ms.entries row).map Entry.member).map Member.pair)
  spells row := by
    have h := spells_object_entries (ms.entries row) (ms.spells_entries row)
    rwa [← ms.written_eq] at h
  regular_tree row := by
    refine And.intro (fun items h => nomatch h) fun members hmembers => ?_
    obtain rfl := Tree.object.inj hmembers
    refine List.forall_mem_map.mpr (List.forall_mem_map.mpr fun e he name hname => ?_)
    obtain rfl : e.name = name := Option.some.inj ((text?_of e.name).symm.trans hname)
    exact ms.regular_entries row e he
  sense_tree row := by
    rw [recordSense, named?_entries, Option.bind_some, ms.row_entries]

end ProfileAdmin.Schema
