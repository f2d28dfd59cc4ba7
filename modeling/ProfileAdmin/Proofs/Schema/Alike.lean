import ProfileAdmin.Proofs.Schema.Record

/-!
# Proofs.Schema.Alike — what makes no difference to a meaning

1. **Alike trees** differ in how their texts and names are written, and in the order of the
   members of their objects, at any depth.
2. **Stable meanings** make the same of alike trees: basic shapes, and the members of one name.
3. **Members in another order.**
4. **Records** are stable if their fields are.
-/

namespace ProfileAdmin.Schema

open Json

/-! ## Alike trees -/

/-- The same but for the writing of texts and the order of members. -/
inductive Alike : Tree → Tree → Prop where
  | refl (tree : Tree) : Alike tree tree
  | trans {first second third : Tree} (h : Alike first second) (h' : Alike second third) :
      Alike first third
  | text {body body' : Body} (h : body.text? = body'.text?) : Alike (.text body) (.text body')
  | item (before after : List Tree) {tree tree' : Tree} (h : Alike tree tree') :
      Alike (.list (before ++ tree :: after)) (.list (before ++ tree' :: after))
  | member (before after : List (Body × Tree)) {name name' : Body} {tree tree' : Tree}
      (hname : name.text? = name'.text?) (h : Alike tree tree') :
      Alike (.object (before ++ (name, tree) :: after))
        (.object (before ++ (name', tree') :: after))
  | order {ms ms' : List (Body × Tree)} (h : ms.Perm ms') : Alike (.object ms) (.object ms')

/-- Alike trees are of one kind. -/
theorem Alike.kind_eq {tree tree' : Tree} (h : Alike tree tree') : tree.kind = tree'.kind := by
  induction h with
  | refl tree => rfl
  | trans h h' ih ih' => exact ih.trans ih'
  | text h | item before after h | member before after hname h | order h => rfl

/-! ## Stable meanings -/

variable {α β : Type} {s : Shape α} {m : Meaning s} {sense : Tree → Option α}

/-- The same is made of alike trees. -/
def Meaning.Stable (m : Meaning s) : Prop :=
  ∀ tree tree', Alike tree tree' → m.sense tree = m.sense tree'

/-- A text is known by what it denotes, and not by how it is written. -/
theorem stable_text : Meaning.text.Stable := by
  intro tree tree' h
  induction h with
  | refl tree => rfl
  | trans h h' ih ih' => exact ih.trans ih'
  | text h => exact h
  | item before after h | member before after hname h | order h => rfl

theorem stable_flag : Meaning.flag.Stable := by
  intro tree tree' h
  induction h with
  | refl tree => rfl
  | trans h h' ih ih' => exact ih.trans ih'
  | text h | item before after h | member before after hname h | order h => rfl

/-- Lists are stable if their items are. -/
theorem Meaning.Stable.list (hm : m.Stable) : m.list.Stable := by
  intro tree tree' h
  induction h with
  | refl tree => rfl
  | trans h h' ih ih' => exact ih.trans ih'
  | item before after h =>
      simp only [Meaning.list, listSense, List.mapM_append, List.mapM_cons, hm _ _ h]
  | text h | member before after hname h | order h => rfl

/-- Being null makes no difference to alikeness, as only null is alike to it. -/
theorem Meaning.Stable.optional (hm : m.Stable) (hnull : ∀ a, m.tree a ≠ .null) :
    (m.optional hnull).Stable := by
  intro tree tree' h
  induction h with
  | refl tree => rfl
  | trans h h' ih ih' => exact ih.trans ih'
  | text h => exact congrArg (Option.map some) (hm _ _ (.text h))
  | item before after h => exact congrArg (Option.map some) (hm _ _ (.item before after h))
  | member before after hname h =>
      exact congrArg (Option.map some) (hm _ _ (.member before after hname h))
  | order h => exact congrArg (Option.map some) (hm _ _ (.order h))

theorem Meaning.Stable.map (hm : m.Stable) {into : α → β} {back : β → α}
    (h : ∀ b, into (back b) = b) : (m.map into back h).Stable :=
  fun _ _ halike => congrArg (Option.map into) (hm _ _ halike)

/-- Of the members of one name, each may be replaced by one that makes the same sense. -/
theorem single_congr {absent : Option α} {tree tree' : Tree} (h : sense tree = sense tree')
    (before after : List Tree) :
    Meanings.single absent sense (before ++ tree :: after) =
      Meanings.single absent sense (before ++ tree' :: after) := by
  cases before with
  | nil => cases after <;> simp [Meanings.single, h]
  | cons first before => cases before <;> simp [Meanings.single]

/-- What is made of the members of one name does not depend on their order. -/
theorem single_perm {absent : Option α} {trees trees' : List Tree} (h : trees.Perm trees') :
    Meanings.single absent sense trees = Meanings.single absent sense trees' := by
  match trees, trees', h with
  | [], _, h => rw [List.nil_perm.mp h]
  | [tree], _, h => rw [List.singleton_perm.mp h]
  | first :: second :: rest, [], h => exact absurd h.length_eq (by simp)
  | first :: second :: rest, [tree], h => exact absurd h.length_eq (by simp)
  | _ :: _ :: _, _ :: _ :: _, _ => rfl

/-! ## Members in another order -/

theorem valuesOf_append (name : String) (named named' : List (String × Tree)) :
    valuesOf name (named ++ named') = valuesOf name named ++ valuesOf name named' := by
  simp [valuesOf]

theorem valuesOf_perm (name : String) {named named' : List (String × Tree)}
    (h : named.Perm named') : (valuesOf name named).Perm (valuesOf name named') :=
  (h.filter _).map _

theorem named?_append (ms ms' : List (Body × Tree)) :
    named? (ms ++ ms') =
      (named? ms).bind fun named => (named? ms').map fun named' => named ++ named' := by
  unfold named?
  rw [List.mapM_append]
  cases List.mapM (fun m : Body × Tree => m.1.text?.map (·, m.2)) ms with
  | none => rfl
  | some named =>
      cases List.mapM (fun m : Body × Tree => m.1.text?.map (·, m.2)) ms' <;> rfl

/-- Members in another order have their names in another order. -/
theorem exists_named_of_perm {ms ms' : List (Body × Tree)} (h : ms.Perm ms')
    {named : List (String × Tree)} (hnamed : named? ms = some named) :
    ∃ named', named? ms' = some named' ∧ named.Perm named' := by
  -- The names are found along the exchanges that lead from one order to the other.
  induction h generalizing named with
  | nil => exact ⟨named, hnamed, .refl _⟩
  | cons m h ih =>
      rw [named?_cons, Option.bind_eq_some_iff] at hnamed
      obtain ⟨name, hname, hrest⟩ := hnamed
      obtain ⟨others, hothers, rfl⟩ := Option.map_eq_some_iff.mp hrest
      obtain ⟨others', hothers', hperm⟩ := ih hothers
      exact ⟨(name, m.2) :: others', by rw [named?_cons, hname, hothers']; rfl, hperm.cons _⟩
  | swap m n ms =>
      simp only [named?_cons, Option.bind_eq_some_iff, Option.map_eq_some_iff] at hnamed
      obtain ⟨name, hname, _, ⟨other, hother, named, hms, rfl⟩, rfl⟩ := hnamed
      exact ⟨(other, m.2) :: (name, n.2) :: named,
        by simp [named?_cons, hname, hother, hms], .swap _ _ _⟩
  | trans h h' ih ih' =>
      obtain ⟨named', hnamed', hperm⟩ := ih hnamed
      obtain ⟨named'', hnamed'', hperm'⟩ := ih' hnamed'
      exact ⟨named'', hnamed'', hperm.trans hperm'⟩

/-! ## Records -/

variable {types : List Type} {fields : Fields types}

namespace Meanings

/-- All fields are stable. -/
def AllStable : {types : List Type} → {fields : Fields types} → Meanings fields → Prop
  | _, _, .nil => True
  | _, _, .cons m _ _ others => m.Stable ∧ others.AllStable

/-- A field looks at the members of its name only, so the order among all of them is of no account.
-/
theorem row_perm (ms : Meanings fields) {named named' : List (String × Tree)}
    (h : named.Perm named') : ms.row named = ms.row named' := by
  induction ms with
  | nil => rfl
  | cons m omits fresh others ih => rw [row, row, single_perm (valuesOf_perm _ h), ih]

/-- One member may be replaced by an alike one. -/
theorem row_congr (ms : Meanings fields) (hstable : ms.AllStable) {tree tree' : Tree}
    (h : Alike tree tree') (name : String) (before after : List (String × Tree)) :
    ms.row (before ++ (name, tree) :: after) = ms.row (before ++ (name, tree') :: after) := by
  induction ms with
  | nil => rfl
  | @cons α types field rest m omits fresh others ih =>
      have hsingle : single field.absent m.sense
            (valuesOf field.name (before ++ (name, tree) :: after)) =
          single field.absent m.sense
            (valuesOf field.name (before ++ (name, tree') :: after)) := by
        rw [valuesOf_append, valuesOf_append]
        -- The field of the name sees the replacement, and the others see nothing of it.
        by_cases hname : name = field.name
        · subst hname
          rw [valuesOf_cons_self, valuesOf_cons_self]
          exact single_congr (hstable.1 _ _ h) _ _
        · rw [valuesOf_cons_of_ne hname, valuesOf_cons_of_ne hname]
      rw [row, row, hsingle, ih hstable.2]

end Meanings

/-- A record is stable if its fields are. -/
theorem Meaning.Stable.record {title : String} {ms : Meanings fields} (hstable : ms.AllStable) :
    (Meaning.record title ms).Stable := by
  intro tree tree' h
  change recordSense ms tree = recordSense ms tree'
  induction h with
  | refl tree => rfl
  | trans h h' ih ih' => exact ih.trans ih'
  | text h | item before after h => rfl
  | @member before after name name' tree tree' hname h =>
      rw [recordSense, recordSense, named?_append, named?_append, named?_cons, named?_cons, hname]
      cases named? before with
      | none => rfl
      | some front =>
          cases hdenoted : name'.text? with
          | none => rfl
          | some n =>
              cases named? after with
              | none => rfl
              | some rest => simpa [hdenoted] using ms.row_congr hstable h n front rest
  | @order members members' h =>
      rw [recordSense, recordSense]
      cases hnamed : named? members with
      | some named =>
          -- If the names are known in one order they are known in the other, and conversely.
          obtain ⟨named', hnamed', hperm⟩ := exists_named_of_perm h hnamed
          rw [hnamed', Option.bind_some, Option.bind_some, ms.row_perm hperm]
      | none =>
          cases hnamed' : named? members' with
          | none => rfl
          | some named' =>
              obtain ⟨named, hsome, -⟩ := exists_named_of_perm h.symm hnamed'
              rw [hnamed] at hsome
              cases hsome

end ProfileAdmin.Schema
