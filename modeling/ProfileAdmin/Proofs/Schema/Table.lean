import ProfileAdmin.Proofs.Schema.Record

/-!
# Proofs.Schema.Table — what records make of tables

1. **Look-up**: every field takes what stands under its name, or its fallback.
2. **Reading**: the members of a table are taken up in any order. If no name stands twice, neither
   among them nor among the fields, the row is what looking up the names gives.
-/

namespace ProfileAdmin.Schema

open Document (Value Mismatch)

variable {types : List Type} {fields : Fields types} {draft : Draft types} {row : Row types}
  {look look' : String → Option Value} {name : String} {v : Value} {ms : List (String × Value)}

/-! ## Look-up -/

/-- What a field makes of the value under its name, when something may have been met before. -/
def Field.Takes {α : Type} (field : Field α) (met : Option α) (found : Option Value) (a : α) :
    Prop :=
  match found with
  | none => (met <|> field.absent) = some a
  | some v => met = none ∧ field.shape.ofValue v = .ok a

/-- What fields make of the values under their names, on top of what has been met before. -/
def Fields.Takes (look : String → Option Value) :
    {types : List Type} → Fields types → Draft types → Row types → Prop
  | _, .nil, (), () => True
  | _, .cons field rest, (met, draft), (a, row) =>
    field.Takes met (look field.name) a ∧ rest.Takes look draft row

/-- Only what stands under the names of the fields matters. -/
theorem Fields.Takes.congr (h : fields.Takes look draft row)
    (hsame : ∀ name ∈ fields.names, look' name = look name) : fields.Takes look' draft row := by
  induction fields with
  | nil => trivial
  | cons field rest ih =>
      obtain ⟨met, draft⟩ := draft
      obtain ⟨a, row⟩ := row
      refine ⟨?_, ih h.2 fun name hname => hsame name (List.mem_cons_of_mem _ hname)⟩
      rw [hsame field.name List.mem_cons_self]
      exact h.1

/-! ## Reading -/

/-- When nothing is left the row is complete. -/
theorem Fields.Takes.complete (h : fields.Takes (fun _ => none) draft row) :
    fields.complete draft = .ok row := by
  induction fields with
  | nil => rfl
  | cons field rest ih =>
      obtain ⟨met, draft⟩ := draft
      obtain ⟨a, row⟩ := row
      have hmet : (met <|> field.absent) = some a := h.1
      rw [Fields.complete, hmet]
      show (do return (a, ← rest.complete draft)) = _
      rw [ih h.2]
      rfl

/-- A member is taken up by the field of its name, if there is one. -/
theorem Fields.Takes.put (hnames : fields.names.Nodup)
    (h : fields.Takes (fun other => if other = name then some v else look other) draft row)
    (hfresh : look name = none) :
    ∃ draft', fields.putMember name v draft = .ok draft' ∧ fields.Takes look draft' row := by
  -- The field of the name takes it up, and the fields around are not affected.
  induction fields with
  | nil => exact ⟨(), rfl, trivial⟩
  | cons field rest ih =>
      obtain ⟨met, draft⟩ := draft
      obtain ⟨a, row⟩ := row
      obtain ⟨hfield, hrest⟩ := h
      obtain ⟨hnot, hnames⟩ := List.nodup_cons.mp hnames
      rw [Fields.putMember]
      dsimp only at hfield
      by_cases hname : name = field.name
      · rw [if_pos hname.symm] at hfield
        obtain ⟨rfl, hvalue⟩ := hfield
        refine ⟨(some a, draft), ?_, ?_, ?_⟩
        · refine (if_pos hname).trans ?_
          show (field.shape.ofValue v >>= fun a => pure (some a, draft)) = _
          rw [hvalue]
          rfl
        · rw [← hname, hfresh]
          rfl
        · refine hrest.congr fun other hother => (if_neg ?_).symm
          rintro rfl
          exact hnot (hname ▸ hother)
      · rw [if_neg (Ne.symm hname)] at hfield
        obtain ⟨draft', hput, htakes⟩ := ih hnames hrest
        refine ⟨(met, draft'), ?_, hfield, htakes⟩
        refine (if_neg hname).trans ?_
        rw [hput]
        rfl

/-- The members of a table, taken up one by one, complete the row that looking up their names gives.
-/
theorem Fields.Takes.foldlM (hnames : fields.names.Nodup) (hms : (ms.map Prod.fst).Nodup)
    (h : fields.Takes (fun name => ms.lookup name) draft row) :
    (ms.foldlM (fun draft m => fields.putMember m.1 m.2 draft) draft >>= fields.complete) =
      .ok row := by
  induction ms generalizing draft with
  | nil => exact h.complete
  | cons m ms ih =>
      obtain ⟨hnot, hms⟩ := List.nodup_cons.mp hms
      have hfresh : ms.lookup m.1 = none := by
        refine List.lookup_eq_none_iff.mpr fun other hother => bne_iff_ne.mpr fun heq => ?_
        exact hnot (heq ▸ List.mem_map_of_mem hother)
      -- The look-up finds the first member in front of the others, and its name nowhere behind it.
      have hfirst : fields.Takes
          (fun other => if other = m.1 then some m.2 else ms.lookup other) draft row := by
        refine h.congr fun other _ => ?_
        rw [List.lookup_cons]
        by_cases heq : other = m.1
        · rw [if_pos heq, heq, beq_self_eq_true]
        · rw [if_neg heq, beq_false_of_ne heq]
      obtain ⟨draft', hput, htakes⟩ := hfirst.put hnames hfresh
      rw [List.foldlM_cons, hput]
      exact ih hms htakes

/-- A row can be read off the values under the names. -/
theorem Fields.ofTable_eq (hnames : fields.names.Nodup) (hms : (ms.map Prod.fst).Nodup)
    (h : fields.Takes (fun name => ms.lookup name) fields.blank row) :
    fields.ofTable ms = .ok row :=
  h.foldlM hnames hms

end ProfileAdmin.Schema
