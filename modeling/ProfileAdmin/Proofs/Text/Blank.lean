import Mathlib.Data.List.Basic
import Mathlib.Data.List.TakeWhile
import ProfileAdmin.Text.Blank

/-!
# Proofs.Text.Blank — texts without the white space at their ends

1. **Snug texts** neither begin nor end with white space.
2. **Trimming** leaves the one snug text that a text has between white space.
-/

namespace ProfileAdmin.Text

variable {cs core before after : List Char}

/-! ## Snug texts -/

/-- White space only. -/
def Blank (cs : List Char) : Prop :=
  ∀ c ∈ cs, isBlank c = true

/-- A text that neither begins nor ends with white space. -/
structure Snug (cs : List Char) : Prop where
  first : ∀ c ∈ cs.head?, isBlank c = false
  last : ∀ c ∈ cs.getLast?, isBlank c = false

theorem Blank.reverse (h : Blank cs) : Blank cs.reverse := by
  intro c hc
  exact h c (List.mem_reverse.mp hc)

/-! ## Trimming -/

/-- White space in front is dropped up to a text that begins with something else. -/
theorem dropWhile_blank (hbefore : Blank before) (hcore : ∀ c ∈ core.head?, isBlank c = false) :
    (before ++ core).dropWhile isBlank = core := by
  rw [List.dropWhile_append_of_pos hbefore]
  cases core with
  | nil => rfl
  | cons c rest =>
      have hfirst : isBlank c = false := hcore c rfl
      exact List.dropWhile_cons_of_neg (by simp [hfirst])

/-- Of a text between white space, trimming leaves the text. -/
theorem trimChars_append (hbefore : Blank before) (hcore : Snug core) (hafter : Blank after) :
    trimChars (before ++ core ++ after) = core := by
  by_cases hempty : core = []
  · -- Without anything between them, the two are one run of white space.
    subst hempty
    have hall : Blank (before ++ after) := List.forall_mem_append.mpr ⟨hbefore, hafter⟩
    have hdrop : (before ++ after).dropWhile isBlank = [] := List.dropWhile_eq_nil_iff.mpr hall
    unfold trimChars
    rw [List.append_nil, hdrop]
    rfl
  · have hhead : ∀ c ∈ (core ++ after).head?, isBlank c = false := by
      rw [List.head?_append_of_ne_nil core hempty]
      exact hcore.first
    have hfront : (before ++ (core ++ after)).dropWhile isBlank = core ++ after :=
      dropWhile_blank hbefore hhead
    have hlast : ∀ c ∈ core.reverse.head?, isBlank c = false := by
      rw [List.head?_reverse]
      exact hcore.last
    have hback : (after.reverse ++ core.reverse).dropWhile isBlank = core.reverse :=
      dropWhile_blank hafter.reverse hlast
    unfold trimChars
    rw [List.append_assoc, hfront, List.reverse_append, hback, List.reverse_reverse]

/-- What is cut off the front is white space, and what is left does not begin with any. -/
theorem exists_front (cs : List Char) :
    ∃ before, cs = before ++ cs.dropWhile isBlank ∧ Blank before ∧
      ∀ c ∈ (cs.dropWhile isBlank).head?, isBlank c = false := by
  refine ⟨cs.takeWhile isBlank, List.takeWhile_append_dropWhile.symm, ?_, ?_⟩
  · intro c hc
    exact List.mem_takeWhile_imp hc
  · intro c hc
    have hne : cs.dropWhile isBlank ≠ [] := by
      intro hnil
      rw [hnil] at hc
      cases hc
    have hhead := List.head_dropWhile_not isBlank hne
    rw [Option.mem_def, List.head?_eq_some_head hne] at hc
    cases hc
    exact hhead

/-- A text is what is left of it by trimming, between white space. -/
theorem exists_trimmed (cs : List Char) :
    Snug (trimChars cs) ∧
      ∃ before after, cs = before ++ trimChars cs ++ after ∧ Blank before ∧ Blank after := by
  obtain ⟨before, hbefore, hblank, hfirst⟩ := exists_front cs
  obtain ⟨after, hafter, hspace, hlast⟩ := exists_front (cs.dropWhile isBlank).reverse
  have hback : cs.dropWhile isBlank = trimChars cs ++ after.reverse := by
    have h := congrArg List.reverse hafter
    rw [List.reverse_reverse, List.reverse_append] at h
    exact h
  refine ⟨⟨?_, ?_⟩, before, after.reverse, ?_, hblank, hspace.reverse⟩
  · -- What is cut off the end does not change how the text begins.
    intro c hc
    apply hfirst c
    rw [hback]
    exact List.mem_head?_append_of_mem_head? hc
  · intro c hc
    apply hlast c
    rw [trimChars, List.getLast?_reverse] at hc
    exact hc
  · rw [List.append_assoc, ← hback]
    exact hbefore

/-- What there is of a text between the white space at its ends. -/
def Trims (cs core : List Char) : Prop :=
  Snug core ∧ ∃ before after, cs = before ++ core ++ after ∧ Blank before ∧ Blank after

/-- Trimming finds what there is between the white space. -/
theorem trimChars_eq_iff : trimChars cs = core ↔ Trims cs core := by
  constructor
  · rintro rfl
    exact exists_trimmed cs
  · rintro ⟨hcore, before, after, rfl, hbefore, hafter⟩
    exact trimChars_append hbefore hcore hafter

/-- Trimming leaves nothing of white space only. -/
theorem trimChars_eq_nil_iff : trimChars cs = [] ↔ Blank cs := by
  constructor
  · intro hnil
    obtain ⟨-, before, after, hcs, hbefore, hafter⟩ := trimChars_eq_iff.mp hnil
    rw [hcs, List.append_nil]
    exact List.forall_mem_append.mpr ⟨hbefore, hafter⟩
  · intro hblank
    have hsnug : Snug [] := ⟨nofun, nofun⟩
    exact trimChars_eq_iff.mpr ⟨hsnug, cs, [], by simp, hblank, List.forall_mem_nil _⟩

end ProfileAdmin.Text
