import Mathlib.Data.List.Basic
import ProfileAdmin.Text.Numeral

/-!
# Proofs.Text.Numeral — the numerals that can be read

1. **Digits**: one or more of them, with their value.
2. **Numerals**: digits below a bound, with or without a plus sign in front.
-/

namespace ProfileAdmin.Text

variable {bound n : Nat} {c : Char} {cs : List Char}

/-! ## Digits -/

/-- One or more decimal digits, and what they stand for. -/
def Digits (cs : List Char) (n : Nat) : Prop :=
  cs ≠ [] ∧ (∀ c ∈ cs, c.isDigit = true) ∧ n = Nat.ofDigitChars 10 cs 0

theorem digit?_eq (c : Char) :
    digit? c = if c.isDigit = true then some (c.toNat - '0'.toNat) else none := by
  have hdigit : c.isDigit = true ↔ '0' ≤ c ∧ c ≤ '9' := by
    unfold Char.isDigit
    rw [Bool.and_eq_true, decide_eq_true_iff, decide_eq_true_iff]
    exact Iff.rfl
  exact if_congr hdigit.symm rfl rfl

/-- The values of characters are known if all of them are digits. -/
theorem mapM_digit?_eq_some_iff {values : List Nat} :
    cs.mapM digit? = some values ↔
      (∀ c ∈ cs, c.isDigit = true) ∧ values = cs.map fun c => c.toNat - '0'.toNat := by
  induction cs generalizing values with
  | nil =>
      rw [List.mapM_nil, List.map_nil, and_iff_right (List.forall_mem_nil _)]
      constructor
      · intro hvalues
        exact (Option.some.inj hvalues).symm
      · rintro rfl
        rfl
  | cons c cs ih =>
      rw [List.mapM_cons, digit?_eq]
      by_cases hdigit : c.isDigit = true
      · rw [if_pos hdigit]
        constructor
        · intro hmap
          obtain ⟨_, ⟨⟩, hrest⟩ := Option.bind_eq_some_iff.mp hmap
          obtain ⟨others, hothers, ⟨⟩⟩ := Option.bind_eq_some_iff.mp hrest
          obtain ⟨hall, rfl⟩ := ih.mp hothers
          exact ⟨List.forall_mem_cons.mpr ⟨hdigit, hall⟩, rfl⟩
        · rintro ⟨hall, rfl⟩
          have hothers := ih.mpr ⟨(List.forall_mem_cons.mp hall).2, rfl⟩
          rw [hothers]
          rfl
      · rw [if_neg hdigit]
        constructor
        · intro hmap
          cases hmap
        · rintro ⟨hall, -⟩
          exact absurd (List.forall_mem_cons.mp hall).1 hdigit

/-- What is read as digits is digits, with their value. -/
theorem digits?_eq_some_iff : digits? cs = some n ↔ Digits cs n := by
  -- The value is the one that the library computes from the left.
  have hvalue : (cs.map fun c => c.toNat - '0'.toNat).foldl (fun n d => n * 10 + d) 0 =
      Nat.ofDigitChars 10 cs 0 := by
    rw [List.foldl_map, Nat.ofDigitChars]
    simp only [Nat.mul_comm]
  cases cs with
  | nil => exact iff_of_false (Option.some_ne_none n).symm fun hdigits => hdigits.1 rfl
  | cons c cs =>
      unfold digits? Digits
      rw [Option.map_eq_some_iff]
      constructor
      · rintro ⟨values, hmap, rfl⟩
        obtain ⟨hall, rfl⟩ := mapM_digit?_eq_some_iff.mp hmap
        exact ⟨List.cons_ne_nil c cs, hall, hvalue⟩
      · rintro ⟨-, hall, rfl⟩
        exact ⟨_, mapM_digit?_eq_some_iff.mpr ⟨hall, rfl⟩, hvalue⟩

/-- Among digits there is no other character. -/
theorem Digits.not_mem (h : Digits cs n) (hother : c.isDigit = false) : c ∉ cs := by
  intro hc
  exact Bool.false_ne_true (hother.symm.trans (h.2.1 c hc))

/-- Digits begin with a digit. -/
theorem Digits.head?_ne (h : Digits cs n) (hother : c.isDigit = false) : cs.head? ≠ some c := by
  intro hhead
  exact h.not_mem hother (List.mem_of_mem_head? hhead)

/-- A number is written in digits. -/
theorem digits_toString (n : Nat) : Digits (toString n).toList n := by
  show Digits n.repr.toList n
  rw [Nat.toList_repr]
  refine ⟨Nat.toDigits_ne_nil, ?_, Nat.ofDigitChars_ten_toDigits.symm⟩
  intro c hc
  exact Nat.isDigit_of_mem_toDigits (by decide) (by decide) hc

/-! ## Numerals -/

/-- Digits with a value below a bound. A plus sign may stand in front. -/
def Numeral (bound : Nat) (cs : List Char) (n : Nat) : Prop :=
  ∃ digits, (cs = digits ∨ cs = '+' :: digits) ∧ Digits digits n ∧ n < bound

/-- What is read as a numeral is one. -/
theorem numeral?_eq_some_iff : numeral? bound cs = some n ↔ Numeral bound cs n := by
  unfold numeral?
  rw [Option.filter_eq_some_iff, decide_eq_true_iff]
  constructor
  · rintro ⟨hvalue, hbound⟩
    split at hvalue
    · exact ⟨_, Or.inr rfl, digits?_eq_some_iff.mp hvalue, hbound⟩
    · exact ⟨cs, Or.inl rfl, digits?_eq_some_iff.mp hvalue, hbound⟩
  · rintro ⟨digits, rfl | rfl, hdigits, hbound⟩
    · refine ⟨?_, hbound⟩
      split
      -- Digits without a sign in front do not begin with one.
      · exact absurd List.mem_cons_self (hdigits.not_mem (c := '+') rfl)
      · exact digits?_eq_some_iff.mpr hdigits
    · exact ⟨digits?_eq_some_iff.mpr hdigits, hbound⟩

/-- In a numeral there are digits and signs only. -/
theorem Numeral.not_mem (h : Numeral bound cs n) (hother : c.isDigit = false) (hsign : c ≠ '+') :
    c ∉ cs := by
  obtain ⟨digits, rfl | rfl, hdigits, -⟩ := h
  · exact hdigits.not_mem hother
  · exact List.not_mem_cons_of_ne_of_not_mem hsign (hdigits.not_mem hother)

/-- A numeral without a sign consists of digits. -/
theorem Numeral.digits (h : Numeral bound cs n) (hsign : cs.head? ≠ some '+') : Digits cs n := by
  obtain ⟨digits, rfl | rfl, hdigits, -⟩ := h
  · exact hdigits
  · exact absurd rfl hsign

/-- A numeral stands for one number. -/
theorem Numeral.unique {bound' n' : Nat} (h : Numeral bound cs n) (h' : Numeral bound' cs n') :
    n = n' := by
  obtain ⟨digits, hcs, hdigits, -⟩ := h
  obtain ⟨digits', hcs', hdigits', -⟩ := h'
  have hunsigned : ∀ {ds : List Char} {m : Nat}, Digits ds m → '+' ∉ ds :=
    fun hds => hds.not_mem rfl
  have hsame : digits = digits' := by
    rcases hcs with rfl | rfl
    · rcases hcs' with hcs' | rfl
      · exact hcs'
      · exact absurd List.mem_cons_self (hunsigned hdigits)
    · rcases hcs' with rfl | hcs'
      · exact absurd List.mem_cons_self (hunsigned hdigits')
      · exact (List.cons.inj hcs').2
  subst hsame
  exact hdigits.2.2.trans hdigits'.2.2.symm

/-- A number below the bound is written as a numeral. -/
theorem numeral_toString (hbound : n < bound) : Numeral bound (toString n).toList n :=
  ⟨_, Or.inl rfl, digits_toString n, hbound⟩

end ProfileAdmin.Text
