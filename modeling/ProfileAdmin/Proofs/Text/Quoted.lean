import Mathlib.Data.List.Basic
import ProfileAdmin.Text.Quoted

/-!
# Proofs.Text.Quoted — what a quoted text says

1. **Numerals** consist of digits, and those of different numbers are different.
2. **Characters**: a character stands for itself, behind a mark, or as a number between braces.
   None of these forms begins another.
3. **Texts**: a quoted text ends where it seems to end, and only one text is quoted so.
-/

namespace ProfileAdmin.Text

variable {c d : Char} {cs ds : List Char}

/-! ## Numerals -/

/-- A character that is no digit is in no numeral. -/
theorem not_mem_toDigits {base : Nat} (hbase : 1 < base) (hc : ∀ n, Nat.digitChar n ≠ c)
    (n : Nat) : c ∉ base.toDigits n := by
  induction n using Nat.strongRecOn with
  | ind n ih =>
      rw [Nat.toDigits_eq_if hbase]
      split
      · intro hmem
        exact hc n (List.mem_singleton.mp hmem).symm
      · rename_i hlarge
        have hless : n / base < n := Nat.div_lt_self (by omega) hbase
        intro hmem
        rcases List.mem_append.mp hmem with hbefore | hlast
        · exact ih (n / base) hless hbefore
        · exact hc (n % base) (List.mem_singleton.mp hlast).symm

/-- Different digits are written with different characters. -/
theorem digitChar_inj {m n : Nat} (hm : m < 16) (hn : n < 16)
    (h : m.digitChar = n.digitChar) : m = n := by
  have hall : ∀ m < 16, ∀ n < 16, Nat.digitChar m = Nat.digitChar n → m = n := by decide
  exact hall m hm n hn h

/-- Different numbers have different numerals, as long as there is a digit for each remainder. -/
theorem toDigits_inj {base m n : Nat} (hbase : 1 < base) (hdigits : base ≤ 16)
    (h : base.toDigits m = base.toDigits n) : m = n := by
  -- The last digit is the remainder by the base, and the digits before it are the quotient.
  induction m using Nat.strongRecOn generalizing n with
  | ind m ih =>
      have hunder : ∀ k, k % base < 16 := fun k =>
        Nat.lt_of_lt_of_le (Nat.mod_lt k (by omega)) hdigits
      rw [Nat.toDigits_eq_if (n := m) hbase, Nat.toDigits_eq_if (n := n) hbase] at h
      split at h
      · split at h
        · exact digitChar_inj (by omega) (by omega) (List.singleton_inj.mp h)
        · have hnone := (List.append_inj' ((List.nil_append _).trans h) rfl).1
          exact absurd hnone.symm Nat.toDigits_ne_nil
      · split at h
        · have hnone := (List.append_inj' (h.trans (List.nil_append _).symm) rfl).1
          exact absurd hnone Nat.toDigits_ne_nil
        · obtain ⟨hbefore, hlast⟩ := List.append_inj' h rfl
          have hquotient : m / base = n / base :=
            ih (m / base) (Nat.div_lt_self (by omega) hbase) hbefore
          have hremainder : m % base = n % base :=
            digitChar_inj (hunder m) (hunder n) (List.singleton_inj.mp hlast)
          rw [← Nat.div_add_mod m base, hquotient, hremainder, Nat.div_add_mod]

/-- A hexadecimal numeral ends at the brace behind it. -/
theorem hex_append_brace_inj {m n : Nat} {s t : List Char}
    (h : hex m ++ '\x7d' :: s = hex n ++ '\x7d' :: t) : m = n ∧ s = t := by
  have hbrace : ∀ n, ∀ c ∈ hex n, (c != '\x7d') = true := by
    intro n c hc
    refine bne_iff_ne.mpr ?_
    rintro rfl
    exact not_mem_toDigits (by decide) (fun n => Nat.digitChar_ne '\x7d' (by decide)) n hc
  have hdigits : ∀ n rest, (hex n ++ '\x7d' :: rest).takeWhile (· != '\x7d') = hex n := by
    intro n rest
    rw [List.takeWhile_append_of_pos (hbrace n), List.takeWhile_cons_of_neg (by decide),
      List.append_nil]
  have hhex : hex m = hex n := by rw [← hdigits m s, h, hdigits n t]
  rw [hhex] at h
  exact ⟨toDigits_inj (by decide) (by decide) hhex, (List.cons.inj (List.append_cancel_left h)).2⟩

/-! ## Characters -/

/-- The marks behind a backslash, and what they stand for. -/
def marks : List (Char × Char) :=
  [('0', '\x00'), ('t', '\t'), ('r', '\r'), ('n', '\n'), ('\\', '\\'), ('"', '"')]

/-- The forms of a character between quotes. -/
inductive Quotes (c : Char) : List Char → Prop where
  | itself (unmarked : c ∉ marks.map Prod.snd) : Quotes c [c]
  | marked {mark : Char} (stands : (mark, c) ∈ marks) : Quotes c ['\\', mark]
  | numbered : Quotes c ('\\' :: 'u' :: '\x7b' :: (hex c.toNat ++ ['\x7d']))

/-- Each character is quoted in one of the three forms. -/
theorem quotes_quotedChar (c : Char) : Quotes c (quotedChar c) := by
  unfold quotedChar
  split
  · exact Quotes.marked (by decide)
  · exact Quotes.marked (by decide)
  · exact Quotes.marked (by decide)
  · exact Quotes.marked (by decide)
  · exact Quotes.marked (by decide)
  · exact Quotes.marked (by decide)
  -- No mark stands for any other character.
  · rename_i h₀ h₁ h₂ h₃ h₄ h₅
    have hunmarked : c ∉ marks.map Prod.snd := by
      simp only [marks, List.map_cons, List.map_nil, List.mem_cons, List.not_mem_nil]
      tauto
    split
    · exact Quotes.itself hunmarked
    · split
      · exact Quotes.numbered
      · exact Quotes.itself hunmarked

/-- A quote inside is written behind a backslash. -/
theorem Quotes.exists_head (h : Quotes c cs) : ∃ first rest, cs = first :: rest ∧ first ≠ '"' := by
  cases h with
  | itself unmarked =>
      refine ⟨c, [], rfl, ?_⟩
      rintro rfl
      exact unmarked (by decide)
  | marked stands => exact ⟨'\\', _, rfl, by decide⟩
  | numbered => exact ⟨'\\', _, rfl, by decide⟩

/-- The form of a character shows which one it is, whatever stands behind it. -/
theorem Quotes.inj (h : Quotes c cs) (h' : Quotes d ds) {s t : List Char}
    (heq : cs ++ s = ds ++ t) : c = d ∧ s = t := by
  have hbackslash : ∀ {c : Char}, c ∉ marks.map Prod.snd → c ≠ '\\' := by
    rintro c hunmarked rfl
    exact hunmarked (by decide)
  have hmarks : ∀ p ∈ marks, ∀ q ∈ marks, p.1 = q.1 → p.2 = q.2 := by decide
  have hletter : ∀ p ∈ marks, p.1 ≠ 'u' := by decide
  -- The first character tells whether there is a backslash, and the second one which form it opens.
  cases h with
  | itself unmarked =>
      cases h' with
      | itself _ => exact List.cons.inj heq
      | marked _ => exact absurd (List.cons.inj heq).1 (hbackslash unmarked)
      | numbered => exact absurd (List.cons.inj heq).1 (hbackslash unmarked)
  | marked stands =>
      cases h' with
      | itself unmarked => exact absurd (List.cons.inj heq).1.symm (hbackslash unmarked)
      | marked stands' =>
          obtain ⟨hmark, hrest⟩ := List.cons.inj (List.cons.inj heq).2
          exact ⟨hmarks _ stands _ stands' hmark, hrest⟩
      | numbered => exact absurd (List.cons.inj (List.cons.inj heq).2).1 (hletter _ stands)
  | numbered =>
      cases h' with
      | itself unmarked => exact absurd (List.cons.inj heq).1.symm (hbackslash unmarked)
      | marked stands =>
          exact absurd (List.cons.inj (List.cons.inj heq).2).1.symm (hletter _ stands)
      | numbered =>
          have hdigits : hex c.toNat ++ '\x7d' :: s = hex d.toNat ++ '\x7d' :: t := by
            simpa using heq
          obtain ⟨hhex, hrest⟩ := hex_append_brace_inj hdigits
          exact ⟨Char.toNat_inj.mp hhex, hrest⟩

/-! ## Texts -/

/-- Up to the closing quote, the forms of the characters show the characters. -/
theorem flatMap_quotedChar_inj {s t : List Char}
    (h : cs.flatMap quotedChar ++ '"' :: s = ds.flatMap quotedChar ++ '"' :: t) :
    cs = ds ∧ s = t := by
  induction cs generalizing ds with
  | nil =>
      cases ds with
      | nil => exact ⟨rfl, (List.cons.inj h).2⟩
      | cons d ds =>
          -- No form begins with the closing quote.
          obtain ⟨first, rest, hform, hfirst⟩ := (quotes_quotedChar d).exists_head
          rw [List.flatMap_cons, hform] at h
          exact absurd (List.cons.inj h).1.symm hfirst
  | cons c cs ih =>
      cases ds with
      | nil =>
          obtain ⟨first, rest, hform, hfirst⟩ := (quotes_quotedChar c).exists_head
          rw [List.flatMap_cons, hform] at h
          exact absurd (List.cons.inj h).1 hfirst
      | cons d ds =>
          rw [List.flatMap_cons, List.flatMap_cons, List.append_assoc, List.append_assoc] at h
          obtain ⟨rfl, hrest⟩ := (quotes_quotedChar c).inj (quotes_quotedChar d) h
          obtain ⟨rfl, rfl⟩ := ih hrest
          exact ⟨rfl, rfl⟩

/-- A quoted text shows which text it is and where it ends, whatever stands behind it. -/
theorem quoted_append_inj {a b : String} {s t : List Char} :
    (quoted a).toList ++ s = (quoted b).toList ++ t ↔ a = b ∧ s = t := by
  constructor
  · intro h
    unfold quoted at h
    rw [String.toList_ofList, String.toList_ofList, List.cons_append, List.cons_append,
      List.append_assoc, List.append_assoc] at h
    obtain ⟨htext, hrest⟩ := flatMap_quotedChar_inj (List.cons.inj h).2
    exact ⟨String.toList_inj.mp htext, hrest⟩
  · rintro ⟨rfl, rfl⟩
    rfl

end ProfileAdmin.Text
