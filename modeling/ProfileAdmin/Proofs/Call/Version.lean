import ProfileAdmin.Call.Version
import ProfileAdmin.Proofs.Text.Blank
import ProfileAdmin.Proofs.Text.Line
import ProfileAdmin.Proofs.Text.Numeral

/-!
# Proofs.Call.Version — the versions that work together with this one

1. **Parts**: the numbers behind the lead, with dots between them.
2. **Understanding**: a version is understood exactly if it has three numbers and the first one
   is the major number spoken here.
-/

namespace ProfileAdmin.Call.Version

open Text (Blank Digits Numeral Snug Trims digits_toString isBlank numeral?_eq_some_iff
  numeral_toString splitBy splitBy_eq_splitOn trimChars trimChars_eq_iff)

variable {cs rest : List Char} {parts : List (List Char)} {s : String} {x y z : Nat}

/-! ## Parts -/

/-- What stands behind the lead is found exactly if the lead is there. -/
theorem behind?_eq_some_iff {front : List Char} :
    behind? front cs = some rest ↔ cs = front ++ rest := by
  induction front generalizing cs with
  | nil => exact Option.some_inj
  | cons c front ih =>
      cases cs with
      | nil => exact iff_of_false nofun nofun
      | cons d cs =>
          rw [behind?]
          by_cases heq : c = d
          · rw [if_pos heq, ih, List.cons_append, List.cons.injEq, heq, and_iff_right rfl]
          · rw [if_neg heq]
            refine iff_of_false nofun fun hcs => ?_
            exact heq (List.cons.inj hcs).1.symm

/-- Parts with dots between them. -/
abbrev dotted (parts : List (List Char)) : List Char :=
  ['.'].intercalate parts

/-- Parts without dots are found again when they are cut at the dots between them. -/
theorem splitBy_dotted (hparts : parts ≠ []) (hdots : ∀ part ∈ parts, '.' ∉ part) :
    splitBy (· == '.') (dotted parts) = parts := by
  rw [splitBy_eq_splitOn]
  exact List.splitOn_intercalate '.' hdots hparts

theorem dotted_splitBy (cs : List Char) : dotted (splitBy (· == '.') cs) = cs := by
  rw [splitBy_eq_splitOn]
  exact List.intercalate_splitOn '.'

/-- No numeral has a dot in it. -/
theorem nodots_numerals {bound : Nat} {a b c : List Char} (ha : Numeral bound a x)
    (hb : Numeral bound b y) (hc : Numeral bound c z) : ∀ part ∈ [a, b, c], '.' ∉ part := by
  simp only [List.mem_cons, List.not_mem_nil, or_false]
  rintro part (rfl | rfl | rfl)
  · exact ha.not_mem rfl (by decide)
  · exact hb.not_mem rfl (by decide)
  · exact hc.not_mem rfl (by decide)

/-- Three numerals behind the lead are read, and nothing else is. -/
theorem numbers?_eq_some_iff :
    numbers? cs = some (x, y, z) ↔ ∃ a b c, trimChars cs = lead ++ dotted [a, b, c] ∧
      Numeral numberBound a x ∧ Numeral numberBound b y ∧ Numeral numberBound c z := by
  constructor
  · intro hnumbers
    obtain ⟨version, hversion, hread⟩ := Option.bind_eq_some_iff.mp hnumbers
    have hlead : trimChars cs = lead ++ version := behind?_eq_some_iff.mp hversion
    split at hread
    · rename_i a b c hparts
      obtain ⟨x', ha, hread⟩ := Option.bind_eq_some_iff.mp hread
      obtain ⟨y', hb, hread⟩ := Option.bind_eq_some_iff.mp hread
      obtain ⟨z', hc, hread⟩ := Option.bind_eq_some_iff.mp hread
      cases hread
      -- The cut has three parts, and these put together again are what was cut.
      refine ⟨a, b, c, ?_, numeral?_eq_some_iff.mp ha, numeral?_eq_some_iff.mp hb,
        numeral?_eq_some_iff.mp hc⟩
      rw [hlead, ← hparts, dotted_splitBy]
    · cases hread
  · rintro ⟨a, b, c, hlead, ha, hb, hc⟩
    have hparts : splitBy (· == '.') (dotted [a, b, c]) = [a, b, c] :=
      splitBy_dotted (List.cons_ne_nil _ _) (nodots_numerals ha hb hc)
    unfold numbers?
    rw [behind?_eq_some_iff.mpr hlead, Option.bind_eq_bind, Option.bind_some]
    simp only [hparts]
    rw [numeral?_eq_some_iff.mpr ha, numeral?_eq_some_iff.mpr hb, numeral?_eq_some_iff.mpr hc]
    rfl

/-! ## Understanding -/

/-- A version is understood exactly if its numbers can be read and the first one is the major
number. -/
theorem isCompatible_iff :
    isCompatible s = true ↔ ∃ y z, numbers? s.toList = some (major, y, z) := by
  unfold isCompatible
  cases hnumbers : numbers? s.toList with
  | none => exact iff_of_false nofun nofun
  | some numbers =>
      obtain ⟨x, y, z⟩ := numbers
      constructor
      · intro hmajor
        have heq : x = major := beq_iff_eq.mp hmajor
        exact ⟨y, z, by rw [heq]⟩
      · rintro ⟨y', z', heq⟩
        cases heq
        exact beq_iff_eq.mpr rfl

/-- A digit is no white space. -/
theorem isBlank_of_isDigit {c : Char} (h : c.isDigit = true) : isBlank c = false := by
  have hrange : 48 ≤ c.toNat ∧ c.toNat ≤ 57 := by
    unfold Char.isDigit at h
    simp only [Bool.and_eq_true, decide_eq_true_eq] at h
    exact h
  unfold isBlank
  simp only [Bool.or_eq_false_iff, Bool.and_eq_false_iff, decide_eq_false_iff_not,
    beq_eq_false_iff_ne]
  omega

theorem dotted_three (a b c : List Char) : dotted [a, b, c] = a ++ '.' :: (b ++ '.' :: c) := by
  simp [List.intercalate_cons_cons]

/-- A version that ends with a digit stands between white space as it is. -/
theorem snug_version {a b c : List Char} (h : Digits c z) : Snug (lead ++ dotted [a, b, c]) := by
  constructor
  · intro d hd
    cases hd
    rfl
  · intro d hd
    have hlast : (lead ++ dotted [a, b, c]).getLast? = c.getLast? := by
      have hcut : lead ++ dotted [a, b, c] = (lead ++ (a ++ '.' :: (b ++ ['.']))) ++ c := by
        simp
      rw [hcut, List.getLast?_append_of_ne_nil _ h.1]
    rw [hlast] at hd
    exact isBlank_of_isDigit (h.2.1 d (List.mem_of_getLast? hd))

/-- The text of a version with plain numbers. -/
theorem toList_plain (y z : Nat) :
    s!"gsma/rsp/v2.{y}.{z}".toList =
      lead ++ dotted [['2'], (toString y).toList, (toString z).toList] := by
  have hfront : (toString "gsma/rsp/v2.").toList = lead ++ ['2', '.'] := by decide
  have hdot : (toString ".").toList = ['.'] := by decide
  rw [dotted_three]
  simp only [String.toList_append, hfront, hdot]
  simp

/-- A version is understood exactly if three numerals of thirty-two bits stand behind the lead, with
dots between them and white space at most around all of it, and the first of them means two. So
every version with the major number two and plain numbers behind it is understood. One with more or
fewer parts is not, and neither is one with another major number. -/
theorem isCompatible_language (s : String) :
    (isCompatible s = true ↔ ∃ first second third minor patch,
      Trims s.toList ("gsma/rsp/v".toList ++ dotted [first, second, third]) ∧
      Numeral 4294967296 first 2 ∧ Numeral 4294967296 second minor ∧
      Numeral 4294967296 third patch) ∧
    (∀ minor < 4294967296, ∀ patch < 4294967296, ∀ before after, Blank before → Blank after →
      s.toList = before ++ s!"gsma/rsp/v2.{minor}.{patch}".toList ++ after →
        isCompatible s = true) ∧
    ∀ parts, Trims s.toList ("gsma/rsp/v".toList ++ dotted parts) →
      (∀ part ∈ parts, '.' ∉ part) →
      (parts.length ≠ 3 ∨
        ∃ first n bound, parts.head? = some first ∧ Numeral bound first n ∧ n ≠ 2) →
      isCompatible s = false := by
  have hiff : isCompatible s = true ↔ ∃ first second third minor patch,
      Trims s.toList (lead ++ dotted [first, second, third]) ∧
      Numeral 4294967296 first 2 ∧ Numeral 4294967296 second minor ∧
      Numeral 4294967296 third patch := by
    rw [isCompatible_iff]
    simp only [numbers?_eq_some_iff, trimChars_eq_iff]
    constructor
    · rintro ⟨y, z, a, b, c, htrims, ha, hb, hc⟩
      exact ⟨a, b, c, y, z, htrims, ha, hb, hc⟩
    · rintro ⟨a, b, c, y, z, htrims, ha, hb, hc⟩
      exact ⟨y, z, a, b, c, htrims, ha, hb, hc⟩
  refine ⟨hiff, ?_, ?_⟩
  -- A version written from its numbers.
  · intro minor hminor patch hpatch before after hbefore hafter hs
    have htwo : Numeral 4294967296 ['2'] 2 := numeral_toString (n := 2) (by decide)
    rw [toList_plain] at hs
    have hsnug := snug_version (a := ['2']) (b := (toString minor).toList) (digits_toString patch)
    exact hiff.mpr ⟨_, _, _, minor, patch, ⟨hsnug, before, after, hs, hbefore, hafter⟩, htwo,
      numeral_toString hminor, numeral_toString hpatch⟩
  · intro parts htrims hdots hother
    -- If it were understood, its three numerals would be its parts.
    rw [Bool.eq_false_iff]
    intro hunderstood
    obtain ⟨a, b, c, y, z, htrims', ha, hb, hc⟩ := hiff.mp hunderstood
    have hcore : lead ++ dotted parts = lead ++ dotted [a, b, c] :=
      (trimChars_eq_iff.mpr htrims).symm.trans (trimChars_eq_iff.mpr htrims')
    have hsame : dotted parts = dotted [a, b, c] := List.append_cancel_left hcore
    have hsome : parts ≠ [] := by
      rintro rfl
      rw [dotted_three] at hsame
      exact List.append_ne_nil_of_right_ne_nil a (List.cons_ne_nil _ _) hsame.symm
    -- Cut at its dots, the text has the parts that it was made of.
    have hparts : parts = [a, b, c] := by
      rw [← splitBy_dotted hsome hdots, hsame, splitBy_dotted (List.cons_ne_nil _ _)]
      exact nodots_numerals ha hb hc
    subst hparts
    rcases hother with hlength | ⟨first, n, bound, hfirst, hnumeral, hne⟩
    · exact hlength rfl
    · cases hfirst
      exact hne (hnumeral.unique ha)

/-- White space around a version does no harm; a part too few or another major number does. -/
theorem isCompatible_language_padded :
    isCompatible " gsma/rsp/v2.1.0\n" = true ∧ isCompatible "gsma/rsp/v2.0" = false ∧
      isCompatible "gsma/rsp/v3.0.0" = false := by
  have htwo : Trims "gsma/rsp/v2.0".toList (lead ++ dotted [['2'], ['0']]) :=
    trimChars_eq_iff.mp (by decide)
  have hthree : Trims "gsma/rsp/v3.0.0".toList (lead ++ dotted [['3'], ['0'], ['0']]) :=
    trimChars_eq_iff.mp (by decide)
  refine ⟨?_, ?_, ?_⟩
  · exact (isCompatible_language _).2.1 1 (by decide) 0 (by decide) [' '] ['\n']
      (List.forall_mem_singleton.mpr rfl) (List.forall_mem_singleton.mpr rfl) (by decide)
  · exact (isCompatible_language _).2.2 _ htwo (by decide) (Or.inl (by decide))
  · have hother : Numeral 10 ['3'] 3 := numeral_toString (n := 3) (by decide)
    exact (isCompatible_language _).2.2 _ hthree (by decide)
      (Or.inr ⟨['3'], 3, 10, rfl, hother, by decide⟩)

example : isCompatible "gsma/rsp/v+02.0.4294967295" = true := by decide

example : isCompatible "gsma/rsp/v2.0.4294967296" = false := by decide

end ProfileAdmin.Call.Version
