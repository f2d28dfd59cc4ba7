import ProfileAdmin.Decimal.Layout
import ProfileAdmin.Proofs.Text.Quoted
import ProfileAdmin.Text.Blank

/-!
# Proofs.Text.Line — line breaks in texts

1. **Breaks**: how many line feeds a text has, or several texts. A text on one line has none.
2. **Numerals and quotations** are on one line.
3. **Lines** of a text whose parts all end with a line feed. There is one for each part and one
   more for each break within a part.
-/

namespace ProfileAdmin.Text

open Decimal (positionalText exponentText)

/-! ## Breaks -/

/-- The number of line feeds in a text. -/
def breaks (s : String) : Nat :=
  s.toList.count '\n'

/-- The breaks of two texts add up. -/
@[simp] theorem breaks_append (s t : String) : breaks (s ++ t) = breaks s + breaks t := by
  unfold breaks
  rw [String.toList_append, List.count_append]

/-- A text without line feeds. -/
def OneLine (s : String) : Prop :=
  breaks s = 0

instance (s : String) : Decidable (OneLine s) :=
  inferInstanceAs (Decidable (breaks s = 0))

/-- Two texts stand on one line if each of them does. -/
theorem oneLine_append {s t : String} : OneLine (s ++ t) ↔ OneLine s ∧ OneLine t := by
  unfold OneLine
  rw [breaks_append, Nat.add_eq_zero_iff]

/-- The number of line feeds in several texts. -/
def breaksIn (ts : List String) : Nat :=
  (ts.flatMap String.toList).count '\n'

theorem breaksIn_cons (t : String) (ts : List String) :
    breaksIn (t :: ts) = breaks t + breaksIn ts := by
  unfold breaksIn breaks
  rw [List.flatMap_cons, List.count_append]

/-- The breaks of several texts add up, too. -/
theorem breaksIn_append (ts us : List String) :
    breaksIn (ts ++ us) = breaksIn ts + breaksIn us := by
  unfold breaksIn
  rw [List.flatMap_append, List.count_append]

theorem breaksIn_singleton (t : String) : breaksIn [t] = breaks t :=
  breaksIn_cons t []

/-- There are no breaks exactly if each text is on one line. -/
theorem breaksIn_eq_zero_iff {ts : List String} : breaksIn ts = 0 ↔ ∀ t ∈ ts, OneLine t := by
  unfold breaksIn OneLine breaks
  simp only [List.count_eq_zero, List.mem_flatMap, not_exists, not_and]

/-- What stands around a text on one line adds nothing to its breaks. -/
theorem breaks_between {s t u : String} (hs : OneLine s) (hu : OneLine u) :
    breaks (s ++ t ++ u) = breaks t := by
  have hs : breaks s = 0 := hs
  have hu : breaks u = 0 := hu
  rw [breaks_append, breaks_append, hs, hu, Nat.zero_add, Nat.add_zero]

/-- What stands in front of a text on one line adds nothing to its breaks. -/
theorem breaks_behind {s t : String} (hs : OneLine s) : breaks (s ++ t) = breaks t := by
  have hs : breaks s = 0 := hs
  rw [breaks_append, hs, Nat.zero_add]

theorem oneLine_ofList {cs : List Char} : OneLine (String.ofList cs) ↔ '\n' ∉ cs := by
  unfold OneLine breaks
  rw [String.toList_ofList, List.count_eq_zero]

/-! ## Numerals and quotations -/

/-- A number is written in digits only. -/
theorem lineFeed_not_mem_toDigits {base : Nat} (hbase : 1 < base) (n : Nat) :
    '\n' ∉ base.toDigits n :=
  not_mem_toDigits hbase (fun _ => Nat.digitChar_ne '\n' (by decide)) n

theorem oneLine_toString_nat (n : Nat) : OneLine (toString n) :=
  oneLine_ofList.mpr (lineFeed_not_mem_toDigits (by decide) n)

/-- The sign of a number is on its line. -/
theorem oneLine_toString_int (n : Int) : OneLine (toString n) := by
  cases n with
  | ofNat n => exact oneLine_toString_nat n
  | negSucc n => exact oneLine_append.mpr ⟨by decide, oneLine_toString_nat (n + 1)⟩

/-- No form of a character has a line feed in it. -/
theorem Quotes.lineFeed_not_mem {c : Char} {cs : List Char} (h : Quotes c cs) : '\n' ∉ cs := by
  have hmarks : ∀ p ∈ marks, '\n' ∉ ['\\', p.1] := by decide
  cases h with
  | itself unmarked =>
      intro hmem
      obtain rfl := List.mem_singleton.mp hmem
      exact unmarked (by decide)
  | marked stands => exact hmarks _ stands
  | numbered =>
      have hhex : '\n' ∉ hex c.toNat := lineFeed_not_mem_toDigits (by decide) c.toNat
      simpa using hhex

/-- A line feed that is quoted is written with a letter. -/
theorem lineFeed_not_mem_quotedChar (c : Char) : '\n' ∉ quotedChar c :=
  (quotes_quotedChar c).lineFeed_not_mem

/-- A quoted text is on one line, whatever is quoted. -/
theorem oneLine_quoted (s : String) : OneLine (quoted s) := by
  refine oneLine_ofList.mpr fun hmem => ?_
  rcases List.mem_append.mp hmem with hrest | hclose
  · rcases List.mem_cons.mp hrest with hopen | hinside
    · revert hopen
      decide
    · obtain ⟨c, -, hc⟩ := List.mem_flatMap.mp hinside
      exact lineFeed_not_mem_quotedChar c hc
  · revert hclose
    decide

/-- A digit is written with a character from the one for nought on, or with none that there is. -/
theorem ofNat_ne_lineFeed (d : Nat) : Char.ofNat ('0'.toNat + d) ≠ '\n' := by
  have hcode : '0'.toNat + d ≠ 10 := by
    have hnought : '0'.toNat = 48 := rfl
    omega
  generalize '0'.toNat + d = n at hcode
  intro heq
  have hfeed : (Char.ofNat n).toNat = 10 := congrArg Char.toNat heq
  by_cases hvalid : n.isValidChar
  · have hcoded : (Char.ofNat n).toNat = n := by
      unfold Char.ofNat
      rw [dif_pos hvalid]
      rfl
    exact hcode (hcoded.symm.trans hfeed)
  · have hnone : (Char.ofNat n).toNat = 0 := by
      unfold Char.ofNat
      rw [dif_neg hvalid]
      rfl
    rw [hnone] at hfeed
    cases hfeed

/-- The digits of a decimal are on one line. -/
theorem lineFeed_not_mem_digits (d : Decimal.Digits) :
    '\n' ∉ d.digits.map fun d => Char.ofNat ('0'.toNat + d) := by
  intro hmem
  obtain ⟨n, -, hn⟩ := List.mem_map.mp hmem
  exact ofNat_ne_lineFeed n hn

theorem lineFeed_not_mem_positionalText (d : Decimal.Digits) : '\n' ∉ positionalText d := by
  have hdigits := lineFeed_not_mem_digits d
  have hnoughts : ∀ n, '\n' ∉ List.replicate n '0' := by
    intro n hmem
    cases List.eq_of_mem_replicate hmem
  unfold positionalText
  dsimp only
  -- The point stands before all digits, behind them, or among them.
  split
  · simp only [List.mem_append, not_or]
    exact ⟨⟨by decide, hnoughts _⟩, hdigits⟩
  split
  · simp only [List.mem_append, not_or]
    exact ⟨⟨hdigits, hnoughts _⟩, by decide⟩
  · simp only [List.mem_append, not_or]
    exact ⟨⟨mt List.mem_of_mem_take hdigits, by decide⟩, mt List.mem_of_mem_drop hdigits⟩

theorem lineFeed_not_mem_exponentText (d : Decimal.Digits) : '\n' ∉ exponentText d := by
  have hdigits := lineFeed_not_mem_digits d
  unfold exponentText
  simp only [List.mem_append, not_or]
  refine ⟨⟨⟨mt List.mem_of_mem_take hdigits, ?_⟩, ?_⟩, lineFeed_not_mem_toDigits (by decide) _⟩
  · split
    · exact List.not_mem_nil
    · rw [List.mem_cons, not_or]
      exact ⟨by decide, mt List.mem_of_mem_drop hdigits⟩
  · split <;> decide

/-- A number that is laid out is on one line, in either form. -/
theorem oneLine_layout (l : Decimal.Layout) (x : Float) : OneLine (l.text x) := by
  have hsign : ∀ b : Prop, [Decidable b] → '\n' ∉ if b then ['-'] else [] := by
    intro b _
    split <;> decide
  unfold Decimal.Layout.text
  split
  · decide
  dsimp only
  split
  · refine oneLine_ofList.mpr ?_
    simp only [List.mem_append, not_or]
    exact ⟨hsign _, by decide⟩
  · refine oneLine_ofList.mpr ?_
    simp only [List.mem_append, not_or]
    refine ⟨hsign _, ?_⟩
    split
    · exact lineFeed_not_mem_positionalText _
    · exact lineFeed_not_mem_exponentText _

/-! ## Lines -/

variable {α : Type} {p : α → Bool}

/-- There is always a part. -/
theorem splitBy_ne_nil (xs : List α) : splitBy p xs ≠ [] := by
  cases xs with
  | nil => exact List.cons_ne_nil _ _
  | cons x xs =>
      rw [splitBy]
      split
      · exact List.cons_ne_nil _ _
      · split
        · exact List.cons_ne_nil _ _
        · exact List.cons_ne_nil _ _

/-- There is one part more than there are cuts. -/
theorem length_splitBy (xs : List α) : (splitBy p xs).length = xs.countP p + 1 := by
  induction xs with
  | nil => rfl
  | cons x xs ih =>
      rw [splitBy, List.countP_cons]
      cases hcut : p x with
      | true => simp [ih]
      | false =>
          cases hparts : splitBy p xs with
          | nil => exact absurd hparts (splitBy_ne_nil xs)
          | cons part parts =>
              rw [hparts] at ih
              simpa using ih

/-- Without a cut, all of a list is one part. -/
theorem splitBy_of_forall_not (xs : List α) (h : ∀ x ∈ xs, p x = false) :
    splitBy p xs = [xs] := by
  induction xs with
  | nil => rfl
  | cons x xs ih =>
      obtain ⟨hx, hxs⟩ := List.forall_mem_cons.mp h
      rw [splitBy, hx, if_neg Bool.false_ne_true, ih hxs]

/-- The parts before a cut and those behind it have nothing to do with each other. -/
theorem splitBy_append_cut {a : α} (ha : p a = true) (xs ys : List α) :
    splitBy p (xs ++ a :: ys) = splitBy p xs ++ splitBy p ys := by
  induction xs with
  | nil =>
      show splitBy p (a :: ys) = [] :: splitBy p ys
      rw [splitBy, if_pos ha]
  -- The first part grows by an element, or is closed by a cut.
  | cons x xs ih =>
      rw [List.cons_append, splitBy, splitBy, ih]
      cases hcut : p x with
      | true => rfl
      | false =>
          cases hparts : splitBy p xs with
          | nil => exact absurd hparts (splitBy_ne_nil xs)
          | cons part parts => rfl

/-- To cut where an element stands is to split on this element. -/
theorem splitBy_eq_splitOn [BEq α] (a : α) (xs : List α) :
    splitBy (· == a) xs = xs.splitOn a := by
  rw [List.splitOn_eq_splitOnP]
  induction xs with
  | nil => rfl
  | cons x xs ih =>
      rw [splitBy, List.splitOnP_cons_eq_if_modifyHead, ← ih]
      by_cases hcut : (x == a) = true
      · rw [if_pos hcut, if_pos hcut]
      · rw [if_neg hcut, if_neg hcut]
        cases hparts : splitBy (· == a) xs with
        | nil => exact absurd hparts (splitBy_ne_nil xs)
        | cons part parts => rfl

/-- Lines, each with a line feed behind it. -/
def ended (ls : List String) : List Char :=
  ls.flatMap fun line => line.toList ++ ['\n']

/-- A text whose parts all end with a line feed consists of the lines of its parts. -/
theorem lines_ended (ls : List String) :
    lines (ended ls) = ls.flatMap fun line => splitBy (· == '\n') line.toList := by
  have hsplit : splitBy (· == '\n') (ended ls) =
      (ls.flatMap fun line => splitBy (· == '\n') line.toList) ++ [[]] := by
    unfold ended
    induction ls with
    | nil => rfl
    | cons line ls ih =>
        rw [List.flatMap_cons, List.flatMap_cons, List.append_assoc, List.singleton_append,
          splitBy_append_cut (by rfl), ih, List.append_assoc]
  unfold lines
  rw [hsplit, List.reverse_append]
  exact List.reverse_reverse _

/-- Every part is a line, and every break in it makes one more. -/
theorem length_lines_ended (ls : List String) :
    (lines (ended ls)).length = ls.length + breaksIn ls := by
  rw [lines_ended]
  induction ls with
  | nil => rfl
  | cons line ls ih =>
      have hline : line.toList.countP (· == '\n') = breaks line := rfl
      rw [List.flatMap_cons, List.length_append, ih, length_splitBy, hline, breaksIn_cons,
        List.length_cons]
      omega

/-- Parts that are on one line are the lines of the text. -/
theorem lines_ended_of_oneLine {ls : List String} (h : ∀ line ∈ ls, OneLine line) :
    lines (ended ls) = ls.map String.toList := by
  rw [lines_ended]
  induction ls with
  | nil => rfl
  | cons line ls ih =>
      obtain ⟨hline, hothers⟩ := List.forall_mem_cons.mp h
      have hone : splitBy (· == '\n') line.toList = [line.toList] := by
        refine splitBy_of_forall_not _ fun c hc => beq_eq_false_iff_ne.mpr ?_
        rintro rfl
        exact List.count_eq_zero.mp hline hc
      rw [List.flatMap_cons, List.map_cons, hone, ih hothers, List.singleton_append]

example : lines (ended ["8965030119040000067, A", "8965030119040000075, B\nC"]) =
    ["8965030119040000067, A".toList, "8965030119040000075, B".toList, "C".toList] := by
  decide

end ProfileAdmin.Text
