import ProfileAdmin.Proofs.Client.Endpoint
import ProfileAdmin.Proofs.Command.Execution
import ProfileAdmin.Proofs.Text.Blank
import ProfileAdmin.Proofs.Text.Line
import ProfileAdmin.Proofs.Text.Utf8

/-!
# Proofs.Command.Listing — what a list of profiles lists

1. **Listings**: texts with one entry on each line. White space may stand around an entry, lines
   may be blank, and the last line need not be ended.
2. **Lines**: what is listed before a line feed and what is listed behind it have nothing to do with
   each other.
3. **Reading**: a text is read as the entries that it lists, and as nothing else.
-/

namespace ProfileAdmin.Command.Bulk

open Host (Effect)
open Text (Blank Snug isBlank splitBy splitBy_append_cut splitBy_ne_nil splitBy_of_forall_not
  trimChars trimChars_append trimChars_eq_nil_iff exists_trimmed)

/-! ## Listings -/

/-- What can be an entry: it is there, on one line, and without white space at its ends. -/
structure Entry (x : String) : Prop where
  there : x ≠ ""
  oneLine : '\n' ∉ x.toList
  snug : Snug x.toList

/-- White space within a line. -/
def Gap (gap : List Char) : Prop :=
  ∀ c ∈ gap, isBlank c = true ∧ c ≠ '\n'

/-- What ends a line. -/
inductive LineEnd : List Char → Prop where
  | feed : LineEnd ['\n']
  | returned : LineEnd ['\r', '\n']

/-- A text that lists entries in their order. -/
inductive Listing : List String → List Char → Prop where
  /-- Nothing more is listed. -/
  | nothing {gap : List Char} (hgap : Gap gap) : Listing [] gap
  /-- A last entry, without an end of its line. -/
  | last {x : String} {before after : List Char} (hbefore : Gap before) (hafter : Gap after) :
      Listing [x] (before ++ x.toList ++ after)
  /-- A blank line. -/
  | blank {xs : List String} {gap ending cs : List Char} (hgap : Gap gap)
      (hending : LineEnd ending) (others : Listing xs cs) : Listing xs (gap ++ ending ++ cs)
  /-- A line with an entry. -/
  | entry {x : String} {xs : List String} {before after ending cs : List Char}
      (hbefore : Gap before) (hafter : Gap after) (hending : LineEnd ending)
      (others : Listing xs cs) : Listing (x :: xs) (before ++ x.toList ++ after ++ ending ++ cs)

variable {σ : Type} {answer : (e : Effect) → σ → e.Answer × σ} {file : String} {s : σ}
  {cs gap before after ending : List Char} {xs : List String}

/-- What is white space within a line is white space. -/
theorem Gap.blank (h : Gap gap) : Blank gap :=
  fun c hc => (h c hc).1

theorem Gap.oneLine (h : Gap gap) : '\n' ∉ gap :=
  fun hc => (h _ hc).2 rfl

theorem gap_of_blank (hblank : Blank gap) (hone : '\n' ∉ gap) : Gap gap := by
  intro c hc
  refine ⟨hblank c hc, ?_⟩
  rintro rfl
  exact hone hc

/-- A line ends with a line feed, and what stands before that is white space. -/
theorem LineEnd.exists_gap (h : LineEnd ending) : ∃ gap, ending = gap ++ ['\n'] ∧ Gap gap := by
  cases h with
  | feed => exact ⟨[], rfl, List.forall_mem_nil _⟩
  | returned => exact ⟨['\r'], rfl, List.forall_mem_singleton.mpr ⟨rfl, by decide⟩⟩

/-! ## Lines -/

/-- The entry of a line, if there is one. -/
def entryOf (line : List Char) : Option String :=
  if trimChars line = [] then none else some (String.ofList (trimChars line))

/-- The entries of a text. -/
def entriesOf (cs : List Char) : List String :=
  (splitBy (· == '\n') cs).filterMap entryOf

/-- The entries can be read without a rule for the last line. -/
theorem iccidsOf_eq (text : String) : iccidsOf text = entriesOf text.toList := by
  -- The empty piece behind the last line feed would have no entry anyway.
  have hlines : (Text.lines text.toList).filterMap entryOf = entriesOf text.toList := by
    unfold Text.lines entriesOf
    split
    · rename_i others hparts
      have hwhole : splitBy (· == '\n') text.toList = others.reverse ++ [[]] := by
        rw [← List.reverse_reverse (splitBy _ _), hparts, List.reverse_cons]
      have hnone : entryOf [] = none := rfl
      rw [hwhole, List.filterMap_append, List.filterMap_cons_none hnone, List.filterMap_nil,
        List.append_nil]
    · rw [List.reverse_reverse]
  rw [← hlines]
  unfold iccidsOf
  induction Text.lines text.toList with
  | nil => rfl
  | cons line others ih =>
      rw [List.map_cons, List.filterMap_cons, List.filter_cons, ← ih]
      unfold entryOf
      by_cases hblank : trimChars line = []
      · rw [if_pos hblank, hblank]
        rfl
      · have hthere : (!(trimChars line).isEmpty) = true := by
          rw [Bool.not_eq_true', List.isEmpty_eq_false_iff]
          exact hblank
        rw [if_neg hblank, if_pos hthere, List.map_cons]

/-- A line feed separates what stands before it from what stands behind it. -/
theorem entriesOf_feed (front back : List Char) :
    entriesOf (front ++ '\n' :: back) = entriesOf front ++ entriesOf back := by
  unfold entriesOf
  rw [splitBy_append_cut (by rfl), List.filterMap_append]

/-- One line has at most one entry. -/
theorem entriesOf_line (h : '\n' ∉ cs) : entriesOf cs = (entryOf cs).toList := by
  have hpiece : splitBy (· == '\n') cs = [cs] := by
    refine splitBy_of_forall_not cs fun c hc => beq_eq_false_iff_ne.mpr ?_
    rintro rfl
    exact h hc
  unfold entriesOf
  rw [hpiece]
  cases hentry : entryOf cs with
  | none => rw [List.filterMap_cons_none hentry]; rfl
  | some x => rw [List.filterMap_cons_some hentry]; rfl

/-! ## Reading -/

theorem entriesOf_gap (h : Gap gap) : entriesOf gap = [] := by
  have hnone : entryOf gap = none := if_pos (trimChars_eq_nil_iff.mpr h.blank)
  rw [entriesOf_line h.oneLine, hnone]
  rfl

/-- The white space around an entry is not part of it. -/
theorem entriesOf_entry {x : String} (hx : Entry x) (hbefore : Gap before) (hafter : Gap after) :
    entriesOf (before ++ x.toList ++ after) = [x] := by
  have hone : '\n' ∉ before ++ x.toList ++ after := by
    simp only [List.mem_append, not_or]
    exact ⟨⟨hbefore.oneLine, hx.oneLine⟩, hafter.oneLine⟩
  have htrim : trimChars (before ++ x.toList ++ after) = x.toList :=
    trimChars_append hbefore.blank hx.snug hafter.blank
  have hfull : x.toList ≠ [] := mt String.toList_eq_nil_iff.mp hx.there
  have hentry : entryOf (before ++ x.toList ++ after) = some x := by
    unfold entryOf
    rw [htrim, if_neg hfull, String.ofList_toList]
  rw [entriesOf_line hone, hentry]
  rfl

/-- All that a text lists is read. -/
theorem Listing.entriesOf_eq (h : Listing xs cs) (hxs : ∀ x ∈ xs, Entry x) :
    entriesOf cs = xs := by
  induction h with
  | nothing hgap => exact entriesOf_gap hgap
  | last hbefore hafter => exact entriesOf_entry (hxs _ List.mem_cons_self) hbefore hafter
  | @blank xs gap ending cs hgap hending others ih =>
      -- A carriage return at the end of a line is taken for white space of this line.
      obtain ⟨extra, rfl, hextra⟩ := hending.exists_gap
      have hwide : Gap (gap ++ extra) := List.forall_mem_append.mpr ⟨hgap, hextra⟩
      have hcut : gap ++ (extra ++ ['\n']) ++ cs = (gap ++ extra) ++ '\n' :: cs := by simp
      rw [hcut, entriesOf_feed, entriesOf_gap hwide, ih hxs, List.nil_append]
  | @entry x xs before after ending cs hbefore hafter hending others ih =>
      obtain ⟨extra, rfl, hextra⟩ := hending.exists_gap
      obtain ⟨hx, hothers⟩ := List.forall_mem_cons.mp hxs
      have hwide : Gap (after ++ extra) := List.forall_mem_append.mpr ⟨hafter, hextra⟩
      have hcut : before ++ x.toList ++ after ++ (extra ++ ['\n']) ++ cs =
          (before ++ x.toList ++ (after ++ extra)) ++ '\n' :: cs := by simp
      rw [hcut, entriesOf_feed, entriesOf_entry hx hbefore hwide, ih hothers,
        List.singleton_append]

/-- A line is blank, or it has an entry between white space. -/
theorem line_cases (hone : '\n' ∉ cs) :
    (Gap cs ∧ entriesOf cs = []) ∨
      ∃ before x after, cs = before ++ x.toList ++ after ∧ Gap before ∧ Entry x ∧ Gap after ∧
        entriesOf cs = [x] := by
  obtain ⟨hsnug, before, after, hcs, hbefore, hafter⟩ := exists_trimmed cs
  by_cases hempty : trimChars cs = []
  · have hgap : Gap cs := gap_of_blank (trimChars_eq_nil_iff.mp hempty) hone
    exact Or.inl ⟨hgap, entriesOf_gap hgap⟩
  · -- What a line is made of is on one line.
    have hparts : '\n' ∉ before ++ trimChars cs ++ after := hcs ▸ hone
    simp only [List.mem_append, not_or] at hparts
    obtain ⟨⟨hbeforeOne, hcoreOne⟩, hafterOne⟩ := hparts
    have htext : (String.ofList (trimChars cs)).toList = trimChars cs := String.toList_ofList
    have hentry : Entry (String.ofList (trimChars cs)) := by
      constructor
      · intro hnone
        rw [hnone] at htext
        exact hempty htext.symm
      · rw [htext]
        exact hcoreOne
      · rw [htext]
        exact hsnug
    have hbeforeGap : Gap before := gap_of_blank hbefore hbeforeOne
    have hafterGap : Gap after := gap_of_blank hafter hafterOne
    have hshape : cs = before ++ (String.ofList (trimChars cs)).toList ++ after := by
      rw [htext]
      exact hcs
    refine Or.inr ⟨before, _, after, hshape, hbeforeGap, hentry, hafterGap, ?_⟩
    have hread := entriesOf_entry hentry hbeforeGap hafterGap
    rw [← hshape] at hread
    exact hread

/-- What is read of a text is listed by it, and nothing else is. -/
theorem listing_entriesOf (cs : List Char) :
    Listing (entriesOf cs) cs ∧ ∀ x ∈ entriesOf cs, Entry x := by
  -- By the length of the text: the first line is taken off, if there is more than one.
  induction hn : cs.length using Nat.strongRecOn generalizing cs with
  | ind n ih =>
      by_cases hfeed : '\n' ∈ cs
      · obtain ⟨line, rest, hcs, hone⟩ := List.eq_append_cons_of_mem hfeed
        have hshorter : rest.length < n := by
          rw [← hn, hcs, List.length_append, List.length_cons]
          omega
        obtain ⟨hothers, hentries⟩ := ih rest.length hshorter rest rfl
        have hcut : line ++ '\n' :: rest = line ++ ['\n'] ++ rest := by simp
        rw [hcs, entriesOf_feed]
        rcases line_cases hone with ⟨hgap, hnone⟩ | ⟨before, x, after, hline, hb, hx, ha, hone⟩
        -- A blank line lists nothing.
        · rw [hnone, List.nil_append, hcut]
          exact ⟨Listing.blank hgap LineEnd.feed hothers, hentries⟩
        · rw [hone, List.singleton_append, hcut, hline]
          exact ⟨Listing.entry hb ha LineEnd.feed hothers,
            List.forall_mem_cons.mpr ⟨hx, hentries⟩⟩
      · rcases line_cases hfeed with ⟨hgap, hnone⟩ | ⟨before, x, after, hline, hb, hx, ha, hone⟩
        · rw [hnone]
          exact ⟨Listing.nothing hgap, List.forall_mem_nil _⟩
        · rw [hone, hline]
          exact ⟨Listing.last hb ha, List.forall_mem_singleton.mpr hx⟩

/-- A text is read as a list exactly if it lists these entries. -/
theorem iccidsOf_eq_iff {text : String} :
    iccidsOf text = xs ↔ (∀ x ∈ xs, Entry x) ∧ Listing xs text.toList := by
  rw [iccidsOf_eq]
  constructor
  · rintro rfl
    exact (listing_entriesOf text.toList).symm
  · rintro ⟨hxs, hlisting⟩
    exact hlisting.entriesOf_eq hxs

/-- A file holds a text. -/
def Holds (answer : (e : Effect) → σ → e.Answer × σ) (file : String) (s : σ) (text : String) :
    Prop :=
  (answer (.fileBytes file) s).1 = Except.ok (Text.Utf8.bytes text)

/-- The list in a file is the one of the text that it holds. -/
theorem Holds.read {text : String} (h : Holds answer file s text) :
    ((readIccids file).run.run answer s).1 = .ok (iccidsOf text) := by
  have hlists : Lists answer file s (iccidsOf text) :=
    ⟨_, text, h, Text.Utf8.text?_eq_some_iff.mpr rfl, rfl⟩
  rw [readIccids_run]
  exact listOf_eq_ok_iff.mpr hlists

/-- A list is read from every file that holds a text. It has the entries that the text lists, all of
them, as often and in the order in which they stand there, and nothing that is no entry. The entries
of two texts with a line feed between them are those of the first and then those of the second. -/
theorem readIccids_listing (answer : (e : Effect) → σ → e.Answer × σ) :
    let read (file : String) (s : σ) := ((readIccids file).run.run answer s).1
    (∀ file s text, Holds answer file s text →
      (∃ xs, read file s = .ok xs) ∧
      ∀ xs, read file s = .ok xs ↔ (∀ x ∈ xs, Entry x) ∧ Listing xs text.toList) ∧
    ∀ file file' whole s s' t a b, Holds answer file s a → Holds answer file' s' b →
      Holds answer whole t (a ++ "\n" ++ b) →
        ∃ xs ys, read file s = .ok xs ∧ read file' s' = .ok ys ∧ read whole t = .ok (xs ++ ys) := by
  intro read
  refine ⟨?_, ?_⟩
  · intro file s text hholds
    have hread : read file s = .ok (iccidsOf text) := hholds.read
    refine ⟨⟨_, hread⟩, fun xs => ?_⟩
    rw [hread, ← iccidsOf_eq_iff, Except.ok.injEq]
  · intro file file' whole s s' t a b ha hb hwhole
    have hjoined : iccidsOf (a ++ "\n" ++ b) = iccidsOf a ++ iccidsOf b := by
      have hfeed : (a ++ "\n" ++ b).toList = a.toList ++ '\n' :: b.toList := by
        rw [String.toList_append, String.toList_append, List.append_assoc]
        rfl
      rw [iccidsOf_eq, iccidsOf_eq, iccidsOf_eq, hfeed, entriesOf_feed]
    exact ⟨_, _, ha.read, hb.read, hjoined ▸ hwhole.read⟩

/-- Three lists: two of one entry each, and both of them behind each other. -/
def shelved : String → String
  | "first.txt" => "8965030119040000067\r\n"
  | "second.txt" => "\n\t8965030119040000067 "
  | _ => "8965030119040000067\r\n\n\n\t8965030119040000067 "

/-- Nothing happens, but there are these lists. -/
def shelving : (e : Effect) → Unit → e.Answer × Unit
  | .fileBytes file, _ => (.ok (Text.Utf8.bytes (shelved file)), ())
  | e, u => Client.still e u

/-- The same ICCID is listed twice, as it is in two files, each with its own white space and its own
ends of lines. -/
theorem readIccids_listing_repeated :
    Holds shelving "first.txt" () "8965030119040000067\r\n" ∧
    Holds shelving "both.txt" () ("8965030119040000067\r\n" ++ "\n" ++ "\n\t8965030119040000067 ") ∧
    ((readIccids "first.txt").run.run shelving ()).1 = .ok ["8965030119040000067"] ∧
    ∃ xs ys, ((readIccids "first.txt").run.run shelving ()).1 = .ok xs ∧
      ((readIccids "second.txt").run.run shelving ()).1 = .ok ys ∧
      ((readIccids "both.txt").run.run shelving ()).1 = .ok (xs ++ ys) := by
  have hfirst : Holds shelving "first.txt" () "8965030119040000067\r\n" := rfl
  have hsecond : Holds shelving "second.txt" () "\n\t8965030119040000067 " := rfl
  have hboth : Holds shelving "both.txt" ()
      ("8965030119040000067\r\n" ++ "\n" ++ "\n\t8965030119040000067 ") := rfl
  obtain ⟨hread, hjoined⟩ := readIccids_listing shelving
  have hsnug : Snug "8965030119040000067".toList := by
    constructor
    · intro c hc
      obtain rfl : '8' = c := Option.some.inj hc
      rfl
    · intro c hc
      obtain rfl : '7' = c := Option.some.inj hc
      rfl
  have hiccid : Entry "8965030119040000067" := ⟨by decide, by decide, hsnug⟩
  have hentries : ∀ x ∈ ["8965030119040000067"], Entry x := List.forall_mem_singleton.mpr hiccid
  have hlisting : Listing ["8965030119040000067"] "8965030119040000067\r\n".toList :=
    Listing.entry (x := "8965030119040000067") (List.forall_mem_nil _) (List.forall_mem_nil _)
      LineEnd.returned (Listing.nothing (List.forall_mem_nil _))
  exact ⟨hfirst, hboth, ((hread _ _ _ hfirst).2 _).mpr ⟨hentries, hlisting⟩,
    hjoined _ _ _ _ _ _ _ _ hfirst hsecond hboth⟩

end ProfileAdmin.Command.Bulk
