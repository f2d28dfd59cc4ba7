import ProfileAdmin.Proofs.Toml.Reading

/-!
# Proofs.Toml.Lines — the lines of a document

1. **Ends of lines**: a comment may stand in front of them, and the last one may be missing.
2. **Statements** on a line of their own: a value under a name, or the header of a table.
3. **Documents**: lines of that form among others, which can be anything that reads as a statement.
   The statements of such a text are those of its lines.
-/

namespace ProfileAdmin.Toml

open Document (Value)

variable {bs cs es rest : List Char} {name : String} {st : Statement} {sts : List Statement}

/-! ## Ends of lines -/

/-- How a line can end, and what stands on the next ones. -/
inductive Break : List Char → List Char → Prop where
  | feed (rest : List Char) : Break ['\n'] rest
  | returned (rest : List Char) : Break ['\r', '\n'] rest
  | last : Break [] []

/-- What can stand at the end of a line: nothing, or a comment. -/
inductive Ending : List Char → List Char → Prop where
  | bare {es rest : List Char} (h : Break es rest) : Ending es rest
  | comment {cs es rest : List Char} (hplain : ∀ c ∈ cs, isPlain c = true) (h : Break es rest) :
      Ending ('#' :: (cs ++ es)) rest

/-- The end of a line begins with a character that ends everything before it. -/
theorem Ending.head (h : Ending es rest) :
    ∀ c ∈ (es ++ rest).head?, c = '#' ∨ c = '\n' ∨ c = '\r' := by
  intro c hc
  cases h with
  | bare hbreak =>
      cases hbreak with
      | feed => exact Or.inr (Or.inl (Option.some.inj hc).symm)
      | returned => exact Or.inr (Or.inr (Option.some.inj hc).symm)
      | last => exact nomatch hc
  | comment => exact Or.inl (Option.some.inj hc).symm

/-- The end of a line is taken, whatever it is. -/
theorem Break.takes (h : Break es rest) : Takes lineEnd es () rest := by
  cases h with
  | feed => rfl
  | returned => rfl
  | last => rfl

/-- The rest of a line is passed, with everything that stands there. -/
theorem Ending.takes (hbs : Blanks bs) (h : Ending es rest) :
    Takes lineRest (bs ++ es) () rest := by
  have hfront : ∀ c ∈ (es ++ rest).head?, isBlank c = false := by
    intro c hc
    rcases h.head c hc with rfl | rfl | rfl <;> decide
  refine Takes.bind (takes_blanks hbs hfront) ?_
  -- There is a comment to be passed, or none.
  cases h with
  | bare hbreak =>
      have hnone : Takes comment? [] false (es ++ rest) := by
        have hmark : (es ++ rest).head? ≠ some '#' := by
          cases hbreak <;> exact fun heq => nomatch heq
        show (if (es ++ rest).head? = some '#' then _ else pure false : Reader Bool) _ = _
        rw [if_neg hmark]
        rfl
      exact Takes.glance hnone hbreak.takes
  | @comment cs es _ hplain hbreak =>
      have hstop : ∀ c ∈ (es ++ rest).head?, isPlain c = false := by
        intro c hc
        cases hbreak with
        | feed => rw [← Option.some.inj hc]; decide
        | returned => rw [← Option.some.inj hc]; decide
        | last => exact nomatch hc
      have hnote : Takes comment? ('#' :: cs) true (es ++ rest) := by
        refine Takes.glance (takes_peek _) ?_
        have hrun : Takes (run isPlain) ('#' :: cs) ('#' :: cs) (es ++ rest) := by
          refine takes_run (fun c hc => ?_) hstop
          rcases List.mem_cons.mp hc with rfl | hc
          · decide
          · exact hplain c hc
        exact hrun.returning
      exact Takes.bind hnote hbreak.takes

/-! ## Statements -/

/-- How a statement can be written on a line, and what stands on the next ones. -/
inductive LineText : Statement → List Char → List Char → Prop where
  /-- A value under a name. -/
  | pair {cs after before vs bs es rest : List Char} {name : String} {v : Value}
      (first : NameText cs name) (hafter : Blanks after) (hbefore : Blanks before)
      (second : ValueText vs v) (hbs : Blanks bs) (ending : Ending es rest) :
      LineText (.pair ⟨[], name⟩ v) (cs ++ (after ++ ('=' :: (before ++ (vs ++ (bs ++ es)))))) rest
  /-- The header of a table. -/
  | table {cs bs es rest : List Char} {name : String} (first : KeyText cs name) (hbs : Blanks bs)
      (ending : Ending es rest) :
      LineText (.table ⟨[], name⟩) ('[' :: (cs ++ (']' :: (bs ++ es)))) rest

/-- Nothing that passes for a blank or the end of a line stands in front of a statement. -/
theorem LineText.head (h : LineText st cs rest) :
    ∃ c ds, cs = c :: ds ∧ isBlank c = false := by
  cases h with
  | pair first =>
      obtain ⟨c, ds, rfl, hc⟩ := first.head
      refine ⟨c, _, rfl, ?_⟩
      by_contra hblank
      rcases isBlank_cases (Bool.of_not_eq_false hblank) with rfl | rfl <;>
        exact absurd hc (by decide)
  | table => exact ⟨'[', _, rfl, by decide⟩

/-- A value is read behind its sign, with blanks in front. -/
theorem ValueText.takes_assigned {before vs : List Char} {v : Value} (hbefore : Blanks before)
    (h : ValueText vs v) (hrest : rest.head? ≠ some '"') :
    Takes (assigned value) ('=' :: (before ++ vs)) v rest := by
  have hfront : ∀ c ∈ (vs ++ rest).head?, isBlank c = false := by
    intro c hc
    cases h with
    | text => rw [← Option.some.inj hc]; decide
    | flag b => cases b <;> (rw [← Option.some.inj hc]; decide)
  refine Takes.bind (takes_expect '=' _) ?_
  exact Takes.bind (takes_blanks hbefore hfront) (h.takes hrest)

/-- No quote stands at the front of the rest of a line. -/
theorem Ending.head?_ne_quote (hbs : Blanks bs) (h : Ending es rest) :
    (bs ++ es ++ rest).head? ≠ some '"' := by
  intro hsome
  cases bs with
  | nil => rcases h.head _ hsome with heq | heq | heq <;> exact absurd heq (by decide)
  | cons b bs =>
      have hb : isBlank b = true := hbs b List.mem_cons_self
      rw [Option.some.inj hsome] at hb
      exact absurd hb (by decide)

/-- No bracket stands at the front of a key. -/
theorem KeyText.head?_ne_bracket (h : KeyText cs name) (rest : List Char) :
    (cs ++ rest).head? ≠ some '[' := by
  cases h with
  | @name before cs after _ hbefore first hafter =>
      intro hsome
      cases before with
      | nil =>
          rw [List.nil_append, List.append_assoc] at hsome
          exact first.head_ne (by decide) _ hsome
      | cons b before =>
          have hb : isBlank b = true := hbefore b List.mem_cons_self
          rw [Option.some.inj hsome] at hb
          exact absurd hb (by decide)

/-- A statement is read from its line, up to the next one. -/
theorem LineText.takes (h : LineText st cs rest) : Takes statement cs st rest := by
  cases h with
  | @pair cs after before vs bs es _ name v first hafter hbefore second hbs ending =>
      have hkey : KeyText ([] ++ (cs ++ after)) name :=
        KeyText.name (fun c hc => nomatch hc) first hafter
      have hvalue := second.takes_assigned hbefore (ending.head?_ne_quote hbs)
      have htext : cs ++ (after ++ ('=' :: (before ++ (vs ++ (bs ++ es))))) =
          cs ++ after ++ ('=' :: (before ++ vs) ++ (bs ++ es)) := by
        simp only [List.append_assoc, List.cons_append]
      rw [htext]
      -- A key begins with no bracket, so this is no header.
      have hbracket := hkey.head?_ne_bracket ('=' :: (before ++ vs) ++ (bs ++ es) ++ rest)
      rw [List.nil_append, ← List.append_assoc] at hbracket
      refine Takes.glance (takes_missed (not_prefix_of_head? hbracket)) ?_
      refine Takes.glance (takes_missed (not_prefix_of_head? hbracket)) ?_
      refine Takes.bind (hkey.takes (by decide) _) ?_
      refine Takes.bind hvalue ?_
      exact (ending.takes hbs).closing (takes_pure _ rest)
  | @table cs bs es _ name first hbs ending =>
      have hsecond := first.head?_ne_bracket ((']' :: (bs ++ es)) ++ rest)
      rw [← List.append_assoc] at hsecond
      refine Takes.glance (takes_missed fun hboth => ?_) ?_
      · exact not_prefix_of_head? hsecond (List.cons_prefix_cons.mp hboth).2
      refine Takes.bind (takes_taken ['['] _) ?_
      refine Takes.bind (first.takes (by decide) _) ?_
      refine Takes.bind (takes_expect ']' _) ?_
      exact (ending.takes hbs).closing (takes_pure _ rest)

/-! ## Documents -/

/-- The lines of a text, and the statements that stand there. Those among them that have a form of
no interest here only have to read as statements; they may go over several lines. -/
inductive Lines : List Statement → List Char → Prop where
  /-- Nothing but blanks is left. -/
  | last {bs : List Char} (hbs : Blanks bs) : Lines [] bs
  /-- A line without a statement. -/
  | passed {bs es rest : List Char} {sts : List Statement} (hbs : Blanks bs)
      (ending : Ending es rest) (hsome : es ≠ []) (others : Lines sts rest) :
      Lines sts (bs ++ (es ++ rest))
  /-- A line of a known form. -/
  | written {bs cs rest : List Char} {st : Statement} {sts : List Statement} (hbs : Blanks bs)
      (line : LineText st cs rest) (others : Lines sts rest) :
      Lines (st :: sts) (bs ++ (cs ++ rest))
  /-- Any statement. -/
  | read {bs cs rest : List Char} {st : Statement} {sts : List Statement} (hbs : Blanks bs)
      (line : statement (cs ++ rest) = some (st, rest)) (hsome : cs ≠ [])
      (hfront : ∀ c ∈ cs.head?, isBlank c = false) (others : Lines sts rest) :
      Lines (st :: sts) (bs ++ (cs ++ rest))

/-- A value can be given in front of any other lines. -/
theorem Lines.exists_pair {v : Value} {vs : List Char}
    (hname : name.toList ≠ [] ∧ name.toList.all isBare = true) (hvalue : ValueText vs v)
    (hothers : ∃ cs, Lines sts cs) : ∃ cs, Lines (.pair ⟨[], name⟩ v :: sts) cs := by
  obtain ⟨cs, hothers⟩ := hothers
  have hnone : Blanks [] := List.forall_mem_nil _
  have hline := LineText.pair (.bare hname.1 (List.all_eq_true.mp hname.2)) hnone hnone hvalue hnone
    (.bare (.feed cs))
  exact ⟨_, Lines.written hnone hline hothers⟩

/-- A table can be opened in front of any other lines. -/
theorem Lines.exists_table (hname : name.toList ≠ [] ∧ name.toList.all isBare = true)
    (hothers : ∃ cs, Lines sts cs) : ∃ cs, Lines (.table ⟨[], name⟩ :: sts) cs := by
  obtain ⟨cs, hothers⟩ := hothers
  have hnone : Blanks [] := List.forall_mem_nil _
  have hkey := KeyText.name hnone (.bare hname.1 (List.all_eq_true.mp hname.2)) hnone
  exact ⟨_, Lines.written hnone (LineText.table hkey hnone (.bare (.feed cs))) hothers⟩

/-- Behind the last statement there may be blanks. -/
theorem takes_statementsIn_last {turns : Nat} (hbs : Blanks bs) :
    Takes (statementsIn (turns + 1)) bs [] [] := by
  have hend : ∀ c ∈ ([] : List Char).head?, isBlank c = false := by
    intro c hc
    exact nomatch hc
  exact (takes_blanks hbs hend).closing (Takes.glance (takes_peek []) (takes_pure [] []))

/-- No statement begins with the mark of a comment or an end of a line. -/
theorem statement_ending (c : Char) (cs : List Char) (hc : c = '#' ∨ c = '\n' ∨ c = '\r') :
    statement (c :: cs) = none := by
  rcases hc with rfl | rfl | rfl <;> rfl

/-- A statement is read with the line it stands on, and the next lines after it. -/
theorem takes_statementsIn_cons {turns : Nat} (hbs : Blanks bs)
    (hline : Takes statement cs st rest) (hsome : cs ≠ [])
    (hfront : ∀ c ∈ cs.head?, isBlank c = false)
    (hothers : Takes (statementsIn turns) rest sts []) :
    Takes (statementsIn (turns + 1)) (bs ++ (cs ++ rest)) (st :: sts) [] := by
  obtain ⟨c, ds, rfl⟩ := List.exists_cons_of_ne_nil hsome
  -- What reads as a statement cannot be taken for a comment or a blank line.
  have hmark : ¬ (c = '#' ∨ c = '\n' ∨ c = '\r') := by
    intro hc
    unfold Takes at hline
    rw [List.cons_append, statement_ending c _ hc] at hline
    exact nomatch hline
  have hblank : ∀ b ∈ (c :: ds ++ rest ++ []).head?, isBlank b = false := by
    intro b hb
    exact hfront b hb
  refine Takes.bind (takes_blanks hbs hblank) ?_
  refine Takes.glance (takes_peek _) ?_
  show Takes (if c = '#' ∨ c = '\n' ∨ c = '\r' then _ else _) _ _ _
  rw [if_neg hmark]
  rw [← List.append_nil rest] at hline
  exact Takes.bind hline hothers.returning

/-- A line without a statement is passed over. -/
theorem takes_statementsIn_passed {turns : Nat} (hbs : Blanks bs) (ending : Ending es rest)
    (hsome : es ≠ []) (hothers : Takes (statementsIn turns) rest sts []) :
    Takes (statementsIn (turns + 1)) (bs ++ (es ++ rest)) sts [] := by
  obtain ⟨c, ds, rfl⟩ := List.exists_cons_of_ne_nil hsome
  have hmark : c = '#' ∨ c = '\n' ∨ c = '\r' := ending.head c rfl
  have hblank : ∀ b ∈ (c :: ds ++ rest ++ []).head?, isBlank b = false := by
    intro b hb
    rw [← Option.some.inj hb]
    rcases hmark with rfl | rfl | rfl <;> decide
  refine Takes.bind (takes_blanks hbs hblank) ?_
  refine Takes.glance (takes_peek _) ?_
  show Takes (if c = '#' ∨ c = '\n' ∨ c = '\r' then _ else _) _ _ _
  rw [if_pos hmark]
  have hline : Takes lineRest ([] ++ c :: ds) () (rest ++ []) := by
    rw [List.append_nil]
    exact ending.takes fun c hc => nomatch hc
  exact Takes.bind hline hothers

/-- The statements of lines are read, one line after the other. -/
theorem Lines.takes (h : Lines sts cs) {turns : Nat} (hturns : cs.length < turns) :
    Takes (statementsIn turns) cs sts [] := by
  induction h generalizing turns with
  | last hbs =>
      obtain ⟨turns, rfl⟩ := Nat.exists_eq_add_one_of_ne_zero (Nat.ne_zero_of_lt hturns)
      exact takes_statementsIn_last hbs
  -- Each line takes a turn and at least one character, so there are turns enough.
  | passed hbs ending hsome others ih =>
      obtain ⟨turns, rfl⟩ := Nat.exists_eq_add_one_of_ne_zero (Nat.ne_zero_of_lt hturns)
      have hpos := List.length_pos_of_ne_nil hsome
      refine takes_statementsIn_passed hbs ending hsome (ih ?_)
      simp only [List.length_append] at hturns
      omega
  | written hbs line others ih =>
      obtain ⟨turns, rfl⟩ := Nat.exists_eq_add_one_of_ne_zero (Nat.ne_zero_of_lt hturns)
      have htakes := line.takes
      obtain ⟨c, ds, rfl, hfront⟩ := line.head
      refine takes_statementsIn_cons hbs htakes (List.cons_ne_nil c ds) ?_ (ih ?_)
      · intro b hb
        rw [← Option.some.inj hb]
        exact hfront
      · simp only [List.length_append, List.length_cons] at hturns
        omega
  | read hbs line hsome hfront others ih =>
      obtain ⟨turns, rfl⟩ := Nat.exists_eq_add_one_of_ne_zero (Nat.ne_zero_of_lt hturns)
      have hpos := List.length_pos_of_ne_nil hsome
      refine takes_statementsIn_cons hbs line hsome hfront (ih ?_)
      simp only [List.length_append] at hturns
      omega

/-- A text of lines, with or without a mark of the byte order in front. -/
def Written (sts : List Statement) (text : String) : Prop :=
  ∃ cs, (text.toList = cs ∨ text.toList = '\ufeff' :: cs) ∧ Lines sts cs

/-- The mark of the byte order begins no line. -/
theorem statementsIn_mark (turns : Nat) (cs : List Char) :
    statementsIn turns ('\ufeff' :: cs) = none := by
  cases turns <;> rfl

/-- A text reads as the statements of its lines. -/
theorem statements?_of_written {text : String} (h : Written sts text) :
    statements? text = some sts := by
  obtain ⟨cs, htext, hlines⟩ := h
  have hread : statementsIn (cs.length + 1) cs = some (sts, []) := by
    have htakes := hlines.takes (Nat.lt_succ_self cs.length)
    unfold Takes at htakes
    rwa [List.append_nil] at htakes
  have hfront :
      (if text.toList.head? = some '\ufeff' then text.toList.tail else text.toList) = cs := by
    -- A mark in front is dropped. Without one nothing is, as no line begins with it.
    rcases htext with heq | heq
    · rw [heq]
      refine if_neg fun hmark => ?_
      cases cs with
      | nil => exact nomatch hmark
      | cons c cs =>
          rw [Option.some.inj hmark, statementsIn_mark] at hread
          exact nomatch hread
    · rw [heq]
      exact if_pos rfl
  unfold statements?
  dsimp only
  rw [hfront, hread]
  rfl

end ProfileAdmin.Toml
