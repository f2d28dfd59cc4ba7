import ProfileAdmin.Json.Content
import ProfileAdmin.Proofs.Json.Skip

/-!
# Proofs.Json.Blame — what readers blame

1. **Blame**: a reader stops with a flaw of the text, or with a mismatch of which something holds.
   What holds of the parts of a reader holds of the reader.
2. **Tokens, texts and numbers** stop with flaws only.
3. **Brackets** stop with what their inside stops with.
4. **What is not expected** is blamed as it is found.
5. **Passing over** stops with flaws only.
-/

namespace ProfileAdmin.Json

open Document (Found Mismatch)

variable {α β σ : Type} {P : Mismatch → Prop}

/-! ## Blame -/

/-- The mismatch that is blamed, if it is not a flaw, has a property. -/
def Stop.Blames (P : Mismatch → Prop) : Stop → Prop
  | .placed (.flaw _) _ => True
  | .placed (.mismatch m) _ => P m
  | .loose m _ => P m

/-- All mismatches that a reader blames have a property. -/
def Blames (P : Mismatch → Prop) (r : Reader α) : Prop :=
  ∀ s stop, r s = .error stop → stop.Blames P

/-- A reader that does not stop blames nothing. -/
theorem blames_pure (a : α) : Blames P (pure a : Reader α) := by
  intro s stop h
  cases h

theorem blames_ok {f : List UInt8 → α × List UInt8} :
    Blames P (fun s => .ok (f s) : Reader α) := by
  intro s stop h
  cases h

/-- Flaws of the text are blamed without further ado. -/
theorem blames_stopHere (f : Flaw) : Blames P (stopHere f : Reader α) := by
  intro s stop h
  cases h
  trivial

theorem blames_stopAhead (f : Flaw) : Blames P (stopAhead f : Reader α) := by
  intro s stop h
  cases h
  trivial

/-- A mismatch is blamed only if the property holds of it. -/
theorem blames_mismatched {m : Mismatch} (hm : P m) : Blames P (mismatched m : Reader α) := by
  intro s stop h
  cases h
  exact hm

theorem blames_stopLoose {m : Mismatch} (hm : P m) : Blames P (stopLoose m : Reader α) := by
  intro s stop h
  cases h
  exact hm

/-- What holds of two readers holds of one after the other. -/
theorem blames_bind {r : Reader α} {f : α → Reader β} (hr : Blames P r)
    (hf : ∀ a, Blames P (f a)) : Blames P (r >>= f) := by
  intro s stop h
  change (r s >>= fun x => f x.1 x.2) = .error stop at h
  -- Either the first one stops, or the second one does with what is left.
  cases hfirst : r s with
  | error stop' =>
      rw [hfirst] at h
      cases h
      exact hr s stop hfirst
  | ok x =>
      rw [hfirst] at h
      exact hf x.1 x.2 stop h

theorem blames_map {r : Reader α} (f : α → β) (hr : Blames P r) : Blames P (f <$> r) := by
  rw [← bind_pure_comp]
  exact blames_bind hr fun a => blames_pure (f a)

/-! ## Tokens, texts and numbers -/

theorem blames_peek : Blames P peek :=
  blames_ok

theorem blames_advance : Blames P advance :=
  blames_ok

theorem blames_glance : Blames P glance :=
  blames_ok

theorem blames_digitRun : Blames P digitRun :=
  blames_ok

theorem blames_peekValue : Blames P peekValue := by
  refine blames_bind blames_peek fun b => ?_
  cases b with
  | none => exact blames_stopAhead _
  | some b => exact blames_pure b

theorem blames_word (letters : List UInt8) : Blames P (word letters) := by
  induction letters with
  | nil => exact blames_pure ()
  | cons w ws ih =>
      intro s stop h
      cases s with
      | nil => exact blames_stopHere _ _ _ h
      | cons b rest =>
          rw [word] at h
          dsimp only at h
          split at h
          · exact ih rest stop h
          · exact blames_stopHere _ _ _ h

theorem blames_scan (w : Within) (held : List UInt8) : Blames P (scan w held) := by
  intro s
  fun_induction scan w held s
  all_goals intro stop h
  all_goals first
    | exact blames_stopHere _ _ _ h
    | (rename_i ih; exact ih stop h)
    | cases h

/-- A text that is no text is a flaw, and not a mismatch. -/
theorem blames_text : Blames P text := by
  intro s stop h
  unfold text at h
  cases hscan : scan .plain [] s with
  | error stop' =>
      rw [hscan] at h
      cases h
      exact blames_scan _ _ s stop hscan
  | ok x =>
      rw [hscan] at h
      obtain ⟨bytes, rest⟩ := x
      dsimp only [bind, Except.bind] at h
      split at h
      · cases h
      · cases h
        trivial

theorem blames_real (negative : Bool) (significand : Nat) (e : Int) :
    Blames P (real negative significand e) := by
  unfold real
  split
  · exact blames_stopHere _
  · exact blames_pure _

theorem blames_exponent (negative : Bool) (significand : Nat) (start : Int) :
    Blames P (exponent negative significand start) := by
  refine blames_bind blames_glance fun sign => ?_
  dsimp only
  split
  case' h_1 => refine blames_bind blames_advance fun _ => ?_
  case' h_2 => refine blames_bind blames_advance fun _ => ?_
  -- Behind the sign, or without one, the digits are read alike.
  all_goals
    refine blames_bind (blames_pure _) fun down => blames_bind blames_glance fun b => ?_
    split
    · exact blames_stopHere _
    split
    · refine blames_bind blames_digitRun fun ds => ?_
      split
      · exact blames_real _ _ _
      split
      · intro s
        exact blames_stopHere _ _
      · exact blames_pure _
    · exact blames_bind blames_advance fun _ => blames_stopHere _

theorem blames_exponentLetter : Blames P exponentLetter := by
  refine blames_bind blames_glance fun b => ?_
  split
  · exact blames_bind blames_advance fun _ => blames_pure _
  · exact blames_bind blames_advance fun _ => blames_pure _
  · exact blames_pure _

theorem blames_fraction (negative : Bool) (significand : Nat) (start : Int) :
    Blames P (fraction negative significand start) := by
  refine blames_bind blames_digitRun fun ds => ?_
  dsimp only
  split
  · refine blames_bind blames_glance fun b => ?_
    split
    · exact blames_stopAhead _
    · exact blames_stopAhead _
  · refine blames_bind blames_exponentLetter fun found => ?_
    split
    · exact blames_exponent _ _ _
    · exact blames_real _ _ _

theorem blames_afterWhole (negative : Bool) (significand dropped : Nat) :
    Blames P (afterWhole negative significand dropped) := by
  refine blames_bind blames_glance fun b => ?_
  split
  · exact blames_bind blames_advance fun _ => blames_fraction _ _ _
  refine blames_bind blames_exponentLetter fun found => ?_
  split
  · exact blames_exponent _ _ _
  split
  · exact blames_real _ _ _
  split
  · exact blames_pure _
  split
  · exact blames_pure _
  · exact blames_pure _

theorem blames_number (negative : Bool) : Blames P (number negative) := by
  refine blames_bind blames_glance fun b => ?_
  -- A leading nought, another digit, or something else: each may be followed by a fraction or an
  -- exponent.
  split
  · exact blames_stopHere _
  split
  · refine blames_bind blames_advance fun _ => blames_bind blames_glance fun d => ?_
    split
    · split
      · exact blames_stopAhead _
      · exact blames_afterWhole _ _ _
    · exact blames_afterWhole _ _ _
  split
  · exact blames_bind blames_digitRun fun ds => blames_afterWhole _ _ _
  · exact blames_bind blames_advance fun _ => blames_stopHere _

/-! ## Brackets -/

theorem blames_anotherElement (isFirst : Bool) : Blames P (anotherElement isFirst) := by
  refine blames_bind blames_peek fun b => ?_
  split
  · exact blames_stopAhead _
  split
  · exact blames_pure _
  split
  · exact blames_pure _
  split
  · refine blames_bind blames_advance fun _ => blames_bind blames_peek fun c => ?_
    split
    · exact blames_stopAhead _
    · split
      · exact blames_stopAhead _
      · exact blames_pure _
  · exact blames_stopAhead _

theorem blames_opening (b : UInt8) : Blames P (anotherMember.opening b) := by
  unfold anotherMember.opening
  split
  · exact blames_bind blames_advance fun _ => blames_pure _
  · exact blames_stopAhead _

theorem blames_anotherMember (isFirst : Bool) : Blames P (anotherMember isFirst) := by
  refine blames_bind blames_peek fun b => ?_
  split
  · exact blames_stopAhead _
  split
  · exact blames_pure _
  split
  · exact blames_opening _
  split
  · refine blames_bind blames_advance fun _ => blames_bind blames_peek fun c => ?_
    split
    · exact blames_stopAhead _
    · split
      · exact blames_stopAhead _
      · exact blames_opening _
  · exact blames_stopAhead _

theorem blames_colon : Blames P colon := by
  refine blames_bind blames_peek fun b => ?_
  split
  · exact blames_stopAhead _
  split
  · exact blames_advance
  · exact blames_stopAhead _

/-- Elements blame what one element blames. -/
theorem blames_elements {one : Reader α} (hone : Blames P one) (isFirst : Bool) :
    Blames P (elements one isFirst) := by
  have hin : ∀ turns isFirst, Blames P (elementsIn one turns isFirst) := by
    -- To run out of turns would be a flaw as well, so their number does not matter.
    intro turns
    induction turns with
    | zero => exact fun isFirst => blames_stopHere _
    | succ turns ih =>
        intro isFirst
        refine blames_bind (blames_anotherElement isFirst) fun found => ?_
        split
        · exact blames_bind hone fun a => blames_bind (ih false) fun others => blames_pure _
        · exact blames_pure _
  intro s
  exact hin (s.length + 1) isFirst s

/-- Members blame what the step behind a name blames. -/
theorem blames_members {step : String → σ → Reader σ} (hstep : ∀ name acc, Blames P (step name acc))
    (acc : σ) : Blames P (members step acc) := by
  have hin : ∀ turns isFirst acc, Blames P (membersIn step turns isFirst acc) := by
    intro turns
    induction turns with
    | zero => exact fun isFirst acc => blames_stopHere _
    | succ turns ih =>
        intro isFirst acc
        refine blames_bind (blames_anotherMember isFirst) fun found => ?_
        split
        · exact blames_bind blames_text fun name =>
            blames_bind (hstep name acc) fun acc => ih false acc
        · exact blames_pure _
  intro s
  exact hin (s.length + 1) true acc s

/-- A bracket that does not close is a flaw. -/
theorem blames_close (kind : Bracket) : Blames P kind.close := by
  cases kind with
  | list =>
      refine blames_bind blames_peek fun b => ?_
      split
      · exact blames_stopAhead _
      split
      · exact blames_advance
      split
      · refine blames_bind blames_advance fun _ => blames_bind blames_peek fun c => ?_
        split
        · split
          · exact blames_stopAhead _
          · exact blames_stopAhead _
        · exact blames_stopAhead _
      · exact blames_stopAhead _
  | object =>
      refine blames_bind blames_peek fun b => ?_
      split
      · exact blames_stopAhead _
      split
      · exact blames_advance
      split
      · exact blames_stopAhead _
      · exact blames_stopAhead _

/-- A bracket gives a place to what its inside blames, and blames nothing else. -/
theorem blames_bracketed (kind : Bracket) (levels : Nat) {inside : Nat → Reader α}
    (hinside : ∀ levels, Blames P (inside levels)) : Blames P (bracketed kind levels inside) := by
  cases levels with
  | zero => exact blames_stopAhead _
  | succ levels =>
      refine blames_bind blames_advance fun _ => blames_bind ?_ fun a =>
        blames_bind (blames_close kind) fun _ => blames_pure a
      -- Only what is still without a place is given one; the mismatch stays the same.
      intro s stop h
      dsimp only at h
      split at h
      · rename_i m rest hloose
        cases h
        exact hinside levels s (.loose m rest) hloose
      · exact hinside levels s stop h

/-! ## What is not expected -/

/-- What is looked at for the sake of a message may have flaws of its own. -/
theorem blames_glimpse : Blames P glimpse := by
  refine blames_bind blames_peekValue fun b => ?_
  split
  · exact blames_bind blames_advance fun _ => blames_bind (blames_word _) fun _ => blames_pure _
  · exact blames_bind blames_advance fun _ => blames_bind (blames_word _) fun _ => blames_pure _
  · exact blames_bind blames_advance fun _ => blames_bind (blames_word _) fun _ => blames_pure _
  · exact blames_bind blames_advance fun _ => blames_number true
  · exact blames_bind blames_advance fun _ => blames_map _ blames_text
  · exact blames_pure _
  · exact blames_pure _
  · split
    · exact blames_number false
    · exact blames_stopAhead _

/-- What is found is blamed as it is found. -/
theorem blames_unexpected {expected : String} (hP : ∀ found, P (.wrongType found expected)) :
    Blames P (unexpected expected : Reader α) :=
  blames_bind blames_glimpse fun found => blames_mismatched (hP found)

/-! ## Passing over -/

theorem blames_skipText (escaped : Bool) : Blames P (skipText escaped) := by
  intro s
  fun_induction skipText escaped s
  all_goals intro stop h
  all_goals first
    | exact blames_stopHere _ _ _ h
    | (rename_i ih; exact ih stop h)
    | cases h

theorem blames_skipDigits : Blames P skipDigits :=
  blames_ok

theorem blames_skipExponent : Blames P skipExponent := by
  intro s
  unfold skipExponent
  dsimp only
  split
  · split
    · exact blames_bind blames_skipDigits (fun _ => blames_pure ()) _
    · exact blames_stopHere _ _
  · exact blames_stopHere _ _

theorem blames_skipTail : Blames P skipTail := by
  intro s
  unfold skipTail
  split
  · refine blames_bind blames_skipDigits (fun count => ?_) _
    split
    · exact blames_stopAhead _
    · intro s
      dsimp only
      split
      · exact blames_skipExponent _
      · exact blames_skipExponent _
      · exact blames_pure () _
  · exact blames_skipExponent _
  · exact blames_skipExponent _
  · exact blames_pure () _

theorem blames_skipNumber : Blames P skipNumber := by
  intro s
  unfold skipNumber
  split
  · exact blames_stopHere _ _
  split
  · split
    · split
      · exact blames_stopAhead _ _
      · exact blames_skipTail _
    · exact blames_skipTail _
  split
  · exact blames_bind blames_skipDigits (fun _ => blames_skipTail) _
  · exact blames_stopHere _ _

theorem blames_skipStart : Blames P skipStart := by
  refine blames_bind blames_peekValue fun b => ?_
  split
  · exact blames_bind blames_advance fun _ => blames_bind (blames_word _) fun _ => blames_pure _
  · exact blames_bind blames_advance fun _ => blames_bind (blames_word _) fun _ => blames_pure _
  · exact blames_bind blames_advance fun _ => blames_bind (blames_word _) fun _ => blames_pure _
  · exact blames_bind blames_advance fun _ => blames_bind blames_skipNumber fun _ => blames_pure _
  · exact blames_bind blames_advance fun _ =>
      blames_bind (blames_skipText false) fun _ => blames_pure _
  · exact blames_bind blames_advance fun _ => blames_pure _
  · exact blames_bind blames_advance fun _ => blames_pure _
  · split
    · exact blames_bind blames_skipNumber fun _ => blames_pure _
    · exact blames_stopAhead _

theorem blames_skipName : Blames P skipName := by
  refine blames_bind blames_peek fun b => ?_
  split
  · exact blames_stopAhead _
  split
  · exact blames_bind blames_advance fun _ =>
      blames_bind (blames_skipText false) fun _ => blames_colon
  · exact blames_stopAhead _

theorem blames_skipNext (kind : Bracket) (behindItem : Bool) :
    Blames P (skipNext kind behindItem) := by
  refine blames_bind blames_peek fun b => ?_
  split
  · exact blames_stopAhead _
  split
  · exact blames_bind blames_advance fun _ => blames_pure _
  split
  · exact blames_bind blames_advance fun _ => blames_pure _
  split
  · exact blames_stopAhead _
  · exact blames_pure _

/-- The turns are counted down by two functions that call each other, so they are dealt with at
once. -/
theorem blames_skipIn (turns : Nat) :
    (∀ opened, Blames P (skipIn turns opened)) ∧
      ∀ kind outer behindItem, Blames P (skipIn.inside turns kind outer behindItem) := by
  induction turns with
  | zero => exact ⟨fun _ => blames_stopHere _, fun _ _ _ => blames_stopHere _⟩
  | succ turns ih =>
      obtain ⟨hvalue, hinside⟩ := ih
      -- Both are left one turn fewer, so the two hypotheses serve each of them.
      have hresume : ∀ opened, Blames P (resume turns opened) := by
        intro opened
        cases opened with
        | nil => exact blames_pure ()
        | cons kind outer => exact hinside kind outer true
      have henter : ∀ kind outer, Blames P (enter turns kind outer) := by
        intro kind outer
        cases kind with
        | list => exact hvalue _
        | object => exact blames_bind blames_skipName fun _ => hvalue _
      constructor
      · intro opened
        rw [skipIn_succ]
        refine blames_bind blames_skipStart fun start => ?_
        cases start with
        | plain => exact hresume opened
        | bracket kind => exact hinside kind opened false
      · intro kind outer behindItem
        rw [inside_succ]
        refine blames_bind (blames_skipNext kind behindItem) fun next => ?_
        cases next with
        | item => exact henter kind outer
        | closed => exact hresume outer

/-- Passing over a value blames flaws of the text only. -/
theorem blames_skip : Blames P skip := by
  intro s
  exact (blames_skipIn (2 * s.length + 2)).1 [] s

end ProfileAdmin.Json
