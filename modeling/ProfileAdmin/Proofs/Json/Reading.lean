import ProfileAdmin.Json.Content
import ProfileAdmin.Proofs.Json.Grammar

/-!
# Proofs.Json.Reading — what readers take from a text

1. **Outcomes**: what a reader gives and leaves, if it does not stop.
2. **Tokens** with blanks before them.
3. **Texts**: a body is read as the text that it denotes.
4. **Mismatches** are never passed.
-/

namespace ProfileAdmin.Json

open Text.Utf16 (isLead isTrail joined)

variable {α β : Type} {b : UInt8} {blanks s rest : List UInt8}

/-! ## Outcomes -/

/-- What a reader gives and leaves unread, unless it stops. -/
def outcome (r : Reader α) (s : List UInt8) : Option (α × List UInt8) :=
  (r s).toOption

theorem outcome_eq_some_iff {r : Reader α} {a : α} :
    outcome r s = some (a, rest) ↔ r s = .ok (a, rest) := by
  unfold outcome
  cases h : r s with
  | error stop => simp [Except.toOption]
  | ok x => simp [Except.toOption]

@[simp] theorem outcome_pure (a : α) : outcome (pure a) s = some (a, s) := rfl

@[simp] theorem outcome_bind (r : Reader α) (f : α → Reader β) :
    outcome (r >>= f) s = (outcome r s).bind fun x => outcome (f x.1) x.2 := by
  have hbind : (r >>= f) s = (r s).bind fun x => f x.1 x.2 := rfl
  unfold outcome
  rw [hbind]
  cases r s with
  | error stop => rfl
  | ok x => rfl

@[simp] theorem outcome_map (f : α → β) (r : Reader α) :
    outcome (f <$> r) s = (outcome r s).map fun x => (f x.1, x.2) := by
  have hmap : f <$> r = r >>= fun a => pure (f a) := rfl
  rw [hmap, outcome_bind]
  cases outcome r s with
  | none => rfl
  | some x => rfl

/-! ## Tokens -/

/-- Blanks are dropped up to the first byte that is none. -/
theorem dropWhile_blanks (h : Blanks blanks) (s : List UInt8) :
    (blanks ++ s).dropWhile isBlankByte = s.dropWhile isBlankByte := by
  induction blanks with
  | nil => rfl
  | cons b blanks ih =>
      obtain ⟨hb, hblanks⟩ := List.forall_mem_cons.mp h
      rw [List.cons_append, List.dropWhile_cons_of_pos hb]
      exact ih hblanks

/-- Blanks are passed over on the way to the next byte. -/
theorem outcome_peek (h : Blanks blanks) (hb : isBlankByte b = false) :
    outcome peek (blanks ++ b :: s) = some (some b, b :: s) := by
  have hdrop : (blanks ++ b :: s).dropWhile isBlankByte = b :: s := by
    rw [dropWhile_blanks h, List.dropWhile_cons_of_neg (by simp [hb])]
  rw [outcome_eq_some_iff, peek, hdrop]
  rfl

theorem outcome_peekValue (h : Blanks blanks) (hb : isBlankByte b = false) :
    outcome peekValue (blanks ++ b :: s) = some (b, b :: s) := by
  rw [peekValue, outcome_bind, outcome_peek h hb]
  rfl

@[simp] theorem outcome_advance : outcome advance (b :: s) = some ((), s) := rfl

/-- The letters of a word are read off one by one. -/
theorem outcome_word (letters : List UInt8) :
    outcome (word letters) (letters ++ s) = some ((), s) := by
  induction letters with
  | nil => rfl
  | cons w ws ih =>
      have hstep : outcome (word (w :: ws)) (w :: ws ++ s) = outcome (word ws) (ws ++ s) := by
        have hword : word (w :: ws) (w :: (ws ++ s)) = word ws (ws ++ s) := if_pos rfl
        rw [outcome, List.cons_append, hword, outcome]
      rw [hstep, ih]

theorem outcome_colon (h : Blanks blanks) :
    outcome colon (blanks ++ 0x3A :: s) = some ((), s) := by
  rw [colon, outcome_bind, outcome_peek h (by decide)]
  rfl

/-! ## Texts -/

/-- One turn of the scan for each way to write a character. -/
theorem scan_plain (h : isPlainByte b = true) (held s : List UInt8) :
    scan .plain held (b :: s) = scan .plain (b :: held) s := by
  simp only [isPlainByte, Bool.and_eq_true, decide_eq_true_eq, bne_iff_ne] at h
  obtain ⟨⟨hcontrol, hquote⟩, hslash⟩ := h
  rw [scan, if_neg hquote, if_neg hslash, if_neg (by simpa using hcontrol)]

theorem scan_escape (held s : List UInt8) :
    scan .plain held (0x5C :: s) = scan .escape held s := by
  rw [scan, if_neg (by decide), if_pos rfl]

theorem scan_short {letter meant : UInt8} (h : shortEscape? letter = some meant)
    (held s : List UInt8) :
    scan .escape held (letter :: s) = scan .plain (meant :: held) s := by
  have hne : letter ≠ 0x75 := by
    rintro rfl
    cases h
  conv => lhs; unfold scan
  rw [if_neg hne, h]

theorem scan_unit {b₁ b₂ b₃ b₄ : UInt8} {n : Nat} (h : hexUnit? b₁ b₂ b₃ b₄ = some n)
    (held s : List UInt8) :
    scan .escape held (0x75 :: b₁ :: b₂ :: b₃ :: b₄ :: s) =
      if isTrail n then stopHere .loneSurrogate s
      else if isLead n then scan (.paired n) held s
      else scan .plain ((String.utf8EncodeChar (Char.ofNat n)).reverse ++ held) s := by
  rw [scan, if_pos rfl]
  simp only [h]

/-- Behind the first half of a pair, the second half has to come. -/
theorem scan_paired {b₁ b₂ b₃ b₄ : UInt8} {n m : Nat} (h : hexUnit? b₁ b₂ b₃ b₄ = some m)
    (held s : List UInt8) :
    scan (.paired n) held (0x5C :: 0x75 :: b₁ :: b₂ :: b₃ :: b₄ :: s) =
      if isTrail m then scan .plain ((String.utf8EncodeChar (joined n m)).reverse ++ held) s
      else stopHere .loneSurrogate s := by
  rw [scan, if_pos rfl, scan, if_pos rfl]
  simp only [h]

/-- Where a text is read from: behind the first half of a pair, or elsewhere. -/
def Within.behind : Option Nat → Within
  | none => .plain
  | some lead => .paired lead

/-- From wherever it begins, the scan takes a body up to its closing quote and puts what the body
denotes behind what it holds, if the body denotes anything there. -/
theorem outcome_scan_behind (lead : Option Nat) (body : Body) (held s : List UInt8) :
    outcome (scan (.behind lead) held) (body.written ++ 0x22 :: s) =
      (body.denotedFrom? lead).map fun bytes => (held.reverse ++ bytes, s) := by
  -- The induction is on the pieces. What is held and the half that waits are handed on.
  induction body generalizing lead held with
  | nil =>
      cases lead with
      | none =>
          rw [outcome]
          change (scan .plain held (0x22 :: s)).toOption = some (held.reverse ++ [], s)
          rw [scan, if_pos rfl, List.append_nil]
          rfl
      | some n =>
          rw [outcome]
          change (scan (.paired n) held (0x22 :: s)).toOption = none
          rw [scan, if_neg (by decide)]
          rfl
  | cons piece body ih =>
      -- Each piece that denotes something adds it to what is held, and the rest is the induction.
      have hmap : ∀ (held : List UInt8) (front : List UInt8),
          outcome (scan .plain (front.reverse ++ held)) (Body.written body ++ 0x22 :: s) =
            ((Body.denotedFrom? none body).map (front ++ ·)).map
              fun bytes => (held.reverse ++ bytes, s) := by
        intro held front
        rw [Option.map_map]
        refine (ih none (front.reverse ++ held)).trans ?_
        exact congrArg (Option.map · _) (funext fun _ => by simp)
      rw [Body.written_cons, List.append_assoc, outcome]
      cases lead with
      | none =>
          change (scan .plain held _).toOption = _
          cases piece with
          | plain b h =>
              rw [Piece.bytes, List.singleton_append, scan_plain h, Body.denotedFrom?]
              exact hmap held [b]
          | short letter meant h =>
              change (scan .plain held (0x5C :: letter :: _)).toOption = _
              rw [scan_escape, scan_short h, Body.denotedFrom?]
              exact hmap held [meant]
          | unit a b c d n h =>
              change (scan .plain held (0x5C :: 0x75 :: a :: b :: c :: d :: _)).toOption = _
              rw [scan_escape, scan_unit h, Body.denotedFrom?]
              by_cases htrail : isTrail n = true
              · rw [if_pos htrail, if_pos htrail]
                rfl
              rw [if_neg htrail, if_neg htrail]
              by_cases hlead : isLead n = true
              · rw [if_pos hlead, if_pos hlead]
                exact ih (some n) held
              · rw [if_neg hlead, if_neg hlead]
                exact hmap held _
      | some lead =>
          change (scan (.paired lead) held _).toOption = _
          cases piece with
          | plain b h =>
              -- Behind a first half only a second half is taken; every other piece denotes nothing
              -- there.
              have hne : b ≠ 0x5C := by
                rintro rfl
                cases h
              rw [Piece.bytes, List.singleton_append, scan, if_neg hne]
              rfl
          | short letter meant h =>
              have hne : letter ≠ 0x75 := by
                rintro rfl
                cases h
              change (scan (.paired lead) held (0x5C :: letter :: _)).toOption = _
              rw [scan, if_pos rfl]
              conv => lhs; unfold scan
              rw [if_neg hne]
              rfl
          | unit a b c d n h =>
              change (scan (.paired lead) held (0x5C :: 0x75 :: a :: b :: c :: d :: _)).toOption = _
              rw [scan_paired h, Body.denotedFrom?]
              by_cases htrail : isTrail n = true
              · rw [if_pos htrail, if_pos htrail]
                exact hmap held _
              · rw [if_neg htrail, if_neg htrail]
                rfl

/-- A body is read as the bytes that it denotes. -/
theorem outcome_scan (body : Body) (s : List UInt8) :
    outcome (scan .plain []) (body.written ++ 0x22 :: s) =
      body.denoted?.map fun bytes => (bytes, s) :=
  outcome_scan_behind none body [] s

/-- A text behind its opening quote. -/
theorem outcome_text (body : Body) (s : List UInt8) :
    outcome text (body.written ++ 0x22 :: s) = body.text?.map fun t => (t, s) := by
  have hscan := outcome_scan body s
  unfold outcome at hscan ⊢
  unfold text Body.text?
  -- Either both the scan and the body give bytes, the same ones, or neither does.
  cases h : scan .plain [] (body.written ++ 0x22 :: s) with
  | error stop =>
      rw [h] at hscan
      cases hd : body.denoted? with
      | none => rfl
      | some bytes =>
          rw [hd] at hscan
          cases hscan
  | ok x =>
      obtain ⟨bytes, rest⟩ := x
      rw [h] at hscan
      cases hd : body.denoted? with
      | none =>
          rw [hd] at hscan
          cases hscan
      | some bytes' =>
          rw [hd] at hscan
          cases hscan
          cases ht : Text.Utf8.text? bytes with
          | none => simp [ht, Except.toOption, Bind.bind, Except.bind]
          | some t => simp [ht, Except.toOption, Bind.bind, Except.bind]

/-! ## Mismatches -/

/-- What is not of the expected kind is not passed, whether it can be read or not. -/
@[simp] theorem outcome_unexpected (expected : String) :
    outcome (unexpected expected : Reader α) s = none := by
  rw [unexpected, outcome_bind]
  cases outcome glimpse s with
  | none => rfl
  | some x => rfl

end ProfileAdmin.Json
