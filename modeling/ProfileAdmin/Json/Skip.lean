import ProfileAdmin.Json.Reader

/-!
# Json.Skip — passing over a value

A member that nobody asked for has to be a JSON value, but need not denote one:
its numbers may be out of range, its texts may hold lone surrogates or bytes that
are no characters, and its brackets may nest as deep as they like. The brackets
that are open are kept in a list, the innermost first.
-/

namespace ProfileAdmin.Json

/-- A text behind its opening quote, passed over. The flag tells whether a
backslash came last. -/
def skipText : Bool → Reader Unit
  | escaped, s =>
    match escaped, s with
    | _, [] => stopHere .endInText []
    | false, b :: rest =>
      if b = 0x22 then .ok ((), rest)
      else if b = 0x5C then skipText true rest
      else if b < 0x20 then stopHere .controlCharacter (b :: rest)
      else skipText false rest
    | true, b :: rest =>
      if b = 0x75 then
        match rest with
        | h₁ :: h₂ :: h₃ :: h₄ :: rest =>
          match hexUnit? h₁ h₂ h₃ h₄ with
          | none => stopHere .invalidEscape rest
          | some _ => skipText false rest
        | _ => stopHere .endInText []
      else match shortEscape? b with
        | some _ => skipText false rest
        | none => stopHere .invalidEscape rest
termination_by _ s => s.length

/-- Passes the digits that follow, and counts them. -/
def skipDigits : Reader Nat := fun s =>
  .ok ((s.takeWhile isDigitByte).length, s.dropWhile isDigitByte)

/-- An exponent behind its letter, passed over. -/
def skipExponent : Reader Unit := fun s =>
  let s := match s with
    | 0x2B :: rest => rest
    | 0x2D :: rest => rest
    | _ => s
  match s with
  | b :: rest => if isDigitByte b then (do let _ ← skipDigits) rest else stopHere .invalidNumber rest
  | [] => stopHere .invalidNumber []

/-- Whatever may follow the digits of a number, passed over. -/
def skipTail : Reader Unit := fun s =>
  match s with
  | 0x2E :: rest =>
    (do
      if (← skipDigits) = 0 then stopAhead .invalidNumber
      -- Behind a fraction there may be an exponent, but no second point.
      else fun s =>
        match s with
        | 0x65 :: rest => skipExponent rest
        | 0x45 :: rest => skipExponent rest
        | _ => .ok ((), s)) rest
  | 0x65 :: rest => skipExponent rest
  | 0x45 :: rest => skipExponent rest
  | _ => .ok ((), s)

/-- A number from its first digit on, passed over. -/
def skipNumber : Reader Unit := fun s =>
  match s with
  | [] => stopHere .invalidNumber []
  | b :: rest =>
    if b = 0x30 then
      match rest with
      | d :: _ => if isDigitByte d then stopAhead .invalidNumber rest else skipTail rest
      | [] => skipTail rest
    else if isDigitByte b then (do let _ ← skipDigits; skipTail) rest
    else stopHere .invalidNumber rest

/-- What a value begins with. -/
inductive Start where
  | plain
  | bracket (b : Bracket)

/-- The beginning of a value: a plain value is passed whole, a bracket is opened. -/
def skipStart : Reader Start := do
  let b ← peekValue
  match b.toNat with
  | 0x6E => advance; word nullLetters; pure .plain
  | 0x74 => advance; word trueLetters; pure .plain
  | 0x66 => advance; word falseLetters; pure .plain
  | 0x2D => advance; skipNumber; pure .plain
  | 0x22 => advance; skipText false; pure .plain
  | 0x5B => advance; pure (.bracket .list)
  | 0x7B => advance; pure (.bracket .object)
  | _ =>
    if isDigitByte b then do skipNumber; pure .plain
    else stopAhead .valueExpected

/-- The name of a member and its colon, passed over. -/
def skipName : Reader Unit := do
  match ← peek with
  | none => stopAhead .endInObject
  | some b =>
    if b = 0x22 then
      advance
      skipText false
      colon
    else stopAhead .keyNotText

/-- What is to come inside an open bracket. -/
inductive Next where
  | item
  | closed
  deriving DecidableEq

/-- Looks for the next item of an open bracket or for its end. `behindItem` tells
whether an item came last, so that a comma has to. -/
def skipNext (kind : Bracket) (behindItem : Bool) : Reader Next := do
  match ← peek with
  | none => stopAhead (match kind with | .list => .endInList | .object => .endInObject)
  | some b =>
    if b = 0x2C ∧ behindItem = true then
      advance
      pure .item
    else if b = 0x5D ∧ kind = .list ∨ b = 0x7D ∧ kind = .object then
      advance
      pure .closed
    else if behindItem then
      stopAhead (match kind with | .list => .listCommaOrEnd | .object => .objectCommaOrEnd)
    else pure .item

/-- Passes over a value and everything up to the end of the brackets in `opened`, in
at most `turns` turns. -/
def skipIn : Nat → List Bracket → Reader Unit
  | 0, _ => stopHere .endInValue
  | turns + 1, opened => do
    match ← skipStart with
    | .bracket kind => inside turns kind opened false
    | .plain =>
      match opened with
      | [] => pure ()
      -- A plain value is an item of the bracket around it.
      | kind :: outer => inside turns kind outer true
where
  /-- Goes on inside the innermost bracket. -/
  inside : Nat → Bracket → List Bracket → Bool → Reader Unit
    | 0, _, _, _ => stopHere .endInValue
    | turns + 1, kind, outer, behindItem => do
      match ← skipNext kind behindItem with
      | .item =>
        if kind = .object then skipName
        skipIn turns (kind :: outer)
      | .closed =>
        match outer with
        | [] => pure ()
        | kind :: outer => inside turns kind outer true

/-- Passes over one value. Two turns pass at least one byte. -/
def skip : Reader Unit := fun s =>
  skipIn (2 * s.length + 2) [] s

end ProfileAdmin.Json
