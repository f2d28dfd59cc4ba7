import ProfileAdmin.Json.Fault
import ProfileAdmin.Text.Utf16
import ProfileAdmin.Text.Utf8

/-!
# Json.Reader — a JSON text, one token at a time

1. **Readers**: functions on the bytes not yet read. A reader that stops says
   why, and how many bytes were left at the place to blame.
2. **Tokens**: blanks, words, punctuation.
3. **Texts**: a machine over the bytes between two quotes.
4. **Brackets**: elements and members, with the nesting limit.

A text is read from the front in one pass, so the first fault in reading order
is the one that is reported.
-/

namespace ProfileAdmin.Json

open Document (Mismatch Found)
open Text.Utf16 (isLead isTrail joined)

/-! ## Readers -/

/-- Why a reading stopped. A `placed` stop blames the byte with `left` bytes
behind it. A `loose` one is a mismatch of a whole value, which is blamed on the
end of the bracket around it; `rest` is what was still unread. -/
inductive Stop where
  | placed (cause : Cause) (left : Nat)
  | loose (mismatch : Mismatch) (rest : List UInt8)

/-- A function from the bytes not yet read to a value and the bytes behind it. -/
abbrev Reader (α : Type) := StateT (List UInt8) (Except Stop) α

variable {α σ : Type}

/-- Stops and blames the last byte that was read. -/
def stopHere (f : Flaw) : Reader α := fun s =>
  .error (.placed (.flaw f) s.length)

/-- Stops and blames the next byte, or the end when there is none. -/
def stopAhead (f : Flaw) : Reader α := fun s =>
  .error (.placed (.flaw f) (s.length - 1))

/-- Stops with a mismatch of the value that was read last. -/
def mismatched (m : Mismatch) : Reader α := fun s =>
  .error (.placed (.mismatch m) s.length)

/-- Stops with a mismatch of the value that is being read. -/
def stopLoose (m : Mismatch) : Reader α := fun s =>
  .error (.loose m s)

/-! ## Tokens -/

/-- Space, tab, line feed and carriage return. -/
def isBlankByte (b : UInt8) : Bool :=
  b == 0x20 || b == 0x09 || b == 0x0A || b == 0x0D

/-- A decimal digit. -/
def isDigitByte (b : UInt8) : Bool :=
  0x30 ≤ b && b ≤ 0x39

/-- The first byte that is no blank, left unread. -/
def peek : Reader (Option UInt8) := fun s =>
  let s := s.dropWhile isBlankByte
  .ok (s.head?, s)

/-- Passes one byte. -/
def advance : Reader Unit := fun s =>
  .ok ((), s.tail)

/-- The first byte of a value. -/
def peekValue : Reader UInt8 := do
  match ← peek with
  | some b => pure b
  | none => stopAhead .endInValue

/-- The remaining letters of a word. -/
def word : List UInt8 → Reader Unit
  | [] => pure ()
  | w :: ws => fun s =>
    match s with
    | [] => stopHere .endInValue s
    | b :: rest => if b = w then word ws rest else stopHere .wordExpected rest

/-- The letters of `null` behind the first. -/
def nullLetters : List UInt8 := [0x75, 0x6C, 0x6C]

/-- The letters of `true` behind the first. -/
def trueLetters : List UInt8 := [0x72, 0x75, 0x65]

/-- The letters of `false` behind the first. -/
def falseLetters : List UInt8 := [0x61, 0x6C, 0x73, 0x65]

/-! ## Texts -/

/-- The value of a hexadecimal digit. -/
def hexByte? (b : UInt8) : Option Nat :=
  let n := b.toNat
  if 0x30 ≤ n ∧ n ≤ 0x39 then some (n - 0x30)
  else if 0x41 ≤ n ∧ n ≤ 0x46 then some (n - 0x41 + 10)
  else if 0x61 ≤ n ∧ n ≤ 0x66 then some (n - 0x61 + 10)
  else none

/-- The value of four hexadecimal digits. -/
def hexUnit? (a b c d : UInt8) : Option Nat := do
  let a ← hexByte? a
  let b ← hexByte? b
  let c ← hexByte? c
  let d ← hexByte? d
  some (((a * 16 + b) * 16 + c) * 16 + d)

/-- The byte that a one-letter escape stands for. -/
def shortEscape? (b : UInt8) : Option UInt8 :=
  match b.toNat with
  | 0x22 => some 0x22
  | 0x5C => some 0x5C
  | 0x2F => some 0x2F
  | 0x62 => some 0x08
  | 0x66 => some 0x0C
  | 0x6E => some 0x0A
  | 0x72 => some 0x0D
  | 0x74 => some 0x09
  | _ => none

/-- Where a text stands between two bytes. -/
inductive Within where
  /-- Between characters. -/
  | plain
  /-- Behind a backslash. -/
  | escape
  /-- Behind the escape of a leading surrogate. -/
  | paired (lead : Nat)
  /-- Behind that and a backslash. -/
  | pairedEscape (lead : Nat)

/-- The bytes that a text denotes, up to the closing quote. `held` holds the bytes
denoted so far, the last one first. -/
def scan : Within → List UInt8 → Reader (List UInt8)
  | _, _, [] => stopHere .endInText []
  | .plain, held, b :: rest =>
    if b = 0x22 then .ok (held.reverse, rest)
    else if b = 0x5C then scan .escape held rest
    else if b < 0x20 then stopHere .controlCharacter rest
    else scan .plain (b :: held) rest
  | .escape, held, b :: rest =>
    if b = 0x75 then
      match rest with
      | h₁ :: h₂ :: h₃ :: h₄ :: rest =>
        match hexUnit? h₁ h₂ h₃ h₄ with
        | none => stopHere .invalidEscape rest
        | some n =>
          -- A trailing surrogate makes sense only behind a leading one.
          if isTrail n then stopHere .loneSurrogate rest
          else if isLead n then scan (.paired n) held rest
          else scan .plain ((String.utf8EncodeChar (Char.ofNat n)).reverse ++ held) rest
      | _ => stopHere .endInText []
    else match shortEscape? b with
      | some c => scan .plain (c :: held) rest
      | none => stopHere .invalidEscape rest
  | .paired lead, held, b :: rest =>
    if b = 0x5C then scan (.pairedEscape lead) held rest
    else stopHere .cutEscape rest
  | .pairedEscape lead, held, b :: rest =>
    if b = 0x75 then
      match rest with
      | h₁ :: h₂ :: h₃ :: h₄ :: rest =>
        match hexUnit? h₁ h₂ h₃ h₄ with
        | none => stopHere .invalidEscape rest
        | some n =>
          if isTrail n then
            scan .plain ((String.utf8EncodeChar (joined lead n)).reverse ++ held) rest
          else stopHere .loneSurrogate rest
      | _ => stopHere .endInText []
    else stopHere .cutEscape rest

/-- A text behind its opening quote. If some of the bytes that it denotes begin no
character, the byte to blame is counted back from the closing quote, by as many bytes
as are denoted from there on. Without escapes that is the first byte at fault. -/
def text : Reader String := fun s => do
  let (bytes, rest) ← scan .plain [] s
  match Text.Utf8.text? bytes with
  | some t => .ok (t, rest)
  | none =>
    let unsound := bytes.length - Text.Utf8.soundLength bytes
    .error (.placed (.flaw .invalidCodePoint) (rest.length + unsound))

/-! ## Brackets -/

/-- Whether another element follows; a comma before it is passed. -/
def anotherElement (isFirst : Bool) : Reader Bool := do
  match ← peek with
  | none => stopAhead .endInList
  | some b =>
    if b = 0x5D then pure false
    else if isFirst then pure true
    else if b = 0x2C then
      advance
      match ← peek with
      | none => stopAhead .endInValue
      | some c => if c = 0x5D then stopAhead .trailingComma else pure true
    else stopAhead .listCommaOrEnd

/-- Whether another member follows; a comma before it and its opening quote are
passed. -/
def anotherMember (isFirst : Bool) : Reader Bool := do
  match ← peek with
  | none => stopAhead .endInObject
  | some b =>
    if b = 0x7D then pure false
    else if isFirst then opening b
    else if b = 0x2C then
      advance
      match ← peek with
      | none => stopAhead .endInValue
      | some c => if c = 0x7D then stopAhead .trailingComma else opening c
    else stopAhead .objectCommaOrEnd
where
  opening (b : UInt8) : Reader Bool :=
    if b = 0x22 then do advance; pure true else stopAhead .keyNotText

/-- The colon behind a name. -/
def colon : Reader Unit := do
  match ← peek with
  | none => stopAhead .endInObject
  | some b => if b = 0x3A then advance else stopAhead .colonExpected

/-- The elements of a list up to its closing bracket, in at most `turns` turns. -/
def elementsIn (one : Reader α) : Nat → Bool → Reader (List α)
  | 0, _ => stopHere .endInList
  | turns + 1, isFirst => do
    if ← anotherElement isFirst then
      let a ← one
      let others ← elementsIn one turns false
      pure (a :: others)
    else pure []

/-- The elements of a list up to its closing bracket. Each turn passes a byte, so
there are no more turns than bytes. -/
def elements (one : Reader α) (isFirst : Bool) : Reader (List α) := fun s =>
  elementsIn one (s.length + 1) isFirst s

/-- The members of an object up to its closing brace, in at most `turns` turns.
`step` reads on from behind a name. -/
def membersIn (step : String → σ → Reader σ) : Nat → Bool → σ → Reader σ
  | 0, _, _ => stopHere .endInObject
  | turns + 1, isFirst, acc => do
    if ← anotherMember isFirst then
      let name ← text
      let acc ← step name acc
      membersIn step turns false acc
    else pure acc

/-- The members of an object up to its closing brace, taken up one by one. -/
def members (step : String → σ → Reader σ) (acc : σ) : Reader σ := fun s =>
  membersIn step (s.length + 1) true acc s

/-- The two kinds of brackets. -/
inductive Bracket where
  | list
  | object
  deriving DecidableEq

/-- The closing bracket. -/
def Bracket.close : Bracket → Reader Unit
  | .list => do
    match ← peek with
    | none => stopAhead .endInList
    | some b =>
      if b = 0x5D then advance
      -- What stands inside was left before its end.
      else if b = 0x2C then
        advance
        match ← peek with
        | some c => if c = 0x5D then stopAhead .trailingComma else stopAhead .trailingCharacters
        | none => stopAhead .trailingCharacters
      else stopAhead .trailingCharacters
  | .object => do
    match ← peek with
    | none => stopAhead .endInObject
    | some b =>
      if b = 0x7D then advance
      else if b = 0x2C then stopAhead .trailingComma
      else stopAhead .trailingCharacters

/-- What is unread once the closing bracket has been looked for: a loose mismatch
is blamed on the byte before it. -/
def Bracket.afterClose : Bracket → List UInt8 → List UInt8
  | .list, s =>
    match s.dropWhile isBlankByte with
    | 0x5D :: rest => rest
    | 0x2C :: rest => rest.dropWhile isBlankByte
    | rest => rest
  | .object, s =>
    match s.dropWhile isBlankByte with
    | 0x7D :: rest => rest
    | rest => rest

/-- What stands in brackets, from the opening to the closing one. -/
def enclosed (kind : Bracket) (inside : Reader α) : Reader α := do
  advance
  let a ← fun s =>
    match inside s with
    -- Only here is it known where the bracket ends.
    | .error (.loose m rest) =>
      .error (.placed (.mismatch m) (kind.afterClose rest).length)
    | result => result
  kind.close
  pure a

/-- What stands in brackets where `levels` brackets may still be opened. -/
def bracketed (kind : Bracket) (levels : Nat) (inside : Nat → Reader α) : Reader α :=
  match levels with
  | 0 => stopAhead .tooDeep
  | levels + 1 => enclosed kind (inside levels)

end ProfileAdmin.Json
