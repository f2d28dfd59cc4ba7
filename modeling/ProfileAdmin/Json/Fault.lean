import ProfileAdmin.Document.Value

/-!
# Json.Fault — why a JSON text was refused

1. **Flaws**: the ways in which bytes are not a JSON text.
2. **Causes**: a flaw of the text, or a mismatch between the text and the type
   that is read from it.
3. **Places**: line and column of the byte at which the cause was noticed.
-/

namespace ProfileAdmin.Json

open Document (Mismatch)

/-- The ways in which bytes fail to be a JSON text. -/
inductive Flaw where
  | endInList
  | endInObject
  | endInText
  | endInValue
  | colonExpected
  | listCommaOrEnd
  | objectCommaOrEnd
  | wordExpected
  | valueExpected
  | invalidEscape
  | invalidNumber
  | numberOutOfRange
  | invalidCodePoint
  | controlCharacter
  | keyNotText
  | loneSurrogate
  | trailingComma
  | trailingCharacters
  | cutEscape
  | tooDeep
  deriving DecidableEq, Repr

/-- The wording of a flaw. -/
def Flaw.message : Flaw → String
  | .endInList => "EOF while parsing a list"
  | .endInObject => "EOF while parsing an object"
  | .endInText => "EOF while parsing a string"
  | .endInValue => "EOF while parsing a value"
  | .colonExpected => "expected `:`"
  | .listCommaOrEnd => "expected `,` or `]`"
  | .objectCommaOrEnd => "expected `,` or `\x7d`"
  | .wordExpected => "expected ident"
  | .valueExpected => "expected value"
  | .invalidEscape => "invalid escape"
  | .invalidNumber => "invalid number"
  | .numberOutOfRange => "number out of range"
  | .invalidCodePoint => "invalid unicode code point"
  | .controlCharacter => "control character (\\u0000-\\u001F) found while parsing a string"
  | .keyNotText => "key must be a string"
  | .loneSurrogate => "lone leading surrogate in hex escape"
  | .trailingComma => "trailing comma"
  | .trailingCharacters => "trailing characters"
  | .cutEscape => "unexpected end of hex escape"
  | .tooDeep => "recursion limit exceeded"

/-- A flaw of the text, or a well-formed text of the wrong type. -/
inductive Cause where
  | flaw (f : Flaw)
  | mismatch (m : Mismatch)

/-- Numbers in messages: positional from `10 ^ -5` to `10 ^ 15`, else with an
exponent. -/
def numberLayout : Decimal.Layout := ⟨some (-5, 15)⟩

/-- The wording of a cause. -/
def Cause.message : Cause → String
  | .flaw f => f.message
  | .mismatch m => m.message numberLayout

/-- A byte of a text by line and column, both counted from one. The column of a
byte is the number of bytes up to it on its line. -/
structure Place where
  line : Nat
  column : Nat
  deriving DecidableEq, Repr

/-- The place reached after a number of bytes. -/
def Place.after (bytes : List UInt8) (count : Nat) : Place :=
  let read := bytes.take count
  ⟨1 + read.count 0x0A, (read.reverse.takeWhile (· != 0x0A)).length⟩

/-- Why a text was refused, and where, if one place can be named. -/
structure Fault where
  cause : Cause
  place : Option Place

/-- The wording of a fault. -/
def Fault.message (f : Fault) : String :=
  match f.place with
  | none => f.cause.message
  | some p => s!"{f.cause.message} at line {p.line} column {p.column}"

end ProfileAdmin.Json
