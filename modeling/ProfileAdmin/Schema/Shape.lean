import ProfileAdmin.Json.Content
import ProfileAdmin.Json.Writer

/-!
# Schema.Shape — how values of a type stand in a document

1. **Shapes**: reading from a JSON text, reading from a document that is already
   a tree, and writing.
2. **Basic shapes**: texts, paths, flags, lists, values that may be absent.
-/

namespace ProfileAdmin.Schema

open Document (Value Mismatch)
open Json (Reader peek peekValue advance word unexpected bracketed elements)

/-! ## Shapes -/

/-- The document form of a type. `read` takes a value off the front of a JSON text in
which a number of brackets may still be opened; `ofValue` takes it from a tree;
`write` gives its compact JSON form. -/
structure Shape (α : Type) where
  read : Nat → Reader α
  ofValue : Value → Except Mismatch α
  write : α → List Char

/-- The same document form for a type in correspondence with another. -/
def Shape.map {α β : Type} (s : Shape α) (into : α → β) (back : β → α) : Shape β where
  read levels := into <$> s.read levels
  ofValue v := into <$> s.ofValue v
  write b := s.write (back b)

/-! ## Basic shapes -/

/-- A text, announced as `expected` where it is missed. -/
def textAs (expected : String) : Shape String where
  read _ := do
    let b ← peekValue
    if b = 0x22 then
      advance
      Json.text
    else unexpected expected
  ofValue
    | .text s => .ok s
    | v => .error (.wrongType v.found expected)
  write := Json.writeText

/-- A text. -/
def text : Shape String := textAs "a string"

/-- A path of a file. -/
def path : Shape String := textAs "path string"

/-- A truth value. -/
def flag : Shape Bool where
  read _ := do
    let b ← peekValue
    if b = 0x74 then
      advance
      word Json.trueLetters
      pure true
    else if b = 0x66 then
      advance
      word Json.falseLetters
      pure false
    else unexpected "a boolean"
  ofValue
    | .flag b => .ok b
    | v => .error (.wrongType v.found "a boolean")
  write := Json.writeFlag

/-- A list of values of one shape. -/
def list {α : Type} (s : Shape α) : Shape (List α) where
  read levels := do
    let b ← peekValue
    if b = 0x5B then bracketed .list levels fun inner => elements (s.read inner) true
    else unexpected "a sequence"
  ofValue
    | .list items => items.mapM s.ofValue
    | v => .error (.wrongType v.found "a sequence")
  write items := Json.writeList (items.map s.write)

/-- A value that may be null. -/
def optional {α : Type} (s : Shape α) : Shape (Option α) where
  read levels := do
    if (← peek) = some 0x6E then
      advance
      word Json.nullLetters
      pure none
    else some <$> s.read levels
  ofValue
    | .null => .ok none
    | v => some <$> s.ofValue v
  write
    | none => Json.writeNull
    | some a => s.write a

end ProfileAdmin.Schema
