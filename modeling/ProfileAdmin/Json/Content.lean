import ProfileAdmin.Json.Number

/-!
# Json.Content — values of a JSON text

1. **Plain values**: what begins with the next byte, as far as it is no bracket.
2. **Mismatches**: a value that is not of the expected kind is read as far as its
   wording needs, and blamed.
3. **Whole values**, with everything inside their brackets.
-/

namespace ProfileAdmin.Json

open Document (Value Found Mismatch)

/-- The next value if it is a plain one. A bracket is left unread. -/
def glimpse : Reader Found := do
  let b ← peekValue
  match b.toNat with
  | 0x6E => advance; word nullLetters; pure .null
  | 0x74 => advance; word trueLetters; pure (.flag true)
  | 0x66 => advance; word falseLetters; pure (.flag false)
  | 0x2D => advance; number true
  | 0x22 => advance; .text <$> text
  | 0x5B => pure .list
  | 0x7B => pure .table
  | _ => if isDigitByte b then number false else stopAhead .valueExpected

/-- Blames the next value for not being what was expected. -/
def unexpected {α : Type} (expected : String) : Reader α := do
  let found ← glimpse
  mismatched (.wrongType found expected)

/-- The next value, which may open `levels` brackets one inside the other. -/
def content : Nat → Reader Value
  | 0 => do
    match ← glimpse with
    | .list => stopAhead .tooDeep
    | .table => stopAhead .tooDeep
    | plain => pure plain.value
  | levels + 1 => do
    match ← glimpse with
    | .list => .list <$> enclosed .list (elements (content levels) true)
    | .table =>
      let step (name : String) (before : List (String × Value)) := do
        colon
        let v ← content levels
        pure ((name, v) :: before)
      (fun ms => .table ms.reverse) <$> enclosed .object (members step [])
    | plain => pure plain.value

end ProfileAdmin.Json
