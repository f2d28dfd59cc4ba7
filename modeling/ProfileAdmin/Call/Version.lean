import ProfileAdmin.Text.Blank
import ProfileAdmin.Text.Numeral

/-!
# Call.Version — the version of the administration protocol

Requests announce a version and responses answer with one. Versions work together
exactly if their major numbers are equal.
-/

namespace ProfileAdmin.Call.Version

open Text (trimChars splitBy numeral?)

/-- The header that carries the version. -/
def headerName : String := "X-Admin-Protocol"

/-- The version that requests announce. -/
def announced : String := "gsma/rsp/v2.0.0"

/-- The type of every request body. -/
def contentType : String := "application/json"

/-- The major number spoken here. -/
def major : Nat := 2

/-- What stands before the numbers. -/
def lead : List Char := "gsma/rsp/v".toList

/-- The rest of a list behind a given beginning. -/
def behind? : List Char → List Char → Option (List Char)
  | [], cs => some cs
  | _ :: _, [] => none
  | p :: ps, c :: cs => if p = c then behind? ps cs else none

/-- The numbers of a version are below this. -/
def numberBound : Nat := 0x100000000

/-- The three numbers of a version. -/
def numbers? (cs : List Char) : Option (Nat × Nat × Nat) := do
  match splitBy (· == '.') (← behind? lead (trimChars cs)) with
  | [a, b, c] => return (← numeral? numberBound a, ← numeral? numberBound b, ← numeral? numberBound c)
  | _ => none

/-- Whether an endpoint that announces this version is understood. -/
def isCompatible (theirs : String) : Bool :=
  match numbers? theirs.toList with
  | some (a, _, _) => a == major
  | none => false

end ProfileAdmin.Call.Version
