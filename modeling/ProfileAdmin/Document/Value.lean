import ProfileAdmin.Decimal.Layout
import ProfileAdmin.Text.Quoted

/-!
# Document.Value — what a structured document holds

1. **Values**: the tree that a document denotes, whatever its notation.
2. **Mismatches**: the ways in which a value is not the one that was expected,
   and their wording. Numbers are worded in the layout of the notation.
-/

namespace ProfileAdmin.Document

/-! ## Values -/

/-- A value of a structured document. Members of a table keep their order. -/
inductive Value where
  | null
  | flag (b : Bool)
  | integer (n : Int)
  | real (x : Float)
  | text (s : String)
  | list (items : List Value)
  | table (members : List (String × Value))
  deriving Inhabited

/-- What kind of value was met, with its content when it is a plain one. -/
inductive Found where
  | null
  | flag (b : Bool)
  | integer (n : Int)
  | real (x : Float)
  | text (s : String)
  | list
  | table

/-- The kind of a value. -/
def Value.found : Value → Found
  | .null => .null
  | .flag b => .flag b
  | .integer n => .integer n
  | .real x => .real x
  | .text s => .text s
  | .list _ => .list
  | .table _ => .table

/-- The plain value of that kind; a list or table without its content is empty. -/
def Found.value : Found → Value
  | .null => .null
  | .flag b => .flag b
  | .integer n => .integer n
  | .real x => .real x
  | .text s => .text s
  | .list => .list []
  | .table => .table []

/-! ## Mismatches -/

/-- How a document fails to be a value of the type that is read from it. -/
inductive Mismatch where
  | wrongType (found : Found) (expected : String)
  | wrongLength (length : Nat) (expected : String)
  | missingMember (name : String)
  | repeatedMember (name : String)
  | unknownVariant (name : String) (known : List String)

/-- The wording of what was met. -/
def Found.message (numbers : Decimal.Layout) : Found → String
  | .null => "null"
  | .flag b => s!"boolean `{b}`"
  | .integer n => s!"integer `{n}`"
  | .real x => s!"floating point `{numbers.text x}`"
  | .text s => s!"string {Text.quoted s}"
  | .list => "sequence"
  | .table => "map"

/-- Alternatives in backquotes. -/
private def choices (names : List String) : String :=
  match names.map fun n => s!"`{n}`" with
  | [a, b] => s!"{a} or {b}"
  | all => ", ".intercalate all

/-- The wording of a mismatch. -/
def Mismatch.message (numbers : Decimal.Layout) : Mismatch → String
  | .wrongType found expected => s!"invalid type: {found.message numbers}, expected {expected}"
  | .wrongLength length expected => s!"invalid length {length}, expected {expected}"
  | .missingMember name => s!"missing field `{name}`"
  | .repeatedMember name => s!"duplicate field `{name}`"
  | .unknownVariant name known => s!"unknown variant `{name}`, expected {choices known}"

end ProfileAdmin.Document
