import ProfileAdmin.Schema.Shape

/-!
# Schema.Codec — whole JSON texts

A text is one value with blanks around it. Brackets nest at most 127 deep where
values are read.
-/

namespace ProfileAdmin.Schema

open Json (Fault Place Stop stopAhead isBlankByte)

variable {α : Type}

/-- How many brackets may be open at once. -/
def deepest : Nat := 127

/-- Why the reading of `bytes` stopped, with the place to blame. -/
def faultOf (bytes : List UInt8) : Stop → Fault
  | .placed cause left => ⟨cause, some (Place.after bytes (bytes.length - left))⟩
  | .loose mismatch _ => ⟨.mismatch mismatch, none⟩

/-- Passes the blanks behind the value; nothing else may stand there. -/
def atEnd : Json.Reader Unit := fun s =>
  match s.dropWhile isBlankByte with
  | [] => .ok ((), [])
  | rest => stopAhead .trailingCharacters rest

/-- The value that a JSON text spells. -/
def Shape.decode (s : Shape α) (bytes : List UInt8) : Except Fault α :=
  match (do let a ← s.read deepest; atEnd; pure a : Json.Reader α) bytes with
  | .ok (a, _) => .ok a
  | .error stop => .error (faultOf bytes stop)

/-- The compact JSON text of a value. -/
def Shape.encode (s : Shape α) (a : α) : List UInt8 :=
  Text.Utf8.encode (s.write a)

end ProfileAdmin.Schema
