/-!
# Text.Utf16 — text as sixteen-bit units

A unit stands for a character by itself, unless it is the first or the second half of a
pair. Halves that stand alone spell nothing.
-/

namespace ProfileAdmin.Text.Utf16

/-- A unit that comes first of two. -/
def isLead (n : Nat) : Bool := 0xD800 ≤ n && n < 0xDC00

/-- A unit that comes second of two. -/
def isTrail (n : Nat) : Bool := 0xDC00 ≤ n && n < 0xE000

/-- The character of a pair. -/
def joined (lead trail : Nat) : Char :=
  Char.ofNat (0x10000 + (lead - 0xD800) * 0x400 + (trail - 0xDC00))

/-- The characters that units spell, if all of them have their place. -/
def decode? : List Nat → Option (List Char)
  | [] => some []
  | lead :: trail :: rest =>
    if isLead lead then
      if isTrail trail then (decode? rest).map (joined lead trail :: ·) else none
    else if isTrail lead then none
    else (decode? (trail :: rest)).map (Char.ofNat lead :: ·)
  | [n] => if isLead n || isTrail n then none else some [Char.ofNat n]

end ProfileAdmin.Text.Utf16
