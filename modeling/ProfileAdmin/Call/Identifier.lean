import ProfileAdmin.Text.Numeral

/-!
# Call.Identifier — names of function calls

A call is named by a random UUID of version 4, written as a URN. Six of the 128
drawn bits are overwritten by the version and the variant.
-/

namespace ProfileAdmin.Call

open Text (hexDigit)

/-- Sixteen random bytes, the first one in the highest bits. -/
abbrev Draw := BitVec 128

/-- The hexadecimal digit at place `i` of 32. -/
def Draw.digit (d : Draw) (i : Nat) : Nat :=
  (d >>> (4 * (31 - i))).toNat % 16

/-- The digits of the UUID: the thirteenth is the version, and the seventeenth keeps
two bits under the variant. -/
def Draw.stamped (d : Draw) : List Nat :=
  (List.range 32).map fun i =>
    if i = 12 then 4
    else if i = 16 then 8 + d.digit i % 4
    else d.digit i

/-- The identifier of a call. -/
def Draw.identifier (d : Draw) : String :=
  let ds := d.stamped.map hexDigit
  let part (start length : Nat) := (ds.drop start).take length
  String.ofList ("urn:uuid:".toList ++ part 0 8 ++ '-' :: part 8 4 ++ '-' :: part 12 4 ++
    '-' :: part 16 4 ++ '-' :: part 20 12)

end ProfileAdmin.Call
