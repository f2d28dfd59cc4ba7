import ProfileAdmin.X509.Element
import ProfileAdmin.Text.Numeral

/-!
# X509.Oid — object identifiers

1. **Identifiers**: bytes that stand for a path of numbers. Two of them are the same if
   their bytes are.
2. **Numbers**: the path, of which the first byte holds two steps, and its shortest form.
3. **Writing**: the numbers with points between them.
-/

namespace ProfileAdmin.X509

/-! ## Identifiers -/

/-- An object identifier, by the content of its element. -/
abbrev Oid := List UInt8

/-- The identifier that an element holds. The tag of the element is not looked at. -/
def oid? (bs : List UInt8) : Option (Oid × List UInt8) := do
  let (e, rest) ← element? bs
  if e.isConstructed then none else some (e.body, rest)

namespace Oid

/-! ## Numbers -/

/-- The digits of a number to the base 128, the lowest first. -/
def lowDigits (n : Nat) : List Nat :=
  if n < 0x80 then [n] else n % 0x80 :: lowDigits (n / 0x80)

/-- The bytes of a number, seven bits in each, all but the last one marked. -/
def numberBytes (n : Nat) : List UInt8 :=
  match lowDigits n with
  | [] => []
  | d :: ds => (ds.reverse.map fun d => (d + 0x80).toUInt8) ++ [d.toUInt8]

/-- The identifier with these numbers, in its shortest form. -/
def ofNumbers : List Nat → Oid
  | a :: b :: rest => (a * 40 + b).toUInt8 :: rest.flatMap numberBytes
  | _ => []

/-- The pieces of a path: each ends with an unmarked byte, but the last one may lack its
end. `held` holds the bytes of a piece that has begun, the last one first. -/
def pieces : List UInt8 → List UInt8 → List (List UInt8)
  | [], [] => []
  | held, [] => [held.reverse]
  | held, b :: rest =>
    if b < 0x80 then (b :: held).reverse :: pieces [] rest else pieces (b :: held) rest

/-- Numbers in a path are below this. -/
def numberBound : Nat := 0x10000000000000000

/-- The number of a piece; of a piece without an end, the lowest bits. -/
def numberOf (piece : List UInt8) : Nat :=
  piece.foldl (fun n b => n * 0x80 + b.toNat % 0x80) 0 % numberBound

/-- Whether a piece is too long for a number. One without an end counts for nothing. -/
def isTooLong (piece : List UInt8) : Bool :=
  9 < piece.length && piece.getLast?.any (· < 0x80)

/-- The numbers of a path. A lone zero is one number; any other first byte holds two. -/
def numbers : Oid → List Nat
  | [] => []
  | [0] => [0]
  | b :: rest => b.toNat / 40 :: b.toNat % 40 :: (pieces [] rest).map numberOf

/-! ## Writing -/

/-- The numbers, or all the bytes if a number is too long. -/
def text (id : Oid) : String :=
  if (pieces [] (id.drop 1)).any isTooLong then
    " ".intercalate (id.map fun b => String.ofList (Text.hexByte b))
  else ".".intercalate (id.numbers.map toString)

end Oid

end ProfileAdmin.X509
