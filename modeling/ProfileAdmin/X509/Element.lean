/-!
# X509.Element — tagged elements of a certificate

1. **Elements**: an identifier, a length and as many bytes. Lengths may be written
   longer than needed.
2. **Open elements**: a length may be left open; a mark then closes the element.
3. **Checked elements**: integers, bit strings.

This reading is the forgiving one by which a certificate is shown. A certificate
that a connection relies on is read again by stricter rules.
-/

namespace ProfileAdmin.X509

/-! ## Elements -/

/-- What stands before the content of an element: its class, whether it is made of
elements, its tag and, unless it is left open, its length. -/
structure Header where
  scope : Nat
  isConstructed : Bool
  tag : Nat
  length : Option Nat
  deriving DecidableEq, Repr

/-- An element: what its header says, and its content. -/
structure Element where
  scope : Nat
  isConstructed : Bool
  tag : Nat
  body : List UInt8
  deriving DecidableEq, Repr

/-- Words are below this. -/
def wordBound : Nat := 0x100000000

/-- Lengths are below this. -/
def lengthBound : Nat := 0x10000000000000000

/-- A tag that continues behind the first byte, in at most `turns` bytes of seven bits. -/
def longTag? : Nat → Nat → List UInt8 → Option (Nat × List UInt8)
  | 0, _, _ => none
  | _, _, [] => none
  | turns + 1, tag, b :: rest =>
    -- What does not fit a word is lost.
    let tag := (tag * 0x80 + b.toNat % 0x80) % wordBound
    if b < 0x80 then some (tag, rest) else longTag? turns tag rest

/-- The number that bytes spell, the first one in the highest place. -/
def natOf (bs : List UInt8) : Nat :=
  bs.foldl (fun n b => n * 256 + b.toNat) 0

/-- A length, or none if it is left open. -/
def length? : List UInt8 → Option (Option Nat × List UInt8)
  | [] => none
  | b :: rest =>
    let n := b.toNat
    if n < 0x80 then some (some n, rest)
    else
      let width := n - 0x80
      if width = 0 then some (none, rest)
      else if width = 0x7F ∨ rest.length < width then none
      else
        let value := natOf (rest.take width)
        if value < lengthBound then some (some value, rest.drop width) else none

/-- The header of the first element, and all that follows the header. Only what is made
of elements may be left open. -/
def header? : List UInt8 → Option (Header × List UInt8)
  | [] => none
  | b :: rest => do
    let n := b.toNat
    let (tag, rest) ← if n % 0x20 = 0x1F then longTag? 5 0 rest else some (n % 0x20, rest)
    let (length, rest) ← length? rest
    let isConstructed := n / 0x20 % 2 = 1
    if length.isNone && !isConstructed then none
    else some (⟨n / 0x40, isConstructed, tag, length⟩, rest)

/-- The first element of a byte string, and what follows it. Its length has to be given. -/
def element? (bs : List UInt8) : Option (Element × List UInt8) := do
  let (h, rest) ← header? bs
  let length ← h.length
  if rest.length < length then none
  else some (⟨h.scope, h.isConstructed, h.tag, rest.take length⟩, rest.drop length)

/-- The first element if it has this tag. -/
def tagged? (tag : Nat) (bs : List UInt8) : Option (Element × List UInt8) := do
  let (e, rest) ← element? bs
  if e.tag = tag then some (e, rest) else none

/-- The tag of a truth value. -/
def booleanTag : Nat := 1
/-- The tag of an integer. -/
def integerTag : Nat := 2
/-- The tag of a bit string. -/
def bitStringTag : Nat := 3
/-- The tag of a byte string. -/
def octetStringTag : Nat := 4
/-- The tag of a sequence. -/
def sequenceTag : Nat := 16
/-- The tag of a set. -/
def setTag : Nat := 17
/-- The tag of a time with a two-digit year. -/
def utcTimeTag : Nat := 23
/-- The tag of a time with a four-digit year. -/
def generalizedTimeTag : Nat := 24

/-- The content of a sequence. -/
def sequence? (bs : List UInt8) : Option (List UInt8 × List UInt8) := do
  let (e, rest) ← tagged? sequenceTag bs
  some (e.body, rest)

/-- The class of tags whose meaning depends on the place. -/
def contextual : Nat := 2

/-- The first element if it has this tag of the context; else nothing is taken. -/
def contextual? (tag : Nat) (bs : List UInt8) : Option (Option Element × List UInt8) :=
  match bs with
  | [] => some (none, [])
  | _ => do
    let (e, rest) ← element? bs
    if e.scope = contextual ∧ e.tag = tag then some (some e, rest) else some (none, bs)

/-! ## Open elements -/

/-- Open elements stand in each other less deep than this. -/
def depthLimit : Nat := 50

/-- What follows the mark that closes an open element, in at most `turns` turns. `depth`
open elements stand around the next one; the mark is an empty element of tag zero. -/
def closeIn : Nat → Nat → List UInt8 → Option (List UInt8)
  | 0, _, _ => none
  | turns + 1, depth, bs => do
    let (h, rest) ← header? bs
    if depthLimit ≤ depth then none
    else match h.length with
      | none => closeIn turns (depth + 1) rest
      | some length =>
        if rest.length < length then none
        else if h.tag = 0 ∧ length = 0 then
          -- A mark closes the innermost open element.
          if depth ≤ 1 then some rest else closeIn turns (depth - 1) rest
        else closeIn turns depth (rest.drop length)

/-- What follows the first element, which has this tag and may be left open. -/
def passed? (tag : Nat) (bs : List UInt8) : Option (List UInt8) := do
  let (h, rest) ← header? bs
  if h.tag ≠ tag then none
  else match h.length with
    | none => closeIn rest.length 1 rest
    | some length => if rest.length < length then none else some (rest.drop length)

/-! ## Checked elements -/

/-- An integer that is not negative, in its shortest form, and a word. -/
def word? (bs : List UInt8) : Option (Nat × List UInt8) := do
  let (e, rest) ← tagged? integerTag bs
  if e.isConstructed then none
  else
    match e.body with
    | [] => none
    | [b] => if b < 0x80 then some (b.toNat, rest) else none
    | a :: b :: _ =>
      if 0x80 ≤ a ∨ (a = 0 ∧ b < 0x80) then none
      else
        let value := natOf e.body
        if value < wordBound then some (value, rest) else none

/-- How many of the lowest bits of a byte are zero. -/
def lowZeros (b : UInt8) : Nat :=
  ((List.range 8).takeWhile fun i => (b.toNat >>> i) % 2 = 0).length

/-- Whether bytes spell a string of bits: the first byte says how many of the last bits
are unused, and those are zero. -/
def isBitString : List UInt8 → Bool
  | [] => false
  | [unused] => unused == 0
  | unused :: data => unused.toNat ≤ lowZeros (data.getLast?.getD 0)

/-- A bit string, of which only its form is of interest. -/
def bitString? (bs : List UInt8) : Option (List UInt8) := do
  let (e, rest) ← tagged? bitStringTag bs
  if !e.isConstructed && isBitString e.body then some rest else none

end ProfileAdmin.X509
