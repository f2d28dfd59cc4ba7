/-!
# Tls.Der — tagged values in their one form

A tag of one byte, a length in the fewest bytes and below 65536, and as many bytes.
Readers take a value off the front and give back what follows it.
-/

namespace ProfileAdmin.Tls.Der

/-- The tag of a truth value. -/
def boolean : UInt8 := 0x01
/-- The tag of an integer. -/
def integer : UInt8 := 0x02
/-- The tag of a bit string. -/
def bitString : UInt8 := 0x03
/-- The tag of a byte string. -/
def octetString : UInt8 := 0x04
/-- The tag of an object identifier. -/
def oid : UInt8 := 0x06
/-- The tag of a sequence. -/
def sequence : UInt8 := 0x30
/-- The tag of part `n` of its surroundings, made of values. -/
def part (n : UInt8) : UInt8 := 0xA0 + n
/-- The tag of part `n` of its surroundings, in place of its own. -/
def plainPart (n : UInt8) : UInt8 := 0x80 + n

/-- A length in its shortest form. -/
def length? : List UInt8 → Option (Nat × List UInt8)
  | b :: rest =>
    if b < 0x80 then some (b.toNat, rest)
    else match b, rest with
      | 0x81, c :: rest => if c < 0x80 then none else some (c.toNat, rest)
      | 0x82, c :: d :: rest => if c = 0 then none else some (c.toNat * 256 + d.toNat, rest)
      | _, _ => none
  | [] => none

/-- The content of the first value, which has to have this tag. -/
def value? (tag : UInt8) : List UInt8 → Option (List UInt8 × List UInt8)
  | b :: rest => do
    let (length, rest) ← length? rest
    if b = tag ∧ length ≤ rest.length then some (rest.take length, rest.drop length) else none
  | [] => none

/-- The content of a value that is all there is. -/
def only? (tag : UInt8) (bs : List UInt8) : Option (List UInt8) := do
  let (body, rest) ← value? tag bs
  if rest.isEmpty then some body else none

/-- Whether the first value has this tag. -/
def isNext (tag : UInt8) (bs : List UInt8) : Bool :=
  bs.head? == some tag

/-- A number that is not negative, in its shortest form: its bytes without the zero
that only keeps the sign. -/
def natural? (bs : List UInt8) : Option (List UInt8 × List UInt8) := do
  let (body, rest) ← value? integer bs
  match body with
  | [] => none
  | [b] => if b < 0x80 then some ([b], rest) else none
  | a :: b :: more =>
    if a = 0 then if b < 0x80 then none else some (b :: more, rest)
    else if a < 0x80 then some (a :: b :: more, rest)
    else none

/-- A number of one byte. -/
def small? (bs : List UInt8) : Option (Nat × List UInt8) := do
  match ← natural? bs with
  | ([b], rest) => some (b.toNat, rest)
  | _ => none

/-- The bytes of a bit string without unused bits, from its content. -/
def wholeBits? : List UInt8 → Option (List UInt8)
  | 0 :: data => some data
  | _ => none

/-- The bytes of a bit string without unused bits. -/
def bits? (bs : List UInt8) : Option (List UInt8 × List UInt8) := do
  let (body, rest) ← value? bitString bs
  some (← wholeBits? body, rest)

/-- The bytes of a length. -/
def lengthBytes (n : Nat) : List UInt8 :=
  if n < 0x80 then [n.toUInt8]
  else if n < 0x100 then [0x81, n.toUInt8]
  else [0x82, (n / 256).toUInt8, n.toUInt8]

/-- A value of less than 65536 bytes. -/
def write (tag : UInt8) (body : List UInt8) : List UInt8 :=
  tag :: (lengthBytes body.length ++ body)

/-- An integer, from the shortest bytes of a number that is not negative. -/
def writeNatural (bs : List UInt8) : List UInt8 :=
  write integer (if 0x80 ≤ bs.headD 0 then 0 :: bs else bs)

end ProfileAdmin.Tls.Der
