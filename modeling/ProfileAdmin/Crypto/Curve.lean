import ProfileAdmin.Crypto.Modular

/-!
# Crypto.Curve — points of `y² = x³ + a x + b`

The curves of prime order over prime fields that keys are made for, and the public
point of a private number.
-/

namespace ProfileAdmin.Crypto

/-- A curve: the field, the coefficient `a`, a base point and its order. -/
structure Curve where
  p : Nat
  a : Nat
  x : Nat
  y : Nat
  order : Nat
  /-- The number of bytes of a coordinate. -/
  width : Nat

namespace Curve

/-- The curve of 256 bits. -/
def p256 : Curve where
  p := 0xffffffff00000001000000000000000000000000ffffffffffffffffffffffff
  a := 0xffffffff00000001000000000000000000000000fffffffffffffffffffffffc
  x := 0x6b17d1f2e12c4247f8bce6e563a440f277037d812deb33a0f4a13945d898c296
  y := 0x4fe342e2fe1a7f9b8ee7eb4a7c0f9e162bce33576b315ececbb6406837bf51f5
  order := 0xffffffff00000000ffffffffffffffffbce6faada7179e84f3b9cac2fc632551
  width := 32

/-- The curve of 384 bits. -/
def p384 : Curve where
  p := 0xfffffffffffffffffffffffffffffffffffffffffffffffffffffffffffffffeffffffff0000000000000000ffffffff
  a := 0xfffffffffffffffffffffffffffffffffffffffffffffffffffffffffffffffeffffffff0000000000000000fffffffc
  x := 0xaa87ca22be8b05378eb1c71ef320ad746e1d3b628ba79b9859f741e082542a385502f25dbf55296c3a545e3872760ab7
  y := 0x3617de4a96262c6f5d9e98bf9292dc29f8f41dbd289a147ce9da3113b5f0b8c00a60b1ce1d7e819d7a431d7c90ea0e5f
  order := 0xffffffffffffffffffffffffffffffffffffffffffffffffc7634d81f4372ddf581a0db248b0a77aecec196accc52973
  width := 48

/-- A point; `none` is the one at infinity. -/
abbrev Point := Option (Nat × Nat)

/-- The third point of a line through two, mirrored. -/
def add (c : Curve) : Point → Point → Point
  | none, q => q
  | p, none => p
  | some (x₁, y₁), some (x₂, y₂) =>
    let finish (slope : Nat) : Point :=
      let x := subMod c.p (subMod c.p (slope * slope) x₁) x₂
      some (x, subMod c.p (slope * subMod c.p x₁ x) y₁)
    if x₁ = x₂ then
      if (y₁ + y₂) % c.p = 0 then none
      else finish ((3 * x₁ * x₁ + c.a) * inverse c.p (2 * y₁ % c.p) % c.p)
    else finish (subMod c.p y₂ y₁ * inverse c.p (subMod c.p x₂ x₁) % c.p)

/-- `n` times a point, by doubling. -/
def multiple (c : Curve) (n : Nat) (q : Point) : Point :=
  if h : n = 0 then none
  else
    let half := multiple c (n / 2) q
    let double := c.add half half
    if n % 2 = 0 then double else c.add double q
termination_by n
decreasing_by omega

/-- The uncompressed public key of a private one, which is a number between zero and the
order in as many bytes as a coordinate has. -/
def publicKey? (c : Curve) (secret : List UInt8) : Option (List UInt8) := do
  let n := bigEndian secret
  if secret.length ≠ c.width ∨ n = 0 ∨ c.order ≤ n then none
  else
    let (x, y) ← c.multiple n (some (c.x, c.y))
    some (4 :: (toBigEndian c.width x ++ toBigEndian c.width y))

end Curve

end ProfileAdmin.Crypto
