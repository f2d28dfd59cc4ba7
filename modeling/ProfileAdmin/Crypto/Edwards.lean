import ProfileAdmin.Crypto.Sha512

/-!
# Crypto.Edwards — the curve `-x² + y² = 1 + d x² y²`

Points are kept as `(X : Y : Z : T)` with `x = X / Z`, `y = Y / Z` and `x y = T / Z`.
A private key is a seed; its digest yields the factor of the base point.
-/

namespace ProfileAdmin.Crypto.Edwards

/-- The field. -/
def p : Nat := Nat.pow 2 255 - 19

/-- The coefficient `d`. -/
def d : Nat := 0x52036cee2b6ffe738cc740797779e89800700a4d4141d8ab75eb4dca135978a3

/-- A point. -/
structure Point where
  x : Nat
  y : Nat
  z : Nat
  t : Nat

/-- The neutral point. -/
def Point.neutral : Point := ⟨0, 1, 1, 0⟩

/-- The base point. -/
def Point.base : Point :=
  let x := 0x216936d3cd6e53fec0a4e231fdd6dc5c692cc7609525a7b2c9562d608f25d51a
  let y := 0x6666666666666666666666666666666666666666666666666666666666666658
  ⟨x, y, 1, x * y % p⟩

/-- The sum of two points. -/
def Point.add (q r : Point) : Point :=
  let a := subMod p q.y q.x * subMod p r.y r.x % p
  let b := (q.y + q.x) * (r.y + r.x) % p
  let c := q.t * 2 * d * r.t % p
  let e := q.z * 2 * r.z % p
  let h := subMod p b a
  let f := subMod p e c
  let g := (e + c) % p
  let i := (b + a) % p
  ⟨h * f % p, g * i % p, f * g % p, h * i % p⟩

/-- `n` times a point, by doubling. -/
def Point.multiple (n : Nat) (q : Point) : Point :=
  if h : n = 0 then .neutral
  else
    let half := multiple (n / 2) q
    let double := half.add half
    if n % 2 = 0 then double else double.add q
termination_by n
decreasing_by omega

/-- The 32 bytes of a point: `y`, the lowest byte first, and the parity of `x` in the
highest bit. -/
def Point.bytes (q : Point) : List UInt8 :=
  let z := inverse p q.z
  let x := q.x * z % p
  let y := q.y * z % p
  (toBigEndian 32 (y + x % 2 * Nat.pow 2 255)).reverse

/-- The public key of a seed of 32 bytes. -/
def publicKey? (seed : List UInt8) : Option (List UInt8) :=
  if seed.length = 32 then
    let n := bigEndian ((Sha512.digest seed).take 32).reverse
    let high := Nat.pow 2 254
    let factor := n % high / 8 * 8 + high
    some (Point.base.multiple factor).bytes
  else none

end ProfileAdmin.Crypto.Edwards
