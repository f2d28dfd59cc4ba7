/-!
# Crypto.Modular — arithmetic modulo a number
-/

namespace ProfileAdmin.Crypto

/-- `base ^ e` modulo `m`, by squaring. -/
def powMod (m base e : Nat) : Nat :=
  if h : e = 0 then 1 % m
  else
    let half := powMod m base (e / 2)
    let square := half * half % m
    if e % 2 = 0 then square else square * base % m
termination_by e
decreasing_by omega

/-- The inverse of a number modulo a prime. -/
def inverse (p a : Nat) : Nat := powMod p a (p - 2)

/-- `a - b` modulo `p`, for `b` below `p`. -/
def subMod (p a b : Nat) : Nat := (a + (p - b)) % p

/-- The number of binary digits. -/
def bitLength (n : Nat) : Nat := if n = 0 then 0 else n.log2 + 1

/-- The number that bytes spell, the first one in the highest place. -/
def bigEndian (bs : List UInt8) : Nat :=
  bs.foldl (fun n b => n * 256 + b.toNat) 0

/-- A number in `width` bytes, the highest one first. -/
def toBigEndian (width n : Nat) : List UInt8 :=
  (List.range width).reverse.map fun i => (n / Nat.pow 256 i).toUInt8

end ProfileAdmin.Crypto
