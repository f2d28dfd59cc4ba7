/-!
# Decimal.Shortest — the fewest digits that read back

1. **Binary**: a finite binary64 number is `significand * 2 ^ exponent`; the reals
   that round to it form an interval around it.
2. **Decimal**: on the grid of one, two, … digits the two neighbours of the number
   are tested; the first grid with a neighbour inside the interval wins, and of
   two hits the nearer.

All of it is exact arithmetic on natural numbers.
-/

namespace ProfileAdmin.Decimal

/-! ## Binary -/

/-- A finite binary64 number without its sign, and whether the number below it is
only half as far away as the number above (at a power of two). -/
structure Magnitude where
  significand : Nat
  exponent : Int
  narrow : Bool

/-- The magnitude that the low 63 bits of a binary64 number spell. -/
def Magnitude.ofBits (bits : Nat) : Magnitude :=
  let unit := Nat.pow 2 52
  let field := bits / unit % Nat.pow 2 11
  let fraction := bits % unit
  if field = 0 then ⟨fraction, -1074, false⟩
  else ⟨unit + fraction, Int.ofNat field - 1075, fraction == 0 && 1 < field⟩

/-- A number as a quotient of naturals, `scale` times over. -/
private def quotient (n : Nat) (exponent : Int) : Nat × Nat :=
  if 0 ≤ exponent then (n * Nat.pow 2 exponent.toNat, 1)
  else (n, Nat.pow 2 (-exponent).toNat)

/-! ## Decimal -/

/-- `0.d₁d₂… * 10 ^ (exponent + 1)`: the digits of a number and the power of ten of
the first of them. -/
structure Digits where
  digits : List Nat
  exponent : Int

/-- The power of ten of the first digit of `num / den`, at most `fuel` places away
from the point. -/
private def leading : Nat → Nat → Nat → Int
  | 0, _, _ => 0
  | fuel + 1, num, den =>
    if num < den then leading fuel (num * 10) den - 1
    else if den * 10 ≤ num then leading fuel num (den * 10) + 1
    else 0

/-- Whether `candidate * 10 ^ unit` rounds to `m`. -/
private def readsBack (m : Magnitude) (candidate : Nat) (unit : Int) : Bool :=
  let (low, den) := quotient (4 * m.significand - if m.narrow then 1 else 2) (m.exponent - 2)
  let (high, _) := quotient (4 * m.significand + 2) (m.exponent - 2)
  let (c, scale) := if 0 ≤ unit then (candidate * Nat.pow 10 unit.toNat, 1)
    else (candidate, Nat.pow 10 (-unit).toNat)
  -- The ends of the interval belong to it when the significand is even.
  if m.significand % 2 = 0 then low * scale ≤ c * den ∧ c * den ≤ high * scale
  else low * scale < c * den ∧ c * den < high * scale

/-- The best point of the grid `10 ^ unit`, if one of the two neighbours reads back. -/
private def onGrid (m : Magnitude) (unit : Int) : Option Nat :=
  let (num, den) := quotient m.significand m.exponent
  let (num, den) := if 0 ≤ unit then (num, den * Nat.pow 10 unit.toNat)
    else (num * Nat.pow 10 (-unit).toNat, den)
  let below := num / den
  match readsBack m below unit, readsBack m (below + 1) unit with
  | true, true => some (if 2 * (num % den) < den ∨ (2 * (num % den) = den ∧ below % 2 = 0)
      then below else below + 1)
  | true, false => some below
  | false, true => some (below + 1)
  | false, false => none

/-- Decimal digits of a number, the most significant first. -/
def natDigits (n : Nat) : List Nat :=
  (Nat.toDigits 10 n).map (fun c => c.toNat - '0'.toNat)

/-- The fewest digits that read back as `m`, and among those the nearest. -/
def shortest (m : Magnitude) : Digits :=
  if m.significand = 0 then ⟨[0], 0⟩
  else
    let (num, den) := quotient m.significand m.exponent
    let top := leading 700 num den
    let hit := (List.range 17).findSome? fun k : Nat => do
      let unit := top - Int.ofNat k
      let c ← onGrid m unit
      some (c, unit)
    match hit with
    | none => ⟨[0], 0⟩
    | some (c, unit) =>
      let all := natDigits c
      let kept := (all.reverse.dropWhile (· == 0)).reverse
      ⟨kept, unit + (all.length : Int) - 1⟩

end ProfileAdmin.Decimal
