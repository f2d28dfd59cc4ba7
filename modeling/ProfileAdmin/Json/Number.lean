import ProfileAdmin.Json.Reader

/-!
# Json.Number — numbers of a JSON text

A number without fraction and exponent is a whole number if it fits 64 bits
(unsigned, or signed behind a minus), and else a binary64 one. A binary64 number
takes as many digits as fit 64 bits for its significand, counts the others, and
is scaled by one power of ten.
-/

namespace ProfileAdmin.Json

open Document (Found)

/-- Significands are below this. -/
def significandBound : Nat := 0x10000000000000000

/-- Negative integers go down to the negative of this. -/
def negativeBound : Nat := 0x8000000000000000

/-- Exponents are below this. -/
def exponentBound : Nat := 0x80000000

/-- Appends digits to `n` while the result is a significand; the digits that do not fit
are given back. -/
def gather : Nat → List UInt8 → Nat × List UInt8
  | n, [] => (n, [])
  | n, d :: ds =>
    let longer := n * 10 + (d.toNat - 0x30)
    if longer < significandBound then gather longer ds else (n, d :: ds)

/-- A power of ten, correctly rounded. -/
private def powerOfTen (e : Nat) : Float := Float.ofScientific 1 false e

/-- `x * 10 ^ e` by one multiplication or division where the power is at most 308,
and by steps of 308 below that; nothing if it is too large. -/
def scaled : Nat → Float → Int → Option Float
  | 0, x, _ => some x
  | turns + 1, x, e =>
    if e.natAbs ≤ 308 then
      if 0 ≤ e then
        let y := x * powerOfTen e.natAbs
        if y.isInf then none else some y
      else some (x / powerOfTen e.natAbs)
    -- Nought stays nought, however far it is scaled.
    else if x == 0.0 then some x
    else if 0 ≤ e then none
    else scaled turns (x / powerOfTen 308) (e + 308)

/-- A binary64 number from its sign, significand and power of ten. -/
def real (negative : Bool) (significand : Nat) (e : Int) : Reader Found :=
  match scaled 8 significand.toUInt64.toFloat e with
  | none => stopHere .numberOutOfRange
  | some x => pure (.real (if negative then -x else x))

/-- The digits that follow. -/
def digitRun : Reader (List UInt8) := fun s =>
  .ok (s.takeWhile isDigitByte, s.dropWhile isDigitByte)

/-- The next byte, left unread; blanks are not passed. -/
def glance : Reader (Option UInt8) := fun s => .ok (s.head?, s)

/-- Takes up the digits of an exponent; nothing once the value reaches the bound,
together with the digits behind that one. -/
def exponentValue : Nat → List UInt8 → Except (List UInt8) Nat
  | n, [] => .ok n
  | n, d :: ds =>
    let longer := n * 10 + (d.toNat - 0x30)
    if longer < exponentBound then exponentValue longer ds else .error ds

/-- Behind the letter of an exponent; `start` counts the places of the significand. -/
def exponent (negative : Bool) (significand : Nat) (start : Int) : Reader Found := do
  let down ← do
    match ← glance with
    | some 0x2B => advance; pure false
    | some 0x2D => advance; pure true
    | _ => pure false
  match ← glance with
  | none => stopHere .endInValue
  | some b =>
    if isDigitByte b then
      let ds ← digitRun
      match exponentValue 0 ds with
      | .ok e => real negative significand (if down then start - e else start + e)
      | .error behind =>
        -- Far below, and with a significand of nought, nothing is left of the number.
        if significand ≠ 0 && !down then
          fun s => stopHere .numberOutOfRange (behind ++ s)
        else pure (.real (if negative then -0.0 else 0.0))
    else
      advance
      stopHere .invalidNumber

/-- Whether an exponent begins here; its letter is passed. -/
def exponentLetter : Reader Bool := do
  match ← glance with
  | some 0x65 => advance; pure true
  | some 0x45 => advance; pure true
  | _ => pure false

/-- Behind the point. -/
def fraction (negative : Bool) (significand : Nat) (start : Int) : Reader Found := do
  let ds ← digitRun
  let (longer, unused) := gather significand ds
  if ds.isEmpty then
    match ← glance with
    | some _ => stopAhead .invalidNumber
    | none => stopAhead .endInValue
  else
    let places := start - (ds.length - unused.length : Nat)
    if ← exponentLetter then exponent negative longer places
    else real negative longer places

/-- Behind the digits before the point, of which the last `dropped` did not fit. -/
def afterWhole (negative : Bool) (significand : Nat) (dropped : Nat) : Reader Found := do
  match ← glance with
  | some 0x2E => advance; fraction negative significand dropped
  | _ =>
    if ← exponentLetter then exponent negative significand dropped
    else if dropped ≠ 0 then real negative significand dropped
    else if !negative then pure (.integer significand)
    else if 1 ≤ significand ∧ significand ≤ negativeBound then pure (.integer (-(significand : Int)))
    -- Minus zero, and what lies below the signed range.
    else pure (.real (-significand.toUInt64.toFloat))

/-- A number from its first digit on. -/
def number (negative : Bool) : Reader Found := do
  match ← glance with
  | none => stopHere .endInValue
  | some b =>
    if b = 0x30 then
      advance
      match ← glance with
      -- No other digit follows a leading nought.
      | some d => if isDigitByte d then stopAhead .invalidNumber else afterWhole negative 0 0
      | none => afterWhole negative 0 0
    else if isDigitByte b then
      let ds ← digitRun
      let (n, unused) := gather 0 ds
      afterWhole negative n unused.length
    else
      advance
      stopHere .invalidNumber

end ProfileAdmin.Json
