import ProfileAdmin.Decimal.Shortest

/-!
# Decimal.Layout — digits as text

Where the point stands, and when an exponent is written. A document format that shows
numbers in its messages has one layout.
-/

namespace ProfileAdmin.Decimal

/-- The decision of one number format: the exponents written positionally, or all of
them when there are no bounds. -/
structure Layout where
  positional : Option (Int × Int)

/-- Whether a leading digit at `10 ^ e` is written positionally. -/
def Layout.isPositional (l : Layout) (e : Int) : Bool :=
  match l.positional with
  | none => true
  | some (low, high) => low ≤ e && e ≤ high

private def digitChars (ds : List Nat) : List Char :=
  ds.map fun d => Char.ofNat ('0'.toNat + d)

/-- Digits around a point; there is always at least one digit on either side of it. -/
def positionalText (d : Digits) : List Char :=
  let cs := digitChars d.digits
  if d.exponent < 0 then
    ['0', '.'] ++ List.replicate (-d.exponent - 1).toNat '0' ++ cs
  else
    let whole := d.exponent.toNat + 1
    if cs.length ≤ whole then
      cs ++ List.replicate (whole - cs.length) '0' ++ ['.', '0']
    else cs.take whole ++ ['.'] ++ cs.drop whole

/-- One digit, the others after a point, and a signed exponent. -/
def exponentText (d : Digits) : List Char :=
  let cs := digitChars d.digits
  let fraction := if cs.length ≤ 1 then [] else '.' :: cs.drop 1
  cs.take 1 ++ fraction ++ ['e', if d.exponent < 0 then '-' else '+'] ++
    Nat.toDigits 10 d.exponent.natAbs

/-- The text of a binary64 number. -/
def Layout.text (l : Layout) (x : Float) : String :=
  if x.isNaN then "NaN"
  else
    let bits := x.toBits.toNat
    let signBit := Nat.pow 2 63
    let sign := if bits / signBit % 2 = 1 then ['-'] else []
    if x.isInf then String.ofList (sign ++ "inf".toList)
    else
      let d := shortest (Magnitude.ofBits (bits % signBit))
      String.ofList (sign ++
        if l.isPositional d.exponent then positionalText d
        else exponentText d)

end ProfileAdmin.Decimal
