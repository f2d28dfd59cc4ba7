import ProfileAdmin.Document.Value
import ProfileAdmin.Toml.Text

/-!
# Toml.Scalar — numbers, dates and words of a TOML document

1. **Digits**, with underscores between them.
2. **Integers** of 64 bits with a sign.
3. **Floating-point numbers.** One that is too large is refused, unless it is negative.
4. **Dates and times**, which have to exist. They have no counterpart in a document and
   stand for a table whose only member nobody asks for.
5. **Words.**
-/

namespace ProfileAdmin.Toml

open Document (Value)

/-! ## Digits -/

/-- Digits of a class, with single underscores between them. At least one has to be
there. -/
def digitsOf (p : Char → Bool) : Reader (List Char) := fun s => do
  let cs := s.takeWhile fun c => p c || c == '_'
  -- Between two underscores, and at either end, there has to be a digit.
  let parts := cs.splitOn '_'
  if parts.any List.isEmpty then none
  else some (cs.filter p, s.drop cs.length)

/-- The sign, if there is one. -/
def sign? : Reader (Option Char) := fun s =>
  match s with
  | '+' :: rest => some (some '+', rest)
  | '-' :: rest => some (some '-', rest)
  | _ => some (none, s)

/-- Decimal digits without a leading zero. -/
def wholeDigits : Reader (List Char) := do
  match ← peek? with
  | some '0' =>
    let _ ← next
    pure ['0']
  | _ => digitsOf isDigit

/-- The value of digits to a base. -/
def valueIn (base : Nat) (cs : List Char) : Nat :=
  cs.foldl (fun n c => n * base + (Text.hexValue? c).getD 0) 0

/-! ## Integers -/

/-- Integers are below this, and at least its negative. -/
def integerBound : Nat := 0x8000000000000000

/-- An integer behind a mark of its base. -/
def based (base : Nat) (p : Char → Bool) : Reader Value := do
  let n := valueIn base (← digitsOf p)
  if n < integerBound then pure (.integer n) else failure

/-- An integer. -/
def integer : Reader Value := do
  if ← taken? ['0', 'x'] then based 16 fun c => (Text.hexValue? c).isSome
  else if ← taken? ['0', 'o'] then based 8 fun c => '0' ≤ c && c ≤ '7'
  else if ← taken? ['0', 'b'] then based 2 fun c => c == '0' || c == '1'
  else
    let sign ← sign?
    let n := valueIn 10 (← wholeDigits)
    if sign = some '-' then
      if n ≤ integerBound then pure (.integer (-(n : Int))) else failure
    else if n < integerBound then pure (.integer n) else failure

/-! ## Floating-point numbers -/

/-- An exponent, if there is one. -/
def exponent? : Reader (Option Int) := do
  match ← peek? with
  | some c =>
    if c = 'e' ∨ c = 'E' then
      let _ ← next
      let sign ← sign?
      let e := valueIn 10 (← digitsOf isDigit)
      pure (some (if sign = some '-' then -(e : Int) else e))
    else pure none
  | none => pure none

/-- The number `n * 10 ^ e`. Exponents so far out that only zero or infinity remains are
cut off. -/
def scientific (n : Nat) (e : Int) : Float :=
  let places := (Nat.toDigits 10 n).length
  if n = 0 ∨ e + places < -400 then 0.0
  else if 400 < e + places then 1.0 / 0.0
  else Float.ofScientific n (e < 0) e.natAbs

/-- A number with a fraction or an exponent. -/
def decimal : Reader Value := do
  let sign ← sign?
  let whole ← wholeDigits
  let fraction ←
    if ← taken? ['.'] then some <$> digitsOf isDigit else pure none
  let e ← exponent?
  if fraction.isNone ∧ e.isNone then failure
  else
    let places := (fraction.getD []).length
    let x := scientific (valueIn 10 (whole ++ fraction.getD [])) (e.getD 0 - places)
    if sign = some '-' then pure (.real (-x))
    else if x.isInf then failure
    else pure (.real x)

/-- Infinity, or what is no number. -/
def special : Reader Value := do
  let sign ← sign?
  if ← taken? ['i', 'n', 'f'] then
    pure (.real (if sign = some '-' then -1.0 / 0.0 else 1.0 / 0.0))
  else if ← taken? ['n', 'a', 'n'] then pure (.real (0.0 / 0.0))
  else failure

/-! ## Dates and times -/

/-- Exactly `width` digits, with a value in a range. -/
def field (width low high : Nat) : Reader Nat := fun s =>
  let cs := s.take width
  let n := valueIn 10 cs
  if cs.length = width ∧ cs.all isDigit ∧ low ≤ n ∧ n ≤ high then some (n, s.drop width)
  else none

/-- The number of days of a month. -/
def daysIn (year month : Nat) : Nat :=
  if month = 2 then
    if year % 4 = 0 ∧ (year % 100 ≠ 0 ∨ year % 400 = 0) then 29 else 28
  else if month = 4 ∨ month = 6 ∨ month = 9 ∨ month = 11 then 30
  else 31

/-- A date. -/
def date : Reader Unit := do
  let year ← field 4 0 9999
  expect '-'
  let month ← field 2 1 12
  expect '-'
  let day ← field 2 1 31
  if day ≤ daysIn year month then pure () else failure

/-- A time of day; the second may be a leap second. -/
def time : Reader Unit := do
  let _ ← field 2 0 23
  expect ':'
  let _ ← field 2 0 59
  expect ':'
  let _ ← field 2 0 60
  if ← taken? ['.'] then
    if (← run isDigit).isEmpty then failure

/-- The offset of a time zone, if there is one. -/
def zone? : Reader Unit := do
  match ← peek? with
  | some c =>
    if c = 'Z' ∨ c = 'z' then
      let _ ← next
    else if c = '+' ∨ c = '-' then
      let _ ← next
      let _ ← field 2 0 23
      expect ':'
      let _ ← field 2 0 59
  | none => pure ()

/-- Whether a time follows a date: it is announced by one letter or a space. -/
def timeFollows? : Reader Bool := fun s =>
  match s with
  -- A space may also end the value, so an hour has to stand behind it.
  | c :: h₁ :: h₂ :: ':' :: _ =>
    if (c = 'T' ∨ c = 't' ∨ c = ' ') ∧ isDigit h₁ ∧ isDigit h₂ then some (true, s.tail)
    else some (false, s)
  | _ => some (false, s)

/-- A date, a time of day, or both. -/
def moment : Reader Value := do
  let start ← get
  match ← attempt? date with
  | some () =>
    if ← timeFollows? then
      time
      zone?
  | none => time
  let rest ← get
  pure (.table [("moment", .text (String.ofList (start.take (start.length - rest.length))))])

/-! ## Words -/

/-- A date, a time or a number. -/
def number : Reader Value := do
  match ← attempt? moment with
  | some v => pure v
  | none =>
    match ← attempt? decimal with
    | some v => pure v
    | none =>
      match ← attempt? special with
      | some v => pure v
      | none => integer

/-- A value without parts. -/
def scalar : Reader Value := do
  match ← text? with
  | some s => pure (.text s)
  | none =>
    if ← taken? "true".toList then pure (.flag true)
    else if ← taken? "false".toList then pure (.flag false)
    else number

end ProfileAdmin.Toml
