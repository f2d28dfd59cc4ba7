import ProfileAdmin.X509.Element

/-!
# X509.Time — moments on a calendar

1. **Moments**: a date and a time of day at an offset from universal time, and their
   order.
2. **Reading**: the two spellings that certificates use.
3. **Writing**: one line in words and digits.
-/

namespace ProfileAdmin.X509

/-! ## Moments -/

/-- A date and a time of day. The offset counts minutes east of universal time. -/
structure Moment where
  year : Nat
  month : Nat
  day : Nat
  hour : Nat
  minute : Nat
  second : Nat
  millisecond : Nat
  offset : Int
  deriving DecidableEq, Repr

/-- Every fourth year, but of the hundreds only every fourth. -/
def isLeapYear (y : Nat) : Bool :=
  y % 4 == 0 && (y % 100 != 0 || y % 400 == 0)

/-- The number of days of a month; none outside of one to twelve. -/
def daysInMonth (year month : Nat) : Nat :=
  match month with
  | 1 => 31
  | 2 => if isLeapYear year then 29 else 28
  | 3 => 31
  | 4 => 30
  | 5 => 31
  | 6 => 30
  | 7 => 31
  | 8 => 31
  | 9 => 30
  | 10 => 31
  | 11 => 30
  | 12 => 31
  | _ => 0

/-- Whether the date and the time of day exist. -/
def Moment.isReal (m : Moment) : Bool :=
  1 ≤ m.day && m.day ≤ daysInMonth m.year m.month && m.hour ≤ 23 && m.minute ≤ 59 &&
    m.second ≤ 59

/-- The number of leap years before a year. -/
def leapYearsBefore (y : Nat) : Nat :=
  (y + 3) / 4 - (y + 99) / 100 + (y + 399) / 400

/-- Days from the first day of the year zero. -/
def dayNumber (year month day : Nat) : Nat :=
  365 * year + leapYearsBefore year +
    (List.range (month - 1)).foldl (fun days m => days + daysInMonth year (m + 1)) 0 + (day - 1)

/-- Nanoseconds from the beginning of 1970 in universal time. -/
def Moment.nanoseconds (m : Moment) : Int :=
  let days : Int := (dayNumber m.year m.month m.day : Int) - dayNumber 1970 1 1
  let seconds := ((days * 24 + m.hour) * 60 + m.minute - m.offset) * 60 + m.second
  (seconds * 1000 + m.millisecond) * 1000000

/-! ## Reading -/

/-- The value of a decimal digit. -/
def digit? (b : UInt8) : Option Nat :=
  if 0x30 ≤ b ∧ b ≤ 0x39 then some (b.toNat - 0x30) else none

/-- The value of two decimal digits. -/
def pair? (a b : UInt8) : Option Nat := do
  return (← digit? a) * 10 + (← digit? b)

/-- An offset by its sign, hours and minutes. The sign of the hours goes over to the
minutes; where the hours are zero the minutes are taken east. -/
def offset? (isWest : Bool) (hours minutes : Nat) : Option Int :=
  if hours ≤ 25 ∧ minutes ≤ 59 then
    let size : Int := hours * 60 + minutes
    some (if isWest && 0 < hours then -size else size)
  else none

/-- A time zone. -/
def zone? : List UInt8 → Option Int
  | [0x5A] => some 0
  | [0x2B, h₁, h₂, m₁, m₂] => do offset? false (← pair? h₁ h₂) (← pair? m₁ m₂)
  | [0x2D, h₁, h₂, m₁, m₂] => do offset? true (← pair? h₁ h₂) (← pair? m₁ m₂)
  | _ => none

/-- The seconds, for which the next two bytes are taken where there are two. -/
def seconds? : List UInt8 → Option (Nat × List UInt8)
  | a :: b :: rest => do return (← pair? a b, rest)
  | rest => some (0, rest)

/-- A time with a two-digit year. Years up to 49 belong to this century. -/
def utcTime? (bs : List UInt8) : Option Moment :=
  match bs with
  | y₁ :: y₂ :: m₁ :: m₂ :: d₁ :: d₂ :: h₁ :: h₂ :: n₁ :: n₂ :: rest => do
    if bs.any fun b => b < 0x20 || 0x7F < b then none
    let year ← pair? y₁ y₂
    let month ← pair? m₁ m₂
    let day ← pair? d₁ d₂
    let hour ← pair? h₁ h₂
    let minute ← pair? n₁ n₂
    let (second, rest) ← seconds? rest
    let offset ← zone? rest
    let m : Moment :=
      ⟨if year < 50 then 2000 + year else 1900 + year, month, day, hour, minute, second, 0, offset⟩
    if m.isReal then some m else none
  | _ => none

/-- Up to three digits of a fraction of a second, and what follows them. -/
def fraction? (ds : List UInt8) : Option (Nat × List UInt8) := do
  let digits ← (ds.takeWhile fun b => (digit? b).isSome).mapM digit?
  let value := digits.foldl (fun n d => n * 10 + d) 0
  if digits.length ≤ 3 then some (value * Nat.pow 10 (3 - digits.length), ds.drop digits.length)
  else none

/-- A time with a four-digit year, in universal time. -/
def generalizedTime? (bs : List UInt8) : Option Moment :=
  match bs with
  | y₁ :: y₂ :: y₃ :: y₄ :: m₁ :: m₂ :: d₁ :: d₂ :: h₁ :: h₂ :: n₁ :: n₂ :: rest => do
    let year := (← pair? y₁ y₂) * 100 + (← pair? y₃ y₄)
    let month ← pair? m₁ m₂
    let day ← pair? d₁ d₂
    let hour ← pair? h₁ h₂
    let minute ← pair? n₁ n₂
    let (second, rest) ← seconds? rest
    let (millisecond, rest) ← match rest with
      | 0x2E :: rest => fraction? rest
      | rest => some (0, rest)
    let m : Moment := ⟨year, month, day, hour, minute, second, millisecond, 0⟩
    if rest = [0x5A] ∧ m.isReal then some m else none
  | _ => none

/-- A moment of either spelling. -/
def moment? (bs : List UInt8) : Option (Moment × List UInt8) := do
  let (e, rest) ← element? bs
  if e.tag = utcTimeTag then some (← utcTime? e.body, rest)
  else if e.tag = generalizedTimeTag then some (← generalizedTime? e.body, rest)
  else none

/-! ## Writing -/

/-- The short name of a month. -/
def monthName (month : Nat) : String :=
  (["Jan", "Feb", "Mar", "Apr", "May", "Jun", "Jul", "Aug", "Sep", "Oct", "Nov", "Dec"][month - 1]?).getD ""

/-- A number in at least two places. -/
def twoPlaces (fill : Char) (n : Nat) : String :=
  let ds := Nat.toDigits 10 n
  String.ofList (List.replicate (2 - ds.length) fill ++ ds)

/-- A moment on one line. -/
def Moment.text (m : Moment) : String :=
  let sign := if m.offset < 0 then "-" else "+"
  let offset := m.offset.natAbs
  String.join [monthName m.month, " ", twoPlaces ' ' m.day, " ",
    twoPlaces '0' m.hour, ":", twoPlaces '0' m.minute, ":", twoPlaces '0' m.second, " ",
    toString m.year, " ", sign, twoPlaces '0' (offset / 60), ":", twoPlaces '0' (offset % 60)]

end ProfileAdmin.X509
