import ProfileAdmin.X509.OidName
import ProfileAdmin.Text.Utf16
import ProfileAdmin.Text.Utf8

/-!
# X509.Name — distinguished names

1. **Names**: a sequence of sets of attributes. A set that cannot be read ends the
   name, an attribute that cannot be read ends its set.
2. **Values**: texts of two encodings; other values are shown by their bytes.
3. **Writing**: one line.
-/

namespace ProfileAdmin.X509

/-! ## Names -/

/-- An attribute of a name. -/
structure Attribute where
  type : Oid
  value : Element
  deriving DecidableEq, Repr

/-- A name, as sets of attributes. -/
abbrev Name := List (List Attribute)

/-- One attribute. -/
def attribute? (bs : List UInt8) : Option (Attribute × List UInt8) := do
  let (body, rest) ← sequence? bs
  let (type, value) ← oid? body
  let (value, _) ← element? value
  some (⟨type, value⟩, rest)

/-- Reads as many as can be read, in at most `turns` turns. -/
def manyIn {α : Type} (one : List UInt8 → Option (α × List UInt8)) :
    Nat → List UInt8 → List α × List UInt8
  | 0, bs => ([], bs)
  | turns + 1, bs =>
    match one bs with
    | none => ([], bs)
    | some (a, rest) =>
      let (others, rest) := manyIn one turns rest
      (a :: others, rest)

/-- Reads as many as can be read, each of at least one byte. -/
def many {α : Type} (one : List UInt8 → Option (α × List UInt8)) (bs : List UInt8) :
    List α × List UInt8 :=
  manyIn one bs.length bs

/-- One set of attributes. -/
def attributeSet? (bs : List UInt8) : Option (List Attribute × List UInt8) := do
  let (e, rest) ← tagged? setTag bs
  match many attribute? e.body with
  | ([], _) => none
  | (attributes, _) => some (attributes, rest)

/-- A name. -/
def name? (bs : List UInt8) : Option (Name × List UInt8) := do
  let (body, rest) ← sequence? bs
  some ((many attributeSet? body).1, rest)

/-! ## Values -/

/-- Bytes as upper-case hexadecimal digits. -/
def upperHex (bs : List UInt8) : List Char :=
  (bs.flatMap Text.hexByte).map Char.toUpper

/-- The sixteen-bit units of a byte string, the higher byte first. A byte that is left
over at the end is a unit of its own. -/
def wideUnits : List UInt8 → List Nat
  | [] => []
  | [a] => [a.toNat]
  | a :: b :: rest => (a.toNat * 256 + b.toNat) :: wideUnits rest

/-- The tags of texts whose bytes are taken as UTF-8. -/
def plainTextTags : List Nat := [7, 12, 18, 19, 20, 21, 22, 25, 26, 27]

/-- The tag of a text of sixteen-bit units. -/
def wideTextTag : Nat := 30

/-- The text of a value; nothing if it is a text that cannot be decoded. -/
def valueChars? (e : Element) : Option (List Char) :=
  if plainTextTags.contains e.tag then Text.Utf8.decode? e.body
  else if e.tag = wideTextTag then Text.Utf16.decode? (wideUnits e.body)
  else some (upperHex e.body)

/-! ## Writing -/

/-- One attribute. -/
def Attribute.chars? (a : Attribute) : Option (List Char) := do
  return a.type.name.toList ++ '=' :: (← valueChars? a.value)

/-- One set of attributes. -/
def setChars? (attributes : List Attribute) : Option (List Char) := do
  let parts ← attributes.mapM Attribute.chars?
  return [' ', '+', ' '].intercalate parts

/-- A name on one line. -/
def Name.text (n : Name) : String :=
  match n.mapM setChars? with
  | some parts => String.ofList ([',', ' '].intercalate parts)
  | none => "<X509Error: Invalid X.509 name>"

end ProfileAdmin.X509
