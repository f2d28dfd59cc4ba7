/-!
# Pem.Base64 — bytes as printable characters

Four symbols of six bits spell three bytes. Blanks between the symbols are passed over.
The text is taken in groups of eight symbols; only the last group may be short, or have
pads, and these only where they fill up its last four symbols. The bits that are beyond
whole bytes are dropped.
-/

namespace ProfileAdmin.Pem.Base64

/-- Why bytes are not a base64 text. -/
inductive Flaw where
  | invalidCharacter (b : UInt8)
  | prematurePadding
  | invalidTrailingPadding
  deriving DecidableEq, Repr

/-- The wording of a flaw. -/
def Flaw.message : Flaw → String
  | .invalidCharacter b => s!"InvalidCharacter({b.toNat})"
  | .prematurePadding => "PrematurePadding"
  | .invalidTrailingPadding => "InvalidTrailingPadding"

/-- What a byte means: a symbol, which is a digit or, without one, a pad; a blank; or
nothing. -/
inductive Meaning where
  | symbol (digit : Option Nat)
  | blank
  | foreign

/-- The meaning of a byte. The controls from tab to carriage return are blanks. -/
def meaning (b : UInt8) : Meaning :=
  let n := b.toNat
  if 0x41 ≤ n ∧ n ≤ 0x5A then .symbol (some (n - 0x41))
  else if 0x61 ≤ n ∧ n ≤ 0x7A then .symbol (some (n - 0x61 + 26))
  else if 0x30 ≤ n ∧ n ≤ 0x39 then .symbol (some (n - 0x30 + 52))
  else if n = 0x2B then .symbol (some 62)
  else if n = 0x2F then .symbol (some 63)
  else if n = 0x3D then .symbol none
  else if n = 0x20 ∨ (0x09 ≤ n ∧ n ≤ 0x0D) then .blank
  else .foreign

/-- The digits of all groups but the last, and the symbols of the last one. `group` holds
the symbols read of the present group; once it is full, another symbol shows that it was
not the last. -/
def groups : List (Option Nat) → List UInt8 → Except Flaw (List Nat × List (Option Nat))
  | group, [] => .ok ([], group)
  | group, b :: rest =>
    match meaning b with
    | .blank => groups group rest
    | .foreign => .error (.invalidCharacter b)
    | .symbol d =>
      if group.length < 8 then groups (group ++ [d]) rest
      -- Another symbol comes, so this group is not the last one and has no place for pads.
      else match group.mapM id with
        | none => .error .prematurePadding
        | some ds => (groups [d] rest).map fun (others, last) => (ds ++ others, last)

/-- The digits among the last four symbols, if these may end a text: pads fill them up
or are left out, and one digit alone spells no byte. -/
def lastDigits? : List (Option Nat) → Option (List Nat)
  | [] => some []
  | [some a, some b] => some [a, b]
  | [some a, some b, none, none] => some [a, b]
  | [some a, some b, some c] => some [a, b, c]
  | [some a, some b, some c, none] => some [a, b, c]
  | [some a, some b, some c, some d] => some [a, b, c, d]
  | _ => none

/-- The digits of the last group. Its first four symbols are no place for pads if others
follow them. -/
def groupDigits (group : List (Option Nat)) : Except Flaw (List Nat) :=
  let front := if group.length ≤ 4 then [] else group.take 4
  match front.mapM id, lastDigits? (group.drop front.length) with
  | none, _ => .error .prematurePadding
  | some _, none => .error .invalidTrailingPadding
  | some ds, some last => .ok (ds ++ last)

/-- The bytes of a list of digits. A single digit at the end spells nothing. -/
def bytesOf : List Nat → List UInt8
  | a :: b :: c :: d :: rest =>
    (a * 4 + b / 16).toUInt8 :: (b % 16 * 16 + c / 4).toUInt8 :: (c % 4 * 64 + d).toUInt8 ::
      bytesOf rest
  | [a, b, c] => [(a * 4 + b / 16).toUInt8, (b % 16 * 16 + c / 4).toUInt8]
  | [a, b] => [(a * 4 + b / 16).toUInt8]
  | _ => []

/-- The bytes that a text spells. -/
def decode (text : List UInt8) : Except Flaw (List UInt8) := do
  let (ds, group) ← groups [] text
  let last ← groupDigits group
  return bytesOf (ds ++ last)

end ProfileAdmin.Pem.Base64
