import ProfileAdmin.Text.Numeral

/-!
# Json.Writer — the compact form of a JSON text

Nothing stands between the tokens. Of the characters only the quote, the
backslash and the controls below the space are escaped, by one letter where there
is one.
-/

namespace ProfileAdmin.Json

open Text (hexDigit)

/-- A character inside a text. -/
def escapeChar (c : Char) : List Char :=
  match c with
  | '"' => ['\\', '"']
  | '\\' => ['\\', '\\']
  | '\x08' => ['\\', 'b']
  | '\x0c' => ['\\', 'f']
  | '\n' => ['\\', 'n']
  | '\r' => ['\\', 'r']
  | '\t' => ['\\', 't']
  | c =>
    if c < ' ' then ['\\', 'u', '0', '0', hexDigit (c.toNat / 16), hexDigit (c.toNat % 16)]
    else [c]

/-- A text in quotes. -/
def writeText (s : String) : List Char :=
  '"' :: (s.toList.flatMap escapeChar ++ ['"'])

/-- A truth value. -/
def writeFlag : Bool → List Char
  | true => "true".toList
  | false => "false".toList

/-- The absent value. -/
def writeNull : List Char :=
  "null".toList

/-- Items one after the other. -/
def separated : List (List Char) → List Char
  | [] => []
  | [item] => item
  | item :: others => item ++ ',' :: separated others

/-- A list of written items. -/
def writeList (items : List (List Char)) : List Char :=
  '[' :: (separated items ++ [']'])

/-- A member of an object. -/
def writeMember (name : String) (value : List Char) : List Char :=
  writeText name ++ ':' :: value

/-- An object of written members. -/
def writeObject (members : List (List Char)) : List Char :=
  '{' :: (separated members ++ ['}'])

end ProfileAdmin.Json
