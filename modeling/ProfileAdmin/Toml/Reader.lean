import ProfileAdmin.Text.Numeral

/-!
# Toml.Reader — the characters of a TOML document, from the front

1. **Readers**: functions on the characters not yet read. One that fails says no more
   than that.
2. **Classes** of characters.
3. **Blanks, comments and ends of lines.**
-/

namespace ProfileAdmin.Toml

/-! ## Readers -/

/-- Takes something off the front of a text. -/
abbrev Reader (α : Type) := StateT (List Char) Option α

variable {α : Type}

/-- The next character, left unread. -/
def peek? : Reader (Option Char) := fun s => some (s.head?, s)

/-- The next character, which has to be there. -/
def next : Reader Char
  | [] => none
  | c :: rest => some (c, rest)

/-- The next character, which has to be this one. -/
def expect (c : Char) : Reader Unit := do
  if (← next) = c then pure () else failure

/-- Takes a given text, if it comes next. -/
def taken? (cs : List Char) : Reader Bool := fun s =>
  if cs.isPrefixOf s then some (true, s.drop cs.length) else some (false, s)

/-- Characters of a class, as many as there are. -/
def run (p : Char → Bool) : Reader (List Char) := fun s =>
  some (s.takeWhile p, s.dropWhile p)

/-- Tries a reader; if it fails nothing is taken. -/
def attempt? (r : Reader α) : Reader (Option α) := fun s =>
  match r s with
  | some (a, rest) => some (some a, rest)
  | none => some (none, s)

/-! ## Classes -/

/-- Space and tab. -/
def isBlank (c : Char) : Bool := c == ' ' || c == '\t'

/-- A decimal digit. -/
def isDigit (c : Char) : Bool := '0' ≤ c && c ≤ '9'

/-- What may stand in comments and plain strings: everything but controls, of which only
the tab is allowed. -/
def isPlain (c : Char) : Bool :=
  c == '\t' || (' ' ≤ c && c != '\x7f')

/-- What a key may be made of without quotes. -/
def isBare (c : Char) : Bool :=
  ('A' ≤ c && c ≤ 'Z') || ('a' ≤ c && c ≤ 'z') || isDigit c || c == '_' || c == '-'

/-! ## Blanks, comments and ends of lines -/

/-- Passes blanks. -/
def blanks : Reader Unit := do
  let _ ← run isBlank

/-- Passes the end of a line, if it comes next. -/
def lineBreak? : Reader Bool := fun s =>
  match s with
  | '\n' :: rest => some (true, rest)
  | '\r' :: '\n' :: rest => some (true, rest)
  | _ => some (false, s)

/-- Passes a comment, if it comes next. -/
def comment? : Reader Bool := do
  if (← peek?) = some '#' then
    let _ ← run isPlain
    pure true
  else pure false

/-- Passes the end of a line or finds the end of the text. -/
def lineEnd : Reader Unit := do
  if ← lineBreak? then pure ()
  else match ← peek? with
    | none => pure ()
    | some _ => failure

/-- Passes the rest of a line, which holds nothing but blanks and a comment. -/
def lineRest : Reader Unit := do
  blanks
  let _ ← comment?
  lineEnd

/-- Passes blanks, comments and ends of lines, in at most `turns` turns. -/
def gapIn : Nat → Reader Unit
  | 0 => pure ()
  | turns + 1 => do
    blanks
    if ← comment? then
      if ← lineBreak? then gapIn turns else failure
    else if ← lineBreak? then gapIn turns
    else pure ()

/-- Passes blanks, comments and ends of lines. Each turn but the last passes one of
them. -/
def gap : Reader Unit := fun s => gapIn (s.length + 1) s

end ProfileAdmin.Toml
