import ProfileAdmin.Toml.Reader

/-!
# Toml.Text — strings of a TOML document

1. **Basic strings** between double quotes, with escapes.
2. **Literal strings** between single quotes, taken as they are.
3. **Strings of several lines**, in which the end of a line is one line feed. The
   first end of a line does not count, and up to two quotes may stand inside.
-/

namespace ProfileAdmin.Toml

/-! ## Basic strings -/

/-- The value of hexadecimal digits. -/
def hexValue? (cs : List Char) : Option Nat :=
  (cs.mapM Text.hexValue?).map (·.foldl (fun n d => n * 16 + d) 0)

/-- The character with a number in `width` hexadecimal digits. -/
def coded (width : Nat) : Reader Char := fun s => do
  let cs := s.take width
  let n ← hexValue? cs
  if cs.length = width ∧ (n < 0xD800 ∨ (0xE000 ≤ n ∧ n < 0x110000)) then
    some (Char.ofNat n, s.drop width)
  else none

/-- The character that an escape stands for, behind the backslash. -/
def escaped : Reader Char := do
  match ← next with
  | 'b' => pure '\x08'
  | 'f' => pure '\x0c'
  | 'n' => pure '\n'
  | 'r' => pure '\r'
  | 't' => pure '\t'
  | '"' => pure '"'
  | '\\' => pure '\\'
  | 'u' => coded 4
  | 'U' => coded 8
  | _ => failure

/-- A basic string behind its opening quote, in at most `turns` turns. -/
def basicIn : Nat → Reader (List Char)
  | 0 => failure
  | turns + 1 => do
    let c ← next
    if c = '"' then pure []
    else if c = '\\' then
      let e ← escaped
      let cs ← basicIn turns
      pure (e :: cs)
    else if isPlain c then
      let cs ← basicIn turns
      pure (c :: cs)
    else failure

/-- A basic string behind its opening quote. -/
def basic : Reader String := fun s => do
  let (cs, rest) ← basicIn (s.length + 1) s
  some (String.ofList cs, rest)

/-! ## Literal strings -/

/-- A literal string behind its opening quote. -/
def literal : Reader String := do
  let cs ← run fun c => isPlain c && c != '\''
  expect '\''
  pure (String.ofList cs)

/-! ## Strings of several lines -/

/-- Passes blanks and ends of lines, in at most `turns` turns. -/
def spaceIn : Nat → Reader Unit
  | 0 => pure ()
  | turns + 1 => do
    blanks
    if ← lineBreak? then spaceIn turns else pure ()

/-- Whether a backslash hides the end of its line: only blanks stand between them. The
space behind is passed too. -/
def hiddenBreak? : Reader Bool := fun s =>
  match lineBreak? (s.dropWhile isBlank) with
  | some (true, rest) => do
    let ((), rest) ← spaceIn (rest.length + 1) rest
    some (true, rest)
  | _ => some (false, s)

/-- The quotes that come next: those that belong to the string, and whether it ends. -/
def quotes (q : Char) : Reader (List Char × Bool) := fun s =>
  let count := (s.takeWhile (· == q)).length
  if count < 3 then some ((List.replicate count q, false), s.drop count)
  else
    -- Of five quotes or more, two belong to the string and three end it.
    let inside := min (count - 3) 2
    some ((List.replicate inside q, true), s.drop (inside + 3))

/-- A string of several lines between three quotes each, in at most `turns` turns. Escapes
count where `hasEscapes` says so. -/
def linesIn (q : Char) (hasEscapes : Bool) : Nat → Reader (List Char)
  | 0 => failure
  | turns + 1 => do
    match ← peek? with
    | none => failure
    | some c =>
      if c = q then
        let (inside, ends) ← quotes q
        if ends then pure inside
        else
          let cs ← linesIn q hasEscapes turns
          pure (inside ++ cs)
      else if ← lineBreak? then
        let cs ← linesIn q hasEscapes turns
        pure ('\n' :: cs)
      else
        let c ← next
        if c = '\\' ∧ hasEscapes = true then
          if ← hiddenBreak? then linesIn q hasEscapes turns
          else
            let e ← escaped
            let cs ← linesIn q hasEscapes turns
            pure (e :: cs)
        else if isPlain c then
          let cs ← linesIn q hasEscapes turns
          pure (c :: cs)
        else failure

/-- A string of several lines behind its three opening quotes. -/
def multiline (q : Char) (hasEscapes : Bool) : Reader String := do
  let _ ← lineBreak?
  fun s => do
    let (cs, rest) ← linesIn q hasEscapes (s.length + 1) s
    some (String.ofList cs, rest)

/-- A string of any form, if one comes next. -/
def text? : Reader (Option String) := do
  if ← taken? ['"', '"', '"'] then some <$> multiline '"' true
  else if ← taken? ['"'] then some <$> basic
  else if ← taken? ['\'', '\'', '\''] then some <$> multiline '\'' false
  else if ← taken? ['\''] then some <$> literal
  else pure none

end ProfileAdmin.Toml
