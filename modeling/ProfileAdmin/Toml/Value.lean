import ProfileAdmin.Toml.Scalar
import ProfileAdmin.Toml.Tree

/-!
# Toml.Value — keys and values of a TOML document

1. **Keys**: parts with dots between them.
2. **Lists**, in which lines may end and comments stand.
3. **Inline tables**, which stay on one line.
4. **Values** of any kind, to a depth.
-/

namespace ProfileAdmin.Toml

open Document (Value)

/-! ## Keys -/

/-- A key: its last part, and the path that stands before it. -/
structure Key where
  path : List String
  name : String
  deriving DecidableEq, Repr

/-- No key has so many parts. -/
def partLimit : Nat := 80

/-- A part of a key: bare or quoted. -/
def part : Reader String := do
  if ← taken? ['"'] then basic
  else if ← taken? ['\''] then literal
  else
    let cs ← run isBare
    if cs.isEmpty then failure else pure (String.ofList cs)

/-- A key of at most so many parts, with blanks around each of them. -/
def keyIn : Nat → Reader Key
  | 0 => failure
  | parts + 1 => do
    blanks
    let name ← part
    blanks
    if ← taken? ['.'] then
      let key ← keyIn parts
      pure ⟨name :: key.path, key.name⟩
    else pure ⟨[], name⟩

/-- A key. -/
def key : Reader Key := keyIn (partLimit - 1)

/-- What stands behind a key: a sign and a value. -/
def assigned (value : Reader Value) : Reader Value := do
  expect '='
  blanks
  value

/-! ## Lists -/

/-- The items of a list behind its opening bracket, in at most `turns` turns. A comma
may stand behind the last one. -/
def itemsIn (value : Reader Value) : Nat → Reader (List Value)
  | 0 => failure
  | turns + 1 => do
    gap
    if ← taken? [']'] then pure []
    else
      let v ← value
      gap
      if ← taken? [','] then
        let vs ← itemsIn value turns
        pure (v :: vs)
      else
        expect ']'
        pure [v]

/-- A list behind its opening bracket. -/
def items (value : Reader Value) : Reader Value := fun s => do
  let (vs, rest) ← itemsIn value (s.length + 1) s
  some (.list vs, rest)

/-! ## Inline tables -/

/-- The members of an inline table, in at most `turns` turns. No comma stands behind the
last one. -/
def pairsIn (value : Reader Value) : Nat → Reader (List (Key × Value))
  | 0 => failure
  | turns + 1 => do
    let k ← key
    let v ← assigned value
    blanks
    if ← taken? [','] then
      let others ← pairsIn value turns
      pure ((k, v) :: others)
    else
      expect '}'
      pure [(k, v)]

/-- The table of members that come one after the other. -/
def tableOf? (pairs : List (Key × Value)) : Option Value := do
  let ms ← pairs.foldlM (fun ms (k, v) => Members.putAt? k.path k.name v ms) []
  return .table (valuesOf ms)

/-- An inline table behind its opening brace. -/
def inlineTable (value : Reader Value) : Reader Value := do
  blanks
  if ← taken? ['}'] then pure (.table [])
  else fun s => do
    let (pairs, rest) ← pairsIn value (s.length + 1) s
    some (← tableOf? pairs, rest)

/-! ## Values -/

/-- No lists and inline tables stand so deep in each other. -/
def depthLimit : Nat := 80

/-- A value in which lists and tables may still be opened to a depth. -/
def nestedIn (value : Reader Value) : Nat → Reader Value
  | 0 => value
  | levels + 1 => do
    if ← taken? ['['] then items (nestedIn value levels)
    else if ← taken? ['{'] then inlineTable (nestedIn value levels)
    else value

/-- A value. -/
def value : Reader Value := nestedIn scalar (depthLimit - 1)

end ProfileAdmin.Toml
