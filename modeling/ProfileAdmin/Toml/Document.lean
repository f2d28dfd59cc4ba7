import ProfileAdmin.Toml.Value

/-!
# Toml.Document — a TOML document

1. **Statements**: each stands on a line, or begins there.
2. **Lines**: statements, comments and blank lines.
3. **Building**: what the statements say together.
-/

namespace ProfileAdmin.Toml

open Document (Value)

/-! ## Statements -/

/-- What a line can say. -/
inductive Statement where
  /-- A table is opened. -/
  | table (k : Key)
  /-- One more table of a list is opened. -/
  | item (k : Key)
  /-- A value is put into the open table. -/
  | pair (k : Key) (v : Value)

/-- A statement and the rest of its line. -/
def statement : Reader Statement := do
  if ← taken? ['[', '['] then
    let k ← key
    expect ']'
    expect ']'
    lineRest
    pure (.item k)
  else if ← taken? ['['] then
    let k ← key
    expect ']'
    lineRest
    pure (.table k)
  else
    let k ← key
    let v ← assigned value
    lineRest
    pure (.pair k v)

/-! ## Lines -/

/-- The statements of a text, in at most `turns` lines. -/
def statementsIn : Nat → Reader (List Statement)
  | 0 => failure
  | turns + 1 => do
    blanks
    match ← peek? with
    | none => pure []
    | some c =>
      if c = '#' ∨ c = '\n' ∨ c = '\r' then
        lineRest
        statementsIn turns
      else
        let s ← statement
        let others ← statementsIn turns
        pure (s :: others)

/-- The statements of a text. A mark of the byte order in front is passed over. -/
def statements? (text : String) : Option (List Statement) := do
  let cs := text.toList
  let cs := if cs.head? = some '\ufeff' then cs.tail else cs
  let (all, _) ← statementsIn (cs.length + 1) cs
  return all

/-! ## Building -/

/-- The document so far, and the header of the table that is open. -/
structure Draft where
  members : Members
  header : List String

/-- Takes up a statement. -/
def Draft.step (d : Draft) : Statement → Option Draft
  | .table k => do
    let ms ← Members.within? .header (fun _ => Members.openTable? k.name) k.path .opened d.members
    return ⟨ms, k.path ++ [k.name]⟩
  | .item k => do
    let ms ← Members.within? .header (fun _ => Members.openItem? k.name) k.path .opened d.members
    return ⟨ms, k.path ++ [k.name]⟩
  | .pair k v => do
    let ms ← Members.within? .header (fun _ => Members.putAt? k.path k.name v) d.header .opened
      d.members
    return { d with members := ms }

/-- What statements say together. -/
def build? (all : List Statement) : Option Value := do
  let d ← all.foldlM Draft.step ⟨[], []⟩
  return .table (valuesOf d.members)

/-- The document that a text is. -/
def document? (text : String) : Option Value := do
  build? (← statements? text)

end ProfileAdmin.Toml
