import ProfileAdmin.Schema.Shape
import ProfileAdmin.Json.Skip

/-!
# Schema.Record — objects with known members

1. **Fields**: a name, a shape, what stands for an absent member, and when the
   member is left out in writing.
2. **Rows and drafts**: the values of all fields, and those met so far.
3. **Members in any order**: a repeated known member is refused, an unknown one is
   passed over, an absent one falls back or is missed.
4. **Values in field order**: a list may stand for the object; only fields with a
   fallback may be cut off at its end.
5. **The shape of a record.**
-/

namespace ProfileAdmin.Schema

open Document (Value Mismatch)
open Json (Reader peekValue stopLoose colon members anotherElement unexpected bracketed)

/-! ## Fields -/

/-- A member of a record. -/
structure Field (α : Type) where
  name : String
  shape : Shape α
  /-- Stands for an absent member; without it the member is required. -/
  absent : Option α
  /-- Values that are not written. -/
  omitted : α → Bool

/-- A member that has to be there. -/
def required {α : Type} (name : String) (s : Shape α) : Field α :=
  ⟨name, s, none, fun _ => false⟩

/-- A member with a fallback that is always written. -/
def defaulted {α : Type} (name : String) (s : Shape α) (absent : α) : Field α :=
  ⟨name, s, some absent, fun _ => false⟩

/-- A text that is not written when it is empty. -/
def nonEmptyText (name : String) : Field String :=
  ⟨name, text, some "", String.isEmpty⟩

/-- A member that is not written when there is no value. -/
def possible {α : Type} (name : String) (s : Shape α) : Field (Option α) :=
  ⟨name, optional s, some none, Option.isNone⟩

/-- The members of a record, in order. -/
inductive Fields : List Type → Type 1 where
  | nil : Fields []
  | cons {α : Type} {types : List Type} (field : Field α) (rest : Fields types) :
    Fields (α :: types)

variable {types : List Type}

/-- The number of fields. -/
def Fields.count : {types : List Type} → Fields types → Nat
  | _, .nil => 0
  | _, .cons _ rest => rest.count + 1

/-! ## Rows and drafts -/

/-- A value for each field. -/
def Row : List Type → Type
  | [] => Unit
  | α :: types => α × Row types

/-- A value for each field that has been met. -/
def Draft : List Type → Type
  | [] => Unit
  | α :: types => Option α × Draft types

/-- Nothing has been met. -/
def Fields.blank : {types : List Type} → Fields types → Draft types
  | _, .nil => ()
  | _, .cons _ rest => (none, rest.blank)

/-- The row of a draft. The first field that was neither met nor has a fallback is
missed. -/
def Fields.complete : {types : List Type} → Fields types → Draft types → Except Mismatch (Row types)
  | _, .nil, () => .ok ()
  | _, .cons field rest, (met, draft) => do
    match met <|> field.absent with
    | some a => return (a, ← rest.complete draft)
    | none => throw (.missingMember field.name)

/-! ## Members in any order -/

/-- Reads on behind a name, if it is the name of a field. -/
def Fields.readMember (levels : Nat) (name : String) :
    {types : List Type} → Fields types → Draft types → Option (Reader (Draft types))
  | _, .nil, () => none
  | _, .cons field rest, (met, draft) =>
    if name = field.name then
      some <|
        -- The second one is refused before its value is read.
        if met.isSome then stopLoose (.repeatedMember name)
        else do
          colon
          let a ← field.shape.read levels
          pure (some a, draft)
    else (rest.readMember levels name draft).map fun r => do pure (met, ← r)

/-- Reads on behind a name. -/
def Fields.step (fields : Fields types) (levels : Nat) (name : String) (draft : Draft types) :
    Reader (Draft types) :=
  match fields.readMember levels name draft with
  | some r => r
  | none => do
    colon
    Json.skip
    pure draft

/-- The members of an object. -/
def Fields.readMembers (fields : Fields types) (levels : Nat) : Reader (Row types) := do
  let draft ← members (fields.step levels) fields.blank
  match fields.complete draft with
  | .ok row => pure row
  | .error m => stopLoose m

/-- Takes up one member of a table, if it is a field. -/
def Fields.putMember (name : String) (v : Value) :
    {types : List Type} → Fields types → Draft types → Except Mismatch (Draft types)
  | _, .nil, () => .ok ()
  | _, .cons field rest, (met, draft) =>
    if name = field.name then
      if met.isSome then .error (.repeatedMember name)
      else do return (some (← field.shape.ofValue v), draft)
    else do return (met, ← rest.putMember name v draft)

/-- The members of a table. -/
def Fields.ofTable (fields : Fields types) (ms : List (String × Value)) :
    Except Mismatch (Row types) := do
  let draft ← ms.foldlM (fun draft m => fields.putMember m.1 m.2 draft) fields.blank
  fields.complete draft

/-! ## Values in field order -/

/-- How many values a list of all fields has. -/
def lengthWanted (title : String) (count : Nat) : String :=
  if count = 1 then s!"{title} with 1 element" else s!"{title} with {count} elements"

/-- The elements of a list, one for each field. `expected` describes the whole list and
`index` counts the elements before. -/
def Fields.readElements (expected : String) (levels : Nat) :
    {types : List Type} → Fields types → Nat → Reader (Row types)
  | _, .nil, _ => pure ()
  | _, .cons field rest, index => do
    if ← anotherElement (index == 0) then
      let a ← field.shape.read levels
      pure (a, ← rest.readElements expected levels (index + 1))
    else
      match field.absent with
      | some a => pure (a, ← rest.readElements expected levels (index + 1))
      | none => stopLoose (.wrongLength index expected)

/-- The items of a list, one for each field; more of them are passed over. -/
def Fields.ofItems (expected : String) :
    {types : List Type} → Fields types → Nat → List Value → Except Mismatch (Row types)
  | _, .nil, _, _ => .ok ()
  | _, .cons field rest, index, [] =>
    match field.absent with
    | some a => do return (a, ← rest.ofItems expected (index + 1) [])
    | none => .error (.wrongLength index expected)
  | _, .cons field rest, index, v :: vs => do
    let a ← field.shape.ofValue v
    return (a, ← rest.ofItems expected (index + 1) vs)

/-! ## The shape of a record -/

/-- The written members, without those that are left out. -/
def Fields.written : {types : List Type} → Fields types → Row types → List (List Char)
  | _, .nil, () => []
  | _, .cons field rest, (a, row) =>
    let others := rest.written row
    if field.omitted a then others
    else Json.writeMember field.name (field.shape.write a) :: others

/-- The shape of a record with the given fields, announced as `title`. -/
def record (title : String) (fields : Fields types) : Shape (Row types) :=
  let expected := lengthWanted title fields.count
  { read := fun levels => do
      let b ← peekValue
      if b = 0x5B then bracketed .list levels fun inner => fields.readElements expected inner 0
      else if b = 0x7B then bracketed .object levels fields.readMembers
      else unexpected title
    ofValue := fun
      | .table ms => fields.ofTable ms
      | .list items => fields.ofItems expected 0 items
      | v => .error (.wrongType v.found title)
    write := fun row => Json.writeObject (fields.written row) }

end ProfileAdmin.Schema
