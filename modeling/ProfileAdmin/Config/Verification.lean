import ProfileAdmin.Schema.Record

/-!
# Config.Verification — how the endpoint's certificate is checked

The member `mode` tells which way it is; the other members belong to that way. In a
list the mode comes first.
-/

namespace ProfileAdmin.Config

open Document (Value Mismatch)
open Json (Reader peekValue stopLoose mismatched colon members anotherElement elements content
  unexpected bracketed writeMember writeObject writeText)
open Schema (Shape lengthWanted)

/-- How the certificate of the endpoint is checked. -/
inductive Verification where
  /-- Any certificate is accepted. -/
  | disabled
  /-- The certificate has to lead to one of a file of trusted ones. -/
  | caBundle (path : String)
  deriving DecidableEq, Repr

namespace Verification

/-- The ways to check. -/
inductive Mode where
  | disabled
  | caBundle
  deriving DecidableEq, Repr

/-- How a mode is written. -/
def Mode.name : Mode → String
  | .disabled => "disabled"
  | .caBundle => "ca_bundle"

/-- All modes. -/
def Mode.all : List Mode := [.disabled, .caBundle]

/-- What a verification is called where it is missed. -/
def title : String := "internally tagged enum ServerVerification"

/-- The mode that is written so. -/
def Mode.ofName (s : String) : Except Mismatch Mode :=
  match Mode.all.find? fun m => m.name == s with
  | some m => .ok m
  | none => .error (.unknownVariant s (Mode.all.map Mode.name))

/-- A mode in a JSON text. -/
def Mode.read : Reader Mode := do
  let b ← peekValue
  if b = 0x22 then
    Json.advance
    match Mode.ofName (← Json.text) with
    | .ok m => pure m
    | .error m => mismatched m
  else unexpected "variant identifier"

/-- A mode in a tree. -/
def Mode.ofValue : Value → Except Mismatch Mode
  | .text s => Mode.ofName s
  | v => .error (.wrongType v.found "variant identifier")

/-- The member of a bundle. -/
def bundleFields : Schema.Fields [String] :=
  .cons (Schema.required "path" Schema.path) .nil

/-- What belongs to a mode, from the values beside it. Members without a meaning are
passed over, items without one are too many. -/
def ofMode : Mode → Value → Except Mismatch Verification
  | .disabled, .list (v :: vs) =>
    .error (.wrongLength (v :: vs).length "0 elements in sequence")
  | .disabled, _ => .ok .disabled
  | .caBundle, .list items => do
    let (path, ()) ← bundleFields.ofItems
      (lengthWanted "struct variant ServerVerification::CaBundle" bundleFields.count) 0 items
    if items.length ≤ 1 then return .caBundle path
    else throw (.wrongLength items.length "1 element in sequence")
  | .caBundle, .table ms => do
    let (path, ()) ← bundleFields.ofTable ms
    return .caBundle path
  | .caBundle, v => .error (.wrongType v.found title)

/-- The mode and the values beside it, in a list behind its opening bracket. -/
def readItems (levels : Nat) : Reader (Mode × Value) := do
  if ← anotherElement true then
    let mode ← Mode.read
    return (mode, .list (← elements (content levels) false))
  else stopLoose (.missingMember "mode")

/-- The mode and the values beside it, in an object behind its opening brace. -/
def readMembers (levels : Nat) : Reader (Mode × Value) := do
  let step (name : String) : Option Mode × List (String × Value) →
      Reader (Option Mode × List (String × Value))
    | (mode, before) => do
      if name = "mode" then
        if mode.isSome then stopLoose (.repeatedMember name)
        else
          colon
          return (some (← Mode.read), before)
      else
        colon
        return (mode, (name, ← content levels) :: before)
  match ← members step (none, []) with
  | (some mode, others) => pure (mode, .table others.reverse)
  | (none, _) => stopLoose (.missingMember "mode")

/-- A verification in a JSON text. What belongs to the mode is looked at when all of it
has been read. -/
def read (levels : Nat) : Reader Verification := do
  let b ← peekValue
  let (mode, others) ←
    if b = 0x5B then bracketed .list levels readItems
    else if b = 0x7B then bracketed .object levels readMembers
    else unexpected title
  match ofMode mode others with
  | .ok v => pure v
  | .error m => stopLoose m

/-- Takes up one member of a table. -/
def putMember (state : Option Mode × List (String × Value)) (m : String × Value) :
    Except Mismatch (Option Mode × List (String × Value)) := do
  if m.1 = "mode" then
    if state.1.isSome then throw (.repeatedMember m.1)
    return (some (← Mode.ofValue m.2), state.2)
  return (state.1, m :: state.2)

/-- A verification in a tree. -/
def ofValue : Value → Except Mismatch Verification
  | .list [] => .error (.missingMember "mode")
  | .list (v :: vs) => do ofMode (← Mode.ofValue v) (.list vs)
  | .table ms => do
    match ← ms.foldlM putMember (none, []) with
    | (some mode, others) => ofMode mode (.table others.reverse)
    | (none, _) => throw (.missingMember "mode")
  | v => .error (.wrongType v.found title)

/-- A verification as an object. -/
def write : Verification → List Char
  | .disabled => writeObject [writeMember "mode" (writeText Mode.disabled.name)]
  | .caBundle path =>
    writeObject [writeMember "mode" (writeText Mode.caBundle.name),
      writeMember "path" (writeText path)]

/-- The document form of a verification. -/
def shape : Shape Verification := ⟨read, ofValue, write⟩

end Verification

end ProfileAdmin.Config
