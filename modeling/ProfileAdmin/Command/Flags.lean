import ProfileAdmin.Client.Settings
import ProfileAdmin.Command.Bulk

/-!
# Command.Flags — settings from a file and from flags

A flag wins over the same value of the file. Without a file the flags have to tell
everything that settings need. A switch is on if the file or the flag has it on.
-/

namespace ProfileAdmin.Command

open Config (Settings Verification)

/-- What the command line says of the connection. -/
structure Flags where
  /-- The file of settings. -/
  config : Option String := none
  certificate : Option String := none
  key : Option String := none
  endpoint : Option String := none
  requester : Option String := none
  /-- The file of trusted certificates. -/
  bundle : Option String := none
  showsPayloads : Bool := false
  showsHeaders : Bool := false
  deriving DecidableEq, Repr

namespace Flags

/-- The flags that stand for a whole file, with their names. -/
def needed (f : Flags) : List (String × Option String) :=
  [("--cert", f.certificate), ("--key", f.key), ("--hostport", f.endpoint),
    ("--requesterid", f.requester)]

/-- The names of those among them that are missing. -/
def missing (f : Flags) : List String :=
  (f.needed.filter fun flag => flag.2.isNone).map Prod.fst

/-- The settings that the flags make by themselves. -/
def alone (f : Flags) : Settings where
  endpoint := f.endpoint.getD ""
  requester := f.requester.getD ""
  certificate := f.certificate.getD ""
  key := f.key.getD ""

/-- The flags laid over settings. -/
def laidOver (f : Flags) (s : Settings) : Settings where
  endpoint := f.endpoint.getD s.endpoint
  requester := f.requester.getD s.requester
  certificate := f.certificate.getD s.certificate
  key := f.key.getD s.key
  verification := (f.bundle.map Verification.caBundle).getD s.verification
  debugging :=
    ⟨s.debugging.payloads || f.showsPayloads, s.debugging.headers || f.showsHeaders⟩

/-- The settings under the flags: those of the file, or what the flags make alone. -/
def base (f : Flags) : Task Settings := do
  match f.config with
  | some path =>
    match ← ExceptT.lift (Client.loadSettings path).run with
    -- These have been checked by themselves, before any flag is laid over them.
    | .ok s => return s
    | .error e => throw (.unusableFile path e)
  | none =>
    if f.missing.isEmpty then return f.alone
    else throw (.missingSettings f.missing)

/-- The settings that the flags and the file say together. -/
def resolve (f : Flags) : Task Settings := do
  let s := f.laidOver (← f.base)
  match Client.checkedSettings s with
  | .ok s => return s
  | .error e => throw (.unusableSettings e)

end Flags

end ProfileAdmin.Command
