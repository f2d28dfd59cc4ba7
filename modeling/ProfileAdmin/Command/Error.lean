import ProfileAdmin.Client.Error
import ProfileAdmin.Profile.Lifecycle

/-!
# Command.Error — how a command fails

The wording is that of the outermost cause. A failure of the client may lie behind it.
-/

namespace ProfileAdmin.Command

open Profile (State)

/-- Why a command failed. -/
inductive Error where
  | client (e : Client.Error)
  | unknownProfile (iccid : String)
  | unexpectedTarget (target : String)
  | unexpectedState (iccid : String) (expected : State) (state : String)
  | unreadableList (path : String)
  | missingSettings (flags : List String)
  | unusableFile (path : String) (e : Client.SettingsError)
  | unusableSettings (e : Client.SettingsError)
  | unusableClient (endpoint : String) (e : Client.Error)
  /-- The output took no more, in the words of the system. -/
  | output (reason : String)

/-- The wording of a failure. -/
def Error.message : Error → String
  | .client e => e.message
  | .unknownProfile iccid => s!"profile {iccid} is not known to the endpoint"
  | .unexpectedTarget target =>
    s!"target state '{target}' unexpected, legal value(s): '{State.available.name}'"
  | .unexpectedState iccid expected state =>
    s!"expected profile {iccid} to be {expected.name}, endpoint reports '{state}'"
  | .unreadableList path => s!"cannot read {path}"
  | .missingSettings flags => "missing " ++ ", ".intercalate flags ++ " (or pass --config)"
  | .unusableFile path _ => s!"cannot load {path}"
  | .unusableSettings e => e.message
  | .unusableClient endpoint _ => s!"cannot set up client for {endpoint}"
  | .output reason => reason

/-- The failure of the client behind a failure. -/
def Error.cause? : Error → Option Client.Error
  | .client e => some e
  | .unusableFile _ e => some (.settings e)
  | .unusableSettings e => some (.settings e)
  | .unusableClient _ e => some e
  | _ => none

end ProfileAdmin.Command
