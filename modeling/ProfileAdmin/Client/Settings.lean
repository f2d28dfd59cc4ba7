import ProfileAdmin.Host.Program
import ProfileAdmin.Toml.Document

/-!
# Client.Settings — settings from a document

The text has to be a document, the document has to describe settings, and the settings
have to be usable, in this order.
-/

namespace ProfileAdmin.Client

open Config (Settings)
open Host (Program)

/-- Settings that are usable. -/
def checkedSettings (s : Settings) : Except SettingsError Settings :=
  match s.flaw? with
  | some f => .error (.invalid f)
  | none => .ok s

/-- The settings that a text describes. -/
def settingsOf (text : String) : Except SettingsError Settings :=
  match Toml.document? text with
  | none => .error .malformed
  | some v =>
    match Settings.shape.ofValue v with
    | .error m => .error (.mismatch m)
    | .ok s => checkedSettings s

/-- The settings that a file describes. -/
def loadSettings (path : String) : ExceptT SettingsError Program Settings := do
  match ← ExceptT.lift (Program.fileText path) with
  | .error e => throw (.unreadable path e)
  | .ok text =>
    match settingsOf text with
    | .error e => throw e
    | .ok s => return s

end ProfileAdmin.Client
