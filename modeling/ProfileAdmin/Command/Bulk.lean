import ProfileAdmin.Client.Activate
import ProfileAdmin.Command.Error
import ProfileAdmin.Host.Pool
import ProfileAdmin.Text.Blank

/-!
# Command.Bulk — activating a list of profiles

1. **Lists**: one ICCID on each line.
2. **Activation** of every profile on a list. A failure does not stop the others.
3. **Reports**: one line for each profile.
-/

namespace ProfileAdmin.Command

open Client (Attempt)
open Host (Pool Program)
open Profile (Activation)

/-- A command that may fail. -/
abbrev Task (α : Type) := ExceptT Error Program α

/-- Writes a line of output. -/
def printLine (line : String) : Task Unit := do
  match ← ExceptT.lift (Program.print line) with
  | .ok () => return ()
  | .error reason => throw (.output reason)

/-- A client's attempt as part of a command. -/
def attempt {α : Type} (a : Attempt α) : Task α := do
  match ← ExceptT.lift a.run with
  | .ok v => return v
  | .error e => throw (.client e)

namespace Bulk

/-! ## Lists -/

/-- The ICCIDs of a list: its lines without white space at their ends, and without those
that are blank. -/
def iccidsOf (text : String) : List String :=
  ((Text.lines text.toList).map Text.trimChars).filter (fun line => !line.isEmpty)
    |>.map String.ofList

/-- The ICCIDs of a list in a file. -/
def readIccids (path : String) : Task (List String) := do
  match ← ExceptT.lift (Program.fileText path) with
  | .ok text => return iccidsOf text
  | .error _ => throw (.unreadableList path)

/-! ## Activation -/

/-- The outcome for one entry of a list. -/
structure Outcome where
  iccid : String
  result : Except Client.Error Activation

/-- Whether the profile carries a token now. -/
def Outcome.isActivated (o : Outcome) : Bool :=
  match o.result with
  | .ok a => a.isActivated
  | .error _ => false

/-- Activates one entry. -/
def activateOne (c : Client) (iccid : String) : Program Outcome := do
  let result ← (c.activate iccid).run
  match result with
  | .ok _ => pure ()
  | .error e => Program.note (.activationFailed iccid e)
  return ⟨iccid, result⟩

/-- The number of activations that are under way at a time. -/
def workerCount (iccids : List String) (parallelism : Nat) : Nat :=
  min parallelism iccids.length

/-- The workers that activate the entries of a list, as many as may be under way. -/
def pool (c : Client) (iccids : List String) (parallelism : Nat) : Pool Outcome :=
  Pool.start (workerCount iccids parallelism) (iccids.map (activateOne c))

/-- Activates the entries one after the other. -/
def activateEach (c : Client) : List String → Program (List Outcome)
  | [] => return []
  | iccid :: others => do
    let outcome ← activateOne c iccid
    let outcomes ← activateEach c others
    return outcome :: outcomes

/-- Activates all entries of a list. The outcomes are in the order of the list. Of all
ways in which the workers of `pool` may take turns, this is the one in which each
activation ends before the next begins. -/
def activateAll (c : Client) (iccids : List String) (parallelism : Nat) :
    Program (List Outcome) := do
  Program.note (.bulkStarted iccids.length (workerCount iccids parallelism))
  activateEach c iccids

/-! ## Reports -/

/-- The line for one outcome. -/
def Outcome.line (o : Outcome) : String :=
  match o.result with
  | .ok a => s!"{o.iccid}, {a.status.token}"
  | .error e => s!"{o.iccid}, error: {e.message}"

/-- Writes one line for each outcome, and tells whether every profile carries a token. -/
def report (outcomes : List Outcome) : Task Bool := do
  outcomes.forM fun o => printLine o.line
  let failed := outcomes.countP fun o => !o.isActivated
  ExceptT.lift (Program.note (.bulkFinished outcomes.length failed))
  return failed == 0

end Bulk

end ProfileAdmin.Command
