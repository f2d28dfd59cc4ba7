import ProfileAdmin.Command.Bulk

/-!
# Command.Smoketest — one profile through its whole lifecycle

The profile is put back to the beginning and driven to its end. After every call that
moves it the status is read and compared.
-/

namespace ProfileAdmin.Command.Smoketest

open Host (Program)
open Profile (State)

/-- The reported state of a profile that has to exist. -/
def currentState (c : Client) (iccid : String) : Task String := do
  match ← attempt (c.status? iccid) with
  | some status => return status.state
  | none => throw (.unknownProfile iccid)

/-- Reads the state, shows it and compares it. -/
def expectState (c : Client) (iccid : String) (expected : State) : Task Unit := do
  let state ← currentState c iccid
  printLine s!"state: {state}"
  if state ≠ expected.name then throw (.unexpectedState iccid expected state)

/-- The whole test. -/
def run (c : Client) (iccid : String) : Task Unit := do
  let initial ← currentState c iccid
  printLine s!"initial state: {initial}"
  let recovered ← attempt (c.recover iccid State.available.name)
  printLine s!"recoverProfile -> {recovered.header.execution.status}"
  let cancelled ← attempt (c.cancel iccid State.available.name)
  printLine s!"cancelOrder -> {cancelled.header.execution.status}"
  expectState c iccid .available
  let _ ← attempt (c.download iccid)
  printLine "downloadOrder -> ok"
  expectState c iccid .allocated
  let _ ← attempt (c.confirm iccid)
  printLine "confirmOrder -> ok"
  expectState c iccid .released
  ExceptT.lift (Program.note (.smoketestPassed iccid))
  printLine "Success"

end ProfileAdmin.Command.Smoketest
