import ProfileAdmin.Command.Smoketest

/-!
# Command.Execute — what each command does

1. **Commands**, one for each operation and each course of several.
2. **Execution**: calls of a client, and a line of output for what they gave.
-/

namespace ProfileAdmin

open Call (ExecutionStatus Operation)
open Host (Program)
open Profile (State)

/-! ## Commands -/

/-- The commands. -/
inductive Command where
  | getStatus (iccid : String)
  | recoverProfile (iccid target : String)
  | cancelOrder (iccid target : String)
  | downloadOrder (iccid : String)
  | confirmOrder (iccid : String)
  | activate (iccid : String)
  | bulkActivate (file : String) (parallelism : Nat)
  | smoketest (iccid : String)
  deriving DecidableEq, Repr

namespace Command

/-! ## Execution -/

/-- The only state that a profile may be moved back to. -/
def requireTarget (target : String) : Task Unit := do
  if State.ofName? target ≠ some .available then throw (.unexpectedTarget target)

/-- The line for a declared outcome. -/
def statusLine (op : Operation) (e : ExecutionStatus) : String :=
  match e.data with
  | some d => s!"{op.name} -> {e.status} ({d.line})"
  | none => s!"{op.name} -> {e.status}"

/-- Carries out a command. The answer tells whether all was reached that was asked for. -/
def execute (c : Client) : Command → Task Bool
  | .getStatus iccid => do
    match ← attempt (c.status? iccid) with
    | none => throw (.unknownProfile iccid)
    | some status =>
      printLine s!"iccid='{iccid}', state='{status.state}', acToken='{status.token}'"
      return true
  | .recoverProfile iccid target => do
    requireTarget target
    let response ← attempt (c.recover iccid target)
    printLine (statusLine .recoverProfile response.header.execution)
    return true
  | .cancelOrder iccid target => do
    requireTarget target
    let response ← attempt (c.cancel iccid target)
    printLine (statusLine .cancelOrder response.header.execution)
    return true
  | .downloadOrder iccid => do
    let response ← attempt (c.download iccid)
    printLine (statusLine .downloadOrder response.header.execution)
    return true
  | .confirmOrder iccid => do
    let response ← attempt (c.confirm iccid)
    printLine (statusLine .confirmOrder response.header.execution)
    if !response.smdpAddress.isEmpty || !response.matchingId.isEmpty then
      printLine s!"smdpAddress='{response.smdpAddress}', matchingId='{response.matchingId}'"
    return true
  | .activate iccid => do
    let activation ← attempt (c.activate iccid)
    printLine s!"{iccid}, {activation.status.token}"
    if activation.isActivated then return true
    ExceptT.lift (Program.note (.notActivated iccid activation.disposition))
    return false
  | .bulkActivate file parallelism => do
    let iccids ← Bulk.readIccids file
    let outcomes ← ExceptT.lift (Bulk.activateAll c iccids parallelism)
    Bulk.report outcomes
  | .smoketest iccid => do
    Smoketest.run c iccid
    return true

end Command

end ProfileAdmin
