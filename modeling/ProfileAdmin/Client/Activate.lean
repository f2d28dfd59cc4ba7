import ProfileAdmin.Client.Operations

/-!
# Client.Activate — driving a profile to its token

The status is read, a step is taken if a transition leaves the reported state, and so
on. No step is taken twice. However it ends, the status is read once more, and that
one is returned.
-/

namespace ProfileAdmin.Client

open Host (Program)
open Profile (Activation Disposition Status Step transitions)

/-- The status of a profile that has to exist. -/
def status (c : Client) (iccid : String) : Attempt Status := do
  match ← c.status? iccid with
  | some s => return s
  | none => throw (.unknownProfile iccid)

/-- Takes a step. -/
def take (c : Client) (iccid : String) : Step → Attempt Unit
  | .download => do
    let _ ← c.download iccid
  | .confirm => do
    let _ ← c.confirm iccid

/-- Takes steps from a reported status on, after those in `taken`. Every turn but the last
takes a step that no turn before it took, so there is no need for more turns than one
after all transitions. -/
def drive (c : Client) (iccid : String) : Nat → List Step → Status →
    Attempt (Disposition × List Step)
  | 0, taken, status => return (.stalled status.state, taken)
  | turns + 1, taken, status => do
    match status.lifecycle? with
    | none =>
      plain (Program.note (.noTransition iccid status.state))
      return (.unrecognized status.state, taken)
    | some state =>
      match state.transition? with
      | none => return (.completed, taken)
      | some t =>
        -- The endpoint still reports the state that this step should have ended.
        if t.step ∈ taken then
          plain (Program.note (.stalled iccid t))
          return (.stalled status.state, taken)
        plain (Program.note (.stepping iccid t))
        c.take iccid t.step
        let taken := taken ++ [t.step]
        -- The table says where the step leads. What the endpoint has made of it, the last query
        -- shows.
        if t.target.isTerminal then return (.completed, taken)
        let status ← c.status iccid
        c.drive iccid turns taken status

/-- Brings a profile to its activated state. What fails ends the activation; steps that
were taken stay taken. -/
def activate (c : Client) (iccid : String) : Attempt Activation := do
  let first ← c.status iccid
  let (disposition, steps) ←
    if first.isActivated then do
      plain (Program.note (.alreadyActivated iccid first.state))
      pure (.alreadyActivated, [])
    else c.drive iccid (transitions.length + 1) [] first
  let last ← c.status iccid
  plain (Program.note (.activationFinished iccid last.state last.isActivated steps.length))
  return ⟨last, steps, disposition⟩

end ProfileAdmin.Client
