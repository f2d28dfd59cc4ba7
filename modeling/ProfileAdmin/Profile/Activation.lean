import ProfileAdmin.Profile.Status
import ProfileAdmin.Text.Quoted

/-!
# Profile.Activation — how an activation ends
-/

namespace ProfileAdmin.Profile

/-- How an activation ended. -/
inductive Disposition where
  /-- The profile carried a token before; nothing was changed. -/
  | alreadyActivated
  /-- The end of the lifecycle was reached. -/
  | completed
  /-- No transition is known for the reported state. -/
  | unrecognized (state : String)
  /-- A step was taken, and the profile is still in the state that the step leaves. -/
  | stalled (state : String)
  deriving DecidableEq, Repr

/-- The form of a disposition in a log. -/
def Disposition.label : Disposition → String
  | .alreadyActivated => "AlreadyActivated"
  | .completed => "Completed"
  | .unrecognized state => s!"UnrecognizedState({Text.quoted state})"
  | .stalled state => s!"Stalled({Text.quoted state})"

/-- The outcome of an activation. -/
structure Activation where
  /-- The status as it was read last. -/
  status : Status
  /-- The steps taken, in order. -/
  steps : List Step
  disposition : Disposition
  deriving DecidableEq, Repr

/-- Whether the profile carries a token now. -/
def Activation.isActivated (a : Activation) : Bool :=
  a.status.isActivated

end ProfileAdmin.Profile
