import ProfileAdmin.Call.Operation

/-!
# Profile.Lifecycle — the states of a profile

```text
AVAILABLE --downloadOrder--> ALLOCATED --confirmOrder--> RELEASED
```

An endpoint may report other states; no transition leaves them.
-/

namespace ProfileAdmin.Profile

open Call (Operation)

/-- The states on the way to an activated profile. -/
inductive State where
  | available
  | allocated
  | released
  deriving DecidableEq, Repr

/-- How an endpoint writes a state. -/
def State.name : State → String
  | .available => "AVAILABLE"
  | .allocated => "ALLOCATED"
  | .released => "RELEASED"

/-- The state that is written so. -/
def State.ofName? (s : String) : Option State :=
  [State.available, .allocated, .released].find? fun state => state.name == s

/-- A call that moves a profile on. -/
inductive Step where
  | download
  | confirm
  deriving DecidableEq, Repr

/-- The function that a step calls. -/
def Step.operation : Step → Operation
  | .download => .downloadOrder
  | .confirm => .confirmOrder

/-- The name of a step is that of its function. -/
def Step.name (s : Step) : String := s.operation.name

/-- A state, the step that leaves it, and the state behind it. -/
structure Transition where
  source : State
  step : Step
  target : State
  deriving DecidableEq, Repr

/-- All transitions. -/
def transitions : List Transition :=
  [⟨.available, .download, .allocated⟩, ⟨.allocated, .confirm, .released⟩]

/-- The transition that leaves a state. -/
def State.transition? (s : State) : Option Transition :=
  transitions.find? fun t => t.source = s

/-- Whether no transition leaves a state. -/
def State.isTerminal (s : State) : Bool :=
  s.transition?.isNone

end ProfileAdmin.Profile
