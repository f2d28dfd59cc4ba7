import ProfileAdmin.Command.Execute

/-!
# CommandLine.Verb — the names of the commands

1. **Verbs** and how they are spelled.
2. **Operands**: what follows a verb, and the command that both make.
-/

namespace ProfileAdmin.CommandLine

open Profile (State)

/-! ## Verbs -/

/-- What is to be done, without what it is done to. -/
inductive Verb where
  | getStatus
  | recoverProfile
  | cancelOrder
  | downloadOrder
  | confirmOrder
  | activate
  | bulkActivate
  | smoketest
  deriving DecidableEq, Repr

namespace Verb

/-- All verbs. -/
def all : List Verb :=
  [.getStatus, .recoverProfile, .cancelOrder, .downloadOrder, .confirmOrder, .activate,
    .bulkActivate, .smoketest]

/-- The name of a verb. -/
def name : Verb → String
  | .getStatus => "get-status"
  | .recoverProfile => "recover-profile"
  | .cancelOrder => "cancel-order"
  | .downloadOrder => "download-order"
  | .confirmOrder => "confirm-order"
  | .activate => "activate-iccid"
  | .bulkActivate => "bulk-activate-iccids"
  | .smoketest => "smoketest"

/-- Other names of a verb. -/
def aliases : Verb → List String
  | .cancelOrder => ["cancel-profile"]
  | _ => []

/-- The verb with a name. -/
def ofName? (s : String) : Option Verb :=
  all.find? fun v => v.name == s || v.aliases.contains s

/-! ## Operands -/

/-- How many operands a verb takes at most. -/
def capacity : Verb → Nat
  | .recoverProfile | .cancelOrder => 2
  | _ => 1

/-- How many activations are under way at a time if nothing is said. -/
def usualParallelism : Nat := 8

/-- The state that an operand left out stands for. -/
def usualTarget : String := State.available.name

/-- The command of a verb and its operands. None if an operand is missing. -/
def command? (parallelism : Nat) : Verb → List String → Option Command
  | .getStatus, [iccid] => some (.getStatus iccid)
  | .recoverProfile, [iccid] => some (.recoverProfile iccid usualTarget)
  | .recoverProfile, [iccid, target] => some (.recoverProfile iccid target)
  | .cancelOrder, [iccid] => some (.cancelOrder iccid usualTarget)
  | .cancelOrder, [iccid, target] => some (.cancelOrder iccid target)
  | .downloadOrder, [iccid] => some (.downloadOrder iccid)
  | .confirmOrder, [iccid] => some (.confirmOrder iccid)
  | .activate, [iccid] => some (.activate iccid)
  | .bulkActivate, [file] => some (.bulkActivate file parallelism)
  | .smoketest, [iccid] => some (.smoketest iccid)
  | _, _ => none

end Verb

/-- The word that asks for help on a verb. -/
def helpWord : String := "help"

/-- Whether a word names a verb or asks for help on one. -/
def isCommandName (word : String) : Bool :=
  word == helpWord || (Verb.ofName? word).isSome

end ProfileAdmin.CommandLine
