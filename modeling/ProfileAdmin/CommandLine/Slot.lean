import ProfileAdmin.Command.Flags
import ProfileAdmin.Text.Numeral

/-!
# CommandLine.Slot — where the words of a command line go

1. **Refusals**: why a command line is not carried out.
2. **Settings and switches** of the connection.
3. **Gathering**: what has been said so far, and what one more word does to it. Nothing
   is said twice.
-/

namespace ProfileAdmin.CommandLine

open Command (Flags)

/-! ## Refusals -/

/-- Why a command line is not carried out. -/
inductive Refusal where
  /-- Help was asked for. -/
  | help
  /-- The version was asked for. -/
  | version
  /-- Nothing was said at all. -/
  | nothingSaid
  | missingCommand
  | unknownCommand
  | unknownArgument
  | missingOperand
  /-- A value is missing, or empty where it must not be. -/
  | noValue
  /-- A switch was given a value. -/
  | unwantedValue
  | unreadableNumber
  | saidTwice
  deriving DecidableEq, Repr

/-! ## Settings and switches -/

/-- The settings that have a value. -/
inductive Setting where
  | config
  | certificate
  | key
  | endpoint
  | requester
  | bundle
  deriving DecidableEq, Repr

namespace Setting

/-- All settings. -/
def all : List Setting := [.config, .certificate, .key, .endpoint, .requester, .bundle]

/-- The name of a setting. -/
def name : Setting → String
  | .config => "config"
  | .certificate => "cert"
  | .key => "key"
  | .endpoint => "hostport"
  | .requester => "requesterid"
  | .bundle => "ca-bundle"

/-- Whether the value is a path. -/
def isPath : Setting → Bool
  | .endpoint | .requester => false
  | _ => true

/-- The value of a setting. -/
def get? (f : Flags) : Setting → Option String
  | .config => f.config
  | .certificate => f.certificate
  | .key => f.key
  | .endpoint => f.endpoint
  | .requester => f.requester
  | .bundle => f.bundle

/-- Gives a setting a value. -/
def put (v : String) (f : Flags) : Setting → Flags
  | .config => { f with config := some v }
  | .certificate => { f with certificate := some v }
  | .key => { f with key := some v }
  | .endpoint => { f with endpoint := some v }
  | .requester => { f with requester := some v }
  | .bundle => { f with bundle := some v }

end Setting

/-- The settings that are on or off. -/
inductive Switch where
  | payloads
  | headers
  deriving DecidableEq, Repr

namespace Switch

/-- All switches. -/
def all : List Switch := [.payloads, .headers]

/-- The name of a switch. -/
def name : Switch → String
  | .payloads => "print-payload"
  | .headers => "print-headers"

/-- Whether a switch is on. -/
def isOn (f : Flags) : Switch → Bool
  | .payloads => f.showsPayloads
  | .headers => f.showsHeaders

/-- Turns a switch on. -/
def turnOn (f : Flags) : Switch → Flags
  | .payloads => { f with showsPayloads := true }
  | .headers => { f with showsHeaders := true }

end Switch

/-! ## Gathering -/

/-- Where a value goes. -/
inductive Slot where
  | setting (s : Setting)
  | parallelism
  /-- The next operand. -/
  | operand
  /-- The next operand, which is a path. -/
  | file
  deriving DecidableEq, Repr

/-- What has been said. -/
structure Gathered where
  flags : Flags := {}
  parallelism : Option Nat := none
  operands : List String := []
  deriving DecidableEq, Repr

namespace Gathered

/-- Values of the parallelism are below this. -/
def parallelismBound : Nat := 0x10000000000000000

/-- The number of activations under way that a text stands for; it is not zero. -/
def parallelismOf? (text : String) : Option Nat :=
  (Text.numeral? parallelismBound text.toList).filter (0 < ·)

/-- Puts a value where it goes. -/
def put (g : Gathered) (v : String) : Slot → Except Refusal Gathered
  | .setting s =>
    if (s.get? g.flags).isSome then .error .saidTwice
    else if s.isPath && v.isEmpty then .error .noValue
    else .ok { g with flags := s.put v g.flags }
  | .parallelism =>
    if g.parallelism.isSome then .error .saidTwice
    else match parallelismOf? v with
      | some n => .ok { g with parallelism := some n }
      | none => .error .unreadableNumber
  | .operand => .ok { g with operands := g.operands ++ [v] }
  | .file =>
    if v.isEmpty then .error .noValue
    else .ok { g with operands := g.operands ++ [v] }

/-- Turns a switch on. -/
def turnOn (g : Gathered) (w : Switch) : Except Refusal Gathered :=
  if w.isOn g.flags then .error .saidTwice
  else .ok { g with flags := w.turnOn g.flags }

end Gathered

end ProfileAdmin.CommandLine
