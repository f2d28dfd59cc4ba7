import ProfileAdmin.CommandLine.Slot
import ProfileAdmin.CommandLine.Verb

/-!
# CommandLine.Help — what is shown to somebody who asks, or who has to be told
-/

namespace ProfileAdmin.CommandLine

/-- What a verb does. -/
def Verb.purpose : Verb → String
  | .getStatus => "Print the state and activation token of a profile"
  | .recoverProfile => "Move a profile back to a target state"
  | .cancelOrder => "Cancel a pending order"
  | .downloadOrder => "Reserve a profile (AVAILABLE to ALLOCATED)"
  | .confirmOrder => "Confirm and release a profile (ALLOCATED to RELEASED)"
  | .activate => "Drive a profile to its activated state and print its token"
  | .bulkActivate => "Activate every ICCID listed in a file, one per line"
  | .smoketest => "Recover, download and confirm one profile, checking state in between"

/-- What a setting says. -/
def Setting.purpose : Setting → String
  | .config => "TOML client configuration file"
  | .certificate => "Client certificate PEM file"
  | .key => "Client private key PEM file"
  | .endpoint => "host:port of the ES2+ endpoint"
  | .requester => "ES2+ requester ID"
  | .bundle => "Verify the endpoint certificate against this PEM CA bundle"

/-- What a switch shows. -/
def Switch.purpose : Switch → String
  | .payloads => "Log request and response bodies"
  | .headers => "Log request lines and headers"

/-- A name with what it is for, in two columns. -/
def helpLine (name purpose : String) : String :=
  let gap := List.replicate (24 - name.length) ' '
  "  " ++ name ++ String.ofList gap ++ purpose

/-- What is shown to somebody who asks for help. -/
def helpLines : List String :=
  ["es2plus - SIM profile administration over ES2+", "",
    "Usage: es2plus [OPTIONS] <COMMAND>", "", "Commands:"] ++
    Verb.all.map (fun v => helpLine v.name v.purpose) ++ ["", "Options:"] ++
    Setting.all.map (fun s => helpLine s!"--{s.name} <VALUE>" s.purpose) ++
    Switch.all.map (fun w => helpLine s!"--{w.name}" w.purpose)

/-- The wording of a refusal. -/
def Refusal.message : Refusal → String
  | .help | .version => ""
  | .nothingSaid | .missingCommand => "a command is missing"
  | .unknownCommand => "unrecognized command"
  | .unknownArgument => "unexpected argument"
  | .missingOperand => "an argument of the command is missing"
  | .noValue => "a value is required"
  | .unwantedValue => "a switch takes no value"
  | .unreadableNumber => "invalid number"
  | .saidTwice => "an argument cannot be used more than once"

end ProfileAdmin.CommandLine
