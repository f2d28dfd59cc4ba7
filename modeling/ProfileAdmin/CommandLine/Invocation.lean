import ProfileAdmin.Client.Connection
import ProfileAdmin.CommandLine.Reading

/-!
# CommandLine.Invocation — what a command line asks for

1. **Invocations**: flags and a command.
2. **Help** on commands.
3. **Reading** of a whole command line. Flags may stand before the verb and behind it;
   of two values the one behind it counts.
4. **Carrying out** an invocation.
-/

namespace ProfileAdmin.CommandLine

open Command (Flags)

/-! ## Invocations -/

/-- A command, and how to reach the endpoint. -/
structure Invocation where
  flags : Flags
  command : Command
  deriving DecidableEq, Repr

/-- The name and version of the program. -/
def versionLine : String := "es2plus 0.1.0\n"

/-- Flags where `f` says something, else where `g` does. -/
def joined (f g : Flags) : Flags where
  config := f.config <|> g.config
  certificate := f.certificate <|> g.certificate
  key := f.key <|> g.key
  endpoint := f.endpoint <|> g.endpoint
  requester := f.requester <|> g.requester
  bundle := f.bundle <|> g.bundle
  showsPayloads := f.showsPayloads || g.showsPayloads
  showsHeaders := f.showsHeaders || g.showsHeaders

/-! ## Help -/

/-- What follows from asking for help on words: at most one verb is explained. -/
def helpOn : List String → Refusal
  | [] => .help
  | [word] => if isCommandName word then .help else .unknownCommand
  | _ => .unknownCommand

/-! ## Reading -/

/-- Reads the words before a verb. The verb and the words behind it come with the
answer. -/
def outerWords : Reading → List String → Except Refusal (Reading × Option (Verb × List String))
  | r, [] => .ok (r, none)
  | r, word :: words =>
    let step : Except Refusal (Reading × Option (Verb × List String)) := do
      outerWords (← Reading.step .outer r word) words
    -- A word that is a value, or stands behind two dashes, is no verb.
    if r.isEscaped || r.awaiting?.isSome then step
    else if word = helpWord then .error (helpOn words)
    else match Verb.ofName? word with
      | some v => .ok (r, some (v, words))
      | none => step

/-- Reads the words behind a verb. -/
def innerWords (v : Verb) (words : List String) : Except Refusal Reading :=
  words.foldlM (Reading.step (.inner v)) {}

/-- The command of a verb with what was said behind it. -/
def commandOf (v : Verb) (g : Gathered) : Except Refusal Command :=
  match v.command? (g.parallelism.getD Verb.usualParallelism) g.operands with
  | some c => .ok c
  | none => .error .missingOperand

/-- Reads a command line, of which the first word names the program. `environment` is the
file of settings that counts where none is named. What is wrong behind the verb is
found before what is left to do for the words in front of it. -/
def Invocation.ofWords (words : List String) (environment : Option String) :
    Except Refusal Invocation := do
  let (outer, found) ← outerWords {} (words.drop 1)
  match found with
  | none =>
    let said ← outer.close environment
    if said = {} ∧ environment.isNone then throw .nothingSaid else throw .missingCommand
  | some (v, words) =>
    let said ← (← innerWords v words).close environment
    let command ← commandOf v said
    let flags := joined said.flags (← outer.close environment).flags
    return ⟨joined flags { config := environment }, command⟩

/-! ## Carrying out -/

/-- Carries out an invocation. -/
def Invocation.run (i : Invocation) : Command.Task Bool := do
  let settings ← i.flags.resolve
  match ← ExceptT.lift (Client.make settings).run with
  | .error e => throw (.unusableClient settings.endpoint e)
  | .ok (_, client) => Command.execute client i.command

end ProfileAdmin.CommandLine
