import ProfileAdmin.CommandLine.Help
import ProfileAdmin.CommandLine.Invocation
import Std.Time.DateTime.Timestamp

/-!
# Main — the program

Effects are carried out here: results go to the standard output and logs to the
standard error. Nothing here opens a TLS channel, so every exchange ends with a
transport error.
-/

namespace ProfileAdmin.Main

open Call (Draw)
open CommandLine (Invocation Refusal)
open Host (Effect FileError Program)

/-- Why a file was not read. -/
def fileError : IO.Error → FileError
  | .noFileOrDirectory .. => .absent
  | .inappropriateType _ 21 _ => .directory
  | .inappropriateType .. => .other "Not a directory (os error 20)"
  | .permissionDenied .. => .other "Permission denied (os error 13)"
  | e => .other (toString e)

/-- What an action gives, or the words for its failure. -/
def attempted {α : Type} (action : IO α) : IO (Except String α) := do
  try
    return .ok (← action)
  catch e => return .error (toString e)

/-- A draw from sixteen bytes. -/
def drawOf (bytes : ByteArray) : Draw :=
  bytes.toList.foldl (fun d b => (d <<< 8) ||| BitVec.ofNat 128 b.toNat) 0

/-- Carries out an effect. -/
def perform : (e : Effect) → IO e.Answer
  | .draw => attempted (drawOf <$> IO.getRandomBytes 16)
  | .exchange _ _ => return .error "no TLS channel is available"
  | .note e => do
    let entry := e.entry
    let fields := entry.fields.map fun (name, value) => s!" {name}={value}"
    if entry.level ≠ .debug then
      IO.eprintln s!"{entry.level.name} {entry.message}{String.join fields}"
  | .print line => attempted (IO.println line)
  | .fileBytes path => do
    try
      return .ok (← IO.FS.readBinFile path).toList
    catch e => return .error (fileError e)
  | .clock => do
    return (← Std.Time.Timestamp.now).toNanosecondsSinceUnixEpoch.val

/-- Carries out a program. -/
def carryOut {α : Type} : Program α → IO α
  | .done a => return a
  | .perform e next => do
    let answer ← perform e
    carryOut (next answer)

/-- Tells somebody why a command line is not carried out. The answer is the exit
status. -/
def refuse : Refusal → IO UInt32
  | .help => do
    CommandLine.helpLines.forM (IO.println ·)
    return 0
  | .version => do
    IO.print CommandLine.versionLine
    return 0
  | r => do
    IO.eprintln s!"error: {r.message}"
    return 2

/-- Reads the arguments and carries out what they ask for. The answer is the exit
status. -/
def run (arguments : List String) : IO UInt32 := do
  let environment ← IO.getEnv "ES2PLUS_CONFIG"
  match Invocation.ofWords ("es2plus" :: arguments) environment with
  | .error r => refuse r
  | .ok invocation =>
    match ← carryOut invocation.run.run with
    | .ok isComplete => return if isComplete then 0 else 1
    | .error e =>
      IO.eprintln s!"Error: {e.message}"
      if let some cause := e.cause? then IO.eprintln s!"Caused by: {cause.message}"
      return 1

end ProfileAdmin.Main

/-- The program. -/
def main (arguments : List String) : IO UInt32 := ProfileAdmin.Main.run arguments
