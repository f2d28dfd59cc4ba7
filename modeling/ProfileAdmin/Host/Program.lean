import ProfileAdmin.Call.Identifier
import ProfileAdmin.Call.Request
import ProfileAdmin.Host.Event

/-!
# Host.Program — what is done, apart from who does it

1. **Effects**: everything that a program can ask of its surroundings, with the type
   of the answer.
2. **Programs**: trees of effects. A program ends with a value, or asks for an effect
   and goes on with the answer, whatever it is.
3. **Running**: a program against surroundings that have a state.
-/

namespace ProfileAdmin.Host

open Call (Draw Operation)

/-! ## Effects -/

/-- What a program can ask for. -/
inductive Effect where
  /-- Random bytes. -/
  | draw
  /-- Sends a request and waits for the answer. -/
  | exchange (op : Operation) (r : op.Request)
  /-- Logs an event. -/
  | note (e : Event)
  /-- Writes a line of output. -/
  | print (line : String)
  /-- Reads a file. -/
  | fileBytes (path : String)
  /-- Asks for the time, in nanoseconds from the beginning of 1970. -/
  | clock

/-- The answer to an effect. Errors of the random source, of the transport and of the
output come in the words of the surroundings. -/
def Effect.Answer : Effect → Type
  | .draw => Except String Draw
  | .exchange _ _ => Except String (List UInt8)
  | .note _ => Unit
  | .print _ => Except String Unit
  | .fileBytes _ => Except FileError (List UInt8)
  | .clock => Int

/-! ## Programs -/

/-- A tree of effects. -/
inductive Program (α : Type) where
  | done (a : α)
  | perform (e : Effect) (next : e.Answer → Program α)

namespace Program

variable {α β σ : Type}

/-- Goes on with the value at the end of a program. -/
def bind : Program α → (α → Program β) → Program β
  | .done a, f => f a
  | .perform e next, f => .perform e fun answer => (next answer).bind f

instance : Monad Program where
  pure := .done
  bind := bind

/-- The program of one effect. -/
def ask (e : Effect) : Program e.Answer := .perform e .done

/-- Draws random bytes. -/
def draw : Program (Except String Draw) := ask .draw

/-- Sends a request and waits for the answer. -/
def exchange (op : Operation) (r : op.Request) : Program (Except String (List UInt8)) :=
  ask (.exchange op r)

/-- Logs an event. -/
def note (e : Event) : Program Unit := ask (.note e)

/-- Writes a line of output. -/
def print (line : String) : Program (Except String Unit) := ask (.print line)

/-- Reads a file. -/
def fileBytes (path : String) : Program (Except FileError (List UInt8)) := ask (.fileBytes path)

/-- Asks for the time. -/
def clock : Program Int := ask .clock

/-- Reads a file that has to be a text. -/
def fileText (path : String) : Program (Except FileError String) := do
  match ← fileBytes path with
  | .error e => return .error e
  | .ok bytes =>
    match Text.Utf8.text? bytes with
    | some s => return .ok s
    | none => return .error .notText

/-! ## Running -/

/-- Runs a program where every effect is answered from a state. -/
def run (answer : (e : Effect) → σ → e.Answer × σ) : Program α → σ → α × σ
  | .done a, s => (a, s)
  | .perform e next, s =>
    let (reply, s) := answer e s
    (next reply).run answer s

end Program

end ProfileAdmin.Host
