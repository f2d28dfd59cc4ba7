import ProfileAdmin.CommandLine.Slot
import ProfileAdmin.CommandLine.Verb

/-!
# CommandLine.Reading — one word after the other

1. **Words** and their forms.
2. **Levels**: before a verb and behind it, with what may be said there.
3. **Steps**: what a word does. A value that came as a word of its own is put in its
   place only when the next option or operand comes, or the level ends.
4. **The end of a level.**
-/

namespace ProfileAdmin.CommandLine

/-! ## Words -/

/-- The form of a word. -/
inductive Form where
  /-- Two dashes: only operands follow. -/
  | escape
  /-- Two dashes and a name, perhaps with a value behind an equals sign. -/
  | long (name : String) (value : Option String)
  /-- A dash and letters, of which the first decides. -/
  | short (letter : Char)
  /-- Anything else, a single dash too. -/
  | plain
  deriving DecidableEq, Repr

/-- The form of the word with the given characters. -/
def Form.ofChars : List Char → Form
  | ['-', '-'] => .escape
  | '-' :: '-' :: cs =>
    let name := String.ofList (cs.takeWhile (· != '='))
    match cs.dropWhile (· != '=') with
    | [] => .long name none
    | _ :: value => .long name (some (String.ofList value))
  | '-' :: c :: _ => .short c
  | _ => .plain

/-! ## Levels -/

/-- Where on the command line a word stands. -/
inductive Level where
  | outer
  | inner (v : Verb)
  deriving DecidableEq, Repr

/-- What a name of two dashes stands for. -/
inductive Named where
  | valued (slot : Slot)
  | switch (w : Switch)
  | help
  | version
  deriving DecidableEq, Repr

namespace Level

/-- The names that only count at one level. -/
def own : Level → List (String × Named)
  | .outer => [("version", .version)]
  | .inner .bulkActivate => [("parallelism", .valued .parallelism)]
  | .inner _ => []

/-- The names of a level. -/
def names (l : Level) : List (String × Named) :=
  Setting.all.map (fun s => (s.name, .valued (.setting s))) ++
    Switch.all.map (fun w => (w.name, .switch w)) ++ ("help", .help) :: l.own

/-- What a name stands for. -/
def named? (l : Level) (name : String) : Option Named :=
  l.names.lookup name

/-- What a letter behind one dash stands for. -/
def lettered? (l : Level) (c : Char) : Option Named :=
  if c = 'h' then some .help
  else if c = 'V' ∧ l = .outer then some .version
  else none

/-- How many operands there are at most. -/
def capacity : Level → Nat
  | .outer => 0
  | .inner v => v.capacity

/-- Where an operand goes. -/
def operandSlot : Level → Slot
  | .inner .bulkActivate => .file
  | _ => .operand

/-- What an operand too many is taken for. -/
def surplus (word : String) (isEscaped : Bool) : Level → Refusal
  | .outer => if isEscaped && isCommandName word then .unknownArgument else .unknownCommand
  | .inner _ => .unknownArgument

end Level

/-! ## Steps -/

/-- The state within a level. -/
structure Reading where
  gathered : Gathered := {}
  /-- A slot that was named last, and its value if that came too. -/
  pending : Option (Slot × Option String) := none
  /-- Whether only operands follow. -/
  isEscaped : Bool := false
  deriving DecidableEq, Repr

namespace Reading

/-- Puts the pending value in its place. -/
def settle (r : Reading) : Except Refusal Reading :=
  match r.pending with
  | none => .ok r
  | some (_, none) => .error .noValue
  | some (slot, some v) => do return { r with gathered := ← r.gathered.put v slot, pending := none }

/-- The slot that waits for its value. -/
def awaiting? (r : Reading) : Option Slot :=
  match r.pending with
  | some (slot, none) => some slot
  | _ => none

/-- How many operands there have been. -/
def operandCount (r : Reading) : Nat :=
  r.gathered.operands.length +
    match r.pending with
    | some (.operand, _) | some (.file, _) => 1
    | _ => 0

/-- Takes a word as an operand. -/
def operand (r : Reading) (l : Level) (word : String) : Except Refusal Reading := do
  if r.operandCount < l.capacity then
    let r ← r.settle
    return { r with pending := some (l.operandSlot, some word) }
  else throw (l.surplus word r.isEscaped)

/-- Takes a name with what was given to it. -/
def name (r : Reading) (value : Option String) : Named → Except Refusal Reading
  | .valued slot => do
    let r ← r.settle
    match value with
    | none => return { r with pending := some (slot, none) }
    | some v => return { r with gathered := ← r.gathered.put v slot }
  | .switch w => do
    if value.isSome then throw .unwantedValue
    let r ← r.settle
    return { r with gathered := ← r.gathered.turnOn w }
  | .help => do
    if value.isSome then throw .unwantedValue
    let _ ← r.settle
    throw .help
  | .version => do
    if value.isSome then throw .unwantedValue
    let _ ← r.settle
    throw .version

/-- Takes a word. -/
def step (l : Level) (r : Reading) (word : String) : Except Refusal Reading :=
  if r.isEscaped then r.operand l word
  else
    match Form.ofChars word.toList with
    | .escape => .ok { r with isEscaped := true }
    | .long name value =>
      match l.named? name with
      | some n => r.name value n
      | none => .error .unknownArgument
    | .short c =>
      match l.lettered? c with
      | some n => r.name none n
      | none => .error .unknownArgument
    | .plain =>
      match r.awaiting? with
      -- A plain word is the value of the name before it, if that one waits for a value.
      | some slot => .ok { r with pending := some (slot, some word) }
      | none => r.operand l word

/-! ## The end of a level -/

/-- What a level has said when it ends. Where it does not name a file of settings, the one
that the surroundings name stands in, and its name must not be empty. -/
def close (r : Reading) (environment : Option String) : Except Refusal Gathered := do
  let r ← r.settle
  if r.gathered.flags.config.isNone && environment = some "" then throw .noValue
  return r.gathered

end Reading

end ProfileAdmin.CommandLine
