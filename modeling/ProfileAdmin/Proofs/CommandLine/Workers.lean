import ProfileAdmin.CommandLine.Invocation
import ProfileAdmin.Proofs.Command.Execution

/-!
# Proofs.CommandLine.Workers — there are workers for every list that is to be activated

1. **Yields**: what a reading comes to, unless it is refused.
2. **Gathering**: a number of workers that has been said is not zero, after any word.
3. **Invocations**: neither is the number that a command is read with.
-/

namespace ProfileAdmin.CommandLine

variable {α β : Type}

/-! ## Yields -/

/-- Unless it is refused, a reading comes to something with a property. -/
def Yields (P : α → Prop) (x : Except Refusal α) : Prop :=
  ∀ a, x = .ok a → P a

section

variable {P : α → Prop} {Q : β → Prop}

theorem yields_ok {a : α} (h : P a) : Yields P (.ok a) := by
  rintro _ ⟨⟩
  exact h

/-- A refusal comes to nothing. -/
theorem yields_error (e : Refusal) : Yields P (.error e) :=
  nofun

/-- What comes first has to come to something that serves what comes next. -/
theorem yields_bind {x : Except Refusal α} {f : α → Except Refusal β} (hx : Yields P x)
    (hf : ∀ a, P a → Yields Q (f a)) : Yields Q (x >>= f) := by
  cases x with
  | error e => exact yields_error e
  | ok a => exact hf a (hx a rfl)

/-- What every step keeps, all of them keep. -/
theorem yields_foldlM {f : α → String → Except Refusal α} (hf : ∀ a word, P a → Yields P (f a word))
    (words : List String) {a : α} (ha : P a) : Yields P (words.foldlM f a) := by
  induction words generalizing a with
  | nil => exact yields_ok ha
  | cons word words ih =>
      rw [List.foldlM_cons]
      exact yields_bind (hf a word ha) fun b hb => ih hb

end

/-! ## Gathering -/

/-- A number of workers that has been said is not zero. -/
def Gathered.HasWorkers (g : Gathered) : Prop :=
  ∀ n ∈ g.parallelism, 0 < n

/-- A value that is put leaves workers for every list. -/
theorem put_hasWorkers {g : Gathered} (h : g.HasWorkers) (v : String) (slot : Slot) :
    Yields Gathered.HasWorkers (g.put v slot) := by
  unfold Gathered.put
  split
  · split
    · exact yields_error _
    split
    · exact yields_error _
    · exact yields_ok h
  · split
    · exact yields_error _
    split
    · -- Here alone a number is put in its place, and zero is not read as one.
      rename_i n hn
      have hpos : 0 < n := of_decide_eq_true (Option.filter_eq_some_iff.mp hn).2
      have hsaid : Gathered.HasWorkers { g with parallelism := some n } := by
        rintro _ ⟨⟩
        exact hpos
      exact yields_ok hsaid
    · exact yields_error _
  · exact yields_ok h
  · split
    · exact yields_error _
    · exact yields_ok h

/-- So does a switch. -/
theorem turnOn_hasWorkers {g : Gathered} (h : g.HasWorkers) (w : Switch) :
    Yields Gathered.HasWorkers (g.turnOn w) := by
  unfold Gathered.turnOn
  split
  · exact yields_error _
  · exact yields_ok h

namespace Reading

/-- A number of workers that has been said within a level is not zero. -/
def HasWorkers (r : Reading) : Prop :=
  r.gathered.HasWorkers

variable {r : Reading}

/-- So does the value of a name that was pending. -/
theorem settle_hasWorkers (h : r.HasWorkers) : Yields HasWorkers r.settle := by
  unfold settle
  split
  · exact yields_ok h
  · exact yields_error _
  · exact yields_bind (put_hasWorkers h _ _) fun g hg => yields_ok hg

/-- So does an operand. -/
theorem operand_hasWorkers (h : r.HasWorkers) (l : Level) (word : String) :
    Yields HasWorkers (r.operand l word) := by
  unfold operand
  split
  · exact yields_bind (settle_hasWorkers h) fun r hr => yields_ok hr
  · exact yields_error _

/-- So does a name, with its value or without. -/
theorem name_hasWorkers (h : r.HasWorkers) (value : Option String) (n : Named) :
    Yields HasWorkers (r.name value n) := by
  cases n with
  -- Only here is a value put; everything else settles what was pending, or is refused.
  | valued slot =>
      refine yields_bind (settle_hasWorkers h) fun r hr => ?_
      cases value with
      | none => exact yields_ok hr
      | some v => exact yields_bind (put_hasWorkers hr v slot) fun g hg => yields_ok hg
  | switch w =>
      cases value with
      | some v => exact yields_error _
      | none =>
          refine yields_bind (settle_hasWorkers h) fun r hr => ?_
          exact yields_bind (turnOn_hasWorkers hr w) fun g hg => yields_ok hg
  | help =>
      cases value with
      | some v => exact yields_error _
      | none => exact yields_bind (settle_hasWorkers h) fun r hr => yields_error _
  | version =>
      cases value with
      | some v => exact yields_error _
      | none => exact yields_bind (settle_hasWorkers h) fun r hr => yields_error _

/-- So does any word. -/
theorem step_hasWorkers (h : r.HasWorkers) (l : Level) (word : String) :
    Yields HasWorkers (Reading.step l r word) := by
  unfold step
  split
  · exact operand_hasWorkers h l word
  split
  · exact yields_ok h
  · split
    · exact name_hasWorkers h _ _
    · exact yields_error _
  · split
    · exact name_hasWorkers h _ _
    · exact yields_error _
  · split
    · exact yields_ok h
    · exact operand_hasWorkers h l word

/-- So does the end of the words. -/
theorem close_hasWorkers (h : r.HasWorkers) (environment : Option String) :
    Yields Gathered.HasWorkers (r.close environment) := by
  unfold close
  refine yields_bind (settle_hasWorkers h) fun r hr => ?_
  dsimp only
  split
  · exact yields_error _
  · exact yields_ok hr

end Reading

/-! ## Invocations -/

/-- The command of a verb has as many workers as were said. -/
theorem command?_hasWorkers {parallelism : Nat} (hpos : 0 < parallelism) (v : Verb)
    (operands : List String) :
    ∀ command ∈ v.command? parallelism operands, ∀ n ∈ command.parallelism?, 0 < n := by
  intro command hcommand n hn
  unfold Verb.command? at hcommand
  split at hcommand <;> cases hcommand <;> cases hn
  exact hpos

/-- If none were said there are as many as usual, and these are not none either. -/
theorem commandOf_hasWorkers (v : Verb) {g : Gathered} (h : g.HasWorkers) :
    Yields (fun command => ∀ n ∈ Command.parallelism? command, 0 < n) (commandOf v g) := by
  have hpos : 0 < g.parallelism.getD Verb.usualParallelism := by
    cases hsaid : g.parallelism with
    | none => decide
    | some n => exact h n hsaid
  unfold commandOf
  split
  · rename_i command hcommand
    exact yields_ok (command?_hasWorkers hpos v _ command hcommand)
  · exact yields_error _

/-- Every list is activated by someone. -/
theorem ofWords_hasWorkers (words : List String) (environment : Option String) :
    Yields (fun i : Invocation => ∀ n ∈ i.command.parallelism?, 0 < n)
      (Invocation.ofWords words environment) := by
  unfold Invocation.ofWords
  refine yields_bind (P := fun _ => True) (fun _ _ => trivial) fun (outer, found) _ => ?_
  -- Without a verb there is no command to have workers.
  rcases found with _ | ⟨v, rest⟩
  · refine yields_bind (P := fun _ => True) (fun _ _ => trivial) fun said _ => ?_
    split
    · exact yields_error _
    · exact yields_error _
  · -- Before the words behind the verb, no number has been said.
    have hnone : Reading.HasWorkers {} := nofun
    have hinner : Yields Reading.HasWorkers (innerWords v rest) :=
      yields_foldlM (fun r word hr => Reading.step_hasWorkers hr _ word) rest hnone
    refine yields_bind hinner fun r hr => ?_
    refine yields_bind (Reading.close_hasWorkers hr environment) fun said hsaid => ?_
    refine yields_bind (commandOf_hasWorkers v hsaid) fun command hcommand => ?_
    refine yields_bind (P := fun _ => True) (fun _ _ => trivial) fun flags _ => ?_
    exact yields_ok hcommand

end ProfileAdmin.CommandLine
