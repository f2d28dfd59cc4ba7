import ProfileAdmin.Command.Execute
import ProfileAdmin.Proofs.Command.Bulk
import ProfileAdmin.Proofs.Host.Labour

/-!
# Proofs.Command.Execution — commands whose workers take turns

1. **Parts** of a command: attempts of its client, and lines of output.
2. **Lists**: what the entries of a list are.
3. **Schedules**: what a command comes to if the workers of a bulk activation take turns as a
   schedule says. To execute a command is one of the ways to do this, and fair turns come to an
   end.
4. **Speech**: what is said to the endpoint under a schedule.
-/

namespace ProfileAdmin.Command

open Client
open Host (Deed Effect Event Pool Program)
open Host.Program
open Profile (State)

variable {α β σ : Type} {h : List Deed}

/-! ## Parts -/

/-- A command fails with its client. -/
theorem returns_attempt_iff {a : Attempt α} {r : Except Error α} :
    Program.Returns (attempt a).run h r ↔
      ∃ q, Program.Returns a.run h q ∧ r = q.mapError Error.client := by
  unfold attempt
  rw [returns_lift_seq_iff]
  constructor
  -- After the attempt there is only the rethrow, and it does nothing.
  · rintro ⟨h₁, h₂, q, rfl, ha, hrest⟩
    refine ⟨q, ?_⟩
    rcases q with e | v
    · obtain ⟨rfl, rfl⟩ := returns_throw_iff.mp hrest
      exact ⟨by rwa [List.append_nil], rfl⟩
    · obtain ⟨rfl, rfl⟩ := returns_pure_iff.mp hrest
      exact ⟨by rwa [List.append_nil], rfl⟩
  · rintro ⟨q, ha, rfl⟩
    refine ⟨h, [], q, (List.append_nil h).symm, ha, ?_⟩
    rcases q with e | v
    · exact returns_throw_iff.mpr ⟨rfl, rfl⟩
    · exact returns_pure_iff.mpr ⟨rfl, rfl⟩

/-- The deed of writing a line. -/
def printing (line : String) (reply : Except String Unit) : Deed :=
  ⟨.print line, reply⟩

/-- A command fails with its output. -/
theorem returns_printLine_iff {line : String} {r : Except Error Unit} :
    Program.Returns (printLine line).run h r ↔
      ∃ reply, h = [printing line reply] ∧ r = reply.mapError Error.output := by
  unfold printLine
  rw [returns_lift_seq_iff]
  constructor
  · rintro ⟨h₁, h₂, reply, rfl, hprint, hrest⟩
    obtain rfl := returns_ask_iff.mp hprint
    refine ⟨reply, ?_⟩
    rcases reply with reason | u
    · obtain ⟨rfl, rfl⟩ := returns_throw_iff.mp hrest
      exact ⟨rfl, rfl⟩
    · obtain ⟨rfl, rfl⟩ := returns_pure_iff.mp hrest
      exact ⟨rfl, rfl⟩
  · rintro ⟨reply, rfl, rfl⟩
    refine ⟨[printing line reply], [], reply, rfl, returns_ask_iff.mpr rfl, ?_⟩
    rcases reply with reason | u
    · exact returns_throw_iff.mpr ⟨rfl, rfl⟩
    · exact returns_pure_iff.mpr ⟨rfl, rfl⟩

/-- A command goes on after what cannot fail. -/
theorem run_lift_seq (answer : (e : Effect) → σ → e.Answer × σ) (p : Program α)
    (f : α → Task β) (s : σ) :
    (ExceptT.lift p >>= f).run.run answer s =
      (f (p.run answer s).1).run.run answer (p.run answer s).2 := by
  have hlift : (ExceptT.lift p : Task α).run = p >>= fun a => Program.done (.ok a) := rfl
  rw [ExceptT.run_bind, run_bind, hlift, run_bind]
  rfl

/-- A command goes on with what its client gives. -/
theorem run_attempt_seq (answer : (e : Effect) → σ → e.Answer × σ) (a : Attempt α)
    (f : α → Task β) (s : σ) :
    (attempt a >>= f).run.run answer s =
      match a.run.run answer s with
      | (.error e, s) => (.error (.client e), s)
      | (.ok v, s) => (f v).run.run answer s := by
  unfold attempt
  rw [bind_assoc, run_lift_seq]
  rcases a.run.run answer s with ⟨e | v, s'⟩
  · rfl
  · rfl

/-- What happens in a task that begins with a program happens after this program. -/
theorem history_lift_seq (answer : (e : Effect) → σ → e.Answer × σ) (p : Program α)
    (f : α → Task β) (s : σ) :
    (ExceptT.lift p >>= f).run.history answer s =
      p.history answer s ++ (f (p.run answer s).1).run.history answer (p.run answer s).2 := by
  have hlift : (ExceptT.lift p : Task α).run = p >>= fun a => Program.done (.ok a) := rfl
  rw [ExceptT.run_bind, history_bind, hlift, history_bind, run_bind]
  exact congrArg (· ++ _) (List.append_nil _)

/-- What a command does behind its client follows from what the client gives. -/
theorem history_attempt_seq (answer : (e : Effect) → σ → e.Answer × σ) (a : Attempt α)
    (f : α → Task β) (s : σ) :
    (attempt a >>= f).run.history answer s =
      a.run.history answer s ++
        match a.run.run answer s with
        | (.error _, _) => []
        | (.ok v, s) => (f v).run.history answer s := by
  unfold attempt
  rw [bind_assoc, history_lift_seq]
  rcases a.run.run answer s with ⟨e | v, s'⟩
  · rfl
  · rfl

theorem requireTarget_other {target : String} (hne : target ≠ "AVAILABLE") :
    requireTarget target = throw (.unexpectedTarget target) := by
  have hother : State.ofName? target ≠ some .available := by
    intro heq
    exact hne (Profile.ofName?_eq_some_iff.mp heq)
  exact if_pos hother

/-! ## Lists -/

namespace Bulk

variable {c : Client} {answer : (e : Effect) → σ → e.Answer × σ} {file : String} {s : σ}
  {iccids : List String}

/-- A file can be read, it is a text, and these are the entries on its lines. -/
def Lists (answer : (e : Effect) → σ → e.Answer × σ) (file : String) (s : σ)
    (iccids : List String) : Prop :=
  ∃ bytes text, (answer (.fileBytes file) s).1 = Except.ok bytes ∧
    Text.Utf8.text? bytes = some text ∧ iccids = iccidsOf text

/-- The entries of a text are what is left of its lines that are not blank. -/
theorem mem_iccidsOf_iff {text iccid : String} :
    iccid ∈ iccidsOf text ↔ ∃ line ∈ Text.lines text.toList,
      Text.trimChars line ≠ [] ∧ iccid = String.ofList (Text.trimChars line) := by
  unfold iccidsOf
  simp only [List.mem_map, List.mem_filter, Bool.not_eq_true', List.isEmpty_eq_false_iff]
  constructor
  · rintro ⟨_, ⟨⟨line, hline, rfl⟩, hne⟩, rfl⟩
    exact ⟨line, hline, hne, rfl⟩
  · rintro ⟨line, hline, hne, rfl⟩
    exact ⟨_, ⟨⟨line, hline, rfl⟩, hne⟩, rfl⟩

/-- What is made of the bytes of a list. -/
def listOf (file : String) : Except Host.FileError (List UInt8) → Except Error (List String)
  | .error _ => .error (.unreadableList file)
  | .ok bytes =>
    match Text.Utf8.text? bytes with
    | some text => .ok (iccidsOf text)
    | none => .error (.unreadableList file)

theorem readIccids_eq (file : String) :
    (readIccids file).run = .perform (.fileBytes file) fun reply => .done (listOf file reply) := by
  refine congrArg (Program.perform _) (funext fun reply => ?_)
  change Except Host.FileError (List UInt8) at reply
  rcases reply with e | bytes
  · rfl
  · dsimp only [Program.bind, listOf]
    cases Text.Utf8.text? bytes with
    | some text => rfl
    | none => rfl

/-- Reading a list does nothing but to read the file. -/
theorem readIccids_run (answer : (e : Effect) → σ → e.Answer × σ) (file : String) (s : σ) :
    (readIccids file).run.run answer s =
      (listOf file (answer (.fileBytes file) s).1, (answer (.fileBytes file) s).2) := by
  rw [readIccids_eq]
  rfl

/-- There is a list exactly if the file lists something. -/
theorem listOf_eq_ok_iff :
    listOf file (answer (.fileBytes file) s).1 = .ok iccids ↔ Lists answer file s iccids := by
  unfold Lists
  generalize (answer (.fileBytes file) s).1 = reply
  change Except Host.FileError (List UInt8) at reply
  constructor
  · intro hlist
    -- Two ways to fail: the file cannot be read, and it is no text.
    rcases reply with e | bytes
    · cases hlist
    · rw [listOf] at hlist
      cases htext : Text.Utf8.text? bytes with
      | none =>
          rw [htext] at hlist
          cases hlist
      | some text =>
          rw [htext] at hlist
          exact ⟨bytes, text, rfl, htext, (Except.ok.inj hlist).symm⟩
  · rintro ⟨bytes, text, rfl, htext, rfl⟩
    rw [listOf, htext]

/-- A file has one list at a time. -/
theorem Lists.unique {iccids' : List String} (h : Lists answer file s iccids)
    (h' : Lists answer file s iccids') : iccids = iccids' :=
  Except.ok.inj ((listOf_eq_ok_iff.mpr h).symm.trans (listOf_eq_ok_iff.mpr h'))

/-- A file has a list, or the command fails for want of one. -/
theorem lists_or (answer : (e : Effect) → σ → e.Answer × σ) (file : String) (s : σ) :
    (∃ iccids, Lists answer file s iccids) ∨
      listOf file (answer (.fileBytes file) s).1 = .error (.unreadableList file) := by
  cases hlist : listOf file (answer (.fileBytes file) s).1 with
  | ok iccids => exact Or.inl ⟨iccids, listOf_eq_ok_iff.mp hlist⟩
  | error e =>
      right
      -- Both failures are told in the same way.
      unfold listOf at hlist
      split at hlist
      · exact hlist.symm
      · split at hlist
        · cases hlist
        · exact hlist.symm

/-- What the workers of a list do under a schedule, with the indices of the entries. -/
def labour (answer : (e : Effect) → σ → e.Answer × σ) (c : Client) (iccids : List String)
    (parallelism : Nat) (schedule : List Nat) (s : σ) : List (Nat × Deed) :=
  Pool.labour answer schedule (pool c iccids parallelism) (begun iccids parallelism answer s)

variable {parallelism : Nat} {schedule : List Nat}

/-- All that is done is done for entries. -/
theorem labour_lt {x : Nat × Deed} (hx : x ∈ labour answer c iccids parallelism schedule s) :
    x.1 < iccids.length := by
  have hlt := Pool.labour_lt (Pool.start_accounted _ _) schedule x hx
  rwa [Pool.start, List.length_map] at hlt

/-- What is done for an entry is the beginning of something that its activation can do. -/
theorem labour_returns (answer : (e : Effect) → σ → e.Answer × σ) (c : Client)
    (parallelism : Nat) (schedule : List Nat) (s : σ) {i : Nat} (hi : i < iccids.length) :
    ∃ later o, (activateOne c iccids[i]).Returns
      (Pool.doneFor i (labour answer c iccids parallelism schedule s) ++ later) o := by
  have hi' : i < (iccids.map (activateOne c)).length := by rwa [List.length_map]
  obtain ⟨later, o, hr⟩ := Pool.labour_returns (workerCount iccids parallelism) _ schedule hi'
  rw [List.getElem_map] at hr
  exact ⟨later, o, hr⟩

/-- When all workers have left, every entry has come to its outcome by what was done for it. -/
theorem outcomes_returns (hpar : 0 < parallelism)
    (hover : (Pool.run answer schedule (pool c iccids parallelism)
      (begun iccids parallelism answer s)).1.isOver = true) :
    (Pool.run answer schedule (pool c iccids parallelism)
        (begun iccids parallelism answer s)).1.outcomes.length = iccids.length ∧
      ∀ i (hi : i < iccids.length) o, (Pool.run answer schedule (pool c iccids parallelism)
          (begun iccids parallelism answer s)).1.outcomes[i]? = some o →
        (activateOne c iccids[i]).Returns
          (Pool.doneFor i (labour answer c iccids parallelism schedule s)) o := by
  obtain ⟨hlength, hreturns⟩ := Pool.outcomes_returns hover (workerCount_pos_or_jobs c iccids hpar)
  rw [List.length_map] at hlength
  refine ⟨hlength, fun i hi o ho => ?_⟩
  have hr := hreturns i (by rwa [List.length_map]) o ho
  rwa [List.getElem_map] at hr

end Bulk

/-! ## Schedules -/

/-- What a command comes to if the workers of a bulk activation take turns as a schedule says.
There is no answer if some of them have not left when the schedule is through. -/
def executeIn (answer : (e : Effect) → σ → e.Answer × σ) (c : Client) (schedule : List Nat) :
    Command → σ → Option (Except Error Bool) × σ
  | .bulkActivate file parallelism, s =>
    let (list, s) := (Bulk.readIccids file).run.run answer s
    match list with
    | .error e => (some (.error e), s)
    | .ok iccids =>
      let (p, s) := Pool.run answer schedule (Bulk.pool c iccids parallelism)
        (Bulk.begun iccids parallelism answer s)
      if p.isOver then
        let (r, s) := (Bulk.report p.outcomes).run.run answer s
        (some r, s)
      else (none, s)
  | command, s =>
    let (r, s) := (execute c command).run.run answer s
    (some r, s)

/-- How many activations may be under way at a time, if the command activates a list. -/
def parallelism? : Command → Option Nat
  | .bulkActivate _ parallelism => some parallelism
  | _ => none

variable {c : Client} {answer : (e : Effect) → σ → e.Answer × σ} {command : Command} {s : σ}

theorem eq_bulkActivate_or (command : Command) :
    command.parallelism? = none ∨ ∃ file parallelism, command = .bulkActivate file parallelism := by
  cases command with
  | bulkActivate file parallelism => exact Or.inr ⟨file, parallelism, rfl⟩
  | getStatus | recoverProfile | cancelOrder | downloadOrder | confirmOrder | activate
  | smoketest => exact Or.inl rfl

/-- A command without workers is executed as it is. -/
theorem executeIn_alone (hnone : command.parallelism? = none) (schedule : List Nat) :
    executeIn answer c schedule command s =
      (some ((execute c command).run.run answer s).1,
        ((execute c command).run.run answer s).2) := by
  cases command with
  | bulkActivate file parallelism => cases hnone
  | getStatus | recoverProfile | cancelOrder | downloadOrder | confirmOrder | activate
  | smoketest => rfl

section

variable {file : String} {iccids : List String}

/-- Without a list nothing is activated. -/
theorem executeIn_unlisted (hnone : ∀ iccids, ¬ Bulk.Lists answer file s iccids)
    (parallelism : Nat) (schedule : List Nat) :
    executeIn answer c schedule (.bulkActivate file parallelism) s =
      (some (.error (.unreadableList file)), (answer (.fileBytes file) s).2) := by
  unfold executeIn
  dsimp only
  rw [Bulk.readIccids_run]
  rcases Bulk.lists_or answer file s with ⟨iccids, hlist⟩ | herror
  · exact absurd hlist (hnone iccids)
  · rw [herror]

/-- Where there is a list, its workers take turns, and in the end there is a report. -/
theorem executeIn_listed (hlist : Bulk.Lists answer file s iccids) (parallelism : Nat)
    (schedule : List Nat) :
    executeIn answer c schedule (.bulkActivate file parallelism) s =
      let (p, s) := Pool.run answer schedule (Bulk.pool c iccids parallelism)
        (Bulk.begun iccids parallelism answer (answer (.fileBytes file) s).2)
      if p.isOver then
        (some ((Bulk.report p.outcomes).run.run answer s).1,
          ((Bulk.report p.outcomes).run.run answer s).2)
      else (none, s) := by
  unfold executeIn
  dsimp only
  rw [Bulk.readIccids_run, Bulk.listOf_eq_ok_iff.mpr hlist]

end

/-- A bulk command reads its list, activates it, and reports. -/
theorem execute_bulkActivate_run (answer : (e : Effect) → σ → e.Answer × σ) (c : Client)
    (file : String) (parallelism : Nat) (s : σ) :
    (execute c (.bulkActivate file parallelism)).run.run answer s =
      match (Bulk.readIccids file).run.run answer s with
      | (.error e, s) => (.error e, s)
      | (.ok iccids, s) =>
        (Bulk.report ((Bulk.activateAll c iccids parallelism).run answer s).1).run.run answer
          ((Bulk.activateAll c iccids parallelism).run answer s).2 := by
  rw [execute, ExceptT.run_bind, run_bind]
  rcases (Bulk.readIccids file).run.run answer s with ⟨e | iccids, s'⟩
  · rfl
  · dsimp only
    rw [run_lift_seq]

/-- To execute a command is to let its workers take turns in one of the possible orders. -/
theorem exists_schedule_execute (c : Client) (command : Command)
    (hworkers : ∀ n ∈ command.parallelism?, 0 < n) (answer : (e : Effect) → σ → e.Answer × σ)
    (s : σ) :
    ∃ schedule, executeIn answer c schedule command s =
      (some ((execute c command).run.run answer s).1,
        ((execute c command).run.run answer s).2) := by
  rcases command.eq_bulkActivate_or with hnone | ⟨file, parallelism, rfl⟩
  · exact ⟨[], executeIn_alone hnone []⟩
  · rw [execute_bulkActivate_run]
    unfold executeIn
    dsimp only
    rcases (Bulk.readIccids file).run.run answer s with ⟨e | iccids, s'⟩
    · exact ⟨[], rfl⟩
    · have hpar : 0 < parallelism := hworkers parallelism rfl
      -- The list as it was read; the schedule is the one that does its entries in turn.
      obtain ⟨schedule, _, rfl, hover, hrun⟩ :=
        Bulk.exists_schedule_activateAll c iccids hpar answer s'
      refine ⟨schedule, ?_⟩
      dsimp only
      rw [if_pos hover, hrun]

/-- Turns that are fair to many workers are fair to fewer. -/
theorem fair_mono {fewer count : Nat} {turns : Nat → Nat} (hle : fewer ≤ count)
    (hfair : Pool.Fair count turns) : Pool.Fair fewer turns :=
  fun w hw => hfair w (Nat.lt_of_lt_of_le hw hle)

/-- Under fair turns, every command comes to an end. -/
theorem exists_executeIn_eq_some (c : Client) (command : Command)
    (answer : (e : Effect) → σ → e.Answer × σ) (s : σ) {turns : Nat → Nat}
    (hfair : ∀ n ∈ command.parallelism?, Pool.Fair n turns) :
    ∃ n r, (executeIn answer c ((List.range n).map turns) command s).1 = some r := by
  rcases command.eq_bulkActivate_or with hnone | ⟨file, parallelism, rfl⟩
  · exact ⟨0, _, congrArg Prod.fst (executeIn_alone hnone _)⟩
  · unfold executeIn
    dsimp only
    rcases (Bulk.readIccids file).run.run answer s with ⟨e | iccids, s'⟩
    · exact ⟨0, _, rfl⟩
    · -- There may be fewer workers than places for them, if the list is short.
      have hcount : (Bulk.pool c iccids parallelism).workers.length ≤ parallelism :=
        Nat.le_trans (Nat.le_of_eq List.length_replicate) (Nat.min_le_left _ _)
      obtain ⟨n, hover⟩ := Pool.exists_isOver answer (Bulk.pool c iccids parallelism)
        (Bulk.begun iccids parallelism answer s') (fair_mono hcount (hfair parallelism rfl))
      rw [Pool.after] at hover
      refine ⟨n, ?_⟩
      dsimp only
      rw [if_pos hover]
      exact ⟨_, rfl⟩

/-! ## Speech -/

/-- What a command says to the endpoint and hears from it under a schedule. -/
def saidIn (answer : (e : Effect) → σ → e.Answer × σ) (c : Client) (schedule : List Nat)
    (command : Command) (s : σ) : List Exchange :=
  exchanges (executeIn (recording answer) c schedule command (s, [])).2.2

/-- A command without workers says the same under every schedule. -/
theorem saidIn_alone {command : Command} (hnone : command.parallelism? = none)
    (schedule : List Nat) :
    saidIn answer c schedule command s = exchanges ((execute c command).run.history answer s) := by
  rw [saidIn, executeIn_alone hnone, run_recording]
  rfl

end ProfileAdmin.Command
