import ProfileAdmin.Proofs.Client.Session
import ProfileAdmin.Proofs.Command.Execution

/-!
# Proofs.Command.Scope — what commands say to the endpoint

1. **Requests**: the state that a request asks for, and whether it releases the profile.
2. **Speech**: what a program says to the endpoint, it says on errands that it is allowed.
3. **Scope**: the profiles that a command names, its operations, and the errands within both.
   A command that is executed stays within its scope.
4. **Workers** stay within the scope at any time, whether or not they come to an end.
-/

namespace ProfileAdmin

open Call
open Client
open Host (Deed Effect Event Pool Program)
open Host.Program
open Profile (State)

variable {α β σ : Type} {c : Client}

/-! ## Requests -/

namespace Call

/-- The state that a request wants the profile to be in. -/
def Operation.target? : (op : Operation) → op.Request → Option String
  | .recoverProfile, r => some (RecoverRequest.target r)
  | .cancelOrder, r => some (CancelRequest.target r)
  | _, _ => none

/-- What a confirmation says about releasing the profile. -/
def Operation.release? : (op : Operation) → op.Request → Option Bool
  | .confirmOrder, r => some (ConfirmRequest.release r)
  | _, _ => none

end Call

namespace Client

/-- The state that an errand wants the profile to be in. -/
def Errand.target? : Errand → Option String
  | .recover _ target | .cancel _ target => some target
  | _ => none

/-- The request of an errand is about its profile and its target, and it always releases. -/
theorem Errand.request_eq (e : Errand) (header : RequestHeader) :
    e.op.requestHeader (e.request header) = header ∧
      e.op.iccids (e.request header) = [e.iccid] ∧
      e.op.target? (e.request header) = e.target? ∧
      ∀ release ∈ e.op.release? (e.request header), release = true := by
  cases e with
  | confirm iccid => exact ⟨rfl, rfl, rfl, fun release h => (Option.some.inj h).symm⟩
  | query | recover | cancel | download => exact ⟨rfl, rfl, rfl, nofun⟩

end Client

namespace Command

/-! ## Speech -/

/-- All that a program says to the endpoint, it says on errands that are allowed. -/
def Confined (c : Client) (allowed : Errand → Prop) (p : Program α) : Prop :=
  ∀ h a, p.Returns h a → ∀ x ∈ exchanges h, ∃ e, allowed e ∧ x.Serves c e

section

variable {allowed : Errand → Prop}

theorem confined_done (a : α) : Confined c allowed (.done a) := by
  intro h b hr
  obtain ⟨rfl, -⟩ := returns_done_iff.mp hr
  exact fun x hx => absurd hx List.not_mem_nil

/-- What is said in two parts is allowed if it is so in each. -/
theorem confined_bind {p : Program α} {f : α → Program β} (hp : Confined c allowed p)
    (hf : ∀ a, Confined c allowed (f a)) : Confined c allowed (p >>= f) := by
  intro h b hr
  obtain ⟨h₁, h₂, a, rfl, hfirst, hrest⟩ := returns_bind_iff.mp hr
  rw [exchanges_append]
  exact List.forall_mem_append.mpr ⟨hp h₁ a hfirst, hf a h₂ b hrest⟩

/-- What is not said to the endpoint needs no leave. -/
theorem confined_ask {e : Effect} (hsilent : ∀ op r, e ≠ .exchange op r) :
    Confined c allowed (ask e) := by
  intro h a hr
  obtain rfl := returns_ask_iff.mp hr
  cases e with
  | exchange op r => exact absurd rfl (hsilent op r)
  | draw | note | print | fileBytes | clock => exact fun x hx => absurd hx List.not_mem_nil

/-- More may be allowed. -/
theorem Confined.mono {others : Errand → Prop} {p : Program α} (h : Confined c allowed p)
    (himp : ∀ e, allowed e → others e) : Confined c others p := by
  intro d a hr x hx
  obtain ⟨e, hallowed, hserves⟩ := h d a hr x hx
  exact ⟨e, himp e hallowed, hserves⟩

theorem confined_of_made {x : Attempt α} (hmade : Made c allowed x) : Confined c allowed x.run :=
  fun _ _ hr => hmade.serves hr

variable {t : Task α}

/-- Tasks in a sequence keep to what is allowed if each does. -/
theorem confined_seq {f : α → Task β} (ht : Confined c allowed t.run)
    (hf : ∀ a, Confined c allowed (f a).run) : Confined c allowed (t >>= f).run := by
  rw [ExceptT.run_bind]
  refine confined_bind ht fun r => ?_
  cases r with
  | error e => exact confined_done _
  | ok a => exact hf a

theorem confined_lift {p : Program α} (hp : Confined c allowed p) :
    Confined c allowed (ExceptT.lift p : Task α).run :=
  confined_bind hp fun _ => confined_done _

theorem confined_attempt {x : Attempt α} (hmade : Made c allowed x) :
    Confined c allowed (attempt x).run := by
  refine confined_seq (confined_lift (confined_of_made hmade)) fun r => ?_
  cases r with
  | error e => exact confined_done _
  | ok a => exact confined_done _

/-- A task that begins with an errand needs leave for it. -/
theorem confined_errand (e : Errand) {f : e.Result → Task β} (h : allowed e)
    (hf : ∀ v, Confined c allowed (f v).run) :
    Confined c allowed (attempt (e.attempt c) >>= f).run :=
  confined_seq (confined_attempt (Made.errand e h)) hf

theorem confined_printLine (line : String) : Confined c allowed (printLine line).run := by
  refine confined_seq (confined_lift (confined_ask fun _ _ => nofun)) fun r => ?_
  change Except String Unit at r
  cases r with
  | error reason => exact confined_done _
  | ok u => exact confined_done _

theorem confined_line (line : String) (b : Bool) :
    Confined c allowed (printLine line >>= fun _ => pure b : Task Bool).run :=
  confined_seq (confined_printLine line) fun _ => confined_done _

theorem confined_note (e : Event) :
    Confined c allowed (ExceptT.lift (note e) : Task Unit).run :=
  confined_lift (confined_ask fun _ _ => nofun)

/-- A report says nothing to the endpoint. -/
theorem report_confined (outcomes : List Bulk.Outcome) :
    Confined c allowed (Bulk.report outcomes).run := by
  refine confined_seq ?_ fun _ => confined_seq (confined_note _) fun _ => confined_done _
  induction outcomes with
  | nil => exact confined_done _
  | cons o outcomes ih => exact confined_seq (confined_printLine _) fun _ => ih

end

/-! ## Scope -/

/-- The profiles that a command names. For a list these are the entries of the file, as it is
read in given surroundings. -/
def Names (answer : (e : Effect) → σ → e.Answer × σ) (s : σ) : Command → String → Prop
  | .bulkActivate file _, iccid =>
    ∃ bytes text, (answer (.fileBytes file) s).1 = Except.ok bytes ∧
      Text.Utf8.text? bytes = some text ∧ ∃ line ∈ Text.lines text.toList,
        Text.trimChars line ≠ [] ∧ iccid = String.ofList (Text.trimChars line)
  | .getStatus named, iccid | .recoverProfile named _, iccid | .cancelOrder named _, iccid
  | .downloadOrder named, iccid | .confirmOrder named, iccid | .activate named, iccid
  | .smoketest named, iccid => iccid = named

/-- The operations that a command may call. -/
def operations : Command → List Operation
  | .getStatus _ => [.getProfileStatus]
  | .recoverProfile _ target => if target = "AVAILABLE" then [.recoverProfile] else []
  | .cancelOrder _ target => if target = "AVAILABLE" then [.cancelOrder] else []
  | .downloadOrder _ => [.downloadOrder]
  | .confirmOrder _ => [.confirmOrder]
  | .activate _ | .bulkActivate _ _ => [.getProfileStatus, .downloadOrder, .confirmOrder]
  | .smoketest _ =>
    [.getProfileStatus, .recoverProfile, .cancelOrder, .downloadOrder, .confirmOrder]

/-- An exchange is within the scope of a command that names some profiles. -/
structure InScope (c : Client) (command : Command) (names : String → Prop) (x : Exchange) :
    Prop where
  requester_eq : x.header.requester = c.requester
  names : ∃ iccid, names iccid ∧ x.iccids = [iccid]
  op_mem : x.op ∈ command.operations
  target_eq : ∀ target ∈ x.op.target? x.request, target = "AVAILABLE"
  release_eq : ∀ release ∈ x.op.release? x.request, release = true

/-- An errand is within the scope of a command. -/
structure Permits (command : Command) (names : String → Prop) (e : Errand) : Prop where
  names : names e.iccid
  op_mem : e.op ∈ command.operations
  target_eq : ∀ target ∈ e.target?, target = "AVAILABLE"

/-- What is sent on a permitted errand is within the scope. -/
theorem Permits.inScope {command : Command} {names : String → Prop} {e : Errand} {x : Exchange}
    (h : command.Permits names e) (hserves : x.Serves c e) : InScope c command names x := by
  obtain ⟨callId, reply, rfl⟩ := hserves
  obtain ⟨hheader, hiccids, htarget, hrelease⟩ := e.request_eq ⟨c.requester, callId⟩
  constructor
  · rw [Exchange.header, hheader]
  · exact ⟨e.iccid, h.names, hiccids⟩
  · exact h.op_mem
  · rw [htarget]
    exact h.target_eq
  · exact hrelease

variable {answer : (e : Effect) → σ → e.Answer × σ} {s : σ}

/-- With any other target, nothing is said. -/
theorem confined_requireTarget {allowed : Errand → Prop} {target : String} {t : Task α}
    (ht : target = "AVAILABLE" → Confined c allowed t.run) :
    Confined c allowed (requireTarget target >>= fun _ => t).run := by
  by_cases htarget : target = "AVAILABLE"
  · subst htarget
    exact confined_seq (confined_done _) fun _ => ht rfl
  · rw [requireTarget_other htarget]
    exact confined_done _

/-- An activation is within the scope of the commands that activate. -/
theorem permits_of_activates (command : Command) {names : String → Prop} {iccid : String}
    (hnames : names iccid)
    (hoperations : command.operations = [.getProfileStatus, .downloadOrder, .confirmOrder]) :
    ∀ e : Errand, e.Activates iccid → command.Permits names e := by
  intro e h
  cases h with
  | query => exact ⟨hnames, by simp [hoperations, Errand.op], nofun⟩
  | download => exact ⟨hnames, by simp [hoperations, Errand.op], nofun⟩
  | confirm => exact ⟨hnames, by simp [hoperations, Errand.op], nofun⟩

/-- The smoketest calls everything. -/
theorem permits_of_smoketest {iccid : String} {names : String → Prop} (hnames : names iccid)
    {e : Errand} (hiccid : e.iccid = iccid) (htarget : ∀ target ∈ e.target?, target = "AVAILABLE") :
    (Command.smoketest iccid).Permits names e := by
  refine ⟨hiccid ▸ hnames, ?_, htarget⟩
  cases e <;> simp [operations, Errand.op]

/-- To ask for the state is to query. -/
theorem currentState_confined {allowed : Errand → Prop} {iccid : String}
    (h : allowed (.query iccid)) : Confined c allowed (Smoketest.currentState c iccid).run := by
  refine confined_errand (.query iccid) h fun v => ?_
  cases v with
  | none => exact confined_done _
  | some status => exact confined_done _

/-- And so it is to expect one. -/
theorem expectState_confined {allowed : Errand → Prop} {iccid : String}
    (h : allowed (.query iccid)) (expected : State) :
    Confined c allowed (Smoketest.expectState c iccid expected).run := by
  refine confined_seq (currentState_confined h) fun state => ?_
  refine confined_seq (confined_printLine _) fun _ => ?_
  split
  · exact confined_done _
  · exact confined_done _

/-- The smoketest keeps to its profile, and asks for no state but the available one. -/
theorem smoketest_confined (c : Client) {names : String → Prop} {iccid : String}
    (hnames : names iccid) :
    Confined c ((Command.smoketest iccid).Permits names) (Smoketest.run c iccid).run := by
  have hquery : (Command.smoketest iccid).Permits names (.query iccid) :=
    permits_of_smoketest hnames rfl nofun
  -- Line by line, as it is written.
  refine confined_seq (currentState_confined hquery) fun initial => ?_
  refine confined_seq (confined_printLine _) fun _ => ?_
  refine confined_errand (.recover iccid State.available.name) ?_ fun recovered => ?_
  · exact permits_of_smoketest hnames rfl fun target h => (Option.some.inj h).symm
  refine confined_seq (confined_printLine _) fun _ => ?_
  refine confined_errand (.cancel iccid State.available.name) ?_ fun cancelled => ?_
  · exact permits_of_smoketest hnames rfl fun target h => (Option.some.inj h).symm
  refine confined_seq (confined_printLine _) fun _ => ?_
  refine confined_seq (expectState_confined hquery _) fun _ => ?_
  refine confined_errand (.download iccid) ?_ fun _ => ?_
  · exact permits_of_smoketest hnames rfl nofun
  refine confined_seq (confined_printLine _) fun _ => ?_
  refine confined_seq (expectState_confined hquery _) fun _ => ?_
  refine confined_errand (.confirm iccid) ?_ fun _ => ?_
  · exact permits_of_smoketest hnames rfl nofun
  refine confined_seq (confined_printLine _) fun _ => ?_
  refine confined_seq (expectState_confined hquery _) fun _ => ?_
  exact confined_seq (confined_note _) fun _ => confined_printLine _

/-- A command without workers stays within its scope. -/
theorem execute_confined (answer : (e : Effect) → σ → e.Answer × σ) (c : Client) (s : σ)
    {command : Command} (hnone : command.parallelism? = none) :
    Confined c (command.Permits (command.Names answer s)) (execute c command).run := by
  cases command with
  | bulkActivate file parallelism => cases hnone
  | getStatus iccid =>
      refine confined_errand (.query iccid) ?_ fun v => ?_
      · exact ⟨rfl, List.mem_singleton.mpr rfl, nofun⟩
      cases v with
      | none => exact confined_done _
      | some status => exact confined_line _ _
  -- The errand asks for what was told, which is the available state or else nothing is sent.
  | recoverProfile iccid target =>
      refine confined_requireTarget fun htarget => ?_
      subst htarget
      refine confined_errand (.recover iccid "AVAILABLE") ?_ fun response => confined_line _ _
      exact ⟨rfl, List.mem_singleton.mpr rfl, fun target h => (Option.some.inj h).symm⟩
  | cancelOrder iccid target =>
      refine confined_requireTarget fun htarget => ?_
      subst htarget
      refine confined_errand (.cancel iccid "AVAILABLE") ?_ fun response => confined_line _ _
      exact ⟨rfl, List.mem_singleton.mpr rfl, fun target h => (Option.some.inj h).symm⟩
  | downloadOrder iccid =>
      refine confined_errand (.download iccid) ?_ fun response => confined_line _ _
      exact ⟨rfl, List.mem_singleton.mpr rfl, nofun⟩
  | confirmOrder iccid =>
      refine confined_errand (.confirm iccid) ?_ fun response => ?_
      · exact ⟨rfl, List.mem_singleton.mpr rfl, nofun⟩
      refine confined_seq (confined_printLine _) fun _ => ?_
      split
      · exact confined_line _ _
      · exact confined_done _
  | activate iccid =>
      have hnamed : Names answer s (.activate iccid) iccid := rfl
      have hpermits := permits_of_activates (.activate iccid) hnamed rfl
      have hmade := confined_attempt (activate_made c iccid)
      refine confined_seq (hmade.mono hpermits) fun activation => ?_
      refine confined_seq (confined_printLine _) fun _ => ?_
      split
      · exact confined_done _
      · exact confined_seq (confined_note _) fun _ => confined_done _
  | smoketest iccid => exact confined_seq (smoketest_confined c rfl) fun _ => confined_done _

/-! ## Workers -/

namespace Bulk

variable {allowed : Errand → Prop} {iccids : List String}

/-- An entry keeps to its profile. -/
theorem activateOne_confined (c : Client) (iccid : String) :
    Confined c (Errand.Activates iccid) (activateOne c iccid) := by
  rw [activateOne_eq]
  refine confined_bind (confined_of_made (activate_made c iccid)) fun result => ?_
  refine confined_bind ?_ fun _ => confined_done _
  cases result with
  | ok a => exact confined_done _
  | error e => exact confined_ask fun _ _ => nofun

/-- A list keeps to the profiles that it names. -/
theorem activateAll_confined (c : Client)
    (h : ∀ iccid ∈ iccids, ∀ e : Errand, e.Activates iccid → allowed e) (parallelism : Nat) :
    Confined c allowed (activateAll c iccids parallelism) := by
  refine confined_bind (confined_ask fun _ _ => nofun) fun _ => ?_
  -- Behind the note, the induction is on the entries that are left.
  induction iccids with
  | nil => exact confined_done _
  | cons iccid iccids ih =>
      obtain ⟨hiccid, hiccids⟩ := List.forall_mem_cons.mp h
      refine confined_bind ((activateOne_confined c iccid).mono hiccid) fun o => ?_
      exact confined_bind (ih hiccids) fun os => confined_done _

/-- Whatever is done has been done for an entry, and the entry keeps to its profile. -/
theorem labour_confined (answer : (e : Effect) → σ → e.Answer × σ) (c : Client)
    (parallelism : Nat) (schedule : List Nat) (s : σ)
    (h : ∀ iccid ∈ iccids, ∀ e : Errand, e.Activates iccid → allowed e) :
    ∀ x ∈ exchanges ((labour answer c iccids parallelism schedule s).map Prod.snd),
      ∃ e, allowed e ∧ x.Serves c e := by
  intro x hx
  obtain ⟨d, hd, hxd⟩ := List.mem_filterMap.mp hx
  obtain ⟨⟨i, d⟩, hmem, rfl⟩ := List.mem_map.mp hd
  have hi : i < iccids.length := labour_lt hmem
  -- What is done for an entry is the beginning of something that its activation can do.
  obtain ⟨later, o, hr⟩ := labour_returns answer c parallelism schedule s hi
  have hfor : d ∈ Pool.doneFor i (labour answer c iccids parallelism schedule s) :=
    List.mem_map.mpr ⟨(i, d), List.mem_filter.mpr ⟨hmem, decide_eq_true rfl⟩, rfl⟩
  obtain ⟨e, hactivates, hserves⟩ := activateOne_confined c _ _ _ hr x
    (List.mem_filterMap.mpr ⟨d, List.mem_append_left _ hfor, hxd⟩)
  exact ⟨e, h _ (List.getElem_mem _) e hactivates, hserves⟩

end Bulk

/-- Nothing is said while a report is written. -/
theorem report_silent (answer : (e : Effect) → σ → e.Answer × σ) (outcomes : List Bulk.Outcome)
    (s : σ) : exchanges ((Bulk.report outcomes).run.history answer s) = [] := by
  refine List.eq_nil_iff_forall_not_mem.mpr fun x hx => ?_
  obtain ⟨e, hnever, -⟩ := report_confined (c := ⟨"", ⟨false, false⟩⟩) outcomes _ _
    (returns_history answer _ s) x hx
  exact hnever

/-- Only the workers of a list say something, and only if there is a list. -/
theorem mem_saidIn_bulkActivate {file : String} {parallelism : Nat} {schedule : List Nat}
    {x : Exchange} (hx : x ∈ saidIn answer c schedule (.bulkActivate file parallelism) s) :
    ∃ iccids, Bulk.Lists answer file s iccids ∧
      x ∈ exchanges ((Bulk.labour answer c iccids parallelism schedule
        (answer (.fileBytes file) s).2).map Prod.snd) := by
  unfold saidIn at hx
  by_cases hlist : ∃ iccids, Bulk.Lists answer file s iccids
  · obtain ⟨iccids, hlist⟩ := hlist
    have hlist' : Bulk.Lists (recording answer) file (s, []) iccids := hlist
    refine ⟨iccids, hlist, ?_⟩
    -- Before the workers begin, the file is read and a note is made.
    have hbegun : ∃ before, exchanges before = [] ∧
        Bulk.begun iccids parallelism (recording answer)
            (recording answer (.fileBytes file) (s, [])).2 =
          (Bulk.begun iccids parallelism answer (answer (.fileBytes file) s).2, before) :=
      ⟨_, rfl, rfl⟩
    obtain ⟨before, hsilent, hbegun⟩ := hbegun
    rw [executeIn_listed hlist', hbegun, Pool.run_recording_labour] at hx
    dsimp only at hx
    split at hx
    -- All workers have left, and their report is silent. Otherwise there is none.
    · rw [run_recording] at hx
      dsimp only at hx
      rw [exchanges_append, exchanges_append, hsilent, report_silent, List.append_nil] at hx
      exact hx
    · dsimp only at hx
      rw [exchanges_append, hsilent] at hx
      exact hx
  · have hnone : ∀ iccids, ¬ Bulk.Lists (recording answer) file (s, []) iccids :=
      fun iccids h => hlist ⟨iccids, h⟩
    rw [executeIn_unlisted hnone] at hx
    cases hx

/-- The entries of a list are the profiles that its command names. -/
theorem names_of_mem {file : String} {parallelism : Nat} {iccids : List String}
    (hlist : Bulk.Lists answer file s iccids) :
    ∀ iccid ∈ iccids, Names answer s (.bulkActivate file parallelism) iccid := by
  obtain ⟨bytes, text, hbytes, htext, rfl⟩ := hlist
  intro iccid hmem
  exact ⟨bytes, text, hbytes, htext, Bulk.mem_iccidsOf_iff.mp hmem⟩

/-- A bulk activation that does one entry after the other says no more. -/
theorem mem_exchanges_bulkActivate {file : String} {parallelism : Nat} {x : Exchange}
    (hx : x ∈ exchanges ((execute c (.bulkActivate file parallelism)).run.history answer s)) :
    ∃ iccids, Bulk.Lists answer file s iccids ∧
      ∃ s', x ∈ exchanges ((Bulk.activateAll c iccids parallelism).history answer s') := by
  -- To read the list is to read a file, and without a list there is nothing to say.
  have hread : exchanges ((Bulk.readIccids file).run.history answer s) = [] := by
    rw [Bulk.readIccids_eq]
    rfl
  rw [execute, ExceptT.run_bind, history_bind, exchanges_append, hread, List.nil_append,
    Bulk.readIccids_run] at hx
  rcases Bulk.lists_or answer file s with ⟨iccids, hlist⟩ | herror
  · rw [Bulk.listOf_eq_ok_iff.mpr hlist] at hx
    dsimp only at hx
    rw [history_lift_seq, exchanges_append, report_silent, List.append_nil] at hx
    exact ⟨iccids, hlist, _, hx⟩
  · rw [herror] at hx
    cases hx

/-- Whatever a command says to the endpoint is within its scope: if it is executed, and in whatever
order its workers take turns and whether or not they come to an end. -/
theorem execute_inScope (c : Client) (command : Command)
    (answer : (e : Effect) → σ → e.Answer × σ) (s : σ) :
    (∀ x ∈ exchanges ((execute c command).run.history answer s),
      InScope c command (Names answer s command) x) ∧
    ∀ schedule, ∀ x ∈ saidIn answer c schedule command s,
      InScope c command (Names answer s command) x := by
  -- A command without workers says the same however turns are taken.
  rcases command.eq_bulkActivate_or with hnone | ⟨file, parallelism, rfl⟩
  · have hexecute : ∀ x ∈ exchanges ((execute c command).run.history answer s),
        InScope c command (Names answer s command) x := by
      intro x hx
      obtain ⟨e, hpermits, hserves⟩ := execute_confined answer c s hnone _ _
        (returns_history answer _ s) x hx
      exact hpermits.inScope hserves
    refine ⟨hexecute, fun schedule => ?_⟩
    rw [saidIn_alone hnone]
    exact hexecute
  · have hpermits : ∀ iccids, Bulk.Lists answer file s iccids → ∀ iccid ∈ iccids, ∀ e : Errand,
        e.Activates iccid → (Command.bulkActivate file parallelism).Permits
          (Names answer s (.bulkActivate file parallelism)) e :=
      fun iccids hlist iccid hiccid => permits_of_activates _ (names_of_mem hlist iccid hiccid) rfl
    constructor
    · intro x hx
      obtain ⟨iccids, hlist, s', hmem⟩ := mem_exchanges_bulkActivate hx
      obtain ⟨e, hpermits, hserves⟩ := Bulk.activateAll_confined c (hpermits iccids hlist)
        parallelism _ _ (returns_history answer _ s') x hmem
      exact hpermits.inScope hserves
    · intro schedule x hx
      obtain ⟨iccids, hlist, hmem⟩ := mem_saidIn_bulkActivate hx
      obtain ⟨e, hpermits, hserves⟩ := Bulk.labour_confined answer c parallelism schedule _
        (hpermits iccids hlist) x hmem
      exact hpermits.inScope hserves

end Command

end ProfileAdmin
