import ProfileAdmin.Proofs.Client.Operations
import ProfileAdmin.Proofs.Client.Protocol
import ProfileAdmin.Proofs.Command.Execution

/-!
# Proofs.Command.Verdict — what the answer of a command is worth

1. **Stages**: a call, and what its reply has to bring.
2. **Output** that takes every line.
3. **Plans**: commands that go through stages answer so exactly if they pass all of them.
4. **Activations**: the status that is read last decides, not the way to it.
5. **Lists**: every entry has to be activated, in whatever order the workers take turns.
6. **Verdicts**: each answer of a command holds exactly if what it says is so.
-/

namespace ProfileAdmin.Command

open Call
open Client
open Host (Deed Effect Event Pool Program)
open Host.Program
open Profile (Activation State Status)

variable {α β σ : Type} {c : Client} {h : List Deed}

/-! ## Stages -/

/-- What a command has to get past. -/
inductive Stage where
  /-- A call has to succeed, and a query has to find its profile. -/
  | call (e : Errand)
  /-- A query has to find its profile in a state. -/
  | expect (iccid : String) (state : State)

namespace Stage

/-- The errand of a stage. -/
def errand : Stage → Errand
  | .call e => e
  | .expect iccid _ => .query iccid

/-- What the reply has to bring. A query needs the only entry to be for its profile. To recover a
profile or to cancel its order, any reply will do that can be read. An order needs a declared
success. -/
def Holds (x : Exchange) : Stage → Prop
  | .call (.query iccid) => ∃ status, x.status? = some status ∧ status.iccid = iccid
  | .call (.recover _ _) | .call (.cancel _ _) => x.execution?.isSome = true
  | .call (.download _) | .call (.confirm _) => x.Declares ExecutionStatus.success
  | .expect iccid state =>
    ∃ status, x.status? = some status ∧ status.iccid = iccid ∧ status.state = state.name

/-- The exchange is one for the errand, and its reply brings what it has to. -/
def Met (c : Client) (stage : Stage) (x : Exchange) : Prop :=
  x.Serves c stage.errand ∧ stage.Holds x

/-- What the errand has to give. -/
def Accepts : (stage : Stage) → stage.errand.Result → Prop
  | .call (.query _), found => ∃ status, found = some status
  | .call (.recover _ _), _ | .call (.cancel _ _), _ => True
  | .call (.download _), _ | .call (.confirm _), _ => True
  | .expect _ state, found => ∃ status, found = some status ∧ status.state = state.name

end Stage

/-- The replies bring what all stages have to. -/
def Passes (c : Client) (stages : List Stage) (xs : List Exchange) : Prop :=
  List.Forall₂ (Stage.Met c) stages xs

/-- A reply declares something exactly if it can be read. -/
theorem isSome_execution?_iff {op : Operation} {request : op.Request}
    {reply : Except String (List UInt8)} :
    (Exchange.execution? ⟨op, request, reply⟩).isSome = true ↔
      ∃ response, reading op reply = .ok response := by
  unfold Exchange.execution?
  cases reading op reply <;> simp [Except.toOption]

/-- An order is in order exactly if its reply can be read and declares success. -/
theorem holds_order_iff (op : Operation) (request : op.Request)
    (reply : Except String (List UInt8)) :
    Exchange.Declares ⟨op, request, reply⟩ ExecutionStatus.success ↔
      ∃ response, (reading op reply).bind (declared op) = .ok response := by
  rcases bind_declared op request reply with ⟨hsuccess, hok⟩ | ⟨hrefused, e, herror⟩
  · exact iff_of_true hsuccess hok
  · refine iff_of_false hrefused ?_
    rintro ⟨response, hok⟩
    rw [herror] at hok
    cases hok

/-- The reply brings what it has to exactly if the errand gives what it has to. -/
theorem Stage.holds_iff (c : Client) (stage : Stage) (callId : String)
    (reply : Except String (List UInt8)) :
    stage.Holds ⟨stage.errand.op, stage.errand.request ⟨c.requester, callId⟩, reply⟩ ↔
      ∃ v, (reading stage.errand.op reply).bind stage.errand.conclude = .ok v ∧
        stage.Accepts v := by
  -- A recovery and a cancellation give any response that can be read.
  have hread : ∀ {op : Operation} (request : op.Request),
      (Exchange.execution? ⟨op, request, reply⟩).isSome = true ↔
        ∃ v, (reading op reply).bind .ok = .ok v ∧ True := by
    intro op request
    rw [isSome_execution?_iff]
    cases reading op reply with
    | error e =>
        constructor
        · rintro ⟨response, hresponse⟩
          cases hresponse
        · rintro ⟨v, hv, -⟩
          cases hv
    | ok response => exact iff_of_true ⟨response, rfl⟩ ⟨response, rfl, trivial⟩
  have horder : ∀ {op : Operation} (request : op.Request),
      Exchange.Declares ⟨op, request, reply⟩ ExecutionStatus.success ↔
        ∃ v, (reading op reply).bind (declared op) = .ok v ∧ True := by
    intro op request
    simp only [holds_order_iff, and_true]
  cases stage with
  | call e =>
      cases e with
      | query iccid =>
          constructor
          · rintro ⟨status, hentry⟩
            exact ⟨some status, query_eq_some_iff.mpr hentry, status, rfl⟩
          · rintro ⟨_, hgiven, status, rfl⟩
            exact ⟨status, query_eq_some_iff.mp hgiven⟩
      | recover iccid target => exact hread _
      | cancel iccid target => exact hread _
      | download iccid => exact horder _
      | confirm iccid => exact horder _
  | expect iccid state =>
      constructor
      · rintro ⟨status, hstatus, hsame, hstate⟩
        exact ⟨some status, query_eq_some_iff.mpr ⟨hstatus, hsame⟩, status, rfl, hstate⟩
      · rintro ⟨_, hgiven, status, rfl, hstate⟩
        obtain ⟨hstatus, hsame⟩ := query_eq_some_iff.mp hgiven
        exact ⟨status, hstatus, hsame, hstate⟩

/-- Going about the errand of a stage. -/
theorem Stage.goes (c : Client) {stage : Stage} {q : Except Client.Error stage.errand.Result}
    (hgoes : stage.errand.Goes c h q) :
    (∃ x v, exchanges h = [x] ∧ q = .ok v ∧ (stage.Met c x ↔ stage.Accepts v)) ∨
      ((∃ e, q = .error e) ∧ ∀ x ∈ exchanges h, ¬ stage.Met c x) := by
  rcases hgoes with reason | ⟨undrawn, said⟩
  · exact Or.inr ⟨⟨_, rfl⟩, fun x hx => absurd hx List.not_mem_nil⟩
  · rw [exchanges_drawing, said]
    rename_i d h reply
    have hholds := stage.holds_iff c d.identifier reply
    cases hq : (reading stage.errand.op reply).bind stage.errand.conclude with
    | error e =>
        refine Or.inr ⟨⟨e, rfl⟩, fun x hx hmet => ?_⟩
        obtain rfl := List.mem_singleton.mp hx
        obtain ⟨v, hv, -⟩ := hholds.mp hmet.2
        rw [hq] at hv
        cases hv
    | ok v =>
        refine Or.inl ⟨_, v, rfl, rfl, fun hmet => ?_, fun haccepts => ?_⟩
        -- An errand gives one thing only.
        · obtain ⟨v', hv', haccepts⟩ := hholds.mp hmet.2
          rw [hq] at hv'
          cases hv'
          exact haccepts
        · exact ⟨⟨_, _, rfl⟩, hholds.mpr ⟨v, hq, haccepts⟩⟩

/-! ## Output -/

/-- Every line of output was taken. -/
def Unhindered (h : List Deed) : Prop :=
  ∀ line reason, printing line (.error reason) ∉ h

/-- The output takes what is written in two parts if it takes both. -/
theorem unhindered_append {h₁ h₂ : List Deed} :
    Unhindered (h₁ ++ h₂) ↔ Unhindered h₁ ∧ Unhindered h₂ := by
  simp only [Unhindered, List.mem_append, not_or, forall_and]

/-- The output takes every line. -/
def TakesOutput (answer : (e : Effect) → σ → e.Answer × σ) : Prop :=
  ∀ line s, (answer (.print line) s).1 = Except.ok ()

/-- An output that takes every line has taken all of them. -/
theorem TakesOutput.unhindered {answer : (e : Effect) → σ → e.Answer × σ}
    (htakes : TakesOutput answer) (p : Program α) (s : σ) : Unhindered (p.history answer s) := by
  induction p generalizing s with
  | done a => exact fun line reason => List.not_mem_nil
  | perform e next ih =>
      intro line reason hmem
      rcases List.mem_cons.mp hmem with heq | hlater
      · obtain rfl : Effect.print line = e := congrArg Deed.effect heq
        -- The reply to this line is not the one that a refusal would be.
        have hreply : Except.error reason = (answer (.print line) s).1 :=
          eq_of_heq (Deed.mk.inj heq).2
        rw [htakes line s] at hreply
        cases hreply
      · exact ih _ _ line reason hlater

/-- If lines are taken, a task goes on behind them. -/
theorem run_printLine_seq {answer : (e : Effect) → σ → e.Answer × σ} (htakes : TakesOutput answer)
    (line : String) (f : Unit → Task β) (s : σ) :
    (printLine line >>= f).run.run answer s = (f ()).run.run answer (answer (.print line) s).2 := by
  unfold printLine
  rw [bind_assoc, run_lift_seq]
  have hprint : (Program.print line).run answer s =
      (Except.ok (), (answer (.print line) s).2) :=
    Prod.ext (htakes line s) rfl
  rw [hprint]
  rfl

/-- And the line is in its history. -/
theorem history_printLine_seq {answer : (e : Effect) → σ → e.Answer × σ}
    (htakes : TakesOutput answer) (line : String) (f : Unit → Task β) (s : σ) :
    (printLine line >>= f).run.history answer s =
      printing line (.ok ()) :: (f ()).run.history answer (answer (.print line) s).2 := by
  unfold printLine
  rw [bind_assoc, history_lift_seq]
  have hprint : (Program.print line).run answer s =
      (Except.ok (), (answer (.print line) s).2) :=
    Prod.ext (htakes line s) rfl
  have hdeed : (Program.print line).history answer s = [printing line (.ok ())] :=
    congrArg (fun reply => [printing line reply]) (htakes line s)
  rw [hprint, hdeed]
  rfl

/-! ## Plans -/

/-- If all output is taken, a command answers yes if all stages are passed, and fails otherwise. -/
def Planned (c : Client) (stages : List Stage) (t : Task Bool) : Prop :=
  ∀ h r, Program.Returns t.run h r → Unhindered h →
    (r = .ok true ∧ Passes c stages (exchanges h)) ∨
      ((∃ e, r = .error e) ∧ ¬ Passes c stages (exchanges h))

/-- Whatever happens, a command fails. -/
def Fails (t : Task α) : Prop :=
  ∀ h r, Program.Returns t.run h r → ∃ e, r = .error e

theorem fails_throw (e : Error) : Fails (throw e : Task α) := by
  intro h r hr
  obtain ⟨-, rfl⟩ := returns_throw_iff.mp hr
  exact ⟨e, rfl⟩

/-- Nothing that comes later saves a task that fails. -/
theorem Fails.seq {t : Task α} (ht : Fails t) (f : α → Task β) : Fails (t >>= f) := by
  intro h r hr
  rcases returns_seq_iff.mp hr with ⟨e, rfl, -⟩ | ⟨h₁, h₂, a, -, hfirst, -⟩
  · exact ⟨e, rfl⟩
  · obtain ⟨e, he⟩ := ht h₁ _ hfirst
    cases he

/-- A task fails if all that it could go on with does. -/
theorem fails_seq (t : Task α) {f : α → Task β} (hf : ∀ a, Fails (f a)) : Fails (t >>= f) := by
  intro h r hr
  rcases returns_seq_iff.mp hr with ⟨e, rfl, -⟩ | ⟨h₁, h₂, a, -, -, hrest⟩
  · exact ⟨e, rfl⟩
  · exact hf a h₂ r hrest

theorem planned_done : Planned c [] (pure true) := by
  intro h r hr _
  obtain ⟨rfl, rfl⟩ := returns_pure_iff.mp hr
  exact Or.inl ⟨rfl, List.Forall₂.nil⟩

variable {stages : List Stage}

/-- A line is no stage. -/
theorem planned_line {line : String} {t : Task Bool} (ht : Planned c stages t) :
    Planned c stages (printLine line >>= fun _ => t) := by
  intro h r hr htaken
  rcases returns_seq_iff.mp hr with ⟨e, rfl, hprint⟩ | ⟨h₁, h₂, u, rfl, hprint, hrest⟩
  · obtain ⟨reply, rfl, hreply⟩ := returns_printLine_iff.mp hprint
    cases reply with
    | error reason => exact absurd List.mem_cons_self (htaken line reason)
    | ok u => cases hreply
  · obtain ⟨reply, rfl, -⟩ := returns_printLine_iff.mp hprint
    exact ht h₂ r hrest (unhindered_append.mp htaken).2

theorem planned_note {e : Event} {t : Task Bool} (ht : Planned c stages t) :
    Planned c stages (ExceptT.lift (note e) >>= fun _ => t) := by
  intro h r hr htaken
  obtain ⟨h₁, h₂, u, rfl, hnote, hrest⟩ := returns_lift_seq_iff.mp hr
  rw [exchanges_append, (silent_note hnote).exchanges_eq, List.nil_append]
  exact ht h₂ r hrest (unhindered_append.mp htaken).2

/-- A command goes about an errand. It goes on with what the errand has to give, and fails with
anything else. -/
theorem planned_stage (stage : Stage) {f : stage.errand.Result → Task Bool}
    (hon : ∀ v, stage.Accepts v → Planned c stages (f v))
    (hoff : ∀ v, ¬ stage.Accepts v → Fails (f v)) :
    Planned c (stage :: stages) (attempt (stage.errand.attempt c) >>= f) := by
  intro h r hr htaken
  rcases returns_seq_iff.mp hr with ⟨e, rfl, hcall⟩ | ⟨h₁, h₂, v, rfl, hcall, hrest⟩
  · -- The call fails. Its stage is not met, so it does not matter what the others are.
    obtain ⟨q, herrand, hq⟩ := returns_attempt_iff.mp hcall
    rcases Stage.goes c (Errand.returns herrand) with ⟨x, v, -, rfl, -⟩ | ⟨-, hunmet⟩
    · cases hq
    · refine Or.inr ⟨⟨e, rfl⟩, fun hpasses => ?_⟩
      obtain ⟨x, xs, hmet, -, heq⟩ := List.forall₂_cons_left_iff.mp hpasses
      exact hunmet x (heq ▸ List.mem_cons_self) hmet
  · -- The call gives something. Its stage is met exactly if this is what it has to give.
    obtain ⟨q, herrand, hq⟩ := returns_attempt_iff.mp hcall
    rcases Stage.goes c (Errand.returns herrand) with ⟨x, v', hsaid, rfl, hmet⟩ | ⟨⟨e, rfl⟩, -⟩
    · cases hq
      have hpasses : Passes c (stage :: stages) (exchanges (h₁ ++ h₂)) ↔
          stage.Met c x ∧ Passes c stages (exchanges h₂) := by
        rw [exchanges_append, hsaid]
        exact List.forall₂_cons
      rw [hpasses, hmet]
      by_cases haccepts : stage.Accepts v
      · rcases hon v haccepts h₂ r hrest (unhindered_append.mp htaken).2 with
          ⟨rfl, hlater⟩ | ⟨hfail, hlater⟩
        · exact Or.inl ⟨rfl, haccepts, hlater⟩
        · exact Or.inr ⟨hfail, fun hboth => hlater hboth.2⟩
      · exact Or.inr ⟨hoff v haccepts h₂ r hrest, fun hboth => haccepts hboth.1⟩
    · cases hq

/-- To ask for the state is a stage that any state passes. -/
theorem planned_currentState {iccid : String} {f : String → Task Bool}
    (hf : ∀ state, Planned c stages (f state)) :
    Planned c (.call (.query iccid) :: stages) (Smoketest.currentState c iccid >>= f) := by
  unfold Smoketest.currentState
  rw [bind_assoc]
  refine planned_stage (.call (.query iccid)) (fun v haccepts => ?_) fun v hrejects => ?_
  · obtain ⟨status, rfl⟩ := haccepts
    exact hf status.state
  · cases v with
    | none => exact Fails.seq (fails_throw _) f
    | some status => exact absurd ⟨status, rfl⟩ hrejects

/-- To expect a state is a stage that this state passes. -/
theorem planned_expectState {iccid : String} {expected : State} {t : Task Bool}
    (ht : Planned c stages t) :
    Planned c (.expect iccid expected :: stages)
      (Smoketest.expectState c iccid expected >>= fun _ => t) := by
  unfold Smoketest.expectState Smoketest.currentState
  simp only [bind_assoc]
  refine planned_stage (.expect iccid expected) (fun v haccepts => ?_) fun v hrejects => ?_
  · obtain ⟨status, rfl, hstate⟩ := haccepts
    refine planned_line ?_
    rw [if_neg (not_not_intro hstate)]
    exact ht
  · cases v with
    | none => exact Fails.seq (fails_throw _) _
    | some status =>
        -- The state is shown before it is compared, but that does not save the command.
        have hstate : status.state ≠ expected.name := fun heq => hrejects ⟨status, rfl, heq⟩
        refine fails_seq (printLine _) fun _ => ?_
        rw [if_pos hstate]
        exact Fails.seq (fails_throw _) _

/-- The stages of the smoketest. -/
def smoketestStages (iccid : String) : List Stage :=
  [.call (.query iccid), .call (.recover iccid "AVAILABLE"), .call (.cancel iccid "AVAILABLE"),
    .expect iccid .available, .call (.download iccid), .expect iccid .allocated,
    .call (.confirm iccid), .expect iccid .released]

/-- The stages that a command goes through, if it is let and is one that does. -/
def plan? : Command → Option (List Stage)
  | .getStatus iccid => some [.call (.query iccid)]
  | .recoverProfile iccid target =>
    if target = "AVAILABLE" then some [.call (.recover iccid target)] else none
  | .cancelOrder iccid target =>
    if target = "AVAILABLE" then some [.call (.cancel iccid target)] else none
  | .downloadOrder iccid => some [.call (.download iccid)]
  | .confirmOrder iccid => some [.call (.confirm iccid)]
  | .activate _ | .bulkActivate _ _ => none
  | .smoketest iccid => some (smoketestStages iccid)

/-- A call that always gives what it has to. -/
theorem planned_call (e : Errand) {f : e.Result → Task Bool}
    (haccepts : ∀ v, (Stage.call e).Accepts v) (hf : ∀ v, Planned c stages (f v)) :
    Planned c (.call e :: stages) (attempt (e.attempt c) >>= f) :=
  planned_stage (.call e) (fun v _ => hf v) fun v hrejects => absurd (haccepts v) hrejects

/-- The smoketest goes through its eight stages. -/
theorem smoketest_planned (c : Client) (iccid : String) :
    Planned c (smoketestStages iccid) (execute c (.smoketest iccid)) := by
  rw [execute]
  unfold Smoketest.run
  simp only [bind_assoc]
  refine planned_currentState fun initial => planned_line ?_
  refine planned_call (.recover iccid State.available.name) (fun _ => trivial) fun recovered => ?_
  refine planned_line ?_
  refine planned_call (.cancel iccid State.available.name) (fun _ => trivial) fun cancelled => ?_
  refine planned_line (planned_expectState ?_)
  refine planned_call (.download iccid) (fun _ => trivial) fun _ => ?_
  refine planned_line (planned_expectState ?_)
  refine planned_call (.confirm iccid) (fun _ => trivial) fun _ => ?_
  refine planned_line (planned_expectState ?_)
  exact planned_note (planned_line planned_done)

/-- A command does what is planned, and fails if nothing is. -/
def Follows (c : Client) (plan : Option (List Stage)) (t : Task Bool) : Prop :=
  match plan with
  | some stages => Planned c stages t
  | none => Fails t

/-- With any other target, a command gets no further than to look at it. -/
theorem follows_requireTarget {target : String} {t : Task Bool}
    (ht : target = "AVAILABLE" → Planned c stages t) :
    Follows c (if target = "AVAILABLE" then some stages else none)
      (requireTarget target >>= fun _ => t) := by
  by_cases htarget : target = "AVAILABLE"
  · rw [if_pos htarget]
    have hplanned := ht htarget
    subst htarget
    exact hplanned
  · rw [if_neg htarget, requireTarget_other htarget]
    exact Fails.seq (fails_throw _) _

/-- The commands that do not activate follow their plans. -/
theorem execute_follows (c : Client) {command : Command}
    (hactivate : ∀ iccid, command ≠ .activate iccid) (hbulk : command.parallelism? = none) :
    Follows c command.plan? (execute c command) := by
  cases command with
  | getStatus iccid =>
      refine planned_stage (.call (.query iccid)) (fun v haccepts => ?_) fun v hrejects => ?_
      · obtain ⟨status, rfl⟩ := haccepts
        exact planned_line planned_done
      · cases v with
        | none => exact fails_throw _
        | some status => exact absurd ⟨status, rfl⟩ hrejects
  -- An unknown target fails before anything is sent, and then there is no plan.
  | recoverProfile iccid target =>
      refine follows_requireTarget fun _ => ?_
      exact planned_call (.recover iccid target) (fun _ => trivial) fun response =>
        planned_line planned_done
  | cancelOrder iccid target =>
      refine follows_requireTarget fun _ => ?_
      exact planned_call (.cancel iccid target) (fun _ => trivial) fun response =>
        planned_line planned_done
  | downloadOrder iccid =>
      exact planned_call (.download iccid) (fun _ => trivial) fun response =>
        planned_line planned_done
  | confirmOrder iccid =>
      refine planned_call (.confirm iccid) (fun _ => trivial) fun response => planned_line ?_
      split
      · exact planned_line planned_done
      · exact planned_done
  | activate iccid => exact absurd rfl (hactivate iccid)
  | bulkActivate file parallelism => cases hbulk
  | smoketest iccid => exact smoketest_planned c iccid

/-! ## Activations -/

/-- An activation comes to its end, and a status is what it reads last. -/
structure EndsWith (c : Client) (iccid : String) (h : List Deed) (status : Status) : Prop where
  ended : ∃ a : Activation, Program.Returns (c.activate iccid).run h (.ok a) ∧ a.status = status
  reread : reported? (exchanges h) = some status

/-- An activation comes to its end, and the status that it reads last has a token. -/
def Activated (c : Client) (iccid : String) (h : List Deed) : Prop :=
  ∃ status, EndsWith c iccid h status ∧ status.token ≠ ""

theorem endsWith_of_returns {iccid : String} {a : Activation}
    (hr : Program.Returns (c.activate iccid).run h (.ok a)) : EndsWith c iccid h a.status :=
  ⟨⟨a, hr, rfl⟩, (activate_returns hr).complete.reread⟩

/-- What an activation ends with is in what it returns. -/
theorem EndsWith.eq {iccid : String} {later : List Deed} {status : Status}
    {q : Except Client.Error Activation} (hends : EndsWith c iccid (h ++ later) status)
    (hr : Program.Returns (c.activate iccid).run h q) : ∃ a, q = .ok a ∧ a.status = status := by
  obtain ⟨a, ha, rfl⟩ := hends.ended
  obtain ⟨-, heq⟩ := ha.unique hr (List.append_nil _)
  exact ⟨a, heq.symm, rfl⟩

/-- The status that is read last is the one that is given. -/
theorem endsWith_iff {iccid : String} {q : Except Client.Error Activation}
    (hr : Program.Returns (c.activate iccid).run h q) (status : Status) :
    EndsWith c iccid h status ↔ ∃ a, q = .ok a ∧ a.status = status := by
  constructor
  · intro hends
    exact EndsWith.eq (by rwa [List.append_nil]) hr
  · rintro ⟨a, rfl, rfl⟩
    exact endsWith_of_returns hr

theorem isActivated_iff {status : Status} : status.isActivated = true ↔ status.token ≠ "" := by
  simp [Status.isActivated]

/-- Nothing but the status that is read last decides. -/
theorem activated_iff {iccid : String} {later : List Deed} {q : Except Client.Error Activation}
    (hr : Program.Returns (c.activate iccid).run h q) (hlater : ∀ a, q = .ok a → later = []) :
    Activated c iccid (h ++ later) ↔ ∃ a, q = .ok a ∧ a.isActivated = true := by
  constructor
  · rintro ⟨status, hends, htoken⟩
    obtain ⟨a, hok, rfl⟩ := hends.eq hr
    exact ⟨a, hok, isActivated_iff.mpr htoken⟩
  · rintro ⟨a, rfl, htoken⟩
    rw [hlater a rfl, List.append_nil]
    exact ⟨a.status, endsWith_of_returns hr, isActivated_iff.mp htoken⟩

/-- The answer of an activation is whether its status has a token. -/
theorem activate_run {answer : (e : Effect) → σ → e.Answer × σ} (htakes : TakesOutput answer)
    (c : Client) (iccid : String) (s : σ) :
    ((execute c (.activate iccid)).run.run answer s).1 =
      (((c.activate iccid).run.run answer s).1.mapError Error.client).map
        Activation.isActivated := by
  rw [execute, run_attempt_seq]
  rcases (c.activate iccid).run.run answer s with ⟨e | a, s'⟩
  · rfl
  · dsimp only
    rw [run_printLine_seq htakes]
    -- A missing token is noted, but the answer is the same with and without the note.
    cases htoken : a.isActivated with
    | true =>
        rw [if_pos rfl]
        exact congrArg Except.ok htoken.symm
    | false =>
        rw [if_neg Bool.false_ne_true, run_lift_seq]
        exact congrArg Except.ok htoken.symm

/-! ## Lists -/

/-- What holds of all outcomes does not depend on their order. -/
theorem outcomes_all (p : Pool α) (f : α → Bool) :
    p.outcomes.all f = p.results.all fun x => f x.2 := by
  rw [Pool.outcomes, List.all_map]
  exact (List.mergeSort_perm _ _).all_eq

namespace Bulk

variable {answer : (e : Effect) → σ → e.Answer × σ} {iccids : List String} {parallelism : Nat}
  {schedule : List Nat} {s : σ}

/-- Every entry of a list is activated by what is done for it. -/
def AllActivated (answer : (e : Effect) → σ → e.Answer × σ) (c : Client) (iccids : List String)
    (parallelism : Nat) (schedule : List Nat) (s : σ) : Prop :=
  ∀ i (hi : i < iccids.length),
    Activated c iccids[i] (Pool.doneFor i (labour answer c iccids parallelism schedule s))

/-- An outcome tells whether its entry is activated. -/
theorem isActivated_iff_of_returns {iccid : String} {o : Outcome}
    (hr : (activateOne c iccid).Returns h o) : o.isActivated = true ↔ Activated c iccid h := by
  rw [activateOne_eq] at hr
  obtain ⟨h₁, h₂, result, rfl, hactivate, hrest⟩ := returns_bind_iff.mp hr
  obtain ⟨h₃, h₄, u, rfl, hnote, hdone⟩ := returns_bind_iff.mp hrest
  obtain ⟨rfl, rfl⟩ := returns_done_iff.mp hdone
  -- Only a failure is followed by a note, and then the entry is not activated anyway.
  have hlater : ∀ a, result = .ok a → h₃ ++ [] = [] := by
    rintro a rfl
    obtain ⟨rfl, -⟩ := returns_done_iff.mp hnote
    rfl
  rw [activated_iff hactivate hlater]
  cases result with
  | error e => simp [Outcome.isActivated]
  | ok a => simp [Outcome.isActivated]

/-- All outcomes are activations exactly if all entries are activated. -/
theorem all_isActivated_iff (hpar : 0 < parallelism)
    (hover : (Pool.run answer schedule (pool c iccids parallelism)
      (begun iccids parallelism answer s)).1.isOver = true) :
    (Pool.run answer schedule (pool c iccids parallelism)
        (begun iccids parallelism answer s)).1.outcomes.all Outcome.isActivated = true ↔
      AllActivated answer c iccids parallelism schedule s := by
  obtain ⟨hlength, hreturns⟩ := outcomes_returns hpar hover
  generalize (Pool.run answer schedule (pool c iccids parallelism)
    (begun iccids parallelism answer s)).1.outcomes = outcomes at *
  rw [List.all_eq_true]
  constructor
  · intro hall i hi
    have hi' : i < outcomes.length := hlength.symm ▸ hi
    have hr := hreturns i hi _ (List.getElem?_eq_getElem hi')
    exact (isActivated_iff_of_returns hr).mp (hall _ (List.getElem_mem hi'))
  · -- There is no outcome without an entry.
    intro hall o ho
    obtain ⟨i, hi', rfl⟩ := List.getElem_of_mem ho
    have hi : i < iccids.length := hlength ▸ hi'
    have hr := hreturns i hi _ (List.getElem?_eq_getElem hi')
    exact (isActivated_iff_of_returns hr).mpr (hall i hi)

/-- If the output takes every line, those of all outcomes are written before a command goes on. -/
theorem printLines_seq (htakes : TakesOutput answer) (outcomes : List Outcome)
    (f : Unit → Task β) (s : σ) : ∃ s',
      ((outcomes.forM fun o => printLine o.line) >>= f).run.run answer s =
        (f ()).run.run answer s' ∧
      ((outcomes.forM fun o => printLine o.line) >>= f).run.history answer s =
        (outcomes.map fun o => printing o.line (.ok ())) ++ (f ()).run.history answer s' := by
  induction outcomes generalizing s with
  | nil => exact ⟨s, rfl, rfl⟩
  | cons o outcomes ih =>
      have hcons : ((o :: outcomes).forM fun o => printLine o.line) =
          printLine o.line >>= fun _ => outcomes.forM fun o => printLine o.line := rfl
      obtain ⟨s', hrun, hhistory⟩ := ih (answer (.print o.line) s).2
      refine ⟨s', ?_, ?_⟩
      · rw [hcons, bind_assoc, run_printLine_seq htakes, hrun]
      · rw [hcons, bind_assoc, history_printLine_seq htakes, hhistory]
        rfl

/-- A report says whether all outcomes are activations. -/
theorem report_run (htakes : TakesOutput answer) (outcomes : List Outcome) :
    ((report outcomes).run.run answer s).1 = .ok (outcomes.all Outcome.isActivated) := by
  have hfailed : (outcomes.countP (fun o => !o.isActivated) == 0) =
      outcomes.all Outcome.isActivated := by
    rw [Bool.eq_iff_iff, beq_iff_eq, List.countP_eq_zero, List.all_eq_true]
    simp
  unfold report
  obtain ⟨s', hrun, -⟩ := printLines_seq htakes outcomes _ s
  rw [hrun, run_lift_seq]
  exact congrArg Except.ok hfailed

end Bulk

/-! ## Verdicts -/

variable {answer : (e : Effect) → σ → e.Answer × σ} {schedule : List Nat} {s : σ}
  {r : Except Error Bool}

/-- All is reached that a command asks for. -/
def Reached (answer : (e : Effect) → σ → e.Answer × σ) (c : Client) (schedule : List Nat) (s : σ) :
    Command → Prop
  | .activate iccid => Activated c iccid ((c.activate iccid).run.history answer s)
  | .bulkActivate file parallelism =>
    ∃ iccids, Bulk.Lists answer file s iccids ∧
      Bulk.AllActivated answer c iccids parallelism schedule (answer (.fileBytes file) s).2
  | command =>
    ∃ stages, command.plan? = some stages ∧
      Passes c stages (exchanges ((execute c command).run.history answer s))

/-- An activation came to its end without a token, or some entry of a list is not activated. -/
def Missed (answer : (e : Effect) → σ → e.Answer × σ) (c : Client) (schedule : List Nat) (s : σ) :
    Command → Prop
  | .activate iccid =>
    ∃ status, EndsWith c iccid ((c.activate iccid).run.history answer s) status ∧
      status.token = ""
  | .bulkActivate file parallelism =>
    ∃ iccids, Bulk.Lists answer file s iccids ∧ ∃ i, ∃ hi : i < iccids.length,
      ¬ Activated c iccids[i] (Pool.doneFor i
        (Bulk.labour answer c iccids parallelism schedule (answer (.fileBytes file) s).2))
  | _ => False

/-- What an answer says is so. -/
structure Truthful (r : Except Error Bool) (reached missed : Prop) : Prop where
  yes_iff : r = .ok true ↔ reached
  no_iff : r = .ok false ↔ missed

/-- A failure says neither that all is reached nor that something is missed. -/
theorem truthful_of_error {reached missed : Prop} (hfail : ∃ e, r = .error e)
    (hreached : ¬ reached) (hmissed : ¬ missed) : Truthful r reached missed := by
  obtain ⟨e, rfl⟩ := hfail
  exact ⟨iff_of_false nofun hreached, iff_of_false nofun hmissed⟩

theorem truthful_of_ok {b : Bool} {reached missed : Prop} (hyes : b = true ↔ reached)
    (hno : missed ↔ ¬ reached) : Truthful (.ok b) reached missed := by
  constructor
  · rw [← hyes, Except.ok.injEq]
  · rw [hno, ← hyes, Bool.not_eq_true, Except.ok.injEq]

/-- What goes through stages answers truthfully. -/
theorem truthful_of_planned {stages : List Stage} {t : Task Bool} (ht : Planned c stages t)
    (hr : Program.Returns t.run h r) (htaken : Unhindered h) :
    Truthful r (Passes c stages (exchanges h)) False := by
  rcases ht h r hr htaken with ⟨rfl, hpasses⟩ | ⟨hfail, hpasses⟩
  · exact ⟨iff_of_true rfl hpasses, iff_of_false nofun id⟩
  · exact truthful_of_error hfail hpasses id

/-- An activation answers truthfully. -/
theorem activate_truthful (htakes : TakesOutput answer) (c : Client) (schedule : List Nat)
    (iccid : String) :
    Truthful ((execute c (.activate iccid)).run.run answer s).1
      (Reached answer c schedule s (.activate iccid))
      (Missed answer c schedule s (.activate iccid)) := by
  have hends := endsWith_iff (returns_history answer (c.activate iccid).run s)
  rw [activate_run htakes]
  unfold Reached Missed Activated
  simp only [hends]
  cases ((c.activate iccid).run.run answer s).1 with
  | error e =>
      refine truthful_of_error ⟨_, rfl⟩ ?_ ?_
      · rintro ⟨status, ⟨a, hok, -⟩, -⟩
        cases hok
      · rintro ⟨status, ⟨a, hok, -⟩, -⟩
        cases hok
  | ok a =>
      refine truthful_of_ok ?_ ?_
      · rw [Activation.isActivated, isActivated_iff]
        simp
      · simp

section

variable {file : String} {parallelism : Nat} {iccids : List String}

theorem reached_iff_of_lists (hlist : Bulk.Lists answer file s iccids) :
    Reached answer c schedule s (.bulkActivate file parallelism) ↔
      Bulk.AllActivated answer c iccids parallelism schedule (answer (.fileBytes file) s).2 := by
  constructor
  · rintro ⟨iccids', hlist', hall⟩
    rwa [hlist.unique hlist']
  · exact fun hall => ⟨iccids, hlist, hall⟩

theorem missed_iff_of_lists (hlist : Bulk.Lists answer file s iccids) :
    Missed answer c schedule s (.bulkActivate file parallelism) ↔
      ¬ Bulk.AllActivated answer c iccids parallelism schedule (answer (.fileBytes file) s).2 := by
  unfold Bulk.AllActivated
  simp only [not_forall]
  constructor
  · rintro ⟨iccids', hlist', hsome⟩
    obtain rfl := hlist.unique hlist'
    exact hsome
  · exact fun hsome => ⟨iccids, hlist, hsome⟩

/-- So does a bulk activation, under any schedule. -/
theorem bulkActivate_truthful (htakes : TakesOutput answer) (hpar : 0 < parallelism)
    (hr : (executeIn answer c schedule (.bulkActivate file parallelism) s).1 = some r) :
    Truthful r (Reached answer c schedule s (.bulkActivate file parallelism))
      (Missed answer c schedule s (.bulkActivate file parallelism)) := by
  by_cases hlist : ∃ iccids, Bulk.Lists answer file s iccids
  · obtain ⟨iccids, hlist⟩ := hlist
    rw [executeIn_listed hlist] at hr
    dsimp only at hr
    -- There is an answer only if all workers have left.
    split at hr
    case isTrue hover =>
      obtain rfl := Option.some.inj hr
      rw [Bulk.report_run htakes]
      refine truthful_of_ok ?_ ?_
      · rw [reached_iff_of_lists hlist]
        exact Bulk.all_isActivated_iff hpar hover
      · rw [reached_iff_of_lists hlist, missed_iff_of_lists hlist]
    case isFalse => cases hr
  · rw [executeIn_unlisted (fun iccids h => hlist ⟨iccids, h⟩)] at hr
    obtain rfl := Option.some.inj hr
    refine truthful_of_error ⟨_, rfl⟩ ?_ ?_
    · rintro ⟨iccids, hlist', -⟩
      exact hlist ⟨iccids, hlist'⟩
    · rintro ⟨iccids, hlist', -⟩
      exact hlist ⟨iccids, hlist'⟩

end

/-- A command that goes through stages, or would if it were let. -/
theorem staged_truthful (htakes : TakesOutput answer) {command : Command}
    (hactivate : ∀ iccid, command ≠ .activate iccid) (hbulk : command.parallelism? = none) :
    Truthful ((execute c command).run.run answer s).1 (Reached answer c schedule s command)
      (Missed answer c schedule s command) := by
  have hr := returns_history answer (execute c command).run s
  have hreached : Reached answer c schedule s command ↔ ∃ stages, command.plan? = some stages ∧
      Passes c stages (exchanges ((execute c command).run.history answer s)) := by
    cases command with
    | activate iccid => exact absurd rfl (hactivate iccid)
    | bulkActivate file parallelism => cases hbulk
    | getStatus | recoverProfile | cancelOrder | downloadOrder | confirmOrder | smoketest =>
        exact Iff.rfl
  have hmissed : Missed answer c schedule s command ↔ False := by
    cases command with
    | activate iccid => exact absurd rfl (hactivate iccid)
    | bulkActivate file parallelism => cases hbulk
    | getStatus | recoverProfile | cancelOrder | downloadOrder | confirmOrder | smoketest =>
        exact Iff.rfl
  rw [hreached, hmissed]
  have hfollows := execute_follows c hactivate hbulk
  -- Without a plan nothing is reached, and the command fails.
  cases hplan : command.plan? with
  | none =>
      rw [hplan] at hfollows
      refine truthful_of_error (hfollows _ _ hr) ?_ id
      rintro ⟨stages, hsome, -⟩
      cases hsome
  | some stages =>
      rw [hplan] at hfollows
      have hpasses := truthful_of_planned hfollows hr (htakes.unhindered _ s)
      simpa using hpasses

/-- If the output takes every line, the answer of a command is yes exactly if all is reached that it
asks for, and no exactly if a profile is left without a token, in whatever order its workers take
turns. If all turns are fair, there is an answer. To execute a command is one of the orders. There
are workers for a list, as every command line gives it some. -/
theorem execute_truthful (c : Client) (command : Command)
    (hworkers : ∀ n ∈ command.parallelism?, 0 < n) (answer : (e : Effect) → σ → e.Answer × σ)
    (htakes : TakesOutput answer) (s : σ) :
    (∀ schedule r, (executeIn answer c schedule command s).1 = some r →
      Truthful r (Reached answer c schedule s command) (Missed answer c schedule s command)) ∧
    (∀ turns : Nat → Nat, (∀ n ∈ command.parallelism?, Pool.Fair n turns) →
      ∃ n r, (executeIn answer c ((List.range n).map turns) command s).1 = some r) ∧
    ∃ schedule, executeIn answer c schedule command s =
      (some ((execute c command).run.run answer s).1,
        ((execute c command).run.run answer s).2) := by
  refine ⟨fun schedule r hr => ?_,
    fun turns hfair => exists_executeIn_eq_some c command answer s hfair,
    exists_schedule_execute c command hworkers answer s⟩
  rcases command.eq_bulkActivate_or with hnone | ⟨file, parallelism, rfl⟩
  · rw [executeIn_alone hnone] at hr
    obtain rfl := Option.some.inj hr
    by_cases hactivate : ∃ iccid, command = .activate iccid
    · obtain ⟨iccid, rfl⟩ := hactivate
      exact activate_truthful htakes c schedule iccid
    · exact staged_truthful htakes (fun iccid heq => hactivate ⟨iccid, heq⟩) hnone
  · exact bulkActivate_truthful htakes (hworkers parallelism rfl) hr

/-- Nothing happens around the endpoint, but there is a list of two profiles. -/
def listing : (e : Effect) → Unit → e.Answer × Unit
  | .fileBytes _, _ =>
    (.ok (Text.Utf8.encode "8965030119040000067\n8965030119040000075\n".toList), ())
  | e, u => still e u

/-- The endpoint gives no reply about one of the two profiles, and two workers take turns. The
answer is no, and this is so. -/
theorem execute_truthful_pair :
    (∀ n ∈ (Command.bulkActivate "iccids.txt" 2).parallelism?, 0 < n) ∧
      TakesOutput (served script listing) ∧
      (executeIn (served script listing) ⟨"ACME", ⟨false, false⟩⟩
          ((List.range 40).map fun n => n % 2) (.bulkActivate "iccids.txt" 2)
          (Bulk.silentAbout "8965030119040000067", ())).1 = some (.ok false) ∧
      Truthful (.ok false)
        (Reached (served script listing) ⟨"ACME", ⟨false, false⟩⟩
          ((List.range 40).map fun n => n % 2) (Bulk.silentAbout "8965030119040000067", ())
          (.bulkActivate "iccids.txt" 2))
        (Missed (served script listing) ⟨"ACME", ⟨false, false⟩⟩
          ((List.range 40).map fun n => n % 2) (Bulk.silentAbout "8965030119040000067", ())
          (.bulkActivate "iccids.txt" 2)) := by
  have hworkers : ∀ n ∈ (Command.bulkActivate "iccids.txt" 2).parallelism?, 0 < n := by
    rintro _ ⟨⟩
    decide
  have htakes : TakesOutput (served script listing) := fun line (states, u) => rfl
  have hlist : Bulk.Lists (served script listing) "iccids.txt"
      (Bulk.silentAbout "8965030119040000067", ())
      ["8965030119040000067", "8965030119040000075"] :=
    ⟨_, "8965030119040000067\n8965030119040000075\n", rfl, by decide +kernel, by decide +kernel⟩
  have hanswer : (executeIn (served script listing) ⟨"ACME", ⟨false, false⟩⟩
      ((List.range 40).map fun n => n % 2) (.bulkActivate "iccids.txt" 2)
      (Bulk.silentAbout "8965030119040000067", ())).1 = some (.ok false) := by
    rw [executeIn_listed hlist]
    dsimp only
    rw [if_pos (by decide +kernel), Bulk.report_run htakes, outcomes_all]
    exact congrArg (fun b => some (Except.ok b)) (by decide +kernel)
  exact ⟨hworkers, htakes, hanswer, (execute_truthful ⟨"ACME", ⟨false, false⟩⟩
    (.bulkActivate "iccids.txt" 2) hworkers _ htakes
    (Bulk.silentAbout "8965030119040000067", ())).1 _ _ hanswer⟩

end ProfileAdmin.Command
