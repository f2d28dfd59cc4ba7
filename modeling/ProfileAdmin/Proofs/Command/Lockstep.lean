import ProfileAdmin.Proofs.Command.Output
import ProfileAdmin.Proofs.Command.Verdict

/-!
# Proofs.Command.Lockstep — the smoketest and its output

1. **Sights**: what can be seen of a command, in order. These are the requests with their replies
   and the lines with what comes of them.
2. **News**: what the smoketest tells of an exchange that is completed.
3. **Walks**: how the smoketest can go on its way through its stages. Every stage is one exchange,
   and the line that tells of it. Whatever goes wrong ends the walk.
4. **Programs** that walk.
5. **Laws of walks**: each holds of every walk, by one case for each way that it can go.
6. **Lockstep**: what follows for the requests, the lines and the result of the smoketest.
-/

namespace ProfileAdmin.Command

open Call
open Client
open Host (Deed Effect Event Program)
open Host.Program
open Profile (State Status)

variable {α : Type} {c : Client} {h : List Deed}

/-! ## Sights -/

/-- What can be seen of a command: a request with its reply, or a line with what comes of it. -/
inductive Sight where
  | said (x : Exchange)
  | shown (line : String) (reply : Except String Unit)

/-- What can be seen of a deed. -/
def sight? : Deed → Option Sight
  | ⟨.exchange op r, reply⟩ => some (.said ⟨op, r, reply⟩)
  | ⟨.print line, reply⟩ => some (.shown line reply)
  | _ => none

/-- What can be seen of a history. -/
def sights (h : List Deed) : List Sight :=
  h.filterMap sight?

/-- The exchange in a sight. -/
def Sight.exchange? : Sight → Option Exchange
  | .said x => some x
  | .shown _ _ => none

/-- The line in a sight. -/
def Sight.line? : Sight → Option (String × Except String Unit)
  | .said _ => none
  | .shown line reply => some (line, reply)

/-- The exchanges that are seen. -/
def said (seen : List Sight) : List Exchange :=
  seen.filterMap Sight.exchange?

/-- The lines that are seen. -/
def shown (seen : List Sight) : List (String × Except String Unit) :=
  seen.filterMap Sight.line?

@[simp] theorem said_nil : said [] = [] := rfl

@[simp] theorem said_said (x : Exchange) (seen : List Sight) :
    said (.said x :: seen) = x :: said seen := rfl

@[simp] theorem said_shown (line : String) (reply : Except String Unit) (seen : List Sight) :
    said (.shown line reply :: seen) = said seen := rfl

@[simp] theorem shown_nil : shown [] = [] := rfl

@[simp] theorem shown_said (x : Exchange) (seen : List Sight) :
    shown (.said x :: seen) = shown seen := rfl

@[simp] theorem shown_shown (line : String) (reply : Except String Unit) (seen : List Sight) :
    shown (.shown line reply :: seen) = (line, reply) :: shown seen := rfl

@[simp] theorem sights_append (h₁ h₂ : List Deed) : sights (h₁ ++ h₂) = sights h₁ ++ sights h₂ :=
  List.filterMap_append

/-- A deed is an exchange exactly if that is what is seen of it. -/
theorem sight?_exchange? (d : Deed) : (sight? d).bind Sight.exchange? = exchange? d := by
  obtain ⟨e, reply⟩ := d
  cases e <;> rfl

/-- So it is with lines. -/
theorem sight?_line? (d : Deed) : (sight? d).bind Sight.line? = line? d := by
  obtain ⟨e, reply⟩ := d
  cases e <;> rfl

/-- The exchanges that are seen are those of the history. -/
theorem said_sights (h : List Deed) : said (sights h) = exchanges h := by
  unfold said sights exchanges
  rw [List.filterMap_filterMap]
  exact congrArg (List.filterMap · h) (funext sight?_exchange?)

/-- The lines that are seen are those of the history. -/
theorem shown_sights (h : List Deed) : shown (sights h) = lines h := by
  unfold shown sights lines
  rw [List.filterMap_filterMap]
  exact congrArg (List.filterMap · h) (funext sight?_line?)

/-- Where no lines are seen, there are only exchanges to be seen. -/
theorem eq_map_said_of_shown {seen : List Sight} (hnone : shown seen = []) :
    seen = (said seen).map Sight.said := by
  induction seen with
  | nil => rfl
  | cons sight seen ih =>
      cases sight with
      | said x => exact congrArg (List.cons _) (ih hnone)
      | shown line reply => cases hnone

/-- Of what writes nothing, only the exchanges are seen. -/
theorem sights_of_wordless {p : Program α} {a : α} (hp : Wordless p) (hr : p.Returns h a) :
    sights h = (exchanges h).map Sight.said := by
  rw [← said_sights]
  exact eq_map_said_of_shown ((shown_sights h).trans (hp h a hr))

/-! ## News -/

namespace Stage

/-- What is told of an exchange, if the call is completed by it: the state of the profile, the
status that a recovery or a cancellation declares, or that an order is in order. -/
def news? (x : Exchange) : Stage → Option String
  | .call (.query iccid) | .expect iccid _ =>
    (x.status?.filter fun status => status.iccid = iccid).map Status.state
  | .call (.recover _ _) | .call (.cancel _ _) => x.execution?.map ExecutionStatus.status
  | .call (.download _) | .call (.confirm _) =>
    (x.execution?.filter ExecutionStatus.isSuccess).map fun _ => "ok"

/-- What is told of the result of a call. -/
def tells? : (stage : Stage) → stage.errand.Result → Option String
  | .call (.query _), found | .expect _ _, found => Option.map Status.state found
  | .call (.recover _ _), response => some (RecoverResponse.header response).execution.status
  | .call (.cancel _ _), response => some (CancelResponse.header response).execution.status
  | .call (.download _), _ | .call (.confirm _), _ => some "ok"

/-- What is told of a query, by what the endpoint replies to it. -/
theorem news?_query (iccid : String) (request : Operation.getProfileStatus.Request)
    (reply : Except String (List UInt8)) :
    (Option.filter (fun status => status.iccid = iccid)
        (Exchange.status? ⟨.getProfileStatus, request, reply⟩)).map Status.state =
      ((reading .getProfileStatus reply).bind fun response =>
        entryFor iccid (StatusResponse.profiles response)).toOption.bind
          (Option.map Status.state) := by
  -- All that matters of a report is its list of entries, which is empty, has one entry, or has
  -- more.
  have hentries : ∀ (x : Exchange) (entries : List Status), x.report? = some entries →
      (x.status?.filter fun status => status.iccid = iccid).map Status.state =
        (entryFor iccid entries).toOption.bind (Option.map Status.state) := by
    intro x entries hreport
    rw [Exchange.status?, hreport]
    rcases entries with _ | ⟨status, _ | ⟨status', others⟩⟩
    · rfl
    · by_cases hsame : status.iccid = iccid
      · simp [entryFor, hsame, Except.toOption]
      · simp [entryFor, hsame, Except.toOption]
    · rfl
  have hreport : Exchange.report? ⟨.getProfileStatus, request, reply⟩ =
      (reading .getProfileStatus reply).toOption.map StatusResponse.profiles := rfl
  cases hread : reading .getProfileStatus reply with
  | error e =>
      rw [hread] at hreport
      rw [Exchange.status?, hreport]
      rfl
  | ok response =>
      rw [hread] at hreport
      exact hentries _ _ hreport

/-- What is told of an order is that it was executed. -/
theorem news?_order (op : Operation) (request : op.Request)
    (reply : Except String (List UInt8)) :
    (Option.filter ExecutionStatus.isSuccess (Exchange.execution? ⟨op, request, reply⟩)).map
        (fun _ => "ok") =
      ((reading op reply).bind (declared op)).toOption.bind fun _ => some "ok" := by
  unfold Exchange.execution?
  cases reading op reply with
  | error e => rfl
  | ok response =>
      cases hsuccess : (op.execution response).isSuccess with
      | true => simp [Except.toOption, Except.bind, declared, hsuccess]
      | false => simp [Except.toOption, Except.bind, declared, hsuccess]

/-- There is news of an exchange exactly if the call gives something to tell. -/
theorem news?_eq (stage : Stage) (header : RequestHeader) (reply : Except String (List UInt8)) :
    stage.news? ⟨stage.errand.op, stage.errand.request header, reply⟩ =
      ((reading stage.errand.op reply).bind stage.errand.conclude).toOption.bind
        stage.tells? := by
  have hbare : ∀ {op : Operation} (request : op.Request) (told : op.Response → String),
      (∀ response, told response = (op.execution response).status) →
      (Exchange.execution? ⟨op, request, reply⟩).map ExecutionStatus.status =
        ((reading op reply).bind .ok).toOption.bind fun response => some (told response) := by
    intro op request told htold
    unfold Exchange.execution?
    cases reading op reply with
    | error e => rfl
    | ok response => exact congrArg some (htold response).symm
  cases stage with
  | expect iccid state => exact news?_query iccid _ reply
  | call e =>
      cases e with
      | query iccid => exact news?_query iccid _ reply
      | recover iccid target => exact hbare _ _ fun _ => rfl
      | cancel iccid target => exact hbare _ _ fun _ => rfl
      | download iccid => exact news?_order .downloadOrder _ reply
      | confirm iccid => exact news?_order .confirmOrder _ reply

/-- What is seen of a call. It fails without a trace, or with one exchange that there is no news of,
or it gives something after one exchange. -/
theorem sights_of_returns (c : Client) {stage : Stage}
    {q : Except Client.Error stage.errand.Result}
    (hr : Program.Returns (stage.errand.attempt c).run h q) :
    (∃ e, q = .error e ∧ (sights h = [] ∨
      ∃ x, sights h = [.said x] ∧ x.Serves c stage.errand ∧ stage.news? x = none)) ∨
    ∃ x v, q = .ok v ∧ sights h = [.said x] ∧ x.Serves c stage.errand ∧
      stage.news? x = stage.tells? v ∧ (stage.Met c x ↔ stage.Accepts v) := by
  have hseen := sights_of_wordless (errand_wordless c stage.errand) hr
  rcases Errand.returns hr with reason | ⟨undrawn, hsaid⟩
  · exact Or.inl ⟨_, rfl, Or.inl hseen⟩
  · rename_i d h reply
    rw [exchanges_drawing, hsaid] at hseen
    have hnews := stage.news?_eq ⟨c.requester, d.identifier⟩ reply
    have hholds := stage.holds_iff c d.identifier reply
    -- What the call gives is decided by the reply, and so is what is told of it.
    cases hq : (reading stage.errand.op reply).bind stage.errand.conclude with
    | error e =>
        rw [hq] at hnews
        exact Or.inl ⟨e, rfl, Or.inr ⟨_, hseen, ⟨_, _, rfl⟩, hnews⟩⟩
    | ok v =>
        rw [hq] at hnews
        refine Or.inr ⟨_, v, rfl, hseen, ⟨_, _, rfl⟩, hnews, ?_⟩
        constructor
        · intro hmet
          obtain ⟨v', hv', haccepts⟩ := hholds.mp hmet.2
          rw [hq] at hv'
          cases hv'
          exact haccepts
        · intro haccepts
          exact ⟨⟨_, _, rfl⟩, hholds.mpr ⟨v, hq, haccepts⟩⟩

/-- There is news of an exchange that meets its stage. -/
theorem Met.news {stage : Stage} {x : Exchange} (hmet : stage.Met c x) :
    ∃ news, stage.news? x = some news := by
  obtain ⟨⟨callId, reply, rfl⟩, hholds⟩ := hmet
  obtain ⟨v, hv, haccepts⟩ := (stage.holds_iff c callId reply).mp hholds
  rw [news?_eq, hv]
  cases stage with
  | expect iccid state =>
      obtain ⟨status, rfl, -⟩ := haccepts
      exact ⟨status.state, rfl⟩
  | call e =>
      cases e with
      | query iccid =>
          obtain ⟨status, rfl⟩ := haccepts
          exact ⟨status.state, rfl⟩
      | recover | cancel | download | confirm => exact ⟨_, rfl⟩

end Stage

/-! ## Walks -/

/-- A stage of the smoketest, and the words before its news. -/
structure Part where
  stage : Stage
  words : String

/-- The line that tells of an exchange, if it is completed. -/
def Part.line? (p : Part) (x : Exchange) : Option String :=
  (p.stage.news? x).map (p.words ++ ·)

/-- The parts of the smoketest. -/
def parts (iccid : String) : List Part :=
  [⟨.call (.query iccid), "initial state: "⟩,
    ⟨.call (.recover iccid "AVAILABLE"), "recoverProfile -> "⟩,
    ⟨.call (.cancel iccid "AVAILABLE"), "cancelOrder -> "⟩,
    ⟨.expect iccid .available, "state: "⟩,
    ⟨.call (.download iccid), "downloadOrder -> "⟩,
    ⟨.expect iccid .allocated, "state: "⟩,
    ⟨.call (.confirm iccid), "confirmOrder -> "⟩,
    ⟨.expect iccid .released, "state: "⟩]

/-- The stages of the parts are those of the smoketest. -/
theorem parts_stages (iccid : String) : (parts iccid).map Part.stage = smoketestStages iccid :=
  rfl

/-- What can be seen on the way through some parts, and what comes of it. -/
inductive Walk (c : Client) : List Part → List Sight → Except Error Unit → Prop where
  /-- The next request is not sent. -/
  | unsent {p : Part} {ps : List Part} (e : Error) : Walk c (p :: ps) [] (.error e)
  /-- The exchange fails. -/
  | failed {p : Part} {ps : List Part} {x : Exchange} (serves : x.Serves c p.stage.errand)
      (told : p.line? x = none) (e : Error) : Walk c (p :: ps) [.said x] (.error e)
  /-- The exchange is completed, but the output does not take its line. -/
  | unwritten {p : Part} {ps : List Part} {x : Exchange} {line : String}
      (serves : x.Serves c p.stage.errand) (told : p.line? x = some line) (reason : String) :
      Walk c (p :: ps) [.said x, .shown line (.error reason)] (.error (.output reason))
  /-- The line tells of a state that is not the one that is expected. -/
  | unexpected {p : Part} {ps : List Part} {x : Exchange} {line : String}
      (serves : x.Serves c p.stage.errand) (told : p.line? x = some line)
      (unmet : ¬ p.stage.Met c x) (e : Error) :
      Walk c (p :: ps) [.said x, .shown line (.ok ())] (.error e)
  /-- The stage is passed, and the others follow. -/
  | passed {p : Part} {ps : List Part} {x : Exchange} {line : String} {seen : List Sight}
      {r : Except Error Unit} (met : p.stage.Met c x) (told : p.line? x = some line)
      (rest : Walk c ps seen r) : Walk c (p :: ps) (.said x :: .shown line (.ok ()) :: seen) r
  /-- All stages are passed, and this is announced. -/
  | announced (reply : Except String Unit) :
      Walk c [] [.shown "Success" reply] (reply.mapError Error.output)

/-! ## Programs -/

/-- Whatever a command does is a walk through some parts. -/
def Walks (c : Client) (ps : List Part) (t : Task Unit) : Prop :=
  ∀ h r, Program.Returns t.run h r → Walk c ps (sights h) r

/-- At the end there is nothing but the announcement. -/
theorem walks_announcement (iccid : String) :
    Walks c [] (ExceptT.lift (note (.smoketestPassed iccid)) >>= fun _ => printLine "Success") := by
  intro h r hr
  obtain ⟨h₁, h₂, u, rfl, hnote, hprint⟩ := returns_lift_seq_iff.mp hr
  obtain rfl := returns_ask_iff.mp hnote
  obtain ⟨reply, rfl, rfl⟩ := returns_printLine_iff.mp hprint
  exact Walk.announced reply

variable {ps : List Part} {rest : Task Unit}

/-- A command calls its client and tells the news. It goes on if the result is what it has to be,
and fails otherwise. Without news it fails at once. -/
theorem walks_part (p : Part) {f : p.stage.errand.Result → Task Unit} (hrest : Walks c ps rest)
    (hnone : ∀ v, p.stage.tells? v = none → ∃ e, f v = throw e)
    (hon : ∀ v news, p.stage.tells? v = some news → p.stage.Accepts v →
      f v = printLine (p.words ++ news) >>= fun _ => rest)
    (hoff : ∀ v news, p.stage.tells? v = some news → ¬ p.stage.Accepts v →
      ∃ e, f v = printLine (p.words ++ news) >>= fun _ => throw e) :
    Walks c (p :: ps) (attempt (p.stage.errand.attempt c) >>= f) := by
  intro h r hr
  rcases returns_seq_iff.mp hr with ⟨e, rfl, hcall⟩ | ⟨h₁, h₂, v, rfl, hcall, hlater⟩
  -- The call has failed, so there is nothing to tell, and the walk ends in this part.
  · obtain ⟨q, herrand, hq⟩ := returns_attempt_iff.mp hcall
    -- The call gives something after its one exchange.
    rcases Stage.sights_of_returns c herrand with
      ⟨_, rfl, hseen | ⟨x, hseen, hserves, hnews⟩⟩ | ⟨x, v, rfl, -⟩
    · rw [hseen]
      exact Walk.unsent e
    · rw [hseen]
      exact Walk.failed hserves (by rw [Part.line?, hnews]; rfl) e
    · cases hq
  · obtain ⟨q, herrand, hq⟩ := returns_attempt_iff.mp hcall
    rcases Stage.sights_of_returns c herrand with
      ⟨_, rfl, -⟩ | ⟨x, v', rfl, hseen, hserves, hnews, hmet⟩
    · cases hq
    cases hq
    rw [sights_append, hseen]
    cases htells : p.stage.tells? v with
    | none =>
        obtain ⟨e, hfails⟩ := hnone v htells
        rw [hfails] at hlater
        obtain ⟨rfl, rfl⟩ := returns_throw_iff.mp hlater
        exact Walk.failed hserves (by rw [Part.line?, hnews, htells]; rfl) e
    | some news =>
        have htold : p.line? x = some (p.words ++ news) := by
          rw [Part.line?, hnews, htells]
          rfl
        by_cases haccepts : p.stage.Accepts v
        · rw [hon v news htells haccepts] at hlater
          rcases returns_line_seq hlater with ⟨reason, rfl, rfl⟩ | ⟨h', rfl, hgo⟩
          · exact Walk.unwritten hserves htold reason
          · exact Walk.passed (hmet.mpr haccepts) htold (hrest h' r hgo)
        · -- The line is shown first, so the output may still fail before the command does.
          obtain ⟨e, hfails⟩ := hoff v news htells haccepts
          rw [hfails] at hlater
          rcases returns_line_seq hlater with ⟨reason, rfl, rfl⟩ | ⟨h', rfl, hgo⟩
          · exact Walk.unwritten hserves htold reason
          · obtain ⟨rfl, rfl⟩ := returns_throw_iff.mp hgo
            exact Walk.unexpected hserves htold (mt hmet.mp haccepts) e

/-- A call whose result is always what it has to be, and of which there is always news. -/
theorem walks_call (e : Errand) {words : String} {f : e.Result → Task Unit}
    (hrest : Walks c ps rest) (haccepts : ∀ v, (Stage.call e).Accepts v)
    (htells : ∀ v, ∃ news, (Stage.call e).tells? v = some news ∧
      f v = printLine (words ++ news) >>= fun _ => rest) :
    Walks c (⟨.call e, words⟩ :: ps) (attempt (e.attempt c) >>= f) := by
  refine walks_part ⟨.call e, words⟩ hrest ?_ ?_ ?_
  · intro v hnone
    obtain ⟨news, hsome, -⟩ := htells v
    rw [hnone] at hsome
    cases hsome
  · intro v news hnews _
    obtain ⟨news', hsome, hf⟩ := htells v
    rw [hnews] at hsome
    cases hsome
    exact hf
  · exact fun v _ _ hrejects => absurd (haccepts v) hrejects

/-- The first query is passed by any state. -/
theorem walks_currentState {iccid words : String} (hrest : Walks c ps rest) :
    Walks c (⟨.call (.query iccid), words⟩ :: ps)
      (Smoketest.currentState c iccid >>= fun state =>
        printLine (words ++ state) >>= fun _ => rest) := by
  unfold Smoketest.currentState
  rw [bind_assoc]
  refine walks_part ⟨.call (.query iccid), words⟩ hrest ?_ ?_ ?_
  · intro v hnone
    cases v with
    | none => exact ⟨_, rfl⟩
    | some status => cases hnone
  · intro v news hnews haccepts
    obtain ⟨status, rfl⟩ := haccepts
    cases hnews
    rfl
  · intro v news hnews hrejects
    cases v with
    | none => cases hnews
    | some status => exact absurd ⟨status, rfl⟩ hrejects

/-- A later query is passed by the expected state alone, but its line tells of any. -/
theorem walks_expectState {iccid : String} {expected : State} (hrest : Walks c ps rest) :
    Walks c (⟨.expect iccid expected, "state: "⟩ :: ps)
      (Smoketest.expectState c iccid expected >>= fun _ => rest) := by
  unfold Smoketest.expectState Smoketest.currentState
  simp only [bind_assoc]
  refine walks_part ⟨.expect iccid expected, "state: "⟩ hrest ?_ ?_ ?_
  · intro v hnone
    cases v with
    | none => exact ⟨_, rfl⟩
    | some status => cases hnone
  · intro v news hnews haccepts
    obtain ⟨status, rfl, hstate⟩ := haccepts
    cases hnews
    rw [pure_bind]
    refine congrArg (printLine _ >>= ·) (funext fun _ => ?_)
    rw [if_neg (not_not_intro hstate)]
    rfl
  · intro v news hnews hrejects
    cases v with
    | none => cases hnews
    | some status =>
        cases hnews
        have hstate : status.state ≠ expected.name := fun heq => hrejects ⟨status, rfl, heq⟩
        refine ⟨.unexpectedState iccid expected status.state, ?_⟩
        rw [pure_bind]
        refine congrArg (printLine _ >>= ·) (funext fun _ => ?_)
        rw [if_pos hstate]
        rfl

/-- The smoketest walks through its parts. -/
theorem smoketest_walks (c : Client) (iccid : String) :
    Walks c (parts iccid) (Smoketest.run c iccid) := by
  unfold Smoketest.run
  refine walks_currentState ?_
  refine walks_call (.recover iccid "AVAILABLE") ?_ (fun _ => trivial) fun v => ⟨_, rfl, rfl⟩
  refine walks_call (.cancel iccid "AVAILABLE") ?_ (fun _ => trivial) fun v => ⟨_, rfl, rfl⟩
  refine walks_expectState ?_
  refine walks_call (.download iccid) ?_ (fun _ => trivial) fun v => ⟨_, rfl, rfl⟩
  refine walks_expectState ?_
  refine walks_call (.confirm iccid) ?_ (fun _ => trivial) fun v => ⟨_, rfl, rfl⟩
  refine walks_expectState ?_
  exact walks_announcement iccid

/-! ## Laws of walks -/

variable {seen : List Sight} {r : Except Error Unit}

/-- An exchange in the service of an errand is a call of its operation. -/
theorem op_eq_of_serves {e : Errand} {x : Exchange} (h : x.Serves c e) : x.op = e.op := by
  obtain ⟨callId, reply, rfl⟩ := h
  rfl

/-- And it names the profile of the errand. -/
theorem iccids_eq_of_serves {e : Errand} {x : Exchange} (h : x.Serves c e) :
    x.iccids = [e.iccid] := by
  obtain ⟨callId, reply, rfl⟩ := h
  cases e <;> rfl

/-- The exchanges are for the first parts, in their order. -/
theorem Walk.serves (hwalk : Walk c ps seen r) :
    List.Forall₂ (fun p x => x.Serves c p.stage.errand) (ps.take (said seen).length)
      (said seen) := by
  induction hwalk with
  | unsent e => exact List.Forall₂.nil
  | failed serves told e => exact List.Forall₂.cons serves List.Forall₂.nil
  | unwritten serves told reason => exact List.Forall₂.cons serves List.Forall₂.nil
  | unexpected serves told unmet e => exact List.Forall₂.cons serves List.Forall₂.nil
  | passed met told rest ih => exact List.Forall₂.cons met.1 ih
  | announced reply => exact List.Forall₂.nil

/-- A request is sent when all stages before it are passed. -/
theorem Walk.before (hwalk : Walk c ps seen r) :
    ∀ i < (said seen).length,
      Passes c ((ps.take i).map Part.stage) ((said seen).take i) := by
  have hfirst : ∀ {ps : List Part} {x : Exchange}, ∀ i < [x].length,
      Passes c ((ps.take i).map Part.stage) ([x].take i) := by
    -- One exchange needs nothing before it.
    intro ps x i hi
    obtain rfl : i = 0 := Nat.lt_one_iff.mp hi
    exact List.Forall₂.nil
  induction hwalk with
  | unsent e => exact fun i hi => absurd hi (Nat.not_lt_zero i)
  | failed serves told e => exact hfirst
  | unwritten serves told reason => exact hfirst
  | unexpected serves told unmet e => exact hfirst
  | passed met told rest ih =>
      intro i hi
      -- Behind a stage that is passed, the walk through the other stages has the same law.
      cases i with
      | zero => exact List.Forall₂.nil
      | succ i => exact List.Forall₂.cons met (ih i (Nat.lt_of_succ_lt_succ hi))
  | announced reply => exact fun i hi => absurd hi (Nat.not_lt_zero i)

/-- What is seen after the exchange of a part. -/
inductive Followed (c : Client) (p : Part) (x : Exchange) : List Sight → Prop where
  /-- The exchange fails, and nothing is seen after it. -/
  | failed (told : p.line? x = none) : Followed c p x []
  /-- The line is the last that is seen. -/
  | last {line : String} (told : p.line? x = some line) (reply : Except String Unit) :
      Followed c p x [.shown line reply]
  /-- The output takes the line, and the stage is passed. -/
  | passed {line : String} (told : p.line? x = some line) (met : p.stage.Met c x)
      (later : List Sight) : Followed c p x (.shown line (.ok ()) :: later)

/-- The line of an exchange directly follows it, and whatever goes wrong is the end. -/
theorem Walk.followed (hwalk : Walk c ps seen r) :
    ∀ before x after, seen = before ++ .said x :: after →
      ∃ p, ps[(said before).length]? = some p ∧ Followed c p x after := by
  -- A walk that ends in its first part has no exchange but the first sight.
  have hfirst : ∀ {p : Part} {ps : List Part} {y : Exchange} {later : List Sight},
      said later = [] → Followed c p y later →
      ∀ before x after, .said y :: later = before ++ .said x :: after →
        ∃ p', (p :: ps)[(said before).length]? = some p' ∧ Followed c p' x after := by
    intro p ps y later hnone hfollowed before x after hseen
    cases before with
    | nil =>
        cases hseen
        exact ⟨p, rfl, hfollowed⟩
    | cons sight before =>
        obtain ⟨-, rfl⟩ := List.cons.inj hseen
        simp [said, Sight.exchange?] at hnone
  induction hwalk with
  | unsent e =>
      intro before x after hseen
      cases before <;> cases hseen
  | failed serves told e => exact hfirst rfl (Followed.failed told)
  | unwritten serves told reason => exact hfirst rfl (Followed.last told _)
  | unexpected serves told unmet e => exact hfirst rfl (Followed.last told _)
  -- What follows an exchange is seen in the first part or in the rest, but not on their border.
  | passed met told rest ih =>
      intro before x after hseen
      rcases before with _ | ⟨sight, _ | ⟨sight', before⟩⟩
      · cases hseen
        exact ⟨_, rfl, Followed.passed told met _⟩
      · cases hseen
      · cases hseen
        exact ih before x after rfl
  | announced reply =>
      intro before x after hseen
      rcases before with _ | ⟨sight, _ | ⟨sight', before⟩⟩ <;> cases hseen

/-- Nothing is seen after a line that the output does not take. -/
theorem Walk.refused (hwalk : Walk c ps seen r) :
    ∀ before line reason after, seen = before ++ .shown line (.error reason) :: after →
      after = [] ∧ r = .error (.output reason) := by
  induction hwalk with
  | unsent e =>
      intro before line reason after hseen
      cases before <;> cases hseen
  | failed serves told e =>
      intro before line reason after hseen
      rcases before with _ | ⟨sight, _ | ⟨sight', before⟩⟩ <;> cases hseen
  | unwritten serves told reason =>
      -- The refused line is the second of two sights.
      intro before line' reason' after hseen
      rcases before with _ | ⟨sight, _ | ⟨sight', _ | ⟨sight'', before⟩⟩⟩ <;> cases hseen
      exact ⟨rfl, rfl⟩
  | unexpected serves told unmet e =>
      intro before line' reason' after hseen
      rcases before with _ | ⟨sight, _ | ⟨sight', _ | ⟨sight'', before⟩⟩⟩ <;> cases hseen
  | passed met told rest ih =>
      intro before line' reason' after hseen
      rcases before with _ | ⟨sight, _ | ⟨sight', before⟩⟩
      · cases hseen
      · cases hseen
      · cases hseen
        exact ih before line' reason' after rfl
  | announced reply =>
      intro before line' reason' after hseen
      rcases before with _ | ⟨sight, _ | ⟨sight', before⟩⟩ <;> cases hseen
      exact ⟨rfl, rfl⟩

/-- The lines that tell of exchanges, as far as these are completed. -/
def tellings (ps : List Part) (xs : List Exchange) : List String :=
  (List.zipWith Part.line? ps xs).filterMap id

/-- An exchange with a line adds this line to what is told. -/
theorem tellings_cons {p : Part} {x : Exchange} {line : String} (told : p.line? x = some line)
    (ps : List Part) (xs : List Exchange) :
    tellings (p :: ps) (x :: xs) = line :: tellings ps xs := by
  unfold tellings
  rw [List.zipWith_cons_cons, told]
  rfl

theorem tellings_nil (ps : List Part) : tellings ps [] = [] := by
  unfold tellings
  rw [List.zipWith_nil_right]
  rfl

/-- The lines are those that tell of the exchanges, and the announcement at the end. -/
theorem Walk.told (hwalk : Walk c ps seen r) :
    ∃ announced, (shown seen).map Prod.fst = tellings ps (said seen) ++ announced ∧
      (announced = [] ∧ r ≠ .ok () ∨
        announced = ["Success"] ∧ Passes c (ps.map Part.stage) (said seen)) := by
  induction hwalk with
  | unsent e => exact ⟨[], by simp [tellings_nil], Or.inl ⟨rfl, nofun⟩⟩
  | failed serves told e =>
      refine ⟨[], ?_, Or.inl ⟨rfl, nofun⟩⟩
      simp [tellings, told]
  | unwritten serves told reason =>
      refine ⟨[], ?_, Or.inl ⟨rfl, nofun⟩⟩
      simp [tellings_cons told, tellings_nil]
  | unexpected serves told unmet e =>
      refine ⟨[], ?_, Or.inl ⟨rfl, nofun⟩⟩
      simp [tellings_cons told, tellings_nil]
  | passed met told rest ih =>
      obtain ⟨announced, hlines, hend⟩ := ih
      refine ⟨announced, ?_, ?_⟩
      · simp [tellings_cons told, hlines]
      · rcases hend with hnot | ⟨hsuccess, hpasses⟩
        · exact Or.inl hnot
        · exact Or.inr ⟨hsuccess, List.Forall₂.cons met hpasses⟩
  | announced reply => exact ⟨["Success"], rfl, Or.inr ⟨rfl, List.Forall₂.nil⟩⟩

/-- A walk succeeds if all stages are passed and the output takes every line. -/
theorem Walk.ok_iff (hwalk : Walk c ps seen r) :
    r = .ok () ↔ Passes c (ps.map Part.stage) (said seen) ∧
      ∀ line reply, (line, reply) ∈ shown seen → reply = .ok () := by
  induction hwalk with
  | unsent e =>
      refine iff_of_false nofun ?_
      rintro ⟨hpasses, -⟩
      cases hpasses
  -- A stage that is met has news, and here there is none.
  | failed serves told e =>
      refine iff_of_false nofun ?_
      rintro ⟨hpasses, -⟩
      obtain ⟨hmet, -⟩ := List.forall₂_cons.mp hpasses
      obtain ⟨news, hnews⟩ := hmet.news
      rw [Part.line?, hnews] at told
      cases told
  | unwritten serves told reason =>
      refine iff_of_false nofun ?_
      rintro ⟨-, htaken⟩
      cases htaken _ _ List.mem_cons_self
  | unexpected serves told unmet e =>
      refine iff_of_false nofun ?_
      rintro ⟨hpasses, -⟩
      exact unmet (List.forall₂_cons.mp hpasses).1
  -- The line of the first part was taken.
  | passed met told rest ih =>
      rw [ih]
      constructor
      · rintro ⟨hpasses, htaken⟩
        refine ⟨List.Forall₂.cons met hpasses, ?_⟩
        intro line reply hmem
        rcases List.mem_cons.mp hmem with hfirst | hlater
        · cases hfirst
          rfl
        · exact htaken line reply hlater
      · rintro ⟨hpasses, htaken⟩
        exact ⟨(List.forall₂_cons.mp hpasses).2,
          fun line reply hmem => htaken line reply (List.mem_cons_of_mem _ hmem)⟩
  | announced reply =>
      cases reply with
      | error reason =>
          refine iff_of_false nofun ?_
          rintro ⟨-, htaken⟩
          cases htaken _ _ List.mem_cons_self
      | ok u =>
          refine iff_of_true rfl ⟨List.Forall₂.nil, ?_⟩
          intro line reply hmem
          cases List.mem_singleton.mp hmem
          rfl

/-! ## Lockstep -/

/-- The exchange before reads that the profile is in a state. -/
def ReadAs (iccid : String) (state : State) (before : List Exchange) : Prop :=
  ∃ status, reported? before = some status ∧ status.iccid = iccid ∧ status.state = state.name

/-- The smoketest and its output are in step. -/
structure InStep (c : Client) (iccid : String) (h : List Deed) (r : Except Error Unit) : Prop where
  /-- The requests are the first of these, in this order. -/
  requests : (exchanges h).map Exchange.op <+: [.getProfileStatus, .recoverProfile, .cancelOrder,
    .getProfileStatus, .downloadOrder, .getProfileStatus, .confirmOrder, .getProfileStatus]
  iccids : ∀ x ∈ exchanges h, x.iccids = [iccid]
  /-- A profile is ordered only if it has just been read to be available. -/
  order : Throughout (fun before x => x.op = .downloadOrder → ReadAs iccid .available before)
    (exchanges h)
  /-- An order is confirmed only if the profile has just been read to be allocated. -/
  confirmation : Throughout
    (fun before x => x.op = .confirmOrder → ReadAs iccid .allocated before) (exchanges h)
  /-- Nothing is seen after an exchange that fails. One that is completed is directly followed by
  its line, and nothing is seen after this if the state is not the one that is expected. -/
  followed : ∀ before x after, sights h = before ++ .said x :: after →
    ∃ p, (parts iccid)[(said before).length]? = some p ∧ Followed c p x after
  /-- Nothing is seen after a line that the output does not take. -/
  refused : ∀ before line reason after, sights h = before ++ .shown line (.error reason) :: after →
    after = [] ∧ r = .error (.output reason)
  /-- The lines are those of the exchanges that are completed, in their order. The one line more is
  for a test that is passed. -/
  told : ∃ announced, (lines h).map Prod.fst = tellings (parts iccid) (exchanges h) ++ announced ∧
    (announced = [] ∨ announced = ["Success"] ∧ Passes c (smoketestStages iccid) (exchanges h))
  /-- The test succeeds if all stages are passed, and all lines are written to the last one. -/
  ok_iff : r = .ok () ↔ Passes c (smoketestStages iccid) (exchanges h) ∧
    lines h = (tellings (parts iccid) (exchanges h) ++ ["Success"]).map fun line => (line, .ok ())

/-- The operations called are those of the parts, in their order. -/
theorem forall₂_ops {ps : List Part} {xs : List Exchange}
    (h : List.Forall₂ (fun p x => x.Serves c p.stage.errand) ps xs) :
    xs.map Exchange.op = ps.map fun p => p.stage.errand.op := by
  induction h with
  | nil => rfl
  | cons hserves _ ih =>
      rw [List.map_cons, List.map_cons, ih]
      exact congrArg (List.cons · _) (op_eq_of_serves hserves)

theorem forall₂_iccids {ps : List Part} {xs : List Exchange} {iccid : String}
    (h : List.Forall₂ (fun p x => x.Serves c p.stage.errand) ps xs)
    (hparts : ∀ p ∈ ps, p.stage.errand.iccid = iccid) : ∀ x ∈ xs, x.iccids = [iccid] := by
  induction h with
  | nil => exact fun x hx => absurd hx List.not_mem_nil
  | cons hserves _ ih =>
      obtain ⟨hfirst, hothers⟩ := List.forall_mem_cons.mp hparts
      refine List.forall_mem_cons.mpr ⟨?_, ih hothers⟩
      rw [iccids_eq_of_serves hserves, hfirst]

/-- There is one part that orders the profile, and one that confirms the order. -/
theorem parts_orders (iccid : String) : ∀ i < 8,
    (((parts iccid).map fun p => p.stage.errand.op)[i]? = some .downloadOrder → i = 4) ∧
      (((parts iccid).map fun p => p.stage.errand.op)[i]? = some .confirmOrder → i = 6) := by
  have hops : ((parts iccid).map fun p => p.stage.errand.op) =
      [.getProfileStatus, .recoverProfile, .cancelOrder, .getProfileStatus, .downloadOrder,
        .getProfileStatus, .confirmOrder, .getProfileStatus] := rfl
  rw [hops]
  decide

/-- What is read to pass a query for a state is that state. -/
theorem readAs_of_passes (stages : List Stage) {iccid : String} {state : State}
    {xs : List Exchange} (h : Passes c (stages ++ [.expect iccid state]) xs) :
    ReadAs iccid state xs := by
  obtain ⟨x, hlast, hmet⟩ : ∃ x, xs.drop stages.length = [x] ∧
      Stage.Met c (.expect iccid state) x := by
    -- The last exchange stands against the last stage.
    have hdrop := List.forall₂_drop_append xs stages [.expect iccid state] h.flip
    generalize xs.drop stages.length = last at hdrop
    obtain ⟨x, others, hmet, hnone, rfl⟩ := List.forall₂_cons_right_iff.mp hdrop
    cases hnone
    exact ⟨x, rfl, hmet⟩
  rw [← List.take_append_drop stages.length xs, hlast]
  obtain ⟨status, hstatus, hiccid, hstate⟩ := hmet.2
  exact ⟨status, by rw [reported?_concat, hstatus], hiccid, hstate⟩

/-- In all surroundings, whatever the endpoint replies and whichever lines the output takes, the
smoketest and its output are in step. -/
theorem smoketest_inStep {σ : Type} (answer : (e : Effect) → σ → e.Answer × σ) (c : Client)
    (iccid : String) (s : σ) :
    InStep c iccid ((Smoketest.run c iccid).run.history answer s)
      ((Smoketest.run c iccid).run.run answer s).1 := by
  have hwalk := smoketest_walks c iccid _ _ (returns_history answer (Smoketest.run c iccid).run s)
  -- From here on, only the walk matters, and not what has answered it.
  generalize (Smoketest.run c iccid).run.history answer s = h at hwalk ⊢
  generalize ((Smoketest.run c iccid).run.run answer s).1 = r at hwalk ⊢
  have hserves := hwalk.serves
  have hbefore := hwalk.before
  have htold := hwalk.told
  have hok := hwalk.ok_iff
  rw [said_sights] at hserves hbefore htold hok
  rw [shown_sights] at htold hok
  rw [parts_stages] at htold hok
  -- Both orders are known by their places among the eight requests.
  have hops : (exchanges h).map Exchange.op <+: (parts iccid).map fun p => p.stage.errand.op := by
    rw [forall₂_ops hserves]
    exact (List.take_prefix _ _).map _
  have hop : ∀ i (hi : i < (exchanges h).length), i < 8 ∧
      ((parts iccid).map fun p => p.stage.errand.op)[i]? = some (exchanges h)[i].op := by
    intro i hi
    have hi' : i < ((exchanges h).map Exchange.op).length := by rwa [List.length_map]
    refine ⟨Nat.lt_of_lt_of_le hi' hops.length_le, ?_⟩
    obtain ⟨later, hlater⟩ := hops
    rw [← hlater, List.getElem?_append_left hi', List.getElem?_map, List.getElem?_eq_getElem hi]
    rfl
  constructor
  case requests => exact hops
  case iccids =>
    refine forall₂_iccids hserves fun p hp => ?_
    have hparts : ∀ p ∈ parts iccid, p.stage.errand.iccid = iccid := by
      simp [parts, Stage.errand, Errand.iccid]
    exact hparts p (List.mem_of_mem_take hp)
  case order =>
    intro i hi hdownload
    obtain ⟨hlt, hat⟩ := hop i hi
    rw [hdownload] at hat
    obtain rfl := (parts_orders iccid i hlt).1 hat
    exact readAs_of_passes ((smoketestStages iccid).take 3) (hbefore 4 hi)
  case confirmation =>
    intro i hi hconfirm
    obtain ⟨hlt, hat⟩ := hop i hi
    rw [hconfirm] at hat
    obtain rfl := (parts_orders iccid i hlt).2 hat
    exact readAs_of_passes ((smoketestStages iccid).take 5) (hbefore 6 hi)
  case followed => exact hwalk.followed
  case refused => exact hwalk.refused
  case told =>
    obtain ⟨announced, hlines, ⟨hnone, -⟩ | hsuccess⟩ := htold
    · exact ⟨announced, hlines, Or.inl hnone⟩
    · exact ⟨announced, hlines, Or.inr hsuccess⟩
  case ok_iff =>
    rw [hok]
    refine and_congr_right fun hpasses => ?_
    constructor
    · intro htaken
      have hsuccess : (lines h).map Prod.fst =
          tellings (parts iccid) (exchanges h) ++ ["Success"] := by
        obtain ⟨announced, hlines, ⟨-, hfails⟩ | ⟨rfl, -⟩⟩ := htold
        · exact absurd (hok.mpr ⟨hpasses, htaken⟩) hfails
        · exact hlines
      rw [← hsuccess, List.map_map]
      refine (List.map_id _).symm.trans (List.map_congr_left ?_)
      intro line hline
      exact Prod.ext rfl (htaken line.1 line.2 hline)
    · intro hlines line reply hmem
      rw [hlines] at hmem
      obtain ⟨_, -, heq⟩ := List.mem_map.mp hmem
      cases heq
      rfl

end ProfileAdmin.Command
