import ProfileAdmin.Proofs.Client.Course
import ProfileAdmin.Proofs.Client.Endpoint
import ProfileAdmin.Proofs.Call.Meaning

/-!
# Proofs.Client.Provider — endpoints that move profiles along the lifecycle

1. **Lifecycle**: what a step makes of a state, and when a step lies behind a state for good.
2. **Providers**: `KeepsStates` is an endpoint that moves a profile by the table and tells the
   truth about its state, whatever else it answers. `Administers` says in addition how it
   answers.
3. **Connections**: requests and replies may get lost. An endpoint keeps a log of what it has
   processed.
4. **Deskwork**: the plainest of these endpoints.
-/

namespace ProfileAdmin

open Call
open Host (Effect Program)
open Profile

/-! ## Lifecycle -/

namespace Profile

/-- The state that a step makes of a state. A step that does not leave the state leaves it as
it is. -/
def Step.onward (step : Step) (state : String) : String :=
  match transitions.find? fun t => t.step = step ∧ t.source.name = state with
  | some t => t.target.name
  | none => state

/-- From the state that it leaves, a step leads to its target. -/
theorem onward_source {t : Transition} (ht : t ∈ transitions) :
    t.step.onward t.source.name = t.target.name := by
  have hall : ∀ u ∈ transitions, u.step.onward u.source.name = u.target.name := by decide
  exact hall t ht

/-- No two transitions have the same step. -/
theorem transition_unique {t u : Transition} (ht : t ∈ transitions) (hu : u ∈ transitions)
    (hstep : t.step = u.step) : t = u := by
  have hall : ∀ t ∈ transitions, ∀ u ∈ transitions, t.step = u.step → t = u := by decide
  exact hall t ht u hu hstep

/-- Every step is in the table. -/
theorem exists_transition (step : Step) : ∃ t ∈ transitions, t.step = step := by
  cases step with
  | download => exact ⟨_, List.mem_cons_self, rfl⟩
  | confirm => exact ⟨_, List.mem_cons_of_mem _ List.mem_cons_self, rfl⟩

/-- From any other state, a step leads nowhere. -/
theorem onward_eq_self {t : Transition} {state : String} (ht : t ∈ transitions)
    (hne : state ≠ t.source.name) : t.step.onward state = state := by
  unfold Step.onward
  split
  case h_1 u hfind =>
    have hmem := List.mem_of_find?_eq_some hfind
    have hboth : u.step = t.step ∧ u.source.name = state := by
      simpa using List.find?_some hfind
    -- A step has one transition, so what is found under it leaves the state as well.
    obtain rfl := transition_unique hmem ht hboth.1
    exact absurd hboth.2.symm hne
  case h_2 => rfl

/-- A transition can no longer happen: the state is neither the one that it leaves nor one
before that. -/
def Transition.IsPast (t : Transition) (state : String) : Prop :=
  state ≠ t.source.name ∧ ∀ u ∈ transitions, u.target = t.source → state ≠ u.source.name

/-- A transition that has happened lies in the past. -/
theorem isPast_target {t : Transition} (ht : t ∈ transitions) : t.IsPast t.target.name := by
  have hall : ∀ t ∈ transitions, t.target.name ≠ t.source.name ∧
      ∀ u ∈ transitions, u.target = t.source → t.target.name ≠ u.source.name := by decide
  exact hall t ht

/-- No step leads back to a transition that lies in the past. -/
theorem isPast_onward {t : Transition} {state : String} (ht : t ∈ transitions) (step : Step)
    (h : t.IsPast state) : t.IsPast (step.onward state) := by
  obtain ⟨u, hu, rfl⟩ := exists_transition step
  by_cases hsource : state = u.source.name
  · -- From where `u` leaves, it leads to where `t` does not leave either.
    have hall : ∀ t ∈ transitions, ∀ u ∈ transitions, t.source ≠ u.source →
        u.target ≠ t.source → u.target.name ≠ t.source.name ∧
          ∀ v ∈ transitions, v.target = t.source → u.target.name ≠ v.source.name := by decide
    subst hsource
    rw [onward_source hu]
    refine hall t ht u hu (fun heq => ?_) fun heq => ?_
    · exact h.1 (congrArg State.name heq).symm
    · exact h.2 u hu heq rfl
  · rwa [onward_eq_self hu hsource]

end Profile

namespace Client

variable {τ φ ρ : Type}

/-! ## Providers -/

/-- An endpoint that keeps the state of a profile: it moves it by the table, and if it gives a
single entry on a query, this tells the state. -/
structure KeepsStates (serve : Service τ) (state : τ → String) : Prop where
  told : ∀ (r : Operation.getProfileStatus.Request) (t : τ) (s : Status),
    (Exchange.mk .getProfileStatus r (serve .getProfileStatus r t).1).status? = some s →
      s.state = state t
  kept : ∀ r t, state (serve .getProfileStatus r t).2 = state t
  moved : ∀ (step : Step) r t,
    state (serve step.operation r t).2 = step.onward (state t)

/-- An endpoint that administers a profile, with the entry that it gives for it. The profile
has a token exactly if it is released. A query is answered with the entry; an order moves the
profile and declares success if it leaves the state, and otherwise is declined. -/
structure Administers (iccid : String) (serve : Service τ) (entry : τ → Status) : Prop where
  same : ∀ t, (entry t).iccid = iccid
  sound : ∀ t, (((entry t).state = "AVAILABLE" ∨ (entry t).state = "ALLOCATED") ∧
      (entry t).isActivated = false) ∨
    ((entry t).state = "RELEASED" ∧ (entry t).isActivated = true)
  answered : ∀ (r : Operation.getProfileStatus.Request) t,
    Operation.getProfileStatus.iccids r = [iccid] →
      (Exchange.mk .getProfileStatus r (serve .getProfileStatus r t).1).status? = some (entry t) ∧
        (entry (serve .getProfileStatus r t).2).state = (entry t).state
  obeyed : ∀ u ∈ transitions, ∀ (r : u.step.operation.Request) t,
    u.step.operation.iccids r = [iccid] → (entry t).state = u.source.name →
      (Exchange.mk u.step.operation r (serve u.step.operation r t).1).Declares
          ExecutionStatus.success ∧
        (entry (serve u.step.operation r t).2).state = u.target.name
  declined : ∀ u ∈ transitions, ∀ (r : u.step.operation.Request) t,
    u.step.operation.iccids r = [iccid] → (entry t).state ≠ u.source.name →
      (Exchange.mk u.step.operation r (serve u.step.operation r t).1).Declares "Failed" ∧
        (entry (serve u.step.operation r t).2).state = (entry t).state

/-! ## Connections -/

/-- What becomes of an exchange. -/
inductive Fate where
  | served
  /-- The request gets lost before the endpoint has processed it. -/
  | lost (reason : String)
  /-- The endpoint has processed the request, and the reply gets lost. -/
  | unanswered (reason : String)

/-- An endpoint behind a connection on which exchanges have their fates. -/
def lossy (fate : φ → Fate × φ) (serve : Service τ) : Service (τ × φ)
  | op, r, (t, f) =>
    match (fate f).1 with
    | .served => ((serve op r t).1, (serve op r t).2, (fate f).2)
    | .lost reason => (.error reason, t, (fate f).2)
    | .unanswered reason => (.error reason, (serve op r t).2, (fate f).2)

/-- An endpoint that keeps a log of what it has processed. -/
def logged (serve : Service τ) : Service (τ × List Exchange)
  | op, r, (t, log) =>
    ((serve op r t).1, (serve op r t).2, log ++ [⟨op, r, (serve op r t).1⟩])

/-- An exchange is processed, and then it is answered or not, or it leaves no trace. -/
theorem lossy_cases (fate : φ → Fate × φ) (serve : Service τ) (op : Operation) (r : op.Request)
    (t : τ) (f : φ) :
    ((lossy fate serve op r (t, f)).2.1 = (serve op r t).2 ∧
        ((lossy fate serve op r (t, f)).1 = (serve op r t).1 ∨
          ∃ reason, (lossy fate serve op r (t, f)).1 = .error reason)) ∨
      ((lossy fate serve op r (t, f)).2.1 = t ∧
        ∃ reason, (lossy fate serve op r (t, f)).1 = .error reason) := by
  unfold lossy
  dsimp only
  split
  case h_1 => exact Or.inl ⟨rfl, Or.inl rfl⟩
  case h_2 reason _ => exact Or.inr ⟨rfl, reason, rfl⟩
  case h_3 reason _ => exact Or.inl ⟨rfl, Or.inr ⟨reason, rfl⟩⟩

/-- A reply that got lost reports nothing. -/
theorem status?_error (r : Operation.getProfileStatus.Request) (reason : String) :
    (Exchange.mk .getProfileStatus r (.error reason)).status? = none := rfl

/-- How often a step was asked for. -/
def asked (step : Step) (xs : List Exchange) : Nat :=
  xs.countP fun x => x.op = step.operation

/-- One exchange more counts if it is the order for the step. -/
theorem asked_concat (step : Step) (xs : List Exchange) (x : Exchange) :
    asked step (xs ++ [x]) = asked step xs + if x.op = step.operation then 1 else 0 := by
  simp [asked, List.countP_append, List.countP_singleton]

theorem asked_of_ops {xs ys : List Exchange} (h : xs.map Exchange.op = ys.map Exchange.op)
    (step : Step) : asked step xs = asked step ys := by
  have hmap : ∀ zs : List Exchange,
      asked step zs = (zs.map Exchange.op).countP fun op => op = step.operation := by
    intro zs
    rw [List.countP_map]
    rfl
  rw [hmap, hmap, h]

section

variable {serve : Service τ} {state : τ → String}

/-- Whether it arrives or not, a query changes nothing, and what it reports is the state. -/
theorem KeepsStates.query (h : KeepsStates serve state) {fate : φ → Fate × φ}
    {r : Operation.getProfileStatus.Request} {t t' : τ} {log log' : List Exchange} {f f' : φ}
    {reply : Except String (List UInt8)}
    (hout : lossy fate (logged serve) .getProfileStatus (Operation.getProfileStatus.anonymous r)
      ((t, log), f) = (reply, (t', log'), f')) :
    state t' = state t ∧ (∀ step, asked step log' = asked step log) ∧
      ∀ s, (Exchange.mk .getProfileStatus r reply).status? = some s → s.state = state t := by
  have hcases := lossy_cases fate (logged serve) .getProfileStatus
    (Operation.getProfileStatus.anonymous r) (t, log) f
  rw [hout] at hcases
  have hsilent : ∀ reason s, reply = .error reason →
      (Exchange.mk .getProfileStatus r reply).status? ≠ some s := by
    rintro reason s rfl hs
    rw [status?_error] at hs
    cases hs
  -- The query arrives, with or without its reply, or it does not arrive.
  rcases hcases with ⟨hprocessed, hreply⟩ | ⟨huntouched, reason, hlost⟩
  · obtain ⟨rfl, rfl⟩ := Prod.mk.inj hprocessed
    refine ⟨h.kept _ _, fun step => ?_, fun s hs => ?_⟩
    · have hne : Operation.getProfileStatus ≠ step.operation := by cases step <;> decide
      rw [asked_concat, if_neg hne, Nat.add_zero]
    · rcases hreply with hserved | ⟨reason, hlost⟩
      · have htold := h.told (Operation.getProfileStatus.anonymous r) t s
        rw [show reply = _ from hserved] at hs
        exact htold hs
      · exact absurd hs (hsilent reason s hlost)
  · obtain ⟨rfl, rfl⟩ := Prod.mk.inj huntouched
    exact ⟨rfl, fun _ => rfl, fun s hs => absurd hs (hsilent reason s hlost)⟩

/-- An order that arrives moves the profile on. -/
theorem KeepsStates.order (h : KeepsStates serve state) {fate : φ → Fate × φ} {v : Step}
    {r : v.operation.Request} {t t' : τ} {log log' : List Exchange} {f f' : φ}
    {reply : Except String (List UInt8)}
    (hout : lossy fate (logged serve) v.operation (v.operation.anonymous r) ((t, log), f) =
      (reply, (t', log'), f')) :
    (state t' = v.onward (state t) ∧ ∀ step : Step, asked step log' =
        asked step log + if v.operation = step.operation then 1 else 0) ∨
      (t' = t ∧ log' = log) := by
  have hcases := lossy_cases fate (logged serve) v.operation (v.operation.anonymous r) (t, log) f
  rw [hout] at hcases
  rcases hcases with ⟨hprocessed, -⟩ | ⟨huntouched, -⟩
  · obtain ⟨rfl, rfl⟩ := Prod.mk.inj hprocessed
    exact Or.inl ⟨h.moved v _ t, fun step => asked_concat ..⟩
  · exact Or.inr (Prod.mk.inj huntouched)

end

/-- A request names the same profiles without the identifier of its call. -/
theorem iccids_anonymous (op : Operation) (r : op.Request) :
    op.iccids (op.anonymous r) = op.iccids r := by
  cases op <;> rfl

/-! ## Deskwork -/

/-- The entry for a profile in a state. The token comes with the release. -/
def deskEntry (iccid : String) (state : State) : Status :=
  ⟨iccid, "", state.name, if state = .released then "1$smdp.example$TOKEN" else "", false, ""⟩

/-- A reply to an order that declares a status. -/
def declaring (status : String) : Except String (List UInt8) :=
  .ok (DownloadResponse.shape.encode ⟨.declaring status, ""⟩)

/-- An endpoint that does what the table says. -/
def desk : Service State
  | .getProfileStatus, r, state =>
    (reporting (deskEntry (Operation.getProfileStatus.key r) state), state)
  | .downloadOrder, _, .available => (declaring ExecutionStatus.success, .allocated)
  | .confirmOrder, _, .allocated => (declaring ExecutionStatus.success, .released)
  | _, _, state => (declaring "Failed", state)

/-- A reply that was written for a response is read as this one. -/
theorem reading_encode (op : Operation) (r : op.Response) :
    reading op (.ok (op.responseShape.encode r)) = .ok r := by
  unfold reading
  dsimp only
  rw [op.responseMeaning.readsBack op.height_responseMeaning r]

/-- A report with one entry brings this entry. -/
theorem status?_reporting (r : Operation.getProfileStatus.Request) (s : Status) :
    (Exchange.mk .getProfileStatus r (reporting s)).status? = some s := by
  have hread : reading .getProfileStatus (reporting s) = .ok ⟨.success, [s], ""⟩ :=
    reading_encode .getProfileStatus (⟨.success, [s], ""⟩ : StatusResponse)
  exact Exchange.status?_eq_some_reading.mpr ⟨_, hread, rfl⟩

/-- The desk tells the truth about the one state that it keeps. -/
theorem desk_keepsStates : KeepsStates desk State.name := by
  constructor
  case told =>
    intro r state s hs
    have hreport : (Exchange.mk .getProfileStatus r (desk .getProfileStatus r state).1).status? =
        some (deskEntry (Operation.getProfileStatus.key r) state) := status?_reporting r _
    rw [hreport] at hs
    obtain rfl := Option.some.inj hs
    rfl
  case kept => exact fun _ _ => rfl
  case moved =>
    intro step r state
    cases step with
    | download => cases state <;> rfl
    | confirm => cases state <;> rfl

end Client

end ProfileAdmin
