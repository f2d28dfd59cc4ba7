import ProfileAdmin.Proofs.Client.Protocol
import ProfileAdmin.Proofs.Client.Provider

/-!
# Proofs.Client.Resumption — activations that are interrupted and begun again

1. **Conversations with an endpoint**: what an endpoint keeps as long as it is asked for
   nothing but what a law of conversations allows.
2. **Sparing**: over any number of activations, whatever gets lost, an endpoint that
   administers a profile processes each step once at most.
3. **Faultless runs**: rules for attempts in which nothing goes wrong.
4. **Completion**: a faultless activation ends with a released profile, from whatever state
   the activations before it left behind.
5. **Resumption**: both together, for every sequence of activations.
-/

namespace ProfileAdmin.Client

open Call
open Host (Deed Effect Event Program)
open Host.Program
open Profile

variable {α β τ φ ρ : Type} {iccid : String} {c : Client}

/-! ## Conversations with an endpoint -/

/-- If an endpoint keeps something on every request that a law of conversations allows, it
keeps it over a conversation that obeys the law. The induction is on what is left of the
program, so the law is told what has been said before. -/
theorem run_alone_invariant (serve : Service τ) (ambient : (e : Effect) → ρ → e.Answer × ρ)
    {P : List Exchange → Exchange → Prop} {I : List Exchange → τ → Prop}
    (hstep : ∀ before op r t, I before t →
      P before ⟨op, r, (serve op (op.anonymous r) t).1⟩ →
        I (before ++ [⟨op, r, (serve op (op.anonymous r) t).1⟩]) (serve op (op.anonymous r) t).2)
    (p : Program α) (before : List Exchange) (t : τ) (a : ρ) (hI : I before t)
    (hP : Throughout (fun mid x => P (before ++ mid) x)
      (exchanges (p.history (alone serve ambient) (t, a)))) :
    I (before ++ exchanges (p.history (alone serve ambient) (t, a)))
      (p.run (alone serve ambient) (t, a)).2.1 := by
  induction p generalizing before t a with
  | done v => simpa [Program.history, Program.run] using hI
  | perform e next ih =>
      cases e with
      | exchange op r =>
          -- The exchange is the first one left, and the law holds of it with what was said before.
          have hcons : exchanges ((Program.perform (.exchange op r) next).history
              (alone serve ambient) (t, a)) = ⟨op, r, (serve op (op.anonymous r) t).1⟩ ::
              exchanges ((next (serve op (op.anonymous r) t).1).history (alone serve ambient)
                ((serve op (op.anonymous r) t).2, a)) := rfl
          rw [hcons, throughout_cons, List.append_nil] at hP
          obtain ⟨hfirst, hrest⟩ := hP
          have hnext := ih (serve op (op.anonymous r) t).1
            (before ++ [⟨op, r, (serve op (op.anonymous r) t).1⟩]) _ a (hstep _ _ _ _ hI hfirst)
            (by simpa only [List.append_assoc, List.cons_append, List.nil_append] using hrest)
          rw [hcons, List.append_cons]
          exact hnext
      | draw | note event | print line | fileBytes path | clock => exact ih _ before t _ hI hP

/-! ## Sparing -/

/-- A query or an order of the lifecycle. -/
def Exchange.IsRegular (x : Exchange) : Prop :=
  x.op = .getProfileStatus ∨ ∃ u ∈ transitions, x.op = u.step.operation

/-- A query is a regular exchange, and so is an order of the table. -/
theorem Query.regular {xs : List Exchange} {r : Except Error Status} (h : Query c iccid xs r) :
    ∀ x ∈ xs, x.IsRegular := by
  rcases h.eq_nil_or_singleton with rfl | ⟨q, rfl, hop, -⟩
  · simp
  · intro x hx
    rw [List.mem_singleton.mp hx]
    exact Or.inl hop

theorem Order.regular {u : Transition} {xs : List Exchange} {r : Except Error Unit}
    (hu : u ∈ transitions) (h : Order c iccid u.step xs r) : ∀ x ∈ xs, x.IsRegular := by
  rcases h.eq_nil_or_singleton with rfl | ⟨x, rfl, hop, -⟩
  · simp
  · intro y hy
    rw [List.mem_singleton.mp hy]
    exact Or.inr ⟨u, hu, hop⟩

/-- A course consists of regular exchanges. -/
theorem Course.regular {taken : List Step} {status : Status} {xs : List Exchange}
    {r : Except Error (Disposition × List Step)} (h : Course c iccid taken status xs r) :
    ∀ x ∈ xs, x.IsRegular := by
  induction h with
  | unrecognized unknown | arrived reported last | stalled known reported again => simp
  | failed known reported fresh order => exact order.regular known
  | finished known reported fresh order last => exact order.regular known
  | lost known reported fresh order onward query =>
      exact List.forall_mem_append.mpr ⟨order.regular known, query.regular⟩
  | turn known reported fresh order onward query rest ih =>
      exact List.forall_mem_append.mpr
        ⟨List.forall_mem_append.mpr ⟨order.regular known, query.regular⟩, ih⟩

/-- Whatever lies between the first query and the last is regular. -/
theorem Driven.regular {status : Status} {xs : List Exchange}
    {r : Except Error (Disposition × List Step)} (h : Driven c iccid status xs r) :
    ∀ x ∈ xs, x.IsRegular := by
  cases h with
  | spared token => simp
  | driven bare course => exact course.regular

/-- An activation sends nothing but queries and orders of the lifecycle. -/
theorem Run.regular {xs : List Exchange} {r : Except Error Activation} (h : Run c iccid xs r) :
    ∀ x ∈ xs, x.IsRegular := by
  cases h with
  | unread query => exact query.regular
  | broken query driven =>
      exact List.forall_mem_append.mpr ⟨query.regular, driven.regular⟩
  | unseen query driven reread | ended query driven reread =>
      exact List.forall_mem_append.mpr
        ⟨List.forall_mem_append.mpr ⟨query.regular, driven.regular⟩, reread.regular⟩

/-- Each step was processed once at most, and if it was, it lies in the past of the state.
All of them were successful. -/
structure Sparing (log : List Exchange) (state : String) : Prop where
  once : ∀ t ∈ transitions, asked t.step log = 0 ∨ (asked t.step log = 1 ∧ t.IsPast state)
  successful : ∀ x ∈ mutations log, x.Declares ExecutionStatus.success

theorem sparing_nil (state : String) : Sparing [] state :=
  ⟨fun _ _ => Or.inl rfl, by simp [mutations]⟩

/-- A query that was processed makes no difference. -/
theorem Sparing.query {log : List Exchange} {state : String} {x : Exchange}
    (h : Sparing log state) (hop : x.op = .getProfileStatus) : Sparing (log ++ [x]) state := by
  have hno : ∀ step : Step, Operation.getProfileStatus ≠ step.operation := by
    intro step
    cases step <;> decide
  constructor
  · intro t ht
    rw [asked_concat, hop, if_neg (hno t.step), Nat.add_zero]
    exact h.once t ht
  · have hnone : mutations [x] = [] := by simp [mutations, hop, Operation.isMutating]
    rw [mutations_append, hnone, List.append_nil]
    exact h.successful

/-- An order that is processed in the state that it leaves was not processed before, and will
not be again. -/
theorem Sparing.order {log : List Exchange} {u : Transition} {x : Exchange} (hu : u ∈ transitions)
    (h : Sparing log u.source.name) (hop : x.op = u.step.operation)
    (hdeclared : x.Declares ExecutionStatus.success) : Sparing (log ++ [x]) u.target.name := by
  have hinj : ∀ t ∈ transitions, t.step.operation = u.step.operation → t = u := by
    have hall : ∀ t ∈ transitions, ∀ u ∈ transitions,
        t.step.operation = u.step.operation → t = u := by decide
    exact fun t ht => hall t ht u hu
  constructor
  · intro t ht
    rw [asked_concat, hop]
    -- The step itself is counted for the first time; all other steps keep their count.
    by_cases hsame : u.step.operation = t.step.operation
    · obtain rfl := hinj t ht hsame.symm
      rw [if_pos rfl]
      rcases h.once t ht with hnone | ⟨-, hpast⟩
      · exact Or.inr ⟨by omega, isPast_target ht⟩
      · exact absurd rfl hpast.1
    · rw [if_neg hsame, Nat.add_zero]
      rcases h.once t ht with hnone | ⟨hone, hpast⟩
      · exact Or.inl hnone
      · have hstill := isPast_onward ht u.step hpast
        rw [onward_source hu] at hstill
        exact Or.inr ⟨hone, hstill⟩
  · intro y hy
    rw [mutations_append, List.mem_append] at hy
    rcases hy with hold | hnew
    · exact h.successful y hold
    · have hmem : y ∈ [x] := (List.mem_filter.mp hnew).1
      rwa [List.mem_singleton.mp hmem]

section

variable {serve : Service τ} {entry : τ → Status} {fate : φ → Fate × φ}

/-- The state that an endpoint has for its profile. -/
def stateOf (entry : τ → Status) (t : (τ × List Exchange) × φ) : String :=
  (entry t.1.1).state

/-- Between two requests of an activation: what was reported last is still the state of the
profile, no step was processed twice, and a released profile stays released. -/
structure Steadfast (entry : τ → Status) (released : Prop) (before : List Exchange)
    (t : (τ × List Exchange) × φ) : Prop where
  sparing : Sparing t.1.2 (stateOf entry t)
  reported : ∀ s, reported? before = some s → s.state = stateOf entry t
  stays : released → stateOf entry t = State.released.name

/-- A request that an activation may send is processed in the state that it is meant for. -/
theorem Administers.step (h : Administers iccid serve entry) {released : Prop}
    (before : List Exchange) (op : Operation) (r : op.Request) (t : (τ × List Exchange) × φ)
    (ht : Steadfast entry released before t)
    (hproper : Proper iccid before ⟨op, r, (lossy fate (logged serve) op (op.anonymous r) t).1⟩)
    (hregular : Exchange.IsRegular ⟨op, r, (lossy fate (logged serve) op (op.anonymous r) t).1⟩) :
    Steadfast entry released
      (before ++ [⟨op, r, (lossy fate (logged serve) op (op.anonymous r) t).1⟩])
      (lossy fate (logged serve) op (op.anonymous r) t).2 := by
  obtain ⟨⟨state, log⟩, f⟩ := t
  obtain ⟨hsparing, hreported, hstays⟩ := ht
  have hnamed : op.iccids (op.anonymous r) = [iccid] :=
    (iccids_anonymous op r).trans hproper.named
  have hcases := lossy_cases fate (logged serve) op (op.anonymous r) (state, log) f
  generalize lossy fate (logged serve) op (op.anonymous r) ((state, log), f) = out
    at hcases hproper hregular ⊢
  obtain ⟨reply, ⟨state', log'⟩, f'⟩ := out
  -- A reply that got lost reports nothing, whatever was asked.
  have hsilent : ∀ {reason : String} {s : Status}, reply = .error reason →
      reported? (before ++ [⟨op, r, reply⟩]) ≠ some s := by
    rintro reason s rfl hs
    rw [reported?_concat] at hs
    obtain rfl : op = .getProfileStatus := Exchange.op_of_status? hs
    cases hs
  -- The request is processed, with or without its reply getting lost, or it does not arrive.
  rcases hcases with ⟨hprocessed, hreply⟩ | ⟨huntouched, reason, hreply⟩
  · obtain ⟨rfl, rfl⟩ := Prod.mk.inj hprocessed
    rcases hregular with hquery | ⟨u, hu, horder⟩
    · obtain rfl : op = .getProfileStatus := hquery
      obtain ⟨hstatus, hstate⟩ := h.answered _ state hnamed
      refine ⟨?_, fun s hs => ?_, fun hreleased => hstate.trans (hstays hreleased)⟩
      · change Sparing (log ++ [_]) (entry (serve _ _ state).2).state
        rw [hstate]
        exact hsparing.query rfl
      · rcases hreply with rfl | ⟨reason, hlost⟩
        · rw [reported?_concat] at hs
          obtain rfl := Option.some.inj (hstatus.symm.trans hs)
          exact hstate.symm
        · exact absurd hs (hsilent hlost)
    · obtain rfl : op = u.step.operation := horder
      -- The report that licensed the order still holds.
      have hlicensed := hproper.licensed u hu rfl
      obtain ⟨s, hs, hsource⟩ := Option.map_eq_some_iff.mp hlicensed
      have hnow : (entry state).state = u.source.name := (hreported s hs).symm.trans hsource
      obtain ⟨hdeclared, hstate⟩ := h.obeyed u hu _ state hnamed hnow
      refine ⟨?_, fun s hs => ?_, fun hreleased => ?_⟩
      · change Sparing (log ++ [_]) (entry (serve _ _ state).2).state
        rw [hstate]
        refine Sparing.order hu ?_ rfl hdeclared
        rw [← hnow]
        exact hsparing
      · rw [reported?_concat] at hs
        have hne : u.step.operation ≠ .getProfileStatus := by
          cases u.step <;> decide
        exact absurd (Exchange.op_of_status? hs) hne
      · have hall : ∀ u ∈ transitions, u.source.name ≠ State.released.name := by decide
        exact absurd (hnow.symm.trans (hstays hreleased)) (hall u hu)
  · obtain ⟨rfl, rfl⟩ := Prod.mk.inj huntouched
    exact ⟨hsparing, fun s hs => absurd hs (hsilent hreply), hstays⟩

variable (fate) (ambient : (e : Effect) → ρ → e.Answer × ρ)

/-- The surroundings of an activation whose exchanges may get lost. -/
abbrev precarious (serve : Service τ) (fate : φ → Fate × φ)
    (ambient : (e : Effect) → ρ → e.Answer × ρ) :=
  alone (lossy fate (logged serve)) ambient

/-- An activation keeps what its requests keep. -/
theorem Administers.activation (h : Administers iccid serve entry) (c : Client)
    (t : (τ × List Exchange) × φ) (a : ρ) (hsparing : Sparing t.1.2 (stateOf entry t)) :
    Sparing ((c.activate iccid).run.run (precarious serve fate ambient) (t, a)).2.1.1.2
        (stateOf entry ((c.activate iccid).run.run (precarious serve fate ambient) (t, a)).2.1) ∧
      (stateOf entry t = State.released.name →
        stateOf entry ((c.activate iccid).run.run (precarious serve fate ambient) (t, a)).2.1 =
          State.released.name) := by
  have hrun : Run c iccid
      (conversation (precarious serve fate ambient) (c.activate iccid) (t, a)) _ :=
    conversation_run (precarious serve fate ambient) (t, a)
  -- Every request of a run is licensed and regular, which is what the endpoint needs.
  have hkept := run_alone_invariant (lossy fate (logged serve)) ambient
    (P := fun before x => Proper iccid before x ∧ x.IsRegular)
    (I := Steadfast entry (stateOf entry t = State.released.name))
    (fun before op r t' ht hx => h.step before op r t' ht hx.1 hx.2)
    (c.activate iccid).run [] t a ⟨hsparing, nofun, id⟩
    (fun i hi => ⟨hrun.proper i hi, hrun.regular _ (List.getElem_mem hi)⟩)
  exact ⟨hkept.sparing, hkept.stays⟩

/-- What activations leave behind, one after the other. -/
def afterAll {σ : Type} (answer : (e : Effect) → σ → e.Answer × σ) (iccid : String) :
    List Client → σ → σ
  | [], s => s
  | c :: attempts, s => afterAll answer iccid attempts ((c.activate iccid).run.run answer s).2

/-- The same for any number of activations, by induction on their list. -/
theorem Administers.activations (h : Administers iccid serve entry) (attempts : List Client)
    (t : (τ × List Exchange) × φ) (a : ρ) (hsparing : Sparing t.1.2 (stateOf entry t)) :
    Sparing (afterAll (precarious serve fate ambient) iccid attempts (t, a)).1.1.2
        (stateOf entry (afterAll (precarious serve fate ambient) iccid attempts (t, a)).1) ∧
      (stateOf entry t = State.released.name →
        stateOf entry (afterAll (precarious serve fate ambient) iccid attempts (t, a)).1 =
          State.released.name) := by
  induction attempts generalizing t a with
  | nil => exact ⟨hsparing, id⟩
  | cons c attempts ih =>
      obtain ⟨hone, hstays⟩ := h.activation fate ambient c t a hsparing
      obtain ⟨hall, hstay⟩ := ih _ _ hone
      exact ⟨hall, fun hreleased => hstay (hstays hreleased)⟩

end

/-! ## Faultless runs -/

/-- Whether a deed was done as it was asked for: random bytes were drawn, a request was
answered. -/
def succeeded : Deed → Bool
  | ⟨.draw, drawn⟩ => Except.isOk (drawn : Except String Draw)
  | ⟨.exchange _ _, reply⟩ => Except.isOk (reply : Except String (List UInt8))
  | _ => true

/-- A history in which nothing went wrong. -/
def Faultless (h : List Deed) : Prop :=
  ∀ d ∈ h, succeeded d = true

instance {h : List Deed} : Decidable (Faultless h) :=
  inferInstanceAs (Decidable (∀ d ∈ h, succeeded d = true))

/-- Two histories are faultless exactly if both are. -/
theorem faultless_append {h₁ h₂ : List Deed} :
    Faultless (h₁ ++ h₂) ↔ Faultless h₁ ∧ Faultless h₂ :=
  List.forall_mem_append

section

variable {σ : Type} {answer : (e : Effect) → σ → e.Answer × σ} {s : σ}

/-- Unless something goes wrong, an attempt gives a value, and this and the state that it
leaves are as said. -/
def Yields (answer : (e : Effect) → σ → e.Answer × σ) (s : σ) (x : Attempt α)
    (Q : α → σ → Prop) : Prop :=
  Faultless (Program.history answer x.run s) →
    ∃ v, (Program.run answer x.run s).1 = .ok v ∧ Q v (Program.run answer x.run s).2

/-- The rules: a value, a weaker conclusion, a program, a note, and what shows a payload. -/
theorem yields_pure {v : α} {Q : α → σ → Prop} (hQ : Q v s) :
    Yields answer s (pure v : Attempt α) Q :=
  fun _ => ⟨v, rfl, hQ⟩

theorem Yields.mono {x : Attempt α} {Q R : α → σ → Prop} (h : Yields answer s x Q)
    (hQR : ∀ v s', Q v s' → R v s') : Yields answer s x R := by
  intro hfaultless
  obtain ⟨v, hv, hQ⟩ := h hfaultless
  exact ⟨v, hv, hQR v _ hQ⟩

/-- The second attempt begins with what the first has given and left. -/
theorem Yields.seq {x : Attempt α} {f : α → Attempt β} {Q : α → σ → Prop} {R : β → σ → Prop}
    (h : Yields answer s x Q) (hf : ∀ v s', Q v s' → Yields answer s' (f v) R) :
    Yields answer s (x >>= f) R := by
  intro hfaultless
  rw [ExceptT.run_bind, history_bind, faultless_append] at hfaultless
  obtain ⟨hfirst, hsecond⟩ := hfaultless
  obtain ⟨v, hv, hQ⟩ := h hfirst
  rw [ExceptT.run_bind, run_bind]
  simp only [hv] at hsecond ⊢
  exact hf v _ hQ hsecond

theorem yields_plain {p : Program α} {Q : α → σ → Prop}
    (hQ : Faultless (p.history answer s) → Q (p.run answer s).1 (p.run answer s).2) :
    Yields answer s (plain p) Q := by
  have hplain : (plain p).run = p >>= fun a => Program.done (.ok a) := rfl
  intro hfaultless
  rw [hplain, history_bind, faultless_append] at hfaultless
  rw [hplain, run_bind]
  exact ⟨_, rfl, hQ hfaultless.1⟩

end

section

variable {serve : Service τ} {entry : τ → Status} {fate : φ → Fate × φ}
  {ambient : (e : Effect) → ρ → e.Answer × ρ} {s : ((τ × List Exchange) × φ) × ρ}

theorem yields_note (e : Event) :
    Yields (precarious serve fate ambient) s (plain (note e)) fun _ s' => s'.1 = s.1 :=
  yields_plain fun _ => rfl

theorem yields_showing (c : Client) (e : Event) :
    Yields (precarious serve fate ambient) s (plain (c.showing e)) fun _ s' => s'.1 = s.1 := by
  refine yields_plain fun _ => ?_
  unfold showing
  split <;> rfl

/-- A draw that works makes a header, and leaves the endpoint alone. -/
theorem yields_newHeader (c : Client) :
    Yields (precarious serve fate ambient) s c.newHeader fun _ s' => s'.1 = s.1 := by
  unfold newHeader
  refine (yields_plain (Q := fun d s' => d.isOk = true ∧ s'.1 = s.1) ?_).seq ?_
  · intro hfaultless
    exact ⟨hfaultless _ List.mem_cons_self, rfl⟩
  · rintro (reason | d) s' ⟨hok, hsame⟩
    · cases hok
    · exact yields_pure hsame

/-- An exchange that is answered was processed. -/
theorem yields_exchange (op : Operation) (r : op.Request) :
    Yields (precarious serve fate ambient) s (plain (exchange op r)) fun reply s' =>
      reply = (serve op (op.anonymous r) s.1.1.1).1 ∧
        s'.1.1.1 = (serve op (op.anonymous r) s.1.1.1).2 := by
  obtain ⟨⟨⟨t, log⟩, f⟩, a⟩ := s
  refine yields_plain fun hfaultless => ?_
  have hok : Except.isOk (lossy fate (logged serve) op (op.anonymous r) ((t, log), f)).1 = true :=
    hfaultless _ List.mem_cons_self
  -- A faultless exchange has a reply, so it was served.
  have hnot : ∀ reason : String,
      (lossy fate (logged serve) op (op.anonymous r) ((t, log), f)).1 ≠ .error reason := by
    intro reason hlost
    rw [hlost] at hok
    cases hok
  rcases lossy_cases fate (logged serve) op (op.anonymous r) (t, log) f with
    ⟨hprocessed, hreply | ⟨reason, hlost⟩⟩ | ⟨-, reason, hlost⟩
  · exact ⟨hreply, congrArg Prod.fst hprocessed⟩
  · exact absurd hlost (hnot reason)
  · exact absurd hlost (hnot reason)

/-- A reply that can be read gives its response, and the endpoint is left alone. -/
theorem yields_digest {op : Operation} {reply : Except String (List UInt8)}
    {response : op.Response} (hread : reading op reply = .ok response) :
    Yields (precarious serve fate ambient) s (c.digest op reply) fun v s' =>
      v = response ∧ s'.1 = s.1 := by
  cases reply with
  | error reason => cases hread
  | ok body =>
      refine (yields_showing c _).seq fun _ s' hs' => ?_
      unfold reading at hread
      cases hd : op.responseShape.decode body with
      | error f => simp [hd] at hread
      | ok found =>
          simp only [hd, Except.ok.injEq] at hread
          refine (yields_note _).seq fun _ s'' hs'' => ?_
          exact yields_pure ⟨hread, hs''.trans hs'⟩

/-- A call whose reply can be read gives what it reads as. -/
theorem yields_invoke {op : Operation} {r : op.Request} {response : op.Response}
    (hread : reading op (serve op (op.anonymous r) s.1.1.1).1 = .ok response) :
    Yields (precarious serve fate ambient) s (c.invoke op r) fun v s' =>
      v = response ∧ s'.1.1.1 = (serve op (op.anonymous r) s.1.1.1).2 := by
  rw [invoke_eq]
  refine (yields_showing c _).seq fun _ s₁ hs₁ => ?_
  refine (yields_exchange op r).seq ?_
  rintro reply s₂ ⟨rfl, hs₂⟩
  rw [hs₁] at hs₂ ⊢
  refine (yields_digest hread).mono ?_
  rintro v s₃ ⟨rfl, hs₃⟩
  exact ⟨rfl, by rw [hs₃, hs₂]⟩

/-! ## Completion -/

/-- A query gives the entry of the profile. -/
theorem Administers.yields_status (h : Administers iccid serve entry) (c : Client) :
    Yields (precarious serve fate ambient) s (c.status iccid) fun found s' =>
      found = entry s.1.1.1 ∧ stateOf entry s'.1 = stateOf entry s.1 := by
  unfold status status?
  refine Yields.seq (Q := fun found s' => found = some (entry s.1.1.1) ∧
    stateOf entry s'.1 = stateOf entry s.1) ?_ ?_
  · refine (yields_newHeader c).seq fun header s₁ hs₁ => ?_
    -- The endpoint answers the query with the entry, which is read as such.
    obtain ⟨hstatus, hstate⟩ := h.answered
      (Operation.getProfileStatus.anonymous (StatusRequest.mk header [iccid])) s.1.1.1 rfl
    obtain ⟨response, hread, hentries⟩ := Exchange.status?_eq_some_reading.mp hstatus
    have hread' : reading .getProfileStatus (serve .getProfileStatus
        (Operation.getProfileStatus.anonymous (StatusRequest.mk header [iccid])) s₁.1.1.1).1 =
          .ok response := by
      rwa [hs₁]
    refine (yields_invoke hread').seq ?_
    rintro _ s₂ ⟨rfl, hs₂⟩
    simp only [hentries, h.same, if_pos]
    refine yields_pure ⟨rfl, ?_⟩
    rw [stateOf, hs₂, hs₁]
    exact hstate
  · rintro _ s' ⟨rfl, hs'⟩
    exact yields_pure ⟨rfl, hs'⟩

/-- A step that leaves the state of the profile is taken. -/
theorem Administers.yields_take (h : Administers iccid serve entry) (c : Client) {u : Transition}
    (hu : u ∈ transitions) (hsource : stateOf entry s.1 = u.source.name) :
    Yields (precarious serve fate ambient) s (c.take iccid u.step) fun _ s' =>
      stateOf entry s'.1 = u.target.name := by
  rw [take_eq]
  refine Yields.seq (Q := fun _ s' => stateOf entry s'.1 = u.target.name) ?_
    fun _ s' hs' => yields_pure hs'
  refine (yields_newHeader c).seq fun header s₁ hs₁ => ?_
  have hnamed : u.step.operation.iccids
      (u.step.operation.anonymous (orderRequest iccid header u.step)) = [iccid] := by
    cases u.step <;> rfl
  rw [← hs₁] at hsource
  -- The order leaves the state that the profile is in, so it is obeyed.
  obtain ⟨hdeclared, hstate⟩ := h.obeyed u hu _ s₁.1.1.1 hnamed hsource
  obtain ⟨response, hread, hsuccess⟩ := declares_iff.mp hdeclared
  refine (yields_invoke hread).seq ?_
  rintro _ s₂ ⟨rfl, hs₂⟩
  simp only [requireSuccess, ExecutionStatus.isSuccess, hsuccess, beq_self_eq_true, if_true]
  refine yields_pure ?_
  rw [stateOf, hs₂]
  exact hstate

/-- The loop brings the profile to its last state. The induction is on the turns: the steps
that can still happen have not been taken, and after a turn there are fewer of them. -/
theorem Administers.yields_drive (h : Administers iccid serve entry) (c : Client) {turns : Nat}
    {taken : List Step} {status : Status} (hturns : untaken taken < turns)
    (hstatus : status.state = stateOf entry s.1)
    (hfresh : ∀ u ∈ transitions, ¬ u.IsPast status.state → u.step ∉ taken) :
    Yields (precarious serve fate ambient) s (c.drive iccid turns taken status) fun _ s' =>
      stateOf entry s'.1 = State.released.name := by
  induction turns generalizing taken status s with
  | zero => exact absurd hturns (Nat.not_lt_zero _)
  | succ turns ih =>
      unfold drive
      split
      case h_1 hunknown =>
        -- The endpoint knows no other states.
        have hne := lifecycle?_eq_none_iff.mp hunknown
        rw [hstatus] at hne
        rcases h.sound s.1.1.1 with ⟨havailable | hallocated, -⟩ | ⟨hreleased, -⟩
        · exact absurd havailable (hne .available)
        · exact absurd hallocated (hne .allocated)
        · exact absurd hreleased (hne .released)
      case h_2 state hstate =>
        rw [lifecycle?_eq_some_iff] at hstate
        split
        case h_1 hlast =>
          obtain rfl : state = .released :=
            isTerminal_iff.mp (by simp [State.isTerminal, hlast])
          exact yields_pure (hstatus.symm.trans hstate)
        case h_2 u hleaves =>
          obtain ⟨hu, rfl⟩ := transition?_eq_some_iff.mp hleaves
          have hnow : u.step ∉ taken := hfresh u hu fun hpast => hpast.1 hstate
          rw [if_neg hnow]
          refine (yields_note _).seq fun _ s₁ hs₁ => ?_
          have hsource : stateOf entry s₁.1 = u.source.name := by
            rw [hs₁, ← hstatus, hstate]
          refine (h.yields_take c hu hsource).seq fun _ s₂ hs₂ => ?_
          dsimp only
          split
          case isTrue hlast =>
            obtain hreleased := isTerminal_iff.mp hlast
            exact yields_pure (by rw [hs₂, hreleased])
          case isFalse honward =>
            refine (h.yields_status c).seq ?_
            rintro _ s₃ ⟨rfl, hs₃⟩
            have hfewer := untaken_append_lt hu hnow
            refine ih (by omega) hs₃.symm fun v hv hahead => ?_
            -- What can still happen behind `u` could happen before it, and is not `u`.
            change ¬ v.IsPast (stateOf entry s₂.1) at hahead
            rw [hs₂] at hahead
            rw [List.mem_append, List.mem_singleton, not_or]
            constructor
            · refine hfresh v hv fun hpast => hahead ?_
              rw [← onward_source hu, ← hstate]
              exact isPast_onward hv u.step hpast
            · intro hsame
              obtain rfl := transition_unique hv hu hsame
              exact hahead (isPast_target hv)

/-- A faultless activation ends with a released profile. If it was released before, no step
is taken. -/
theorem Administers.yields_activate (h : Administers iccid serve entry) (c : Client) :
    Yields (precarious serve fate ambient) s (c.activate iccid) fun a s' =>
      (a.status.state = State.released.name ∧ a.isActivated = true) ∧
        stateOf entry s'.1 = State.released.name ∧
        (stateOf entry s.1 = State.released.name →
          a.disposition = .alreadyActivated ∧ a.steps = []) := by
  -- Only a released profile has a token.
  have hsound : ∀ t, (entry t).state = State.released.name ↔ (entry t).isActivated = true := by
    intro t
    rcases h.sound t with ⟨havailable | hallocated, hbare⟩ | ⟨hreleased, htoken⟩
    · simp [havailable, hbare, State.name]
    · simp [hallocated, hbare, State.name]
    · simp [hreleased, htoken, State.name]
  rw [activate_eq]
  refine (h.yields_status c).seq ?_
  rintro _ s₁ ⟨rfl, hs₁⟩
  refine Yields.seq (Q := fun way s₂ => stateOf entry s₂.1 = State.released.name ∧
    (stateOf entry s.1 = State.released.name → way = (.alreadyActivated, []))) ?_ ?_
  · unfold between
    split
    case isTrue htoken =>
      refine (yields_note _).seq fun _ s₂ hs₂ => yields_pure ⟨?_, fun _ => rfl⟩
      rw [hs₂, hs₁]
      exact (hsound _).mpr htoken
    case isFalse hbare =>
      -- A profile without a token is not released, so what is said of released ones holds of none.
      have hnot : stateOf entry s.1 ≠ State.released.name := fun hreleased =>
        hbare ((hsound _).mp hreleased)
      refine (h.yields_drive c (by decide) hs₁.symm fun u _ _ => List.not_mem_nil).mono ?_
      exact fun _ s₂ hs₂ => ⟨hs₂, fun hreleased => absurd hreleased hnot⟩
  · rintro ⟨d, steps⟩ s₂ ⟨hreleased, hway⟩
    refine (h.yields_status c).seq ?_
    rintro _ s₃ ⟨rfl, hs₃⟩
    refine (yields_note _).seq fun _ s₄ hs₄ => yields_pure ⟨⟨hreleased, ?_⟩, ?_, fun hbefore => ?_⟩
    · exact (hsound _).mp hreleased
    · rw [hs₄, hs₃, hreleased]
    · exact Prod.mk.inj (hway hbefore)

end

/-! ## Resumption -/

/-- What the endpoint has processed. -/
def processed (s : ((τ × List Exchange) × φ) × ρ) : List Exchange :=
  s.1.1.2

/-- What an endpoint has processed over some activations: each step once at most, and every
order that came was declared a success. -/
structure Spares (log : List Exchange) : Prop where
  downloads : asked .download log ≤ 1
  confirmations : asked .confirm log ≤ 1
  successful : ∀ x ∈ mutations log, x.Declares ExecutionStatus.success
  unfailing : ∀ x ∈ mutations log, ¬ x.Declares "Failed"

/-- What was processed in the past was processed once at most. -/
theorem Sparing.spares {log : List Exchange} {state : String} (h : Sparing log state) :
    Spares log := by
  have hfew : ∀ step : Step, asked step log ≤ 1 := by
    intro step
    obtain ⟨t, ht, rfl⟩ := exists_transition step
    rcases h.once t ht with hnone | ⟨hone, -⟩ <;> omega
  refine ⟨hfew .download, hfew .confirm, h.successful, fun x hx hfailed => ?_⟩
  have hsame : some ExecutionStatus.success = some "Failed" :=
    (h.successful x hx).symm.trans hfailed
  exact absurd (Option.some.inj hsame) (by decide)

section

variable {σ : Type} (answer : (e : Effect) → σ → e.Answer × σ) (iccid : String) (s : σ)

/-- From here on, a faultless activation ends with an activated profile. -/
def Completes : Prop :=
  ∀ c : Client, Faultless (Program.history answer (c.activate iccid).run s) →
    ∃ a, ((c.activate iccid).run.run answer s).1 = .ok a ∧
      a.status.state = "RELEASED" ∧ a.isActivated = true

/-- From here on, a faultless activation has nothing to do. -/
def Rests : Prop :=
  ∀ c : Client, Faultless (Program.history answer (c.activate iccid).run s) →
    mutations (conversation answer (c.activate iccid) s) = [] ∧
      ∃ a, ((c.activate iccid).run.run answer s).1 = .ok a ∧
        a.disposition = .alreadyActivated ∧ a.steps = []

end

section

variable {serve : Service τ} {entry : τ → Status}

/-- From any state that is left behind, a faultless activation completes. -/
theorem Administers.completes (h : Administers iccid serve entry) (fate : φ → Fate × φ)
    (ambient : (e : Effect) → ρ → e.Answer × ρ) (s : ((τ × List Exchange) × φ) × ρ) :
    Completes (precarious serve fate ambient) iccid s := by
  intro c hfaultless
  obtain ⟨a, ha, ⟨hstate, htoken⟩, -⟩ := h.yields_activate c hfaultless
  exact ⟨a, ha, hstate, htoken⟩

/-- An activation without steps asks for none. -/
theorem Administers.rests (h : Administers iccid serve entry) (fate : φ → Fate × φ)
    (ambient : (e : Effect) → ρ → e.Answer × ρ) (s : ((τ × List Exchange) × φ) × ρ)
    (hreleased : stateOf entry s.1 = State.released.name) :
    Rests (precarious serve fate ambient) iccid s := by
  intro c hfaultless
  obtain ⟨a, ha, -, -, hbefore⟩ := h.yields_activate c hfaultless
  obtain ⟨hdisposition, hsteps⟩ := hbefore hreleased
  have hrun : Run c iccid (conversation (precarious serve fate ambient) (c.activate iccid) s)
      ((c.activate iccid).run.run (precarious serve fate ambient) s).1 :=
    conversation_run (precarious serve fate ambient) s
  rw [ha] at hrun
  -- No steps, no orders: the steps of an activation are its orders.
  have hops := hrun.complete.taken.ops
  rw [hsteps, List.map_nil, List.map_eq_nil_iff] at hops
  exact ⟨hops, a, ha, hdisposition, hsteps⟩

/-- Activations of a profile may be interrupted at any exchange and begun again, any number
of times: no step is processed twice or in vain. The first that is not interrupted releases the
profile, and those after it have nothing to do. -/
theorem activate_resumes (h : Administers iccid serve entry) (fate : φ → Fate × φ)
    (ambient : (e : Effect) → ρ → e.Answer × ρ) (t : τ) (f : φ) (a : ρ)
    (attempts : List Client) :
    let answer := precarious serve fate ambient
    let s := afterAll answer iccid attempts (((t, []), f), a)
    Spares (processed s) ∧ Completes answer iccid s ∧
      ∀ c : Client, Faultless (Program.history answer (c.activate iccid).run s) →
        ∀ more : List Client,
          Rests answer iccid
            (afterAll answer iccid more ((c.activate iccid).run.run answer s).2) := by
  intro answer s
  obtain ⟨hsparing, -⟩ := h.activations fate ambient attempts ((t, []), f) a (sparing_nil _)
  refine ⟨hsparing.spares, h.completes fate ambient s, fun c hfaultless more => ?_⟩
  obtain ⟨-, -, -, hreleased, -⟩ := h.yields_activate c hfaultless
  -- The activation that releases the profile keeps the log as sparing as it found it.
  obtain ⟨hkept, -⟩ := h.activation fate ambient c s.1 s.2 hsparing
  obtain ⟨-, hstays⟩ := h.activations fate ambient more _ _ hkept
  exact h.rests fate ambient _ (hstays hreleased)

end

/-- The desk administers a profile. -/
theorem desk_administers :
    Administers "8965030119040000067" desk (deskEntry "8965030119040000067") := by
  have hread : ∀ step : Step, ∀ status ∈ [ExecutionStatus.success, "Failed"],
      ((reading step.operation (declaring status)).toOption.map step.operation.execution).map
        ExecutionStatus.status = some status := by
    intro step
    cases step <;> decide +kernel
  have hdeclared : ∀ (step : Step) (r : step.operation.Request),
      Exchange.Declares ⟨step.operation, r, declaring ExecutionStatus.success⟩
          ExecutionStatus.success ∧
        Exchange.Declares ⟨step.operation, r, declaring "Failed"⟩ "Failed" :=
    fun step _ => ⟨hread step _ (by simp), hread step _ (by simp)⟩
  constructor
  case same => exact fun _ => rfl
  case sound =>
    intro state
    cases state with
    | available | allocated => exact Or.inl (by decide)
    | released => exact Or.inr (by decide)
  case answered =>
    intro r state hnamed
    have hdesk : desk .getProfileStatus r state =
        (reporting (deskEntry (Operation.getProfileStatus.key r) state), state) := rfl
    rw [hdesk, Operation.key, hnamed, List.headD_cons]
    exact ⟨status?_reporting r _, rfl⟩
  -- The desk obeys each order in the one state that it leaves.
  case obeyed =>
    intro u hu r state _ hsource
    rcases mem_transitions_iff.mp hu with rfl | rfl
    · cases state with
      | available => exact ⟨(hdeclared .download r).1, rfl⟩
      | allocated | released => exact absurd hsource (by decide)
    · cases state with
      | allocated => exact ⟨(hdeclared .confirm r).1, rfl⟩
      | available | released => exact absurd hsource (by decide)
  case declined =>
    intro u hu r state _ hother
    rcases mem_transitions_iff.mp hu with rfl | rfl
    · cases state with
      | available => exact absurd rfl hother
      | allocated | released => exact ⟨(hdeclared .download r).2, rfl⟩
    · cases state with
      | allocated => exact absurd rfl hother
      | available | released => exact ⟨(hdeclared .confirm r).2, rfl⟩

/-- The fates of exchanges as they are listed, and from then on all are served. -/
def listed : List Fate → Fate × List Fate
  | [] => (.served, [])
  | fate :: fates => (fate, fates)

/-- The reply to the confirmation gets lost. The next activation finds the profile released,
and those after it have nothing to do. -/
theorem activate_resumes_unanswered :
    let c : Client := ⟨"ACME", ⟨false, false⟩⟩
    let answer := precarious desk listed still
    let s := afterAll answer "8965030119040000067" [c]
      (((State.available, []), [.served, .served, .served, .unanswered "timeout"]), ())
    Spares (processed s) ∧
      (∃ a, ((c.activate "8965030119040000067").run.run answer s).1 = .ok a ∧
        a.status.state = "RELEASED" ∧ a.isActivated = true) ∧
      mutations (conversation answer (c.activate "8965030119040000067")
        (afterAll answer "8965030119040000067" [c]
          ((c.activate "8965030119040000067").run.run answer s).2)) = [] := by
  intro c answer s
  have hresumes := activate_resumes desk_administers listed still
    State.available [.served, .served, .served, .unanswered "timeout"] () [c]
  have hfirst : Faultless (Program.history answer (c.activate "8965030119040000067").run s) := by
    decide +kernel
  have hsecond : Faultless (Program.history answer (c.activate "8965030119040000067").run
      (afterAll answer "8965030119040000067" [c]
        ((c.activate "8965030119040000067").run.run answer s).2)) := by
    decide +kernel
  exact ⟨hresumes.1, hresumes.2.1 c hfirst, (hresumes.2.2 c hfirst [c] c hsecond).1⟩

end ProfileAdmin.Client
