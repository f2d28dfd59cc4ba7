import ProfileAdmin.Proofs.Client.Resumption
import ProfileAdmin.Proofs.Command.Bulk

/-!
# Proofs.Command.Repetition — lists on which a profile stands more than once

1. **Entries under way**: what has been done of an entry says what can be done next.
2. **Workers at a profile**: there are no more of them than workers, and no more than entries.
3. **Tallies**: how often a step reaches the endpoint, and how many workers are about to ask
   for it. Once it has been taken, nobody new is.
4. **Turns**: if only one worker is at a profile at a time, its activations follow each other.
5. **Lists**: both, at any time, for every order in which the workers take turns.
-/

namespace ProfileAdmin.Command.Bulk

open Call
open Client
open Host (Deed Effect Pool Program Worker)
open Host.Program
open Profile

variable {α σ τ φ ρ : Type} {c : Client} {iccid : String} {iccids : List String}
  {parallelism : Nat}

/-! ## Entries under way -/

/-- What an activation says and hears from its beginning to its end. -/
def IsActivation (c : Client) (iccid : String) (xs : List Exchange) : Prop :=
  ∃ h r, Program.Returns (c.activate iccid).run h r ∧ exchanges h = xs

/-- An entry says and hears what its activation does. -/
theorem activateOne_activates {h : List Deed} {o : Outcome}
    (hr : (activateOne c iccid).Returns h o) : IsActivation c iccid (exchanges h) := by
  rw [activateOne_eq] at hr
  obtain ⟨h₁, h₂, result, rfl, hactivate, hrest⟩ := returns_bind_iff.mp hr
  obtain ⟨h₃, h₄, u, rfl, hnote, hdone⟩ := returns_bind_iff.mp hrest
  obtain ⟨rfl, rfl⟩ := returns_done_iff.mp hdone
  have hsilent : exchanges h₃ = [] := by
    cases result with
    | ok a =>
        obtain ⟨rfl, -⟩ := returns_done_iff.mp hnote
        rfl
    | error e =>
        obtain rfl := returns_ask_iff.mp hnote
        rfl
  refine ⟨h₁, result, hactivate, ?_⟩
  rw [exchanges_append, exchanges_append, hsilent, exchanges_nil, List.append_nil, List.append_nil]

/-- What an entry says is a run of the lifecycle. -/
theorem activateOne_run_of_returns {h : List Deed} {o : Outcome}
    (hr : (activateOne c iccid).Returns h o) : ∃ r, Run c iccid (exchanges h) r := by
  obtain ⟨h', r, hactivate, hsame⟩ := activateOne_activates hr
  exact ⟨r, hsame ▸ activate_returns hactivate⟩

/-- An exchange that an entry goes on with names its profile. It is a query, or it is licensed
by the report directly before. -/
theorem exchange_of_remains {before : List Deed} {op : Operation} {r : op.Request}
    {next : Effect.Answer (.exchange op r) → Program Outcome}
    (h : Remains (activateOne c iccid) before (.perform (.exchange op r) next)) :
    op.iccids r = [iccid] ∧ (op = .getProfileStatus ∨ ∃ u ∈ transitions,
      op = u.step.operation ∧
        (reported? (exchanges before)).map Status.state = some u.source.name) := by
  -- Any way to the end will do: the exchange is one of the run that it leads to.
  obtain ⟨h', o, hr⟩ := exists_returns (next (Except.error "" : Except String (List UInt8)))
  obtain ⟨result, hrun⟩ := activateOne_run_of_returns (h _ o (Returns.perform _ hr))
  have hexchanges : exchanges (before ++
      ⟨.exchange op r, (Except.error "" : Except String (List UInt8))⟩ :: h') =
        exchanges before ++ ⟨op, r, .error ""⟩ :: exchanges h' := exchanges_append ..
  rw [hexchanges] at hrun
  have hproper := (throughout_cons.mp (throughout_append.mp hrun.proper).2).1
  rw [List.append_nil] at hproper
  refine ⟨hproper.named, ?_⟩
  have hmem : Exchange.mk op r (.error "") ∈
      exchanges before ++ ⟨op, r, .error ""⟩ :: exchanges h' := by simp
  rcases hrun.regular _ hmem with hquery | ⟨u, hu, horder⟩
  · exact Or.inl hquery
  · exact Or.inr ⟨u, hu, horder, hproper.licensed u hu horder⟩

/-- The request for a step may be the next that a program sends. -/
def MayTake (step : Step) (rest : Program α) : Prop :=
  ∃ h a, rest.Returns h a ∧ (exchanges h).head?.map Exchange.op = some step.operation

/-- A program that is about to send a request may take the step of this request only. -/
theorem mayTake_exchange_iff {step : Step} {op : Operation} {r : op.Request}
    {next : Effect.Answer (.exchange op r) → Program α} :
    MayTake step (.perform (.exchange op r) next) ↔ op = step.operation := by
  constructor
  · rintro ⟨h, a, hr, hop⟩
    obtain ⟨reply, h', rfl, -⟩ := returns_perform_iff.mp hr
    exact Option.some.inj hop
  · rintro rfl
    obtain ⟨h, a, hr⟩ := exists_returns (next (Except.error "" : Except String (List UInt8)))
    exact ⟨_, a, Returns.perform _ hr, rfl⟩

/-- What is not said to the endpoint adds no exchange. -/
theorem exchanges_silent {e : Effect} (hsilent : ∀ op r, e ≠ .exchange op r) (reply : e.Answer)
    (h : List Deed) : exchanges (⟨e, reply⟩ :: h) = exchanges h := by
  cases e with
  | exchange op r => exact absurd rfl (hsilent op r)
  | draw | note | print | fileBytes | clock => rfl

/-- Who may take a step after something silent may take it before. -/
theorem MayTake.of_silent {step : Step} {e : Effect} {next : e.Answer → Program α}
    (hsilent : ∀ op r, e ≠ .exchange op r) {reply : e.Answer} (h : MayTake step (next reply)) :
    MayTake step (.perform e next) := by
  obtain ⟨h', a, hr, hop⟩ := h
  exact ⟨_, a, Returns.perform reply hr, by rwa [exchanges_silent hsilent]⟩

/-- An entry that may ask for a step was told that the profile is in the state that the step
leaves. -/
theorem MayTake.licensed {before : List Deed} {rest : Program Outcome} {u : Transition}
    (hu : u ∈ transitions) (hrest : Remains (activateOne c iccid) before rest)
    (h : MayTake u.step rest) :
    (reported? (exchanges before)).map Status.state = some u.source.name := by
  obtain ⟨h', o, hr, hop⟩ := h
  obtain ⟨result, hrun⟩ := activateOne_run_of_returns (hrest _ o hr)
  rw [exchanges_append] at hrun
  -- The request for the step is the next that is sent, so its licence is the last report so far.
  cases hx : exchanges h' with
  | nil =>
      rw [hx] at hop
      cases hop
  | cons x xs =>
      rw [hx] at hrun hop
      have hproper := (throughout_cons.mp (throughout_append.mp hrun.proper).2).1
      rw [List.append_nil] at hproper
      exact hproper.licensed u hu (Option.some.inj hop)

/-! ## Workers at a profile -/

/-- Whether a worker is at an entry for a profile. -/
def isAt (iccids : List String) (iccid : String) : Worker Outcome → Bool
  | .busy i _ => iccids[i]? = some iccid
  | _ => false

/-- How many workers can be at a profile at a time. -/
def overlap (iccids : List String) (parallelism : Nat) (iccid : String) : Nat :=
  min (workerCount iccids parallelism) (iccids.count iccid)

/-- An ICCID is counted by the indices at which it stands. -/
theorem countP_range_getElem? (iccids : List String) (iccid : String) :
    (List.range iccids.length).countP (fun i => iccids[i]? = some iccid) = iccids.count iccid := by
  have hall : (List.range iccids.length).map (fun i => iccids[i]?) = iccids.map some := by
    refine List.ext_getElem (by simp) fun i hi hi' => ?_
    simp at hi
    simp [hi]
  have hcount := List.count_map_of_injective iccids some (Option.some_injective _) iccid
  rw [← hcount, ← hall, List.count, List.countP_map]
  congr 1
  funext i
  rw [Function.comp_apply, beq_eq_decide]

/-- No more workers are at a profile than there are workers, or entries for it. -/
theorem Working.isAt_le {p : Pool Outcome} (h : Working c iccids parallelism p) (iccid : String) :
    p.workers.countP (isAt iccids iccid) ≤ overlap iccids parallelism iccid := by
  refine Nat.le_min.mpr ⟨?_, ?_⟩
  · rw [← h.workers_length]
    exact List.countP_le_length
  · have hindices : p.workers.countP (isAt iccids iccid) =
        p.claimed.countP fun i => iccids[i]? = some iccid := by
      rw [Pool.claimed, List.countP_filterMap]
      congr 1
      funext worker
      cases worker <;> rfl
    -- No index is claimed twice, so no more are claimed than there are entries.
    have hlength : p.next ≤ iccids.length := by
      simpa [h.jobs_eq] using h.accounted.next_le
    calc p.workers.countP (isAt iccids iccid)
        = p.claimed.countP fun i => iccids[i]? = some iccid := hindices
      _ ≤ (p.claimed ++ p.results.map Prod.fst).countP fun i => iccids[i]? = some iccid := by
          rw [List.countP_append]
          exact Nat.le_add_right _ _
      _ = (List.range p.next).countP fun i => iccids[i]? = some iccid :=
          h.accounted.perm.countP_eq _
      _ ≤ (List.range iccids.length).countP fun i => iccids[i]? = some iccid :=
          (List.range_sublist.mpr hlength).countP_le
      _ = iccids.count iccid := countP_range_getElem? iccids iccid

/-- A worker at an entry for a profile may be about to ask for a step. -/
def IsPending (iccids : List String) (iccid : String) (step : Step)
    (worker : Worker Outcome) : Prop :=
  ∃ i rest, worker = .busy i rest ∧ iccids[i]? = some iccid ∧ MayTake step rest

open Classical in
/-- How many workers may be about to ask for a step. -/
noncomputable def pending (iccids : List String) (iccid : String) (step : Step)
    (workers : List (Worker Outcome)) : Nat :=
  workers.countP fun worker => IsPending iccids iccid step worker

open Classical in
/-- A worker is pending or not. -/
theorem pending_cons (iccids : List String) (iccid : String) (step : Step)
    (worker : Worker Outcome) (workers : List (Worker Outcome)) :
    pending iccids iccid step (worker :: workers) = pending iccids iccid step workers +
      if IsPending iccids iccid step worker then 1 else 0 := by
  simp [pending, List.countP_cons]

/-- It does not matter which worker is which. -/
theorem pending_perm {workers workers' : List (Worker Outcome)} (h : workers.Perm workers')
    (iccids : List String) (iccid : String) (step : Step) :
    pending iccids iccid step workers = pending iccids iccid step workers' :=
  h.countP_eq _

open Classical in
/-- Who is about to ask for a step is at the profile. -/
theorem pending_le_isAt (iccids : List String) (iccid : String) (step : Step)
    (workers : List (Worker Outcome)) :
    pending iccids iccid step workers ≤ workers.countP (isAt iccids iccid) := by
  refine List.countP_mono_left fun worker _ h => ?_
  obtain ⟨i, rest, rfl, hi, -⟩ := of_decide_eq_true h
  exact decide_eq_true hi

/-- Someone who takes the place of another is not about to ask for more. -/
theorem pending_place_le {p : Pool Outcome} {w : Nat} {worker worker' : Worker Outcome}
    {step : Step} (h : p.workers[w]? = some worker)
    (himp : IsPending iccids iccid step worker' → IsPending iccids iccid step worker) :
    pending iccids iccid step (p.place w worker').workers ≤
      pending iccids iccid step p.workers := by
  obtain ⟨others, hbefore, hafter⟩ := Pool.workers_perm h
  rw [pending_perm hbefore, pending_perm (hafter worker'), pending_cons, pending_cons]
  refine Nat.add_le_add_left ?_ _
  by_cases hworker' : IsPending iccids iccid step worker'
  · rw [if_pos hworker', if_pos (himp hworker')]
  · rw [if_neg hworker']
    exact Nat.zero_le _

/-! ## Tallies -/

/-- A step has not reached the endpoint, and if someone is about to ask for it, the profile is
still in the state that it leaves. Or the step is in the past, and with those who are still about
to ask for it, it has not been asked for too often. -/
def Tally (most : Nat) (u : Transition) (count waiting : Nat) (state : String) : Prop :=
  (count = 0 ∧ (0 < waiting → state = u.source.name)) ∨
    (u.IsPast state ∧ count + waiting ≤ most)

section

variable {most count waiting : Nat} {u v : Transition} {state : String}

/-- A tally holds if fewer are about to ask. -/
theorem Tally.mono {fewer : Nat} (h : Tally most u count waiting state) (hle : fewer ≤ waiting) :
    Tally most u count fewer state := by
  rcases h with ⟨hnone, hsource⟩ | ⟨hpast, hmost⟩
  · exact Or.inl ⟨hnone, fun hpos => hsource (by omega)⟩
  · exact Or.inr ⟨hpast, by omega⟩

/-- A profile that is in the state before the step has not seen it. -/
theorem Tally.at_source (h : Tally most u count waiting u.source.name) (more : Nat) :
    Tally most u count more u.source.name := by
  rcases h with ⟨hnone, -⟩ | ⟨hpast, -⟩
  · exact Or.inl ⟨hnone, fun _ => rfl⟩
  · exact absurd rfl hpast.1

/-- One of those who wait for the step takes it. -/
theorem Tally.taken (hu : u ∈ transitions) (h : Tally most u count (waiting + 1) state)
    (hmost : waiting + 1 ≤ most) :
    Tally most u (count + 1) waiting (u.step.onward state) := by
  -- The first one brings the profile past the step, the others leave it there.
  rcases h with ⟨hnone, hsource⟩ | ⟨hpast, hfew⟩
  · rw [hsource (Nat.succ_pos _), onward_source hu]
    exact Or.inr ⟨isPast_target hu, by omega⟩
  · exact Or.inr ⟨isPast_onward hu u.step hpast, by omega⟩

/-- The other step is taken. It leaves from elsewhere. -/
theorem Tally.other (hu : u ∈ transitions) (hv : v ∈ transitions) (hne : u ≠ v)
    (h : Tally most u count waiting state) :
    Tally most u count waiting (v.step.onward state) := by
  -- The profile is where this step begins, so the other one does not apply.
  rcases h with ⟨hnone, hsource⟩ | ⟨hpast, hfew⟩
  · refine Or.inl ⟨hnone, fun hpos => ?_⟩
    have hall : ∀ u ∈ transitions, ∀ v ∈ transitions, u ≠ v →
        u.source.name ≠ v.source.name := by decide
    rw [onward_eq_self hv (by rw [hsource hpos]; exact hall u hu v hv hne), hsource hpos]
  · exact Or.inr ⟨isPast_onward hu v.step hpast, hfew⟩

end

/-- A worker at the profile is pending exactly if its entry may take the step. -/
theorem isPending_busy_iff {i : Nat} {rest : Program Outcome} {step : Step}
    (hi : iccids[i]? = some iccid) :
    IsPending iccids iccid step (.busy i rest) ↔ MayTake step rest := by
  constructor
  · rintro ⟨j, rest', heq, -, hmay⟩
    cases heq
    exact hmay
  · intro hmay
    exact ⟨i, rest, rfl, hi, hmay⟩

/-- Steps differ in their operations. -/
theorem step_operation_inj {u v : Transition} (hu : u ∈ transitions) (hv : v ∈ transitions) :
    u.step.operation = v.step.operation ↔ u = v := by
  have hall : ∀ u ∈ transitions, ∀ v ∈ transitions,
      u.step.operation = v.step.operation → u = v := by decide
  exact ⟨hall u hu v hv, fun heq => by rw [heq]⟩

section

variable {serve : Service τ} {state : τ → String}

/-- An exchange with the profile keeps the tally of every step. -/
theorem tally_exchange (hserve : KeepsStates serve state) (fate : φ → Fate × φ) {u : Transition}
    (hu : u ∈ transitions) {most i : Nat} (hi : iccids[i]? = some iccid) {before : List Deed}
    {op : Operation} {r : op.Request} {next : Effect.Answer (.exchange op r) → Program Outcome}
    (hrest : Remains (activateOne c iccid) before (.perform (.exchange op r) next))
    (others : List (Worker Outcome)) (t : τ) (log : List Exchange) (f : φ)
    (hmost : pending iccids iccid u.step (.busy i (.perform (.exchange op r) next) :: others) ≤
      most)
    (h : Tally most u (asked u.step log)
      (pending iccids iccid u.step (.busy i (.perform (.exchange op r) next) :: others))
      (state t)) {reply : Except String (List UInt8)} {t' : τ} {log' : List Exchange} {f' : φ}
    (hout : lossy fate (logged serve) op (op.anonymous r) ((t, log), f) =
      (reply, (t', log'), f')) :
    Tally most u (asked u.step log')
      (pending iccids iccid u.step (.busy i (next reply) :: others)) (state t') := by
  -- Whoever asks next was told so by this very exchange.
  have hafter : MayTake u.step (next reply) →
      ((Exchange.mk op r reply).status?).map Status.state = some u.source.name := by
    intro hmay
    have hlicensed := hmay.licensed hu (hrest.perform reply)
    have hexchanges : exchanges (before ++ [⟨.exchange op r, reply⟩]) =
        exchanges before ++ [⟨op, r, reply⟩] := exchanges_append ..
    rwa [hexchanges, reported?_concat] at hlicensed
  rw [pending_cons, isPending_busy_iff hi, mayTake_exchange_iff] at h hmost
  rw [pending_cons, isPending_busy_iff hi]
  obtain ⟨-, rfl | ⟨v, hv, rfl, -⟩⟩ := exchange_of_remains hrest
  · obtain ⟨hstate, hasked, htold⟩ := hserve.query hout
    have hne : Operation.getProfileStatus ≠ u.step.operation := by cases u.step <;> decide
    rw [if_neg hne, Nat.add_zero] at h
    rw [hstate, hasked]
    by_cases hmay : MayTake u.step (next reply)
    · -- The profile is where the worker was told that it is.
      obtain ⟨s, hs, hsource⟩ := Option.map_eq_some_iff.mp (hafter hmay)
      have hnow : state t = u.source.name := (htold s hs).symm.trans hsource
      rw [hnow] at h ⊢
      exact h.at_source _
    · rw [if_neg hmay]
      exact h
  · -- Directly after an order, nobody asks for a step.
    have hnot : ¬ MayTake u.step (next reply) := by
      intro hmay
      obtain ⟨s, hs, -⟩ := Option.map_eq_some_iff.mp (hafter hmay)
      have hne : v.step.operation ≠ .getProfileStatus := by cases v.step <;> decide
      exact absurd (Exchange.op_of_status? hs) hne
    rw [if_neg hnot, Nat.add_zero]
    by_cases hsame : v = u
    · subst hsame
      rw [if_pos rfl] at h hmost
      rcases hserve.order hout with ⟨hstate, hasked⟩ | ⟨rfl, rfl⟩
      · rw [hstate, hasked, if_pos rfl]
        exact h.taken hu hmost
      · exact h.mono (Nat.le_succ _)
    · have hother : v.step.operation ≠ u.step.operation :=
        fun heq => hsame ((step_operation_inj hv hu).mp heq)
      rw [if_neg hother, Nat.add_zero] at h
      rcases hserve.order hout with ⟨hstate, hasked⟩ | ⟨rfl, rfl⟩
      · rw [hstate, hasked, if_neg hother, Nat.add_zero]
        exact h.other hu hv (Ne.symm hsame)
      · exact h

end

/-! ## Turns -/

/-- The requests that name a profile, with their replies. -/
def naming (iccid : String) (log : List Deed) : List Exchange :=
  (exchanges log).filter fun x => x.iccids = [iccid]

theorem naming_append (iccid : String) (log log' : List Deed) :
    naming iccid (log ++ log') = naming iccid log ++ naming iccid log' := by
  rw [naming, exchanges_append, List.filter_append]
  rfl

/-- What is done for an entry says what it says about the profile of the entry. -/
theorem naming_own {before : List Deed} {e : Effect} {next : e.Answer → Program Outcome}
    (h : Remains (activateOne c iccid) before (.perform e next)) (reply : e.Answer) :
    naming iccid [⟨e, reply⟩] = exchanges [⟨e, reply⟩] := by
  cases e with
  | exchange op r =>
      have hnamed : Exchange.iccids ⟨op, r, reply⟩ = [iccid] := (exchange_of_remains h).1
      refine List.filter_eq_self.mpr fun x hx => ?_
      obtain rfl := List.mem_singleton.mp hx
      exact decide_eq_true hnamed
  | draw | note | print | fileBytes | clock => rfl

/-- What an entry for another profile says does not name this one. -/
theorem naming_other {own : String} {before : List Deed} {e : Effect}
    {next : e.Answer → Program Outcome} (hne : own ≠ iccid)
    (h : Remains (activateOne c own) before (.perform e next)) (reply : e.Answer) :
    naming iccid [⟨e, reply⟩] = [] := by
  cases e with
  | exchange op r =>
      have hnamed : Exchange.iccids ⟨op, r, reply⟩ = [own] := (exchange_of_remains h).1
      refine List.filter_eq_nil_iff.mpr fun x hx => ?_
      obtain rfl := List.mem_singleton.mp hx
      rw [hnamed]
      simpa using hne
  | draw | note | print | fileBytes | clock => rfl

/-- Activations that have been carried through, one after the other, and what has been said so
far in the one that is under way. The workers at the profile are the ones who carry it out. -/
structure InTurn (c : Client) (iccids : List String) (iccid : String)
    (workers : List (Worker Outcome)) (said : List Exchange) (ended : List (List Exchange))
    (before : List Deed) : Prop where
  said_eq : said = ended.flatten ++ exchanges before
  complete : ∀ xs ∈ ended, IsActivation c iccid xs
  ongoing : ∀ i rest, Worker.busy i rest ∈ workers → iccids[i]? = some iccid →
    Remains (activateOne c iccid) before rest
  resting : workers.countP (isAt iccids iccid) = 0 → before = []

/-- A worker who changes between places elsewhere makes no difference. -/
theorem InTurn.elsewhere {p : Pool Outcome} {w : Nat} {worker worker' : Worker Outcome}
    {said : List Exchange} {ended : List (List Exchange)} {before : List Deed}
    (h : InTurn c iccids iccid p.workers said ended before) (hworker : p.workers[w]? = some worker)
    (hnot : isAt iccids iccid worker = false) (hnot' : isAt iccids iccid worker' = false) :
    InTurn c iccids iccid (p.place w worker').workers said ended before := by
  obtain ⟨others, hbefore, hafter⟩ := Pool.workers_perm hworker
  refine ⟨h.said_eq, h.complete, fun i rest hmem hi => ?_, fun hnone => h.resting ?_⟩
  · rcases List.mem_cons.mp ((hafter worker').subset hmem) with heq | hother
    · have hat : isAt iccids iccid worker' = true := by
        rw [← heq]
        exact decide_eq_true hi
      rw [hat] at hnot'
      cases hnot'
    · exact h.ongoing i rest (hbefore.symm.subset (List.mem_cons_of_mem _ hother)) hi
  · rw [(hafter worker').countP_eq, List.countP_cons, hnot'] at hnone
    rw [hbefore.countP_eq, List.countP_cons, hnot]
    exact hnone

/-- Only one worker is at the profile. -/
theorem ongoing_of_only {others : List (Worker Outcome)} {workers : List (Worker Outcome)}
    {i : Nat} {rest : Program Outcome} {before : List Deed}
    (hperm : workers.Perm (.busy i rest :: others))
    (hothers : others.countP (isAt iccids iccid) = 0)
    (hrest : Remains (activateOne c iccid) before rest) :
    ∀ j rest', Worker.busy j rest' ∈ workers → iccids[j]? = some iccid →
      Remains (activateOne c iccid) before rest' := by
  intro j rest' hmem hj
  rcases List.mem_cons.mp (hperm.subset hmem) with heq | hother
  · cases heq
    exact hrest
  · have hat := List.countP_eq_zero.mp hothers _ hother
    exact absurd (decide_eq_true hj) hat

/-- When a worker comes to the profile, the one before it has finished. -/
theorem InTurn.enter {p : Pool Outcome} {w i : Nat} {said : List Exchange}
    {ended : List (List Exchange)} {before : List Deed}
    (h : InTurn c iccids iccid p.workers said ended before) (hidle : p.workers[w]? = some .idle)
    (hi : iccids[i]? = some iccid)
    (hone : (p.place w (.busy i (activateOne c iccid))).workers.countP (isAt iccids iccid) ≤ 1) :
    InTurn c iccids iccid (p.place w (.busy i (activateOne c iccid))).workers said ended [] := by
  obtain ⟨others, hbefore, hafter⟩ := Pool.workers_perm hidle
  have hat : isAt iccids iccid (.busy i (activateOne c iccid)) = true := decide_eq_true hi
  rw [(hafter _).countP_eq, List.countP_cons, hat] at hone
  -- There is a place for one worker, and it is the new one who takes it.
  have hothers : others.countP (isAt iccids iccid) = 0 := by
    rw [if_pos rfl] at hone
    omega
  have hnobody : p.workers.countP (isAt iccids iccid) = 0 := by
    rw [hbefore.countP_eq, List.countP_cons, hothers]
    rfl
  refine ⟨?_, h.complete, ongoing_of_only (hafter _) hothers (remains_start _), fun _ => rfl⟩
  rw [← h.resting hnobody]
  exact h.said_eq

/-- What the worker at the profile does continues the activation that is under way. -/
theorem InTurn.act {p : Pool Outcome} {w i : Nat} {e : Effect}
    {next : e.Answer → Program Outcome} {said : List Exchange} {ended : List (List Exchange)}
    {before : List Deed} (h : InTurn c iccids iccid p.workers said ended before)
    (hbusy : p.workers[w]? = some (.busy i (.perform e next))) (hi : iccids[i]? = some iccid)
    (hone : p.workers.countP (isAt iccids iccid) ≤ 1) (reply : e.Answer) :
    InTurn c iccids iccid (p.place w (.busy i (next reply))).workers
      (said ++ exchanges [⟨e, reply⟩]) ended (before ++ [⟨e, reply⟩]) := by
  obtain ⟨others, hbefore, hafter⟩ := Pool.workers_perm hbusy
  have hat : ∀ rest, isAt iccids iccid (.busy i rest) = true := fun _ => decide_eq_true hi
  rw [hbefore.countP_eq, List.countP_cons, hat, if_pos rfl] at hone
  -- There is only this worker at the profile.
  have hothers : others.countP (isAt iccids iccid) = 0 := by omega
  have hrest := h.ongoing i _ (List.mem_of_getElem? hbusy) hi
  refine ⟨?_, h.complete, ongoing_of_only (hafter _) hothers (hrest.perform reply),
    fun hnone => ?_⟩
  · rw [h.said_eq, exchanges_append, List.append_assoc]
  · rw [(hafter _).countP_eq, List.countP_cons, hat, if_pos rfl] at hnone
    omega

/-- When a worker hands in an entry for the profile, one more activation is complete. -/
theorem InTurn.handIn {p : Pool Outcome} {w i : Nat} {o : Outcome} {said : List Exchange}
    {ended : List (List Exchange)} {before : List Deed}
    (h : InTurn c iccids iccid p.workers said ended before)
    (hbusy : p.workers[w]? = some (.busy i (.done o))) (hi : iccids[i]? = some iccid)
    (hone : p.workers.countP (isAt iccids iccid) ≤ 1) :
    InTurn c iccids iccid (p.place w .idle).workers said (ended ++ [exchanges before]) [] := by
  obtain ⟨others, hbefore, hafter⟩ := Pool.workers_perm hbusy
  have hat : isAt iccids iccid (.busy i (.done o)) = true := decide_eq_true hi
  rw [hbefore.countP_eq, List.countP_cons, hat, if_pos rfl] at hone
  have hothers : others.countP (isAt iccids iccid) = 0 := by omega
  refine ⟨?_, fun xs hxs => ?_, fun j rest hmem hj => ?_, fun _ => rfl⟩
  · rw [h.said_eq, List.flatten_append, List.flatten_singleton, exchanges_nil, List.append_nil]
  · rcases List.mem_append.mp hxs with hold | hnew
    · exact h.complete xs hold
    -- The program is at its end, so what it has said is a whole activation.
    · obtain rfl := List.mem_singleton.mp hnew
      have hrest := h.ongoing i _ (List.mem_of_getElem? hbusy) hi
      have hreturns := hrest [] o (Returns.done o)
      rw [List.append_nil] at hreturns
      exact activateOne_activates hreturns
  · rcases List.mem_cons.mp ((hafter _).subset hmem) with heq | hother
    · cases heq
    · exact absurd (decide_eq_true hj) (List.countP_eq_zero.mp hothers _ hother)

/-! ## Lists -/

/-- What an endpoint keeps for each profile: its own state, what it has processed, and what
becomes of further exchanges. -/
abbrev Desks (τ φ : Type) :=
  String → (τ × List Exchange) × φ

/-- Surroundings with an endpoint on a connection on which exchanges have their fates.
Everything that is done is recorded. -/
abbrev watched (serve : Service τ) (fate : φ → Fate × φ)
    (ambient : (e : Effect) → ρ → e.Answer × ρ) :
    (e : Effect) → (Desks τ φ × ρ) × List Deed → e.Answer × ((Desks τ φ × ρ) × List Deed) :=
  recording (served (lossy fate (logged serve)) ambient)

/-- No request gets lost. Replies may. -/
def Arriving (fate : φ → Fate × φ) : Prop :=
  ∀ f reason, (fate f).1 ≠ .lost reason

/-- A request that arrives is processed. -/
theorem lossy_arriving {fate : φ → Fate × φ} (h : Arriving fate) (serve : Service τ)
    (op : Operation) (r : op.Request) (t : τ) (f : φ) :
    (lossy fate serve op r (t, f)).2.1 = (serve op r t).2 := by
  unfold lossy
  dsimp only
  split
  case h_1 | h_3 => rfl
  case h_2 reason hlost => exact absurd hlost (h f reason)

/-- The workers of a list and its surroundings at some time. -/
structure Supervised (c : Client) (iccids : List String) (parallelism : Nat)
    (fate : φ → Fate × φ) (state : τ → String) (p : Pool Outcome)
    (s : (Desks τ φ × ρ) × List Deed) : Prop where
  working : Working c iccids parallelism p
  known : ∀ i rest, Worker.busy i rest ∈ p.workers → ∃ iccid before,
    iccids[i]? = some iccid ∧ Remains (activateOne c iccid) before rest
  tallied : ∀ iccid, ∀ u ∈ transitions, Tally (overlap iccids parallelism iccid) u
    (asked u.step (s.1.1 iccid).1.2) (pending iccids iccid u.step p.workers)
    (state (s.1.1 iccid).1.1)
  inTurn : ∀ iccid, overlap iccids parallelism iccid ≤ 1 → ∃ ended before,
    InTurn c iccids iccid p.workers (naming iccid s.2) ended before
  received : Arriving fate → ∀ iccid,
    (naming iccid s.2).map Exchange.op = (s.1.1 iccid).1.2.map Exchange.op

section

variable {serve : Service τ} {state : τ → String} {fate : φ → Fate × φ}
  {ambient : (e : Effect) → ρ → e.Answer × ρ} {p : Pool Outcome} {w : Nat}
  {s : (Desks τ φ × ρ) × List Deed}

/-- An entry that has just been claimed has not been told anything. -/
theorem not_mayTake_start {u : Transition} (hu : u ∈ transitions) :
    ¬ MayTake u.step (activateOne c iccid) := by
  intro hmay
  have hlicensed := hmay.licensed hu (remains_start _)
  cases hlicensed

/-- A worker that claims an entry keeps all that is known. -/
theorem Supervised.claim (h : Supervised c iccids parallelism fate state p s)
    {job : Program Outcome} (hidle : p.workers[w]? = some .idle)
    (hlisted : p.jobs[p.next]? = some job)
    (hworking : Working c iccids parallelism
      { p.place w (.busy p.next job) with next := p.next + 1 }) :
    Supervised c iccids parallelism fate state
      { p.place w (.busy p.next job) with next := p.next + 1 } s := by
  have hjob := hlisted
  rw [h.working.jobs_eq, List.getElem?_map] at hjob
  obtain ⟨claimed, hi, rfl⟩ := Option.map_eq_some_iff.mp hjob
  refine ⟨hworking, fun i rest hmem => ?_, fun iccid u hu => ?_, fun iccid hfew => ?_, h.received⟩
  · rcases List.mem_or_eq_of_mem_set hmem with hold | heq
    · exact h.known i rest hold
    · cases heq
      exact ⟨claimed, [], hi, remains_start _⟩
  · -- The worker has an entry now, but has not been told anything about it.
    refine (h.tallied iccid u hu).mono (pending_place_le hidle fun hpending => ?_)
    obtain ⟨i, rest, heq, -, hmay⟩ := hpending
    cases heq
    exact absurd hmay (not_mayTake_start hu)
  · obtain ⟨ended, before, hturn⟩ := h.inTurn iccid hfew
    by_cases hsame : claimed = iccid
    · subst hsame
      have hone := Nat.le_trans (hworking.isAt_le claimed) hfew
      -- The entry is for the profile, so nobody else is there any more.
      exact ⟨ended, [], hturn.enter hidle hi hone⟩
    · refine ⟨ended, before, hturn.elsewhere hidle rfl ?_⟩
      exact decide_eq_false fun heq => hsame (Option.some.inj (hi.symm.trans heq))

/-- So does one that leaves. -/
theorem Supervised.leave (h : Supervised c iccids parallelism fate state p s)
    (hidle : p.workers[w]? = some .idle)
    (hworking : Working c iccids parallelism (p.place w .gone)) :
    Supervised c iccids parallelism fate state (p.place w .gone) s := by
  refine ⟨hworking, fun i rest hmem => ?_, fun iccid u hu => ?_, fun iccid hfew => ?_, h.received⟩
  · rcases List.mem_or_eq_of_mem_set hmem with hold | heq
    · exact h.known i rest hold
    · cases heq
  · refine (h.tallied iccid u hu).mono (pending_place_le hidle fun hpending => ?_)
    obtain ⟨i, rest, heq, -⟩ := hpending
    cases heq
  · obtain ⟨ended, before, hturn⟩ := h.inTurn iccid hfew
    exact ⟨ended, before, hturn.elsewhere hidle rfl rfl⟩

/-- So does one that hands in an outcome. -/
theorem Supervised.handIn (h : Supervised c iccids parallelism fate state p s) {i : Nat}
    {o : Outcome} (hbusy : p.workers[w]? = some (.busy i (.done o)))
    (hworking : Working c iccids parallelism
      { p.place w .idle with results := p.results ++ [(i, o)] }) :
    Supervised c iccids parallelism fate state
      { p.place w .idle with results := p.results ++ [(i, o)] } s := by
  obtain ⟨own, before, hi, hrest⟩ := h.known i _ (List.mem_of_getElem? hbusy)
  refine ⟨hworking, fun j rest hmem => ?_, fun iccid u hu => ?_, fun iccid hfew => ?_, h.received⟩
  · rcases List.mem_or_eq_of_mem_set hmem with hold | heq
    · exact h.known j rest hold
    · cases heq
  · refine (h.tallied iccid u hu).mono (pending_place_le hbusy fun hpending => ?_)
    obtain ⟨j, rest, heq, -⟩ := hpending
    cases heq
  · obtain ⟨ended, before, hturn⟩ := h.inTurn iccid hfew
    by_cases hsame : own = iccid
    · subst hsame
      have hone := Nat.le_trans (h.working.isAt_le own) hfew
      exact ⟨_, [], hturn.handIn hbusy hi hone⟩
    · refine ⟨ended, before, hturn.elsewhere hbusy ?_ rfl⟩
      exact decide_eq_false fun heq => hsame (Option.some.inj (hi.symm.trans heq))

/-- Whatever a worker does, the others know what they have done, and the activations of a
profile with one worker at a time stay in turn. -/
theorem Supervised.act_known (h : Supervised c iccids parallelism fate state p s) {i : Nat}
    {e : Effect} {next : e.Answer → Program Outcome}
    (hbusy : p.workers[w]? = some (.busy i (.perform e next))) (reply : e.Answer) :
    ∀ j rest, Worker.busy j rest ∈ (p.place w (.busy i (next reply))).workers →
      ∃ iccid before, iccids[j]? = some iccid ∧ Remains (activateOne c iccid) before rest := by
  intro j rest hmem
  rcases List.mem_or_eq_of_mem_set hmem with hold | heq
  · exact h.known j rest hold
  · cases heq
    obtain ⟨own, before, hi, hrest⟩ := h.known i _ (List.mem_of_getElem? hbusy)
    exact ⟨own, _, hi, hrest.perform reply⟩

/-- Activations of a profile that has one worker at a time stay in turn. -/
theorem Supervised.act_inTurn (h : Supervised c iccids parallelism fate state p s) {i : Nat}
    {e : Effect} {next : e.Answer → Program Outcome}
    (hbusy : p.workers[w]? = some (.busy i (.perform e next))) (reply : e.Answer) (iccid : String)
    (hfew : overlap iccids parallelism iccid ≤ 1) :
    ∃ ended before, InTurn c iccids iccid (p.place w (.busy i (next reply))).workers
      (naming iccid (s.2 ++ [⟨e, reply⟩])) ended before := by
  obtain ⟨own, known, hi, hrest⟩ := h.known i _ (List.mem_of_getElem? hbusy)
  obtain ⟨ended, before, hturn⟩ := h.inTurn iccid hfew
  rw [naming_append]
  -- An entry says nothing about a profile but its own.
  by_cases hsame : own = iccid
  · subst hsame
    rw [naming_own hrest]
    have hone := Nat.le_trans (h.working.isAt_le own) hfew
    exact ⟨ended, _, hturn.act hbusy hi hone reply⟩
  · have hnot : ∀ rest, isAt iccids iccid (.busy i rest) = false := fun _ =>
      decide_eq_false fun heq => hsame (Option.some.inj (hi.symm.trans heq))
    rw [naming_other hsame hrest, List.append_nil]
    exact ⟨ended, before, hturn.elsewhere hbusy (hnot _) (hnot _)⟩

/-- What is not said to the endpoint leaves it as it is. -/
theorem Supervised.silent (h : Supervised c iccids parallelism fate state p s) {i : Nat}
    {e : Effect} {next : e.Answer → Program Outcome} (hsilent : ∀ op r, e ≠ .exchange op r)
    (hbusy : p.workers[w]? = some (.busy i (.perform e next)))
    (hworking : Working c iccids parallelism
      (p.place w (.busy i (next (watched serve fate ambient e s).1)))) :
    Supervised c iccids parallelism fate state
      (p.place w (.busy i (next (watched serve fate ambient e s).1)))
      (watched serve fate ambient e s).2 := by
  have hdesks : (watched serve fate ambient e s).2.1.1 = s.1.1 := by
    cases e with
    | exchange op r => exact absurd rfl (hsilent op r)
    | draw | note | print | fileBytes | clock => rfl
  have hlog : (watched serve fate ambient e s).2.2 =
      s.2 ++ [⟨e, (watched serve fate ambient e s).1⟩] := rfl
  refine ⟨hworking, h.act_known hbusy _, fun iccid u hu => ?_, fun iccid hfew => ?_,
    fun harriving iccid => ?_⟩
  · rw [hdesks]
    refine (h.tallied iccid u hu).mono (pending_place_le hbusy fun hpending => ?_)
    obtain ⟨j, rest, heq, hj, hmay⟩ := hpending
    cases heq
    exact ⟨i, _, rfl, hj, hmay.of_silent hsilent⟩
  · rw [hlog]
    exact h.act_inTurn hbusy _ iccid hfew
  · have hnothing : naming iccid [⟨e, (watched serve fate ambient e s).1⟩] = [] := by
      rw [naming, exchanges_silent hsilent]
      rfl
    rw [hdesks, hlog, naming_append, hnothing, List.append_nil]
    exact h.received harriving iccid

/-- An exchange reaches the profile that it names, and no other. -/
theorem Supervised.exchange (hserve : KeepsStates serve state)
    (h : Supervised c iccids parallelism fate state p s) {i : Nat} {op : Operation}
    {r : op.Request} {next : Effect.Answer (.exchange op r) → Program Outcome}
    (hbusy : p.workers[w]? = some (.busy i (.perform (.exchange op r) next)))
    (hworking : Working c iccids parallelism
      (p.place w (.busy i (next (watched serve fate ambient (.exchange op r) s).1)))) :
    Supervised c iccids parallelism fate state
      (p.place w (.busy i (next (watched serve fate ambient (.exchange op r) s).1)))
      (watched serve fate ambient (.exchange op r) s).2 := by
  obtain ⟨⟨desks, a⟩, log⟩ := s
  obtain ⟨own, before, hi, hrest⟩ := h.known i _ (List.mem_of_getElem? hbusy)
  have hnamed := (exchange_of_remains hrest).1
  have hkey : op.key r = own := by rw [Operation.key, hnamed, List.headD_cons]
  have hwatched : watched serve fate ambient (.exchange op r) ((desks, a), log) =
      ((lossy fate (logged serve) op (op.anonymous r) (desks (op.key r))).1,
        (Function.update desks (op.key r)
          (lossy fate (logged serve) op (op.anonymous r) (desks (op.key r))).2, a),
        log ++ [⟨.exchange op r,
          (lossy fate (logged serve) op (op.anonymous r) (desks (op.key r))).1⟩]) := rfl
  -- Only the desk of the profile that is named changes.
  rw [hkey] at hwatched
  obtain ⟨others, hbefore, hafter⟩ := Pool.workers_perm hbusy
  have htallied : ∀ u ∈ transitions, Tally (overlap iccids parallelism own) u
      (asked u.step (desks own).1.2) (pending iccids own u.step p.workers)
      (state (desks own).1.1) := h.tallied own
  have hmost : ∀ u : Transition, pending iccids own u.step p.workers ≤
      overlap iccids parallelism own := fun u =>
    Nat.le_trans (pending_le_isAt ..) (h.working.isAt_le own)
  generalize hdesk : desks own = desk at hwatched htallied
  obtain ⟨⟨t, processed⟩, f⟩ := desk
  generalize hout : lossy fate (logged serve) op (op.anonymous r) ((t, processed), f) = out
    at hwatched
  obtain ⟨reply, ⟨t', processed'⟩, f'⟩ := out
  rw [hwatched] at hworking ⊢
  refine ⟨hworking, h.act_known hbusy reply, fun iccid u hu => ?_,
    h.act_inTurn hbusy reply, fun harriving iccid => ?_⟩
  · dsimp only
    by_cases hsame : own = iccid
    · subst hsame
      rw [Function.update_self, pending_perm (hafter _)]
      have hfew := hmost u
      have htally := htallied u hu
      rw [pending_perm hbefore] at hfew htally
      exact tally_exchange hserve fate hu hi hrest others t processed f hfew htally hout
    · -- The worker is not at the profile, neither before nor after.
      rw [Function.update_of_ne (Ne.symm hsame)]
      refine (h.tallied iccid u hu).mono (pending_place_le hbusy fun hpending => ?_)
      obtain ⟨j, rest, heq, hj, -⟩ := hpending
      cases heq
      exact absurd (Option.some.inj (hi.symm.trans hj)) hsame
  · dsimp only
    have hbelow : (naming iccid log).map Exchange.op = (desks iccid).1.2.map Exchange.op :=
      h.received harriving iccid
    rw [naming_append, List.map_append]
    by_cases hsame : own = iccid
    · subst hsame
      have hprocessed :=
        lossy_arriving harriving (logged serve) op (op.anonymous r) (t, processed) f
      rw [hout] at hprocessed
      obtain ⟨rfl, rfl⟩ := Prod.mk.inj hprocessed
      have hnaming : naming own [⟨.exchange op r, reply⟩] = [⟨op, r, reply⟩] :=
        naming_own hrest reply
      rw [Function.update_self, hnaming, hbelow, hdesk, List.map_append]
      rfl
    · have hnaming : naming iccid [⟨.exchange op r, reply⟩] = [] :=
        naming_other hsame hrest reply
      rw [Function.update_of_ne (Ne.symm hsame), hnaming, hbelow]
      exact List.append_nil _

theorem Working.move {answer : (e : Effect) → σ → e.Answer × σ} {s : σ} {r : Pool Outcome × σ}
    (h : Working c iccids parallelism p) (hmove : Pool.Move answer w p s r) :
    Working c iccids parallelism r.1 := by
  obtain ⟨hjobs, hlength⟩ := hmove.jobs_eq
  exact ⟨hmove.accounted h.accounted, hjobs.trans h.jobs_eq, hlength.trans h.workers_length⟩

/-- Whatever a turn is, all that is known is still known after it. -/
theorem Supervised.step (hserve : KeepsStates serve state)
    (h : Supervised c iccids parallelism fate state p s) :
    Supervised c iccids parallelism fate state (p.step (watched serve fate ambient) w s).1
      (p.step (watched serve fate ambient) w s).2 := by
  have hmove := Pool.step_move (watched serve fate ambient) w p s
  have hworking := h.working.move hmove
  generalize p.step (watched serve fate ambient) w s = r at hmove hworking ⊢
  cases hmove with
  | stay absent => exact h
  | claim idle listed => exact h.claim idle listed hworking
  | leave idle exhausted => exact h.leave idle hworking
  | handIn busy => exact h.handIn busy hworking
  | @act i e next busy =>
      -- Only an exchange can change what the endpoint keeps.
      by_cases hexchange : ∃ op r, e = .exchange op r
      · obtain ⟨op, r, rfl⟩ := hexchange
        exact h.exchange hserve busy hworking
      · exact h.silent (fun op r heq => hexchange ⟨op, r, heq⟩) busy hworking

/-- In the beginning, nothing has been said, and nobody has anything to say. -/
theorem supervised_start (c : Client) (iccids : List String) (parallelism : Nat)
    (fate : φ → Fate × φ) (state : τ → String) (states : String → τ) (fates : String → φ) (a : ρ) :
    Supervised c iccids parallelism fate state (pool c iccids parallelism)
      ((fun iccid => ((states iccid, []), fates iccid), a), []) := by
  have hidle : ∀ worker ∈ (pool c iccids parallelism).workers, worker = .idle := by
    intro worker hmem
    exact List.eq_of_mem_replicate hmem
  constructor
  case working => exact pool_working c iccids parallelism (alone script still) [] ([], ())
  case known =>
    intro i rest hmem
    cases hidle _ hmem
  case tallied =>
    intro iccid u hu
    -- A worker without an entry is about to ask for nothing.
    refine Or.inl ⟨rfl, fun hpos => ?_⟩
    obtain ⟨worker, hmem, hpending⟩ := List.countP_pos_iff.mp hpos
    rw [hidle worker hmem] at hpending
    obtain ⟨i, rest, heq, -⟩ := by simpa using hpending
    cases heq
  case inTurn =>
    intro iccid _
    refine ⟨[], [], rfl, nofun, fun i rest hmem => ?_, fun _ => rfl⟩
    cases hidle _ hmem
  case received => exact fun _ _ => rfl

/-- So it is known at any time. -/
theorem supervised_run (hserve : KeepsStates serve state) (c : Client) (iccids : List String)
    (parallelism : Nat) (schedule : List Nat) (states : String → τ) (fates : String → φ) (a : ρ) :
    Supervised c iccids parallelism fate state
      (Pool.run (watched serve fate ambient) schedule (pool c iccids parallelism)
        ((fun iccid => ((states iccid, []), fates iccid), a), [])).1
      (Pool.run (watched serve fate ambient) schedule (pool c iccids parallelism)
        ((fun iccid => ((states iccid, []), fates iccid), a), [])).2 :=
  Pool.run_invariant (fun _ _ _ h => h.step hserve) schedule _ _
    (supervised_start c iccids parallelism fate state states fates a)

/-- What is known of a profile at any time: each step has reached the endpoint no more often
than workers can be at the profile, and unless requests get lost, it has not been asked for more
often either. If only one worker can be there at a time, the requests that name the profile are
those of complete activations, one after the other, and of the one under way. -/
structure Orderings (c : Client) (iccids : List String) (parallelism : Nat) (fate : φ → Fate × φ)
    (iccid : String) (p : Pool Outcome) (s : (Desks τ φ × ρ) × List Deed) : Prop where
  processed : ∀ step : Step, asked step (s.1.1 iccid).1.2 ≤ overlap iccids parallelism iccid
  sent : Arriving fate → ∀ step : Step,
    asked step (naming iccid s.2) ≤ overlap iccids parallelism iccid
  inTurn : overlap iccids parallelism iccid ≤ 1 →
    ∃ (ended : List (List Exchange)) (current : List Exchange),
    naming iccid s.2 = ended.flatten ++ current ∧
      (∀ xs ∈ ended, IsActivation c iccid xs) ∧ (∃ more, IsActivation c iccid (current ++ more)) ∧
      (p.isOver = true → current = [])

/-- From what is known of the workers follows what is known of the profile. -/
theorem Supervised.orderings (h : Supervised c iccids parallelism fate state p s)
    (iccid : String) : Orderings c iccids parallelism fate iccid p s := by
  have hprocessed : ∀ step : Step,
      asked step (s.1.1 iccid).1.2 ≤ overlap iccids parallelism iccid := by
    intro step
    obtain ⟨u, hu, rfl⟩ := exists_transition step
    rcases h.tallied iccid u hu with ⟨hnone, -⟩ | ⟨-, hfew⟩ <;> omega
  refine ⟨hprocessed, fun harriving step => ?_, fun hfew => ?_⟩
  · rw [asked_of_ops (h.received harriving iccid)]
    exact hprocessed step
  · obtain ⟨ended, before, hturn⟩ := h.inTurn iccid hfew
    refine ⟨ended, exchanges before, hturn.said_eq, hturn.complete, ?_, fun hover => ?_⟩
    · -- What has been said is complete, or the worker at the profile will complete it.
      by_cases hnobody : p.workers.countP (isAt iccids iccid) = 0
      · obtain ⟨h', o, hr⟩ := exists_returns (activateOne c iccid)
        rw [hturn.resting hnobody]
        exact ⟨_, activateOne_activates hr⟩
      · obtain ⟨worker, hmem, hat⟩ := List.countP_pos_iff.mp (Nat.pos_of_ne_zero hnobody)
        cases worker with
        | idle | gone => cases hat
        | busy i rest =>
            obtain ⟨h', o, hr⟩ := exists_returns rest
            have hreturns := hturn.ongoing i rest hmem (of_decide_eq_true hat) h' o hr
            refine ⟨exchanges h', ?_⟩
            rw [← exchanges_append]
            exact activateOne_activates hreturns
    -- When all have left, nobody is at the profile.
    · rw [hturn.resting, exchanges_nil]
      refine List.countP_eq_zero.mpr fun worker hmem hat => ?_
      have hgone := List.all_eq_true.mp hover worker hmem
      cases worker with
      | idle | gone => cases hat
      | busy i rest => cases hgone

end

/-- At any time of a bulk activation, in whatever order its workers take turns, and whatever
gets lost: a step for a profile has reached the endpoint no more often than the profile is
listed, and no more often than there are workers. If the profile is listed once, or there is one
worker, its activations do not overlap. -/
theorem pool_orderings {serve : Service τ} {state : τ → String} (hserve : KeepsStates serve state)
    (fate : φ → Fate × φ) (ambient : (e : Effect) → ρ → e.Answer × ρ) (c : Client)
    (iccids : List String) (parallelism : Nat) (schedule : List Nat) (states : String → τ)
    (fates : String → φ) (a : ρ) (iccid : String) :
    let r := Pool.run (watched serve fate ambient) schedule (pool c iccids parallelism)
      ((fun iccid => ((states iccid, []), fates iccid), a), [])
    Orderings c iccids parallelism fate iccid r.1 r.2 :=
  (supervised_run hserve c iccids parallelism schedule states fates a).orderings iccid

/-- Two workers, a list of two profiles, and an endpoint that receives all requests. -/
theorem pool_orderings_desk :
    let c : Client := ⟨"ACME", ⟨false, false⟩⟩
    let iccids := ["8965030119040000067", "8965030119040000075"]
    let fate : Unit → Fate × Unit := fun f => (.served, f)
    let states : String → State := fun _ => .available
    let fates : String → Unit := fun _ => ()
    let r := Pool.run (watched desk fate still) ((List.range 60).map fun n => n % 2)
      (pool c iccids 2) ((fun iccid => ((states iccid, []), fates iccid), ()), [])
    KeepsStates desk State.name ∧ Arriving fate ∧ overlap iccids 2 "8965030119040000067" = 1 ∧
      Orderings c iccids 2 fate "8965030119040000067" r.1 r.2 := by
  intro c iccids fate states fates
  have harriving : Arriving fate := fun f reason h => by cases h
  have hone : overlap iccids 2 "8965030119040000067" = 1 := by
    simp [overlap, workerCount, iccids]
  exact ⟨desk_keepsStates, harriving, hone, pool_orderings desk_keepsStates fate still c iccids 2
    ((List.range 60).map fun n => n % 2) states fates () "8965030119040000067"⟩

/-- Two workers at one profile are both told that it is available before either has asked for
the download. A single worker asks again if the first request got lost. -/
theorem pool_orders_twice :
    let c : Client := ⟨"ACME", ⟨false, false⟩⟩
    let desks : List Fate → Desks State (List Fate) := fun fates _ => ((.available, []), fates)
    let twice := ["8965030119040000067", "8965030119040000067"]
    let overlapping := Pool.run (watched desk listed still) ((List.range 60).map fun n => n % 2)
      (pool c twice 2) ((desks [], ()), [])
    let repeating := Pool.run (watched desk listed still) (List.replicate 60 0)
      (pool c twice 1) ((desks [.served, .lost "connection reset"], ()), [])
    (overlapping.1.isOver = true ∧
        asked .download (naming "8965030119040000067" overlapping.2.2) = 2) ∧
      (repeating.1.isOver = true ∧
        asked .download (naming "8965030119040000067" repeating.2.2) = 2) := by
  decide +kernel

end ProfileAdmin.Command.Bulk
