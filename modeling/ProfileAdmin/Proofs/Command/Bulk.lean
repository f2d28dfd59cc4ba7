import ProfileAdmin.Command.Bulk
import ProfileAdmin.Proofs.Client.Isolation
import ProfileAdmin.Proofs.Host.Sequence

/-!
# Proofs.Command.Bulk — a bulk activation is a map over its list

1. **Entries**: activating one entry is an activation, with its ICCID beside it.
2. **Order**: how many activations are under way, and that there is one outcome for each
   entry, in the order of the list.
3. **Separation**: entries about different profiles come to what they come to alone.
4. **Lists**: all of this for every order in which the workers take turns; doing the entries
   one after the other is one of these orders.
-/

namespace ProfileAdmin.Command.Bulk

open Client
open Host (Deed Effect Pool Program)
open Host.Program
open Profile (Activation)

variable {σ τ ρ : Type} {c : Client} {iccids : List String} {parallelism : Nat}

/-! ## Entries -/

/-- The note about an activation that has failed. -/
def noteFailure (iccid : String) : Except Client.Error Activation → Program Unit
  | .ok _ => return ()
  | .error e => Program.note (.activationFailed iccid e)

/-- What is said about the ICCID of a failed activation is said behind all of it. -/
theorem activateOne_eq (c : Client) (iccid : String) :
    activateOne c iccid = (do
      let result ← (c.activate iccid).run
      noteFailure iccid result
      return ⟨iccid, result⟩) := by
  unfold activateOne
  congr 1
  funext result
  cases result with
  | ok a => rfl
  | error e => rfl

/-- A note draws nothing. -/
theorem noteFailure_steady (iccid : String) (result : Except Client.Error Activation) :
    Steady iccid (noteFailure iccid result) := by
  cases result with
  | ok a => exact steady_done _
  | error e => exact steady_note _

theorem noteFailure_silent (answer : (e : Effect) → σ → e.Answer × σ) (iccid : String)
    (result : Except Client.Error Activation) (s : σ) :
    exchanges ((noteFailure iccid result).history answer s) = [] := by
  cases result with
  | ok a => rfl
  | error e => rfl

/-- An outcome is about the entry that was activated. -/
theorem activateOne_returns {iccid : String} {h : List Host.Deed} {o : Outcome}
    (hr : (activateOne c iccid).Returns h o) : o.iccid = iccid := by
  rw [activateOne_eq] at hr
  obtain ⟨h₁, h₂, result, rfl, -, hrest⟩ := returns_bind_iff.mp hr
  obtain ⟨h₃, h₄, u, rfl, -, hdone⟩ := returns_bind_iff.mp hrest
  obtain ⟨-, rfl⟩ := returns_done_iff.mp hdone
  rfl

/-- Activations of one entry differ in nothing but their identifiers. -/
theorem activateOne_steady (c : Client) (iccid : String) : Steady iccid (activateOne c iccid) := by
  rw [activateOne_eq]
  refine steady_bind (activate_steady c iccid) fun result => ?_
  exact steady_bind (noteFailure_steady iccid result) fun _ => steady_done _

/-- An entry comes to what its activation comes to, and nothing else is said to the endpoint. -/
theorem activateOne_run (answer : (e : Effect) → σ → e.Answer × σ) (c : Client) (iccid : String)
    (s : σ) :
    ((activateOne c iccid).run answer s).1 = ⟨iccid, ((c.activate iccid).run.run answer s).1⟩ ∧
      exchanges ((activateOne c iccid).history answer s) =
        conversation answer (c.activate iccid) s := by
  rw [activateOne_eq, run_bind, history_bind, exchanges_append, run_bind, history_bind,
    exchanges_append, noteFailure_silent]
  exact ⟨rfl, List.append_nil _⟩

/-! ## Order -/

/-- The workers of a list at some time. -/
structure Working (c : Client) (iccids : List String) (parallelism : Nat) (p : Pool Outcome) :
    Prop where
  accounted : p.Accounted
  jobs_eq : p.jobs = iccids.map (activateOne c)
  workers_length : p.workers.length = workerCount iccids parallelism

/-- However the workers take turns, they stay at the jobs of their list. -/
theorem pool_working (c : Client) (iccids : List String) (parallelism : Nat)
    (answer : (e : Effect) → σ → e.Answer × σ) (schedule : List Nat) (s : σ) :
    Working c iccids parallelism (Pool.run answer schedule (pool c iccids parallelism) s).1 := by
  constructor
  · exact Pool.run_accounted schedule s (Pool.start_accounted _ _)
  · exact (Pool.run_jobs schedule _ s).1
  · rw [(Pool.run_jobs schedule _ s).2]
    exact List.length_replicate

/-- There is someone to work, unless there is nothing to do. -/
theorem workerCount_pos_or (iccids : List String) (hpar : 0 < parallelism) :
    0 < workerCount iccids parallelism ∨ iccids = [] := by
  cases iccids with
  | nil => exact Or.inr rfl
  | cons iccid others => exact Or.inl (Nat.lt_min.mpr ⟨hpar, Nat.zero_lt_succ _⟩)

theorem workerCount_pos_or_jobs (c : Client) (iccids : List String) (hpar : 0 < parallelism) :
    0 < workerCount iccids parallelism ∨ iccids.map (activateOne c) = [] := by
  rcases workerCount_pos_or iccids hpar with hpos | rfl
  · exact Or.inl hpos
  · exact Or.inr rfl

/-- There is somebody to do the jobs, if there are any. -/
theorem Working.workers_or {p : Pool Outcome} (h : Working c iccids parallelism p)
    (hpar : 0 < parallelism) : p.workers ≠ [] ∨ p.jobs = [] := by
  rcases workerCount_pos_or iccids hpar with hpos | rfl
  · left
    intro hnone
    rw [← h.workers_length, hnone] at hpos
    exact Nat.lt_irrefl 0 hpos
  · exact Or.inr h.jobs_eq

/-- At any time, no more activations are under way than may be, and all that were claimed are
under way or have an outcome. In the end there is one outcome for each index, in the order of
the list. -/
structure Orderly (iccids : List String) (parallelism : Nat) (p : Pool Outcome) : Prop where
  underWay_le : p.underWay ≤ min parallelism iccids.length
  underWay_eq : p.underWay + p.results.length = p.next
  all_handedIn : p.isOver = true → (p.results.map Prod.fst).Perm (List.range iccids.length)
  iccids_eq : p.isOver = true → p.outcomes.map Outcome.iccid = iccids

/-- An outcome is for the entry at its index. -/
theorem left_iccid (answer : (e : Effect) → σ → e.Answer × σ) (schedule : List Nat) (s : σ)
    {i : Nat} {o : Outcome}
    (hleft : (Pool.run answer schedule (pool c iccids parallelism) s).1.Left i (.done o)) :
    iccids[i]? = some o.iccid := by
  -- Whatever a job has yet to do, it ends with an outcome for its entry.
  have hall : ∀ i rest, (Pool.run answer schedule (pool c iccids parallelism) s).1.Left i rest →
      ∀ h (o : Outcome), rest.Returns h o → iccids[i]? = some o.iccid := by
    refine Pool.run_left
      (Q := fun i rest _ => ∀ h (o : Outcome), rest.Returns h o → iccids[i]? = some o.iccid)
      ?_ ?_ schedule _ s (Pool.start_accounted _ _) ?_
    -- Its step, a step of another job, and its start.
    · intro i e next s hkeep h o hr
      exact hkeep _ o (Returns.perform (answer e s).1 hr)
    · intro i j e next rest s _ _ hkeep
      exact hkeep
    · intro i rest hstart h o hr
      have hjobs := Pool.left_start hstart
      rw [List.getElem?_map, Option.map_eq_some_iff] at hjobs
      obtain ⟨iccid, hi, rfl⟩ := hjobs
      rw [activateOne_returns hr]
      exact hi
  exact hall i _ hleft [] o (Returns.done o)

theorem pool_orderly (c : Client) (iccids : List String) (hpar : 0 < parallelism)
    (answer : (e : Effect) → σ → e.Answer × σ) (schedule : List Nat) (s : σ) :
    Orderly iccids parallelism (Pool.run answer schedule (pool c iccids parallelism) s).1 := by
  have hworking := pool_working c iccids parallelism answer schedule s
  have hlength : iccids.length =
      (Pool.run answer schedule (pool c iccids parallelism) s).1.jobs.length := by
    rw [hworking.jobs_eq, List.length_map]
  constructor
  · rw [← workerCount, ← hworking.workers_length]
    exact Pool.underWay_le _
  · exact hworking.accounted.underWay_eq
  · intro hover
    rw [hlength]
    exact hworking.accounted.all_handedIn hover (hworking.workers_or hpar)
  · intro hover
    obtain ⟨hcount, hleft⟩ :=
      hworking.accounted.outcomes_left hover (hworking.workers_or hpar)
    refine List.ext_getElem? fun i => ?_
    rw [List.getElem?_map]
    -- There are as many outcomes as entries, so an index has both or none.
    cases ho : (Pool.run answer schedule (pool c iccids parallelism) s).1.outcomes[i]? with
    | none =>
        rw [List.getElem?_eq_none_iff, hcount, ← hlength] at ho
        exact (List.getElem?_eq_none_iff.mpr ho).symm
    | some o => exact (left_iccid answer schedule s (hleft i o ho)).symm

/-! ## Separation -/

/-- Every entry has the outcome that it would have alone, from the state of its profile, and
what was said about it is what would be said then. -/
structure Separate (serve : Service τ) (ambient : (e : Effect) → ρ → e.Answer × ρ) (c : Client)
    (iccids : List String) (states : String → τ) (a : ρ) (outcomes : List Outcome)
    (log : List Deed) : Prop where
  result_eq : ∀ (i : Nat) (h : i < iccids.length), outcomes[i]?.map Outcome.result =
    some ((c.activate iccids[i]).run.run (alone serve ambient) (states iccids[i], a)).1
  said_eq : ∀ iccid ∈ iccids, saidAbout iccid log =
    (conversation (alone serve ambient) (c.activate iccid) (states iccid, a)).map
      Exchange.anonymous

variable {serve : Service τ} {ambient : (e : Effect) → ρ → e.Answer × ρ}

/-- Jobs that are on track are separate once they have an outcome. -/
theorem onTrack_done {iccid : String} {o : Outcome} {t : τ} {a : ρ}
    {s : ((String → τ) × ρ) × List Deed}
    (h : OnTrack serve ambient (activateOne c iccid) t a iccid (.done o) s) :
    o.result = ((c.activate iccid).run.run (alone serve ambient) (t, a)).1 ∧
      saidAbout iccid s.2 =
        (conversation (alone serve ambient) (c.activate iccid) (t, a)).map
          Exchange.anonymous := by
  obtain ⟨hresult, hsaid⟩ := activateOne_run (alone serve ambient) c iccid (t, a)
  constructor
  · have ho : o = ⟨iccid, _⟩ := h.result.symm.trans hresult
    rw [ho]
  · have hlog : saidAlone serve ambient (activateOne c iccid) t a = saidAbout iccid s.2 :=
      h.said.trans (List.append_nil _)
    rw [← hlog, saidAlone, hsaid]

theorem pool_separate (hsource : SteadySource ambient) (hdistinct : iccids.Nodup)
    (hpar : 0 < parallelism) (states : String → τ) (a : ρ) (schedule : List Nat)
    (hover : (Pool.run (recording (served serve ambient)) schedule (pool c iccids parallelism)
      ((states, a), [])).1.isOver = true) :
    Separate serve ambient c iccids states a
      (Pool.run (recording (served serve ambient)) schedule (pool c iccids parallelism)
        ((states, a), [])).1.outcomes
      (Pool.run (recording (served serve ambient)) schedule (pool c iccids parallelism)
        ((states, a), [])).2.2 := by
  have hworking := pool_working c iccids parallelism (recording (served serve ambient)) schedule
    ((states, a), [])
  obtain ⟨hcount, hleft⟩ :=
    hworking.accounted.outcomes_left hover (hworking.workers_or hpar)
  rw [hworking.jobs_eq, List.length_map] at hcount
  -- Each entry has an outcome, whose job was on track to the end.
  have hdone : ∀ (i : Nat) (h : i < iccids.length), ∃ o,
      (Pool.run (recording (served serve ambient)) schedule (pool c iccids parallelism)
        ((states, a), [])).1.outcomes[i]? = some o ∧
      OnTrack serve ambient (activateOne c iccids[i]) (states iccids[i]) a iccids[i] (.done o)
        (Pool.run (recording (served serve ambient)) schedule (pool c iccids parallelism)
          ((states, a), [])).2 := by
    intro i hi
    have ho := List.getElem?_eq_getElem (hcount.symm ▸ hi)
    obtain ⟨iccid, hiccid, htrack⟩ := run_onTrack hsource hdistinct (activateOne_steady c)
      (workerCount iccids parallelism) states a schedule (hleft i _ ho)
    rw [List.getElem?_eq_getElem hi] at hiccid
    cases hiccid
    exact ⟨_, ho, htrack⟩
  constructor
  · intro i hi
    obtain ⟨o, ho, htrack⟩ := hdone i hi
    rw [ho, Option.map_some, (onTrack_done htrack).1]
  · intro iccid hmem
    obtain ⟨i, hi, rfl⟩ := List.getElem_of_mem hmem
    obtain ⟨o, -, htrack⟩ := hdone i hi
    exact (onTrack_done htrack).2

/-! ## Lists -/

/-- To activate each entry is to do the jobs one after the other. -/
theorem activateEach_eq (c : Client) (iccids : List String) :
    activateEach c iccids = Program.inTurn (iccids.map (activateOne c)) := by
  induction iccids with
  | nil => rfl
  | cons iccid others ih => rw [activateEach, ih, List.map_cons, Program.inTurn]

/-- The surroundings after the note that the workers begin. -/
def begun (iccids : List String) (parallelism : Nat) (answer : (e : Effect) → σ → e.Answer × σ)
    (s : σ) : σ :=
  ((Program.note (.bulkStarted iccids.length (workerCount iccids parallelism))).run answer s).2

/-- To activate a list is to let its workers take turns in one of the possible orders. -/
theorem exists_schedule_activateAll (c : Client) (iccids : List String) (hpar : 0 < parallelism)
    (answer : (e : Effect) → σ → e.Answer × σ) (s : σ) :
    ∃ schedule, ∃ r, Pool.run answer schedule (pool c iccids parallelism)
        (begun iccids parallelism answer s) = r ∧ r.1.isOver = true ∧
      (activateAll c iccids parallelism).run answer s = (r.1.outcomes, r.2) := by
  obtain ⟨schedule, hover, hrun⟩ := Pool.exists_run_inTurn answer (workerCount iccids parallelism)
    (iccids.map (activateOne c)) (begun iccids parallelism answer s)
    (workerCount_pos_or_jobs c iccids hpar)
  refine ⟨schedule, _, rfl, hover, ?_⟩
  rw [activateAll, run_bind, activateEach_eq]
  exact hrun

/-- A bulk activation is a map over its list, in whatever order the workers take turns. At any
time no more activations are under way than may be, and in the end each entry has its outcome.
If all turns are fair, there is an end. The bulk activation itself is one of the orders. If the
ICCIDs are distinct and each request is answered from the state of the ICCID that it names,
every entry comes to what it comes to alone. -/
theorem activateAll_map (c : Client) (iccids : List String) (hpar : 0 < parallelism) :
    (∀ {σ : Type} (answer : (e : Effect) → σ → e.Answer × σ) (s : σ),
      (∀ schedule, Orderly iccids parallelism
        (Pool.run answer schedule (pool c iccids parallelism) s).1) ∧
      (∀ turns, Pool.Fair (workerCount iccids parallelism) turns →
        ∃ n, (Pool.after answer turns (pool c iccids parallelism) s n).1.isOver = true) ∧
      ∃ schedule, ∃ r, Pool.run answer schedule (pool c iccids parallelism)
          (begun iccids parallelism answer s) = r ∧ r.1.isOver = true ∧
        (activateAll c iccids parallelism).run answer s = (r.1.outcomes, r.2)) ∧
    (iccids.Nodup → ∀ {τ ρ : Type} (serve : Service τ)
      (ambient : (e : Effect) → ρ → e.Answer × ρ) (states : String → τ) (a : ρ),
      SteadySource ambient → ∀ schedule r,
        Pool.run (recording (served serve ambient)) schedule (pool c iccids parallelism)
          ((states, a), []) = r → r.1.isOver = true →
        Separate serve ambient c iccids states a r.1.outcomes r.2.2) := by
  constructor
  · intro σ answer s
    refine ⟨fun schedule => pool_orderly c iccids hpar answer schedule s, fun turns hfair => ?_,
      exists_schedule_activateAll c iccids hpar answer s⟩
    refine Pool.exists_isOver answer (pool c iccids parallelism) s ?_
    have hworkers : (pool c iccids parallelism).workers.length = workerCount iccids parallelism :=
      List.length_replicate
    -- Fairness is for all the workers that were taken on.
    rwa [hworkers]
  · rintro hdistinct τ ρ serve ambient states a hsource schedule _ rfl hover
    exact pool_separate hsource hdistinct hpar states a schedule hover

/-- No replies about one profile, and two reports of a token about any other. -/
def silentAbout (silent iccid : String) : List (Except String (List UInt8)) :=
  if iccid = silent then []
  else List.replicate 2
    (reporting ⟨iccid, "", "RELEASED", "1$smdp.example$TOKEN", false, ""⟩)

/-- Two profiles, and two workers in turn. -/
theorem activateAll_map_pair :
    0 < 2 ∧ Pool.Fair 2 (fun n => n % 2) ∧ SteadySource still ∧
      ∃ r, Pool.run (recording (served script still)) ((List.range 40).map fun n => n % 2)
          (pool ⟨"ACME", ⟨false, false⟩⟩ ["8965030119040000067", "8965030119040000075"] 2)
          ((silentAbout "8965030119040000067", ()), []) = r ∧ r.1.isOver = true ∧
        Orderly ["8965030119040000067", "8965030119040000075"] 2 r.1 ∧
        Separate script still ⟨"ACME", ⟨false, false⟩⟩
          ["8965030119040000067", "8965030119040000075"] (silentAbout "8965030119040000067") ()
          r.1.outcomes r.2.2 := by
  have hsource : SteadySource still := fun _ _ => rfl
  obtain ⟨hrun, hseparate⟩ := activateAll_map ⟨"ACME", ⟨false, false⟩⟩
    ["8965030119040000067", "8965030119040000075"] (show 0 < 2 by decide)
  obtain ⟨horderly, -, -⟩ := hrun (recording (served script still))
    ((silentAbout "8965030119040000067", ()), [])
  refine ⟨by decide, Pool.inTurn_fair 2, hsource, _, rfl, ?_, horderly _, ?_⟩
  · decide +kernel
  · refine hseparate (by decide) script still _ () hsource _ _ rfl ?_
    decide +kernel

end ProfileAdmin.Command.Bulk
