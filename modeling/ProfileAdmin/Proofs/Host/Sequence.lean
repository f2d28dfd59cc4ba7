import ProfileAdmin.Proofs.Host.Fairness
import ProfileAdmin.Proofs.Host.History

/-!
# Proofs.Host.Sequence — one job after the other

1. **Sequences**: the program that does all jobs in order, and gives what came of each.
2. **One job**: a worker can do its job in one go.
3. **All jobs**: a worker can do all jobs in order while the others wait. So the sequence is
   what a pool does under one of its schedules.
-/

namespace ProfileAdmin.Host

variable {α σ : Type}

/-! ## Sequences -/

/-- Does the jobs in order. -/
def Program.inTurn : List (Program α) → Program (List α)
  | [] => return []
  | job :: jobs => do
    let a ← job
    let as ← inTurn jobs
    return a :: as

/-- The first job is done, and then the others where it has led to. -/
theorem Program.run_inTurn_cons (answer : (e : Effect) → σ → e.Answer × σ) (job : Program α)
    (jobs : List (Program α)) (s : σ) :
    (inTurn (job :: jobs)).run answer s =
      ((job.run answer s).1 :: ((inTurn jobs).run answer (job.run answer s).2).1,
        ((inTurn jobs).run answer (job.run answer s).2).2) := by
  rw [inTurn, Program.run_bind, Program.run_bind]
  rfl

namespace Pool

variable (answer : (e : Effect) → σ → e.Answer × σ) (w : Nat)

/-! ## One job -/

/-- A worker can do what is left of its job in one go. The induction is on what is left. -/
theorem exists_run_job (rest : Program α) (p : Pool α) (s : σ) {i : Nat}
    (hbusy : p.workers[w]? = some (.busy i rest)) :
    ∃ schedule, run answer schedule p s =
      ({ p.place w .idle with results := p.results ++ [(i, (rest.run answer s).1)] },
        (rest.run answer s).2) := by
  induction rest generalizing p s with
  | done a =>
      refine ⟨[w], ?_⟩
      simp only [run, step, hbusy]
      rfl
  | perform e next ih =>
      have hw : w < p.workers.length := (List.getElem?_eq_some_iff.mp hbusy).1
      have hnext : (p.place w (.busy i (next (answer e s).1))).workers[w]? =
          some (.busy i (next (answer e s).1)) :=
        List.getElem?_set_self hw
      -- The effect takes one step, and what is left takes the others.
      obtain ⟨schedule, hrun⟩ := ih (answer e s).1 _ (answer e s).2 hnext
      refine ⟨w :: schedule, ?_⟩
      simp only [run, step, hbusy]
      rw [hrun]
      simp only [place, List.set_set]
      rfl

/-! ## All jobs -/

/-- The outcomes of jobs that were done in order, with their indices. -/
def numbered (n : Nat) (outcomes : List α) : List (Nat × α) :=
  (outcomes.zipIdx n).map Prod.swap

/-- A worker can do the jobs that are not yet claimed, in order, and leave. -/
theorem exists_run_jobs (rest : List (Program α)) (p : Pool α) (s : σ)
    (hidle : p.workers[w]? = some .idle) (hnext : p.next ≤ p.jobs.length)
    (hrest : p.jobs.drop p.next = rest) :
    ∃ schedule, run answer schedule p s =
      (⟨p.jobs, p.jobs.length, p.workers.set w .gone,
          p.results ++ numbered p.next ((Program.inTurn rest).run answer s).1⟩,
        ((Program.inTurn rest).run answer s).2) := by
  have hw : w < p.workers.length := (List.getElem?_eq_some_iff.mp hidle).1
  induction rest generalizing p s with
  | nil =>
      have hall : p.jobs.length = p.next :=
        Nat.le_antisymm (List.drop_eq_nil_iff.mp hrest) hnext
      have hnone : p.jobs[p.next]? = none := List.getElem?_eq_none_iff.mpr (Nat.le_of_eq hall)
      refine ⟨[w], ?_⟩
      simp only [run, step, hidle, hnone, hall]
      exact congrArg (fun results => (Pool.mk p.jobs p.next _ results, s)) (List.append_nil _).symm
  | cons job rest ih =>
      have hjob : p.jobs[p.next]? = some job := by
        rw [← List.head?_drop, hrest]
        rfl
      have hlt : p.next < p.jobs.length := (List.getElem?_eq_some_iff.mp hjob).1
      have hrest' : p.jobs.drop (p.next + 1) = rest := by
        rw [← List.drop_drop, hrest]
        rfl
      -- The worker claims the job, does it in one go, and goes on with the others.
      obtain ⟨schedule₁, hrun₁⟩ := exists_run_job answer w job
        { p.place w (.busy p.next job) with next := p.next + 1 } s (List.getElem?_set_self hw)
      have hplaced : (p.workers.set w (.busy p.next job)).set w .idle = p.workers := by
        obtain ⟨_, hget⟩ := List.getElem?_eq_some_iff.mp hidle
        rw [List.set_set, ← hget, List.set_getElem_self]
      obtain ⟨schedule₂, hrun₂⟩ := ih
        ⟨p.jobs, p.next + 1, p.workers, p.results ++ [(p.next, (job.run answer s).1)]⟩
        (job.run answer s).2 hidle hlt hrest' hw
      refine ⟨w :: (schedule₁ ++ schedule₂), ?_⟩
      rw [Program.run_inTurn_cons]
      simp only [run, step, hidle, hjob]
      rw [run_append, hrun₁]
      simp only [place, hplaced]
      rw [hrun₂]
      simp [numbered]

/-- Numbered outcomes are in order. -/
theorem outcomes_numbered {p : Pool α} {outcomes : List α} (h : p.results = numbered 0 outcomes) :
    p.outcomes = outcomes := by
  have hkeys : (numbered 0 outcomes).map Prod.fst = List.range' 0 outcomes.length := by
    rw [numbered, List.map_map, ← List.zipIdx_map_snd]
    rfl
  have hsorted : (numbered 0 outcomes).Pairwise fun a b => decide (a.1 ≤ b.1) = true := by
    have hle : ((numbered 0 outcomes).map Prod.fst).Pairwise (· ≤ ·) := by
      rw [hkeys]
      exact List.pairwise_le_range'
    exact (List.pairwise_map.mp hle).imp fun hab => decide_eq_true hab
  have hvalues : (numbered 0 outcomes).map Prod.snd = outcomes := by
    rw [numbered, List.map_map]
    exact List.zipIdx_map_fst 0 outcomes
  rw [Pool.outcomes, h, List.mergeSort_of_pairwise hsorted, hvalues]

/-- All jobs are claimed, and nobody is busy. -/
def Resting (p : Pool α) : Prop :=
  (∀ worker ∈ p.workers, worker.isBusy = false) ∧ p.next = p.jobs.length

/-- In a pool that rests, workers can only leave. -/
theorem run_resting (schedule : List Nat) (p : Pool α) (s : σ) (h : p.Resting) :
    (run answer schedule p s).1.results = p.results ∧ (run answer schedule p s).2 = s := by
  refine (run_invariant (P := fun q t => q.Resting ∧ q.results = p.results ∧ t = s)
    (fun w q t hq => ?_) schedule p s ⟨h, rfl, rfl⟩).2
  obtain ⟨⟨hidle, hnext⟩, hresults, rfl⟩ := hq
  have hmove := step_move answer w q t
  generalize q.step answer w t = r at hmove
  cases hmove with
  | stay absent => exact ⟨⟨hidle, hnext⟩, hresults, rfl⟩
  | claim idle listed =>
      have hlt := (List.getElem?_eq_some_iff.mp listed).1
      exact absurd hnext (Nat.ne_of_lt hlt)
  | leave idle exhausted =>
      refine ⟨⟨fun worker hmem => ?_, hnext⟩, hresults, rfl⟩
      rcases List.mem_or_eq_of_mem_set hmem with hmem | rfl
      · exact hidle worker hmem
      · rfl
  | handIn busy => cases hidle _ (List.mem_of_getElem? busy)
  | act busy => cases hidle _ (List.mem_of_getElem? busy)

/-- The sequence of the jobs is what the pool does under one of its schedules. -/
theorem exists_run_inTurn (count : Nat) (jobs : List (Program α)) (s : σ)
    (hcount : 0 < count ∨ jobs = []) :
    ∃ schedule, (run answer schedule (start count jobs) s).1.isOver = true ∧
      (Program.inTurn jobs).run answer s =
        ((run answer schedule (start count jobs) s).1.outcomes,
          (run answer schedule (start count jobs) s).2) := by
  rcases Nat.eq_zero_or_pos count with rfl | hpos
  · obtain rfl : jobs = [] := hcount.resolve_left (Nat.lt_irrefl 0)
    exact ⟨[], rfl, Prod.ext (outcomes_numbered rfl).symm rfl⟩
  have hidle : (start count jobs).workers[0]? = some .idle :=
    List.getElem?_replicate_of_lt hpos
  obtain ⟨schedule, hrun⟩ := exists_run_jobs answer 0 jobs (start count jobs) s hidle
    (Nat.zero_le _) rfl
  -- Worker 0 has done all jobs; the others find none left.
  have hresting : (run answer schedule (start count jobs) s).1.Resting := by
    rw [hrun]
    refine ⟨fun worker hmem => ?_, rfl⟩
    rcases List.mem_or_eq_of_mem_set hmem with hmem | rfl
    · rw [List.eq_of_mem_replicate hmem]
      rfl
    · rfl
  obtain ⟨later, hover⟩ := exists_schedule_isOver answer
    (run answer schedule (start count jobs) s).1 (run answer schedule (start count jobs) s).2
  obtain ⟨hresults, hstate⟩ := run_resting answer later _
    (run answer schedule (start count jobs) s).2 hresting
  refine ⟨schedule ++ later, ?_⟩
  rw [run_append]
  refine ⟨hover, Prod.ext ?_ ?_⟩
  · refine (outcomes_numbered (hresults.trans ?_)).symm
    rw [hrun]
    rfl
  · rw [hstate, hrun]

end Pool

end ProfileAdmin.Host
