import Mathlib.Data.List.Perm.Basic
import ProfileAdmin.Host.Pool
import ProfileAdmin.Proofs.Host.History

/-!
# Proofs.Host.Pool — what workers keep, whosever turn it is

1. **Moves**: what one step of a pool can be.
2. **Accounts**: every index that has been claimed is either under way or handed in, once.
3. **Jobs**: what is left of the job at an index. A step goes on with one job and leaves the
   others as they are, so what a job keeps by itself, and what no other job can take from it,
   holds after any schedule.
4. **Outcomes**: when all workers have left, there is one outcome for each job, in order.
-/

namespace ProfileAdmin.Host

variable {α σ : Type}

/-- The index of the job that a worker has. -/
def Worker.index? : Worker α → Option Nat
  | .busy i _ => some i
  | _ => none

namespace Pool

variable {answer : (e : Effect) → σ → e.Answer × σ} {w : Nat} {p : Pool α} {s : σ}

/-! ## Moves -/

/-- What the step of a worker can be. -/
inductive Move (answer : (e : Effect) → σ → e.Answer × σ) (w : Nat) (p : Pool α) (s : σ) :
    Pool α × σ → Prop where
  /-- There is no such worker any more. -/
  | stay (absent : p.workers[w]? = none ∨ p.workers[w]? = some .gone) : Move answer w p s (p, s)
  | claim {job : Program α} (idle : p.workers[w]? = some .idle)
      (listed : p.jobs[p.next]? = some job) :
      Move answer w p s ({ p.place w (.busy p.next job) with next := p.next + 1 }, s)
  | leave (idle : p.workers[w]? = some .idle) (exhausted : p.jobs[p.next]? = none) :
      Move answer w p s (p.place w .gone, s)
  | handIn {i : Nat} {a : α} (busy : p.workers[w]? = some (.busy i (.done a))) :
      Move answer w p s ({ p.place w .idle with results := p.results ++ [(i, a)] }, s)
  | act {i : Nat} {e : Effect} {next : e.Answer → Program α}
      (busy : p.workers[w]? = some (.busy i (.perform e next))) :
      Move answer w p s (p.place w (.busy i (next (answer e s).1)), (answer e s).2)

/-- Every step is one of five moves. -/
theorem step_move (answer : (e : Effect) → σ → e.Answer × σ) (w : Nat) (p : Pool α) (s : σ) :
    Move answer w p s (p.step answer w s) := by
  unfold step
  split
  case h_1 h => exact Move.stay (Or.inl h)
  case h_2 h => exact Move.stay (Or.inr h)
  case h_3 hidle =>
    split
    case h_1 job hjob => exact Move.claim hidle hjob
    case h_2 hnone => exact Move.leave hidle hnone
  case h_4 i a hbusy => exact Move.handIn hbusy
  case h_5 i e next hbusy => exact Move.act hbusy

/-- What every step keeps, every schedule keeps. -/
theorem run_invariant {P : Pool α → σ → Prop}
    (hstep : ∀ w p s, P p s → P (p.step answer w s).1 (p.step answer w s).2)
    (schedule : List Nat) (p : Pool α) (s : σ) (h : P p s) :
    P (run answer schedule p s).1 (run answer schedule p s).2 := by
  induction schedule generalizing p s with
  | nil => exact h
  | cons w schedule ih => exact ih _ _ (hstep w p s h)

/-- The workers beside the one with a number. -/
theorem workers_perm {worker : Worker α} (h : p.workers[w]? = some worker) :
    ∃ others, p.workers.Perm (worker :: others) ∧
      ∀ worker', (p.place w worker').workers.Perm (worker' :: others) := by
  obtain ⟨hw, rfl⟩ := List.getElem?_eq_some_iff.mp h
  exact ⟨p.workers.eraseIdx w, (List.getElem_cons_eraseIdx_perm hw).symm,
    fun worker' => List.set_perm_cons_eraseIdx hw worker'⟩

/-! ## Accounts -/

/-- The indices of the jobs under way. -/
def claimed (p : Pool α) : List Nat :=
  p.workers.filterMap Worker.index?

/-- The indices before the next one to claim are those under way and those handed in, each
once. Nobody leaves before all jobs are claimed. -/
structure Accounted (p : Pool α) : Prop where
  perm : (p.claimed ++ p.results.map Prod.fst).Perm (List.range p.next)
  next_le : p.next ≤ p.jobs.length
  exhausted : Worker.gone ∈ p.workers → p.next = p.jobs.length

/-- In the beginning there is nothing to account for. -/
theorem start_accounted (count : Nat) (jobs : List (Program α)) :
    (start count jobs).Accounted := by
  have hidle : ∀ worker ∈ List.replicate count (Worker.idle (α := α)), worker = .idle := by
    intro worker hworker
    exact List.eq_of_mem_replicate hworker
  constructor
  · have hnone : (start count jobs).claimed = [] :=
      List.filterMap_eq_nil_iff.mpr fun worker hworker => by rw [hidle worker hworker]; rfl
    rw [hnone]
    exact List.Perm.refl []
  · exact Nat.zero_le _
  · intro hgone
    cases hidle _ hgone

/-- The indices under way, before and after a worker is put in its place. -/
theorem claimed_perm {worker : Worker α} (h : p.workers[w]? = some worker) :
    ∃ others, p.claimed.Perm (worker.index?.toList ++ others) ∧
      ∀ worker', (p.place w worker').claimed.Perm (worker'.index?.toList ++ others) := by
  obtain ⟨others, hbefore, hafter⟩ := workers_perm h
  have hcons : ∀ worker' : Worker α, (worker' :: others).filterMap Worker.index? =
      worker'.index?.toList ++ others.filterMap Worker.index? := by
    intro worker'
    cases worker' <;> rfl
  refine ⟨others.filterMap Worker.index?, ?_, fun worker' => ?_⟩
  · rw [← hcons]
    exact hbefore.filterMap _
  · rw [← hcons]
    exact (hafter worker').filterMap _

/-- Someone who has left was there before, unless it is the one who leaves now. -/
theorem gone_of_place {worker : Worker α} (hne : worker ≠ .gone)
    (h : Worker.gone ∈ (p.place w worker).workers) : Worker.gone ∈ p.workers := by
  rcases List.mem_or_eq_of_mem_set h with hmem | heq
  · exact hmem
  · exact absurd heq.symm hne

/-- A move keeps the accounts: an index is added to both sides when it is claimed, and changes
sides when its outcome is handed in. -/
theorem Move.accounted {r : Pool α × σ} (h : Move answer w p s r) (hp : p.Accounted) :
    r.1.Accounted := by
  obtain ⟨hperm, hle, hgone⟩ := hp
  cases h with
  | stay absent => exact ⟨hperm, hle, hgone⟩
  | claim idle listed =>
      obtain ⟨others, hbefore, hafter⟩ := claimed_perm idle
      have hlt : p.next < p.jobs.length := (List.getElem?_eq_some_iff.mp listed).1
      refine ⟨?_, hlt, fun hmem => ?_⟩
      · have hrange : (p.next :: List.range p.next).Perm (List.range (p.next + 1)) := by
          rw [List.range_succ]
          exact (List.perm_append_singleton _ _).symm
        have hothers := (hbefore.append_right _).symm.trans hperm
        exact ((hafter _).append_right _).trans ((hothers.cons _).trans hrange)
      -- Nobody has left while there is a job to claim.
      · have hall := hgone (gone_of_place (by simp) hmem)
        omega
  | leave idle exhausted =>
      obtain ⟨others, hbefore, hafter⟩ := claimed_perm idle
      have hall : p.jobs.length ≤ p.next := List.getElem?_eq_none_iff.mp exhausted
      refine ⟨?_, hle, fun _ => Nat.le_antisymm hle hall⟩
      have hsame := (hafter .gone).trans hbefore.symm
      exact (hsame.append_right _).trans hperm
  | @handIn i a busy =>
      obtain ⟨others, hbefore, hafter⟩ := claimed_perm busy
      refine ⟨?_, hle, fun hmem => hgone (gone_of_place (by simp) hmem)⟩
      have hmoved : (others ++ (p.results ++ [(i, a)]).map Prod.fst).Perm
          (i :: others ++ p.results.map Prod.fst) := by
        rw [List.map_append, ← List.append_assoc]
        exact List.perm_append_singleton _ _
      exact ((hafter .idle).append_right _).trans
        (hmoved.trans ((hbefore.append_right _).symm.trans hperm))
  | @act i e next busy =>
      obtain ⟨others, hbefore, hafter⟩ := claimed_perm busy
      refine ⟨?_, hle, fun hmem => hgone (gone_of_place (by simp) hmem)⟩
      have hsame := (hafter (.busy i (next (answer e s).1))).trans hbefore.symm
      exact (hsame.append_right _).trans hperm

/-- Accounts are kept under any schedule. -/
theorem run_accounted (schedule : List Nat) (s : σ) (h : p.Accounted) :
    (run answer schedule p s).1.Accounted :=
  run_invariant (fun w p s h => (step_move answer w p s).accounted h) schedule p s h

/-- Jobs and the number of workers stay what they are. -/
theorem Move.jobs_eq {r : Pool α × σ} (h : Move answer w p s r) :
    r.1.jobs = p.jobs ∧ r.1.workers.length = p.workers.length := by
  cases h with
  | stay absent => exact ⟨rfl, rfl⟩
  | claim | leave | handIn | act => exact ⟨rfl, List.length_set⟩

/-- Jobs and places stay the same. -/
theorem run_jobs (schedule : List Nat) (p : Pool α) (s : σ) :
    (run answer schedule p s).1.jobs = p.jobs ∧
      (run answer schedule p s).1.workers.length = p.workers.length := by
  refine run_invariant (P := fun q _ => q.jobs = p.jobs ∧ q.workers.length = p.workers.length)
    (fun w q s hq => ?_) schedule p s ⟨rfl, rfl⟩
  obtain ⟨hjobs, hlength⟩ := (step_move answer w q s).jobs_eq
  exact ⟨hjobs.trans hq.1, hlength.trans hq.2⟩

/-- The job of a busy worker is claimed and not handed in, and nobody else has it. -/
theorem Accounted.only {i : Nat} {rest : Program α} (h : p.Accounted)
    (busy : p.workers[w]? = some (.busy i rest)) :
    i < p.next ∧ (∀ a, (i, a) ∉ p.results) ∧
      ∃ others, p.workers.Perm (.busy i rest :: others) ∧
        (∀ worker', (p.place w worker').workers.Perm (worker' :: others)) ∧
        ∀ rest', Worker.busy i rest' ∉ others := by
  obtain ⟨others, hbefore, hafter⟩ := workers_perm busy
  have hindices := (hbefore.filterMap Worker.index?).append_right (p.results.map Prod.fst)
  have hall : (i :: (others.filterMap Worker.index? ++ p.results.map Prod.fst)).Perm
      (List.range p.next) :=
    hindices.symm.trans h.perm
  -- Up to the next index to claim, every index stands in the accounts once.
  have hfresh : i ∉ others.filterMap Worker.index? ++ p.results.map Prod.fst :=
    (List.nodup_cons.mp (hall.nodup_iff.mpr List.nodup_range)).1
  rw [List.mem_append, not_or] at hfresh
  refine ⟨List.mem_range.mp (hall.subset List.mem_cons_self), fun a hmem => ?_,
    others, hbefore, hafter, fun rest' hmem => ?_⟩
  · exact hfresh.2 (List.mem_map.mpr ⟨(i, a), hmem, rfl⟩)
  · exact hfresh.1 (List.mem_filterMap.mpr ⟨_, hmem, rfl⟩)

/-- As many jobs are under way as are claimed and not handed in. -/
theorem Accounted.underWay_eq (h : p.Accounted) : p.underWay + p.results.length = p.next := by
  have hcount : ∀ workers : List (Worker α),
      (workers.filterMap Worker.index?).length = workers.countP Worker.isBusy := by
    intro workers
    rw [List.length_filterMap_eq_countP]
    congr 1
    funext worker
    cases worker <;> rfl
  -- The two sides of the accounts have as many indices as there are before the next one.
  have hlength := h.perm.length_eq
  rw [List.length_append, List.length_map, List.length_range] at hlength
  rw [← hlength, underWay, ← hcount]
  rfl

/-- No worker has more than one job. -/
theorem underWay_le (p : Pool α) : p.underWay ≤ p.workers.length :=
  List.countP_le_length

/-! ## Jobs -/

/-- What is left of the job at an index: all of it before it is claimed, what its worker has
yet to do, or nothing but the outcome. -/
inductive Left (p : Pool α) : Nat → Program α → Prop where
  | waiting {i : Nat} {job : Program α} (unclaimed : p.next ≤ i) (listed : p.jobs[i]? = some job) :
      Left p i job
  | busy {i : Nat} {rest : Program α} (working : Worker.busy i rest ∈ p.workers) : Left p i rest
  | handedIn {i : Nat} {a : α} (recorded : (i, a) ∈ p.results) : Left p i (.done a)

/-- No job of a new pool has been touched. -/
theorem left_start {count i : Nat} {jobs : List (Program α)} {rest : Program α}
    (h : (start count jobs).Left i rest) : jobs[i]? = some rest := by
  cases h with
  | waiting unclaimed listed => exact listed
  | busy working => cases List.eq_of_mem_replicate working
  | handedIn recorded => cases recorded

/-- Where someone is put in a place, what is left was left before, or is what they have, or has
been handed in. -/
theorem Left.of_place {q : Pool α} {worker : Worker α} {j : Nat} {rest : Program α}
    (h : q.Left j rest) (hjobs : q.jobs = p.jobs) (hnext : p.next ≤ q.next)
    (hworkers : q.workers = p.workers.set w worker) :
    p.Left j rest ∨ worker = .busy j rest ∨ ∃ a, rest = .done a ∧ (j, a) ∈ q.results := by
  cases h with
  | waiting unclaimed listed =>
      rw [hjobs] at listed
      exact Or.inl (Left.waiting (Nat.le_trans hnext unclaimed) listed)
  | busy working =>
      rw [hworkers] at working
      rcases List.mem_or_eq_of_mem_set working with hmem | heq
      · exact Or.inl (Left.busy hmem)
      · exact Or.inr (Or.inl heq.symm)
  | handedIn recorded => exact Or.inr (Or.inr ⟨_, rfl, recorded⟩)

/-- What a worker does in its next step, with the index of the job that it is done for. -/
def deed? (answer : (e : Effect) → σ → e.Answer × σ) (w : Nat) (p : Pool α) (s : σ) :
    Option (Nat × Deed) :=
  match p.workers[w]? with
  | some (.busy i (.perform e _)) => some (i, ⟨e, (answer e s).1⟩)
  | _ => none

/-- A move goes on with no job, or with one of them, by the effect that it asks for; what is
left of the other jobs stays as it is. -/
theorem Move.left {r : Pool α × σ} (h : Move answer w p s r) (hp : p.Accounted) :
    (p.deed? answer w s = none ∧ r.2 = s ∧ ∀ j rest, r.1.Left j rest → p.Left j rest) ∨
      ∃ i e next, p.deed? answer w s = some (i, ⟨e, (answer e s).1⟩) ∧ i < p.next ∧
        p.Left i (.perform e next) ∧ r.2 = (answer e s).2 ∧ ∀ j rest, r.1.Left j rest →
          (j = i ∧ rest = next (answer e s).1) ∨ (j ≠ i ∧ p.Left j rest) := by
  cases h with
  | stay absent =>
      have hnone : p.deed? answer w s = none := by
        rcases absent with h | h <;> simp [deed?, h]
      exact Or.inl ⟨hnone, rfl, fun j rest h => h⟩
  | claim idle listed =>
      refine Or.inl ⟨by simp [deed?, idle], rfl, fun j rest h => ?_⟩
      rcases h.of_place (p := p) (w := w) rfl (Nat.le_succ _) rfl with
        hbefore | heq | ⟨a, rfl, recorded⟩
      · exact hbefore
      · -- The job that is claimed was waiting.
        cases heq
        exact Left.waiting (Nat.le_refl _) listed
      · exact Left.handedIn recorded
  | leave idle exhausted =>
      refine Or.inl ⟨by simp [deed?, idle], rfl, fun j rest h => ?_⟩
      rcases h.of_place (p := p) (w := w) rfl (Nat.le_refl _) rfl with
        hbefore | heq | ⟨a, rfl, recorded⟩
      · exact hbefore
      · cases heq
      · exact Left.handedIn recorded
  | handIn busy =>
      refine Or.inl ⟨by simp [deed?, busy], rfl, fun j rest h => ?_⟩
      rcases h.of_place (p := p) (w := w) rfl (Nat.le_refl _) rfl with
        hbefore | heq | ⟨a, rfl, recorded⟩
      · exact hbefore
      · cases heq
      rcases List.mem_append.mp recorded with hmem | hmem
      · exact Left.handedIn hmem
      · -- The outcome that is handed in was all that was left of the job.
        obtain ⟨rfl, rfl⟩ := Prod.mk.inj (List.mem_singleton.mp hmem)
        exact Left.busy (List.mem_of_getElem? busy)
  | @act i e next busy =>
      obtain ⟨hlt, hunrecorded, others, hbefore, hafter, hothers⟩ := hp.only busy
      refine Or.inr ⟨i, e, next, by simp [deed?, busy], hlt,
        Left.busy (List.mem_of_getElem? busy), rfl, fun j rest h => ?_⟩
      cases h with
      | waiting unclaimed listed =>
          have hle : p.next ≤ j := unclaimed
          have hne : j ≠ i := by omega
          exact Or.inr ⟨hne, Left.waiting unclaimed listed⟩
      | busy working =>
          rcases List.mem_cons.mp ((hafter _).subset working) with heq | hmem
          · -- It is the one who moved.
            cases heq
            exact Or.inl ⟨rfl, rfl⟩
          · have hne : j ≠ i := by
              rintro rfl
              exact hothers _ hmem
            exact Or.inr ⟨hne, Left.busy (hbefore.symm.subset (List.mem_cons_of_mem _ hmem))⟩
      | handedIn recorded =>
          have hne : j ≠ i := by
            rintro rfl
            exact hunrecorded _ recorded
          exact Or.inr ⟨hne, Left.handedIn recorded⟩

/-- What holds of every job that is left, and is kept by its own effects and by the effects of
other jobs, holds after every schedule. -/
theorem run_left {Q : Nat → Program α → σ → Prop}
    (own : ∀ i e next s, Q i (.perform e next) s → Q i (next (answer e s).1) (answer e s).2)
    (frame : ∀ i j e next rest s, j ≠ i → Q i (.perform e next) s → Q j rest s →
      Q j rest (answer e s).2)
    (schedule : List Nat) (p : Pool α) (s : σ) (hp : p.Accounted)
    (h : ∀ i rest, p.Left i rest → Q i rest s) :
    ∀ i rest, (run answer schedule p s).1.Left i rest → Q i rest (run answer schedule p s).2 := by
  refine (run_invariant (P := fun p s => p.Accounted ∧ ∀ i rest, p.Left i rest → Q i rest s)
    (fun w p s hkeep => ?_) schedule p s ⟨hp, h⟩).2
  obtain ⟨hacc, hleft⟩ := hkeep
  have hmove := step_move answer w p s
  refine ⟨hmove.accounted hacc, fun j rest hj => ?_⟩
  rcases hmove.left hacc with ⟨-, hs, hsame⟩ | ⟨i, e, next, -, -, hi, hs, hcases⟩
  · rw [hs]
    exact hleft j rest (hsame j rest hj)
  · -- Someone has acted: the job at their index by itself, any other beside them.
    rw [hs]
    rcases hcases j rest hj with ⟨rfl, rfl⟩ | ⟨hne, hj'⟩
    · exact own j e next s (hleft _ _ hi)
    · exact frame i j e next rest s hne (hleft _ _ hi) (hleft _ _ hj')

/-! ## Outcomes -/

/-- When all workers have left, every job has been handed in, once. -/
theorem Accounted.all_handedIn (h : p.Accounted) (hover : p.isOver = true)
    (hworkers : p.workers ≠ [] ∨ p.jobs = []) :
    (p.results.map Prod.fst).Perm (List.range p.jobs.length) := by
  have hgone : ∀ worker ∈ p.workers, worker = .gone := by
    intro worker hmem
    have hleft := List.all_eq_true.mp hover worker hmem
    cases worker with
    | gone => rfl
    | idle | busy i rest => cases hleft
  have hclaimed : p.claimed = [] :=
    List.filterMap_eq_nil_iff.mpr fun worker hmem => by rw [hgone worker hmem]; rfl
  -- Whoever has left did so when all jobs had been claimed.
  have hnext : p.next = p.jobs.length := by
    rcases hworkers with hsome | hnone
    · obtain ⟨worker, hmem⟩ := List.exists_mem_of_ne_nil _ hsome
      exact h.exhausted (hgone worker hmem ▸ hmem)
    · have hle := h.next_le
      rw [hnone] at hle ⊢
      exact Nat.eq_zero_of_le_zero hle
  have hperm := h.perm
  rwa [hclaimed, List.nil_append, hnext] at hperm

/-- Sorting by the indices puts each outcome at its index. -/
theorem sorted_keys {results : List (Nat × α)} {n : Nat}
    (h : (results.map Prod.fst).Perm (List.range n)) :
    (results.mergeSort fun a b => a.1 ≤ b.1).map Prod.fst = List.range n := by
  have hsorted : (results.mergeSort fun a b => a.1 ≤ b.1).Pairwise
      fun a b => decide (a.1 ≤ b.1) = true := by
    refine List.pairwise_mergeSort (fun a b c hab hbc => ?_) (fun a b => ?_) results
    · simp only [decide_eq_true_eq] at hab hbc ⊢
      exact Nat.le_trans hab hbc
    · simp only [Bool.or_eq_true, decide_eq_true_eq]
      exact Nat.le_total a.1 b.1
  -- Two sorted lists of the same indices are the same.
  refine List.Perm.eq_of_pairwise (fun a b _ _ hab hba => Nat.le_antisymm hab hba) ?_
    List.pairwise_le_range ?_
  · exact List.pairwise_map.mpr (hsorted.imp fun hle => of_decide_eq_true hle)
  · exact ((List.mergeSort_perm _ _).map _).trans h

/-- When all workers have left, there is one outcome for each job, and it is what is left of
the job. -/
theorem Accounted.outcomes_left (h : p.Accounted) (hover : p.isOver = true)
    (hworkers : p.workers ≠ [] ∨ p.jobs = []) :
    p.outcomes.length = p.jobs.length ∧
      ∀ i a, p.outcomes[i]? = some a → p.Left i (.done a) := by
  have hkeys := sorted_keys (h.all_handedIn hover hworkers)
  constructor
  · have hlength := congrArg List.length hkeys
    simpa [outcomes] using hlength
  · -- The index that an outcome was handed in with is the one it is sorted to.
    intro i a ha
    rw [outcomes, List.getElem?_map, Option.map_eq_some_iff] at ha
    obtain ⟨⟨k, b⟩, hsorted, rfl⟩ := ha
    have hk := congrArg (fun keys => keys[i]?) hkeys
    rw [List.getElem?_map, hsorted, Option.map_some] at hk
    obtain ⟨_, hki⟩ := List.getElem?_eq_some_iff.mp hk.symm
    obtain rfl : i = k := by simpa using hki
    exact Left.handedIn (List.mem_mergeSort.mp (List.mem_of_getElem? hsorted))

end Pool

end ProfileAdmin.Host
