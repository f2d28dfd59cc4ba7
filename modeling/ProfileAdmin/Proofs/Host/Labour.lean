import ProfileAdmin.Proofs.Host.Pool

/-!
# Proofs.Host.Labour — what is done for which job

1. **Labour**: all deeds of the workers under a schedule, each with the index of its job.
2. **Jobs**: the deeds for a job are those of the job itself, from its beginning on.
3. **Outcomes**: when all workers have left, every job has returned its outcome after the deeds
   done for it.
4. **Recording**: the deeds without their indices are what is recorded.
-/

namespace ProfileAdmin.Host

open Program

variable {α σ : Type}

namespace Pool

/-! ## Labour -/

/-- What is done under a schedule, with the indices of the jobs. -/
def labour (answer : (e : Effect) → σ → e.Answer × σ) : List Nat → Pool α → σ → List (Nat × Deed)
  | [], _, _ => []
  | w :: schedule, p, s =>
    (p.deed? answer w s).toList ++
      labour answer schedule (p.step answer w s).1 (p.step answer w s).2

/-- The deeds for one job. -/
def doneFor (i : Nat) (log : List (Nat × Deed)) : List Deed :=
  (log.filter fun x => x.1 = i).map Prod.snd

/-- What is done for a job is done in order. -/
theorem doneFor_append (i : Nat) (log log' : List (Nat × Deed)) :
    doneFor i (log ++ log') = doneFor i log ++ doneFor i log' := by
  rw [doneFor, List.filter_append, List.map_append]
  rfl

theorem doneFor_self (i : Nat) (d : Deed) : doneFor i [(i, d)] = [d] := by
  simp [doneFor]

/-- A deed is done for one job. -/
theorem doneFor_other {i j : Nat} (h : j ≠ i) (d : Deed) : doneFor j [(i, d)] = [] := by
  simp [doneFor, h.symm]

variable {answer : (e : Effect) → σ → e.Answer × σ} {p : Pool α} {s : σ}

/-! ## Jobs -/

/-- What is left of each job is what its deeds leave of it. -/
def Faithful (jobs : List (Program α)) (log : List (Nat × Deed)) (p : Pool α) : Prop :=
  ∀ i rest, p.Left i rest → ∃ job, jobs[i]? = some job ∧ Remains job (doneFor i log) rest

/-- In the beginning all of each job is left. -/
theorem start_faithful (count : Nat) (jobs : List (Program α)) :
    Faithful jobs [] (start count jobs) :=
  fun _ rest hleft => ⟨rest, left_start hleft, remains_start rest⟩

/-- A deed is one more for its job, and none for any other. -/
theorem Faithful.step {jobs : List (Program α)} {log : List (Nat × Deed)} (hp : p.Accounted)
    (h : Faithful jobs log p) (w : Nat) :
    Faithful jobs (log ++ (p.deed? answer w s).toList) (p.step answer w s).1 := by
  intro j rest hj
  rcases (step_move answer w p s).left hp with
    ⟨hnone, -, hsame⟩ | ⟨i, e, next, hdeed, -, hi, -, hcases⟩
  · rw [hnone, Option.toList_none, List.append_nil]
    exact h j rest (hsame j rest hj)
  · rw [hdeed, Option.toList_some, doneFor_append]
    rcases hcases j rest hj with ⟨rfl, rfl⟩ | ⟨hne, hj'⟩
    · obtain ⟨job, hjob, hremains⟩ := h j _ hi
      rw [doneFor_self]
      exact ⟨job, hjob, hremains.perform _⟩
    · rw [doneFor_other hne, List.append_nil]
      exact h j rest hj'

/-- Under any schedule, what is left of each job is what its deeds leave of it. -/
theorem Faithful.run {jobs : List (Program α)} {log : List (Nat × Deed)} (hp : p.Accounted)
    (h : Faithful jobs log p) (schedule : List Nat) :
    Faithful jobs (log ++ labour answer schedule p s) (run answer schedule p s).1 := by
  induction schedule generalizing p s log with
  | nil =>
      rw [labour, List.append_nil]
      exact h
  | cons w schedule ih =>
      rw [labour, ← List.append_assoc]
      exact ih ((step_move answer w p s).accounted hp) (h.step hp w)

/-- So it is from the beginning on. -/
theorem labour_faithful (count : Nat) (jobs : List (Program α)) (schedule : List Nat) :
    Faithful jobs (labour answer schedule (start count jobs) s)
      (run answer schedule (start count jobs) s).1 :=
  (start_faithful count jobs).run (start_accounted count jobs) schedule

/-- Deeds are done for jobs that are listed. -/
theorem labour_lt (hp : p.Accounted) (schedule : List Nat) :
    ∀ x ∈ labour answer schedule p s, x.1 < p.jobs.length := by
  induction schedule generalizing p s with
  | nil => exact fun x hx => absurd hx List.not_mem_nil
  | cons w schedule ih =>
      have hmove := step_move answer w p s
      intro x hx
      rcases List.mem_append.mp hx with hnow | hlater
      · rcases hmove.left hp with ⟨hnone, -⟩ | ⟨i, e, next, hdeed, hlt, -⟩
        · rw [hnone] at hnow
          cases hnow
        · rw [hdeed] at hnow
          obtain rfl := List.mem_singleton.mp hnow
          exact Nat.lt_of_lt_of_le hlt hp.next_le
      · rw [← hmove.jobs_eq.1]
        exact ih (hmove.accounted hp) x hlater

/-- Something is left of every job that is listed, if only its outcome. -/
theorem Accounted.exists_left (h : p.Accounted) {i : Nat} (hi : i < p.jobs.length) :
    ∃ rest, p.Left i rest := by
  by_cases hnext : i < p.next
  · -- An index before the next one is under way or handed in.
    have hmem := h.perm.symm.subset (List.mem_range.mpr hnext)
    rcases List.mem_append.mp hmem with hclaimed | hresult
    · obtain ⟨worker, hworker, hindex⟩ := List.mem_filterMap.mp hclaimed
      cases worker with
      | idle | gone => cases hindex
      | busy j rest =>
          obtain rfl : j = i := Option.some.inj hindex
          exact ⟨rest, Left.busy hworker⟩
    · obtain ⟨⟨j, a⟩, hrecorded, rfl⟩ := List.mem_map.mp hresult
      exact ⟨.done a, Left.handedIn hrecorded⟩
  · exact ⟨p.jobs[i], Left.waiting (Nat.le_of_not_lt hnext) (List.getElem?_eq_getElem hi)⟩

/-- At any time, what is done for a job is the beginning of something that the job can do. -/
theorem labour_returns (count : Nat) (jobs : List (Program α)) (schedule : List Nat) {i : Nat}
    (hi : i < jobs.length) :
    ∃ h a, jobs[i].Returns (doneFor i (labour answer schedule (start count jobs) s) ++ h) a := by
  have haccounted : (run answer schedule (start count jobs) s).1.Accounted :=
    run_accounted schedule s (start_accounted count jobs)
  have hlisted : i < (run answer schedule (start count jobs) s).1.jobs.length := by
    rw [(run_jobs schedule _ s).1]
    exact hi
  obtain ⟨rest, hleft⟩ := haccounted.exists_left hlisted
  obtain ⟨job, hjob, hremains⟩ := labour_faithful count jobs schedule i rest hleft
  obtain ⟨h, a, hr⟩ := exists_returns rest
  rw [List.getElem?_eq_getElem hi] at hjob
  obtain rfl := Option.some.inj hjob
  exact ⟨h, a, hremains h a hr⟩

/-! ## Outcomes -/

/-- When all workers have left, there is one outcome for each job, and the job has returned it
after what was done for it. -/
theorem outcomes_returns {count : Nat} {jobs : List (Program α)} {schedule : List Nat}
    (hover : (run answer schedule (start count jobs) s).1.isOver = true)
    (hcount : 0 < count ∨ jobs = []) :
    (run answer schedule (start count jobs) s).1.outcomes.length = jobs.length ∧
      ∀ i (hi : i < jobs.length) a,
        (run answer schedule (start count jobs) s).1.outcomes[i]? = some a →
          jobs[i].Returns (doneFor i (labour answer schedule (start count jobs) s)) a := by
  obtain ⟨hsame, hnumber⟩ : (run answer schedule (start count jobs) s).1.jobs = jobs ∧
      (run answer schedule (start count jobs) s).1.workers.length =
        (start count jobs).workers.length := run_jobs schedule (start count jobs) s
  have haccounted : (run answer schedule (start count jobs) s).1.Accounted :=
    run_accounted schedule s (start_accounted count jobs)
  -- There are as many workers as in the beginning, so there are some if there are jobs.
  have hworkers : (run answer schedule (start count jobs) s).1.workers ≠ [] ∨
      (run answer schedule (start count jobs) s).1.jobs = [] := by
    rcases hcount with hpos | hnone
    · left
      intro hnone
      rw [hnone, start, List.length_replicate] at hnumber
      exact absurd hnumber (Nat.ne_of_lt hpos)
    · exact Or.inr (hsame.trans hnone)
  obtain ⟨hlength, hleft⟩ := haccounted.outcomes_left hover hworkers
  rw [hsame] at hlength
  refine ⟨hlength, fun i hi a ha => ?_⟩
  obtain ⟨job, hjob, hremains⟩ := labour_faithful count jobs schedule i _ (hleft i a ha)
  rw [List.getElem?_eq_getElem hi] at hjob
  obtain rfl := Option.some.inj hjob
  exact hremains.returns

/-! ## Recording -/

/-- What is recorded in a step is what is done in it. -/
theorem step_recording (w : Nat) (p : Pool α) (s : σ) (before : List Deed) :
    p.step (recording answer) w (s, before) =
      ((p.step answer w s).1, (p.step answer w s).2,
        before ++ (p.deed? answer w s).toList.map Prod.snd) := by
  rcases hw : p.workers[w]? with _ | worker
  · simp [step, deed?, hw]
  · cases worker with
    | idle => cases hjob : p.jobs[p.next]? <;> simp [step, deed?, hw, hjob]
    | gone => simp [step, deed?, hw]
    | busy i rest => cases rest <;> simp [step, deed?, hw, recording]

/-- What is recorded is the labour, without the indices of the jobs. -/
theorem run_recording_labour (schedule : List Nat) (p : Pool α) (s : σ) (before : List Deed) :
    run (recording answer) schedule p (s, before) =
      ((run answer schedule p s).1, (run answer schedule p s).2,
        before ++ (labour answer schedule p s).map Prod.snd) := by
  induction schedule generalizing p s before with
  | nil => simp [run, labour]
  | cons w schedule ih =>
      simp only [run, labour, step_recording, ih, List.map_append, List.append_assoc]

end Pool

end ProfileAdmin.Host
