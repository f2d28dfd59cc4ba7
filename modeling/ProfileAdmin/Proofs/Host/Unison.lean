import ProfileAdmin.Proofs.Host.Correspondence
import ProfileAdmin.Proofs.Host.Labour

/-!
# Proofs.Host.Unison — two runs, deed by deed

1. **Histories** of two runs: as long as like effects are answered alike, corresponding programs
   do alike, and end with like values.
2. **Pools** of corresponding jobs stay in step under any schedule.
3. **Outcomes** of pools in step, under whatever view they are taken for alike.
-/

namespace ProfileAdmin.Host

open Program

variable {α β γ σ τ : Type} {R : Correspondence} {V : α → β → Prop}

/-! ## Histories -/

/-- Deed by deed, as far as both histories go, like effects were answered alike. -/
def AnsweredAlike (R : Correspondence) : List Deed → List Deed → Prop
  | d :: h, d' :: h' =>
    (R.effects d.effect d'.effect → R.answers d.effect d'.effect d.answer d'.answer) ∧
      AnsweredAlike R h h'
  | _, _ => True

/-- Deed by deed, the same was done in both histories, up to likeness. -/
def DoneAlike (R : Correspondence) : List Deed → List Deed → Prop :=
  List.Forall₂ fun d d' => R.effects d.effect d'.effect

/-- Histories of which the first parts go together are compared part by part. -/
theorem answeredAlike_append_iff {h₁ h₁' h₂ h₂' : List Deed} (hdone : DoneAlike R h₁ h₁') :
    AnsweredAlike R (h₁ ++ h₂) (h₁' ++ h₂') ↔
      AnsweredAlike R h₁ h₁' ∧ AnsweredAlike R h₂ h₂' := by
  induction hdone with
  | nil => exact (and_iff_right trivial).symm
  | cons _ _ ih =>
      show (_ ∧ AnsweredAlike R (_ ++ _) (_ ++ _)) ↔ (_ ∧ AnsweredAlike R _ _) ∧ _
      rw [ih, and_assoc]

namespace Program

/-- Programs that correspond do alike as long as they are answered alike. -/
theorem Corresponds.unison {p : Program α} {q : Program β} (hpq : Corresponds R V p q)
    {h h' : List Deed} {a : α} {b : β} (hp : p.Returns h a) (hq : q.Returns h' b)
    (halike : AnsweredAlike R h h') : DoneAlike R h h' ∧ V a b := by
  -- Each effect of the programs takes one deed from either history.
  induction hpq generalizing h h' with
  | done values =>
      rcases returns_done_iff.mp hp with ⟨rfl, rfl⟩
      rcases returns_done_iff.mp hq with ⟨rfl, rfl⟩
      exact ⟨List.Forall₂.nil, values⟩
  | perform effects rest ih =>
      rcases returns_perform_iff.mp hp with ⟨answer, later, rfl, hrest⟩
      rcases returns_perform_iff.mp hq with ⟨answer', later', rfl, hrest'⟩
      rcases halike with ⟨hanswers, hlater⟩
      rcases ih answer answer' (hanswers effects) hrest hrest' hlater with ⟨hdone, hvalues⟩
      exact ⟨List.Forall₂.cons effects hdone, hvalues⟩

end Program

/-! ## Pools -/

/-- Two workers are at the same job, in corresponding places. -/
inductive Worker.InStep (R : Correspondence) (V : α → β → Prop) : Worker α → Worker β → Prop where
  | idle : InStep R V .idle .idle
  | busy {i : Nat} {rest : Program α} {rest' : Program β} (rests : Corresponds R V rest rest') :
      InStep R V (.busy i rest) (.busy i rest')
  | gone : InStep R V .gone .gone

namespace Pool

/-- Two pools are in step: worker by worker, job by job, and in what has been handed in. -/
structure InStep (R : Correspondence) (V : α → β → Prop) (p : Pool α) (q : Pool β) : Prop where
  jobs : List.Forall₂ (Corresponds R V) p.jobs q.jobs
  next : p.next = q.next
  workers : List.Forall₂ (Worker.InStep R V) p.workers q.workers
  results : List.Forall₂ (fun x y => x.1 = y.1 ∧ V x.2 y.2) p.results q.results

/-- Pools of corresponding jobs begin in step. -/
theorem start_inStep (count : Nat) {jobs : List (Program α)} {jobs' : List (Program β)}
    (hjobs : List.Forall₂ (Corresponds R V) jobs jobs') :
    InStep R V (start count jobs) (start count jobs') := by
  refine ⟨hjobs, rfl, ?_, List.Forall₂.nil⟩
  show List.Forall₂ _ (List.replicate count Worker.idle) (List.replicate count Worker.idle)
  induction count with
  | zero => exact List.Forall₂.nil
  | succ count ih => exact List.Forall₂.cons Worker.InStep.idle ih

/-- Lists that are alike item by item have alike items in each place, or none. -/
theorem getElem?_alike {A : α → β → Prop} {l : List α} {l' : List β} (h : List.Forall₂ A l l')
    (i : Nat) :
    (l[i]? = none ∧ l'[i]? = none) ∨ ∃ a b, l[i]? = some a ∧ l'[i]? = some b ∧ A a b := by
  induction h generalizing i with
  | nil => exact Or.inl ⟨rfl, rfl⟩
  | cons hab _ ih =>
      cases i with
      | zero => exact Or.inr ⟨_, _, rfl, rfl, hab⟩
      | succ i => exact ih i

theorem set_alike {A : α → β → Prop} {l : List α} {l' : List β} (h : List.Forall₂ A l l')
    (i : Nat) {a : α} {b : β} (hab : A a b) : List.Forall₂ A (l.set i a) (l'.set i b) := by
  induction h generalizing i with
  | nil => exact List.Forall₂.nil
  | cons hfirst hothers ih =>
      cases i with
      | zero => exact List.Forall₂.cons hab hothers
      | succ i => exact List.Forall₂.cons hfirst (ih i)

variable {p : Pool α} {q : Pool β} {answer : (e : Effect) → σ → e.Answer × σ}
  {answer' : (e : Effect) → τ → e.Answer × τ} {s : σ} {t : τ}

theorem InStep.place (h : InStep R V p q) (w : Nat) {worker : Worker α} {worker' : Worker β}
    (hworkers : Worker.InStep R V worker worker') :
    InStep R V (p.place w worker) (q.place w worker') :=
  ⟨h.jobs, h.next, set_alike h.workers w hworkers, h.results⟩

/-- The deeds of one step, without the indices of the jobs. -/
def deeds (answer : (e : Effect) → σ → e.Answer × σ) (w : Nat) (p : Pool α) (s : σ) : List Deed :=
  (p.deed? answer w s).toList.map Prod.snd

/-- What the step of a worker is in two pools in step: in both of them it is no deed, or in both
of them it is one, of like effects. -/
inductive StepAlike (R : Correspondence) (V : α → β → Prop)
    (answer : (e : Effect) → σ → e.Answer × σ) (answer' : (e : Effect) → τ → e.Answer × τ)
    (s : σ) (t : τ) : List Deed → List Deed → Pool α × σ → Pool β × τ → Prop where
  | still {p : Pool α} {q : Pool β} (after : InStep R V p q) :
      StepAlike R V answer answer' s t [] [] (p, s) (q, t)
  | deed {p : Pool α} {q : Pool β} {e e' : Effect} (effects : R.effects e e')
      (after : R.answers e e' (answer e s).1 (answer' e' t).1 → InStep R V p q) :
      StepAlike R V answer answer' s t [⟨e, (answer e s).1⟩] [⟨e', (answer' e' t).1⟩]
        (p, (answer e s).2) (q, (answer' e' t).2)

/-- One turn in two pools in step: both do alike, or neither does anything. -/
theorem InStep.step (h : InStep R V p q) (answer : (e : Effect) → σ → e.Answer × σ)
    (answer' : (e : Effect) → τ → e.Answer × τ) (s : σ) (t : τ) (w : Nat) :
    StepAlike R V answer answer' s t (deeds answer w p s) (deeds answer' w q t)
      (p.step answer w s) (q.step answer' w t) := by
  unfold deeds deed? Pool.step
  rcases getElem?_alike h.workers w with ⟨hp, hq⟩ | ⟨worker, worker', hp, hq, hworkers⟩
  · rw [hp, hq]
    exact StepAlike.still h
  rw [hp, hq]
  cases hworkers with
  | gone => exact StepAlike.still h
  | idle =>
      -- Both find the same next job, or none.
      have hnext := h.next
      rcases getElem?_alike h.jobs p.next with ⟨hjob, hjob'⟩ | ⟨job, job', hjob, hjob', hjobs⟩
      · rw [hnext] at hjob'
        simp only [hjob, hjob']
        exact StepAlike.still (h.place w Worker.InStep.gone)
      · rw [hnext] at hjob'
        simp only [hjob, hjob']
        have hplaced := h.place w (Worker.InStep.busy (i := p.next) hjobs)
        refine StepAlike.still ⟨hplaced.jobs, congrArg Nat.succ hnext, ?_, hplaced.results⟩
        rw [← hnext]
        exact hplaced.workers
  | busy rests =>
      cases rests with
      -- Both hand in, under the same index.
      | done values =>
          have hplaced := h.place w (Worker.InStep.idle (R := R) (V := V))
          refine StepAlike.still ⟨hplaced.jobs, hplaced.next, hplaced.workers, ?_⟩
          exact List.rel_append h.results (List.Forall₂.cons ⟨rfl, values⟩ List.Forall₂.nil)
      | perform effects rest =>
          refine StepAlike.deed effects fun hanswers => ?_
          exact h.place w (Worker.InStep.busy (rest _ _ hanswers))

section

variable {h h' : List Deed} {x : Pool α × σ} {y : Pool β × τ}

/-- Steps that are alike do alike. -/
theorem StepAlike.doneAlike (hstep : StepAlike R V answer answer' s t h h' x y) :
    DoneAlike R h h' := by
  cases hstep with
  | still after => exact List.Forall₂.nil
  | deed effects after => exact List.Forall₂.cons effects List.Forall₂.nil

/-- If they are answered alike, pools stay in step. -/
theorem StepAlike.inStep (hstep : StepAlike R V answer answer' s t h h' x y)
    (halike : AnsweredAlike R h h') : InStep R V x.1 y.1 := by
  cases hstep with
  | still after => exact after
  | deed effects after => exact after (halike.1 effects)

/-- In surroundings that correspond they are answered alike. -/
theorem StepAlike.answeredAlike (hstep : StepAlike R V answer answer' s t h h' x y)
    {S : σ → τ → Prop} (hS : Simulates R answer answer' S) (hst : S s t) :
    AnsweredAlike R h h' ∧ S x.2 y.2 := by
  cases hstep with
  | still after => exact ⟨trivial, hst⟩
  | deed effects after =>
      rcases hS _ _ s t effects hst with ⟨hanswers, hnext⟩
      exact ⟨⟨fun _ => hanswers, trivial⟩, hnext⟩

end

/-- What is done under a schedule. -/
def doings (answer : (e : Effect) → σ → e.Answer × σ) (schedule : List Nat) (p : Pool α) (s : σ) :
    List Deed :=
  (labour answer schedule p s).map Prod.snd

/-- What is done under a schedule is done turn by turn. -/
theorem doings_cons (answer : (e : Effect) → σ → e.Answer × σ) (w : Nat) (schedule : List Nat)
    (p : Pool α) (s : σ) :
    doings answer (w :: schedule) p s =
      deeds answer w p s ++
        doings answer schedule (p.step answer w s).1 (p.step answer w s).2 :=
  List.map_append

/-- Under the same schedule, pools in step do alike and stay in step, as long as they are answered
alike. -/
theorem InStep.run (h : InStep R V p q) (schedule : List Nat)
    (halike : AnsweredAlike R (doings answer schedule p s) (doings answer' schedule q t)) :
    DoneAlike R (doings answer schedule p s) (doings answer' schedule q t) ∧
      InStep R V (Pool.run answer schedule p s).1 (Pool.run answer' schedule q t).1 := by
  induction schedule generalizing p q s t with
  | nil => exact ⟨List.Forall₂.nil, h⟩
  | cons w schedule ih =>
      have hstep := h.step answer answer' s t w
      rw [doings_cons, doings_cons] at halike ⊢
      rcases (answeredAlike_append_iff hstep.doneAlike).mp halike with ⟨hnow, hlater⟩
      rcases ih (hstep.inStep hnow) hlater with ⟨hdone, hafter⟩
      exact ⟨List.rel_append hstep.doneAlike hdone, hafter⟩

/-- In surroundings that correspond, pools in step are answered alike. -/
theorem InStep.answeredAlike (h : InStep R V p q) {S : σ → τ → Prop}
    (hS : Simulates R answer answer' S) (hst : S s t) (schedule : List Nat) :
    AnsweredAlike R (doings answer schedule p s) (doings answer' schedule q t) := by
  induction schedule generalizing p q s t with
  | nil => exact trivial
  | cons w schedule ih =>
      have hstep := h.step answer answer' s t w
      rcases hstep.answeredAlike hS hst with ⟨hnow, hnext⟩
      rw [doings_cons, doings_cons]
      exact (answeredAlike_append_iff hstep.doneAlike).mpr
        ⟨hnow, ih (hstep.inStep hnow) hnext⟩

/-! ## Outcomes -/

/-- Pools in step are over at the same time. -/
theorem InStep.isOver_eq (h : InStep R V p q) : p.isOver = q.isOver := by
  have hall : ∀ {workers : List (Worker α)} {workers' : List (Worker β)},
      List.Forall₂ (Worker.InStep R V) workers workers' →
        workers.all Worker.isGone = workers'.all Worker.isGone := by
    intro workers workers' hworkers
    induction hworkers with
    | nil => rfl
    | cons hfirst _ ih =>
        rw [List.all_cons, List.all_cons, ih]
        cases hfirst with
        | idle | busy | gone => rfl
  exact hall h.workers

/-- A view of the outcomes is a view of what has been handed in. -/
theorem map_outcomes (p : Pool α) (f : α → γ) :
    p.outcomes.map f =
      ((p.results.map fun x => (x.1, f x.2)).mergeSort fun a b => a.1 ≤ b.1).map Prod.snd := by
  have hsort := List.map_mergeSort (r := fun a b : Nat × α => decide (a.1 ≤ b.1))
    (s := fun a b : Nat × γ => decide (a.1 ≤ b.1)) (f := fun x : Nat × α => (x.1, f x.2))
    (l := p.results) (fun _ _ _ _ => rfl)
  rw [outcomes, ← hsort, List.map_map, List.map_map]
  rfl

/-- Outcomes that are alike under a view are alike in their order. -/
theorem InStep.outcomes_eq {f : α → γ} {g : β → γ} (h : InStep R (fun a b => f a = g b) p q) :
    p.outcomes.map f = q.outcomes.map g := by
  have hresults : (p.results.map fun x => (x.1, f x.2)) = q.results.map fun y => (y.1, g y.2) := by
    -- Under the view, both lists of results are the same, so they are sorted the same way.
    have hmap : ∀ {l : List (Nat × α)} {l' : List (Nat × β)},
        List.Forall₂ (fun x y => x.1 = y.1 ∧ f x.2 = g y.2) l l' →
          (l.map fun x => (x.1, f x.2)) = l'.map fun y => (y.1, g y.2) := by
      intro l l' hl
      induction hl with
      | nil => rfl
      | cons hfirst _ ih =>
          rw [List.map_cons, List.map_cons, hfirst.1, hfirst.2, ih]
    exact hmap h.results
  rw [map_outcomes, map_outcomes, hresults]

end Pool

end ProfileAdmin.Host
