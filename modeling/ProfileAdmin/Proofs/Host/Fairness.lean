import Mathlib.Logic.Hydra
import ProfileAdmin.Proofs.Host.Pool

/-!
# Proofs.Host.Fairness — a pool comes to its end

1. **Descent**: a worker that takes a step comes closer to leaving, unless it claims another
   job, and there are only so many jobs.
2. **Fair turns**: if everyone has a turn again and again, everyone will have left.
-/

namespace ProfileAdmin.Host

open Relation (CutExpand)

variable {α σ : Type}

/-! ## Descent -/

/-- A worker is one step closer to leaving than another, or to the end of its job. -/
inductive Worker.Closer : Worker α → Worker α → Prop where
  | leave : Closer .gone .idle
  | handIn {i : Nat} {a : α} : Closer .idle (.busy i (.done a))
  | act {i : Nat} {e : Effect} {next : e.Answer → Program α} (reply : e.Answer) :
      Closer (.busy i (next reply)) (.busy i (.perform e next))

/-- Whatever the answers are, a job ends. The induction is on what is left of it. -/
theorem Worker.closer_wellFounded : WellFounded (Worker.Closer (α := α)) := by
  have hgone : Acc Closer (Worker.gone (α := α)) := Acc.intro _ nofun
  have hidle : Acc Closer (Worker.idle (α := α)) := by
    refine Acc.intro _ fun worker h => ?_
    cases h with
    | leave => exact hgone
  have hbusy : ∀ (rest : Program α) (i : Nat), Acc Closer (Worker.busy i rest) := by
    intro rest i
    induction rest with
    | done a =>
        refine Acc.intro _ fun worker h => ?_
        cases h with
        | handIn => exact hidle
    | perform e next ih =>
        refine Acc.intro _ fun worker h => ?_
        cases h with
        | act reply => exact ih reply
  refine ⟨fun worker => ?_⟩
  cases worker with
  | idle => exact hidle
  | busy i rest => exact hbusy rest i
  | gone => exact hgone

namespace Pool

variable {answer : (e : Effect) → σ → e.Answer × σ} {w : Nat} {p : Pool α} {s : σ}

/-- Fewer jobs are unclaimed, or as many, and a worker is closer to leaving. -/
def Closer (p' p : Pool α) : Prop :=
  Prod.Lex (· < ·) (CutExpand Worker.Closer)
    (p'.jobs.length - p'.next, (p'.workers : Multiset (Worker α)))
    (p.jobs.length - p.next, (p.workers : Multiset (Worker α)))

/-- There is no way to come closer for ever. -/
theorem closer_wellFounded : WellFounded (Closer (α := α)) :=
  InvImage.wf _ (WellFounded.prod_lex Nat.lt_wfRel.wf Worker.closer_wellFounded.cutExpand)

/-- Where one worker comes closer, the pool does. -/
theorem place_closer {worker worker' : Worker α} {results : List (Nat × α)}
    (h : p.workers[w]? = some worker) (hcloser : worker'.Closer worker) :
    Closer { p.place w worker' with results := results } p := by
  obtain ⟨others, hbefore, hafter⟩ := workers_perm h
  refine Prod.Lex.right _ ⟨{worker'}, worker, ?_, ?_⟩
  · simpa using hcloser
  · have hboth : ((p.place w worker').workers ++ [worker]).Perm (p.workers ++ [worker']) := by
      -- Both are the others, the worker as it was, and the worker as it is.
      have hswap : (worker' :: others ++ [worker]).Perm (worker :: others ++ [worker']) :=
        (List.perm_append_singleton _ _).trans
          ((List.Perm.swap _ _ _).trans (List.perm_append_singleton _ _).symm)
      exact ((hafter worker').append_right _).trans (hswap.trans (hbefore.symm.append_right _))
    simpa [← Multiset.coe_add] using Multiset.coe_eq_coe.mpr hboth

/-- A step of someone who has not left brings the pool closer to its end; any other step
changes nothing. -/
theorem Move.closer {r : Pool α × σ} (h : Move answer w p s r) :
    r.1 = p ∧ (p.workers[w]? = none ∨ p.workers[w]? = some .gone) ∨ Closer r.1 p := by
  cases h with
  | stay absent => exact Or.inl ⟨rfl, absent⟩
  | claim idle listed =>
      right
      have hlt : p.next < p.jobs.length := (List.getElem?_eq_some_iff.mp listed).1
      exact Prod.Lex.left _ _ (Nat.sub_succ_lt_self _ _ hlt)
  | leave idle exhausted => exact Or.inr (place_closer idle Worker.Closer.leave)
  | handIn busy => exact Or.inr (place_closer busy Worker.Closer.handIn)
  | act busy => exact Or.inr (place_closer busy (Worker.Closer.act _))

/-! ## Fair turns -/

/-- Everyone below a number has a turn again and again. -/
def Fair (count : Nat) (turns : Nat → Nat) : Prop :=
  ∀ w < count, ∀ n, ∃ m, n ≤ m ∧ turns m = w

/-- The pool and its surroundings after so many turns. -/
def after (answer : (e : Effect) → σ → e.Answer × σ) (turns : Nat → Nat) (p : Pool α) (s : σ)
    (n : Nat) : Pool α × σ :=
  run answer ((List.range n).map turns) p s

/-- A schedule can be run in two parts. -/
theorem run_append (before later : List Nat) (p : Pool α) (s : σ) :
    run answer (before ++ later) p s =
      run answer later (run answer before p s).1 (run answer before p s).2 := by
  induction before generalizing p s with
  | nil => rfl
  | cons w before ih => exact ih _ _

/-- One turn more is one step more. -/
theorem after_succ (turns : Nat → Nat) (p : Pool α) (s : σ) (n : Nat) :
    after answer turns p s (n + 1) =
      (after answer turns p s n).1.step answer (turns n) (after answer turns p s n).2 := by
  rw [after, List.range_succ, List.map_append, run_append]
  rfl

/-- Either nothing happens in some turns, or the pool has come closer to its end by then. -/
theorem after_closer (answer : (e : Effect) → σ → e.Answer × σ) (turns : Nat → Nat) (p : Pool α)
    (s : σ) (n k : Nat) :
    (after answer turns p s (n + k)).1 = (after answer turns p s n).1 ∨
      ∃ j, Closer (after answer turns p s (n + j)).1 (after answer turns p s n).1 := by
  induction k with
  | zero => exact Or.inl rfl
  | succ k ih =>
      -- So far nothing has happened, or the pool is closer already.
      rcases ih with hsame | hcloser
      · have hstep := (step_move answer (turns (n + k)) (after answer turns p s (n + k)).1
          (after answer turns p s (n + k)).2).closer
        rw [← after_succ, hsame] at hstep
        rcases hstep with ⟨hstay, -⟩ | hcloser
        · exact Or.inl hstay
        · exact Or.inr ⟨k + 1, hcloser⟩
      · exact Or.inr hcloser

/-- If someone has not left, the pool will come closer to its end. -/
theorem exists_closer {turns : Nat → Nat} {p : Pool α} {s : σ} (hfair : Fair p.workers.length turns)
    (n : Nat) (hover : (after answer turns p s n).1.isOver = false) :
    ∃ j, Closer (after answer turns p s (n + j)).1 (after answer turns p s n).1 := by
  obtain ⟨worker, hmem, hhere⟩ := List.all_eq_false.mp hover
  obtain ⟨w, hw, rfl⟩ := List.getElem_of_mem hmem
  have hlength : (after answer turns p s n).1.workers.length = p.workers.length :=
    (run_jobs _ p s).2
  obtain ⟨m, hle, hturn⟩ := hfair w (hlength ▸ hw) n
  obtain ⟨k, rfl⟩ := Nat.exists_eq_add_of_le hle
  rcases after_closer answer turns p s n k with hsame | hcloser
  · -- It is the turn of the one who has not left.
    have hstep := (step_move answer (turns (n + k)) (after answer turns p s (n + k)).1
      (after answer turns p s (n + k)).2).closer
    rw [← after_succ, hsame, hturn] at hstep
    rcases hstep with ⟨-, habsent⟩ | hcloser
    · rw [List.getElem?_eq_getElem hw] at habsent
      rcases habsent with hnone | hgone
      · cases hnone
      · rw [Option.some.inj hgone] at hhere
        exact absurd rfl hhere
    · exact ⟨k + 1, hcloser⟩
  · exact hcloser

/-- Under fair turns, everyone will have left. The induction is on how close the pool is to
its end. -/
theorem exists_isOver (answer : (e : Effect) → σ → e.Answer × σ) {turns : Nat → Nat} (p : Pool α)
    (s : σ) (hfair : Fair p.workers.length turns) :
    ∃ n, (after answer turns p s n).1.isOver = true := by
  suffices hmain : ∀ (q : Pool α) n, (after answer turns p s n).1 = q →
      ∃ m, (after answer turns p s m).1.isOver = true from hmain _ 0 rfl
  intro q
  induction q using closer_wellFounded.induction with
  | _ q ih =>
      rintro n rfl
      by_cases hover : (after answer turns p s n).1.isOver = true
      · exact ⟨n, hover⟩
      · rw [Bool.not_eq_true] at hover
        obtain ⟨j, hcloser⟩ := exists_closer hfair n hover
        exact ih _ hcloser (n + j) rfl

/-- In turn, everyone below a number has a turn again and again. -/
theorem inTurn_fair (count : Nat) : Fair count (fun n => n % count) := by
  intro w hw n
  refine ⟨w + count * n, ?_, ?_⟩
  · have hpos : 0 < count := Nat.zero_lt_of_lt hw
    calc n = 1 * n := (Nat.one_mul n).symm
      _ ≤ count * n := Nat.mul_le_mul_right n hpos
      _ ≤ w + count * n := Nat.le_add_left _ _
  · exact (Nat.add_mul_mod_self_left w count n).trans (Nat.mod_eq_of_lt hw)

/-- Every pool can be brought to its end. -/
theorem exists_schedule_isOver (answer : (e : Effect) → σ → e.Answer × σ) (p : Pool α) (s : σ) :
    ∃ schedule, (run answer schedule p s).1.isOver = true := by
  obtain ⟨n, hover⟩ := exists_isOver answer p s (inTurn_fair p.workers.length)
  exact ⟨_, hover⟩

end Pool

end ProfileAdmin.Host
