import ProfileAdmin.Proofs.Client.Course
import ProfileAdmin.Proofs.Client.Endpoint

/-!
# Proofs.Client.Completion — what a completed activation is worth

1. **Ends**: a status at the end of the lifecycle.
2. **Expectation**: an activation is called completed if the end was to be expected before
   the last query: a confirmation succeeded, or the end had been reported.
3. **Exception**: what the last query brings makes no difference to that. Where it does not
   report the end, the activation is called completed nevertheless.
-/

namespace ProfileAdmin

/-! ## Ends -/

namespace Profile

/-- Whether the reported state is one that no transition leaves. -/
def Status.isTerminal (s : Status) : Bool :=
  s.lifecycle?.any State.isTerminal

/-- Only the last state of the lifecycle is left by no transition. -/
theorem Status.isTerminal_iff {s : Status} :
    s.isTerminal = true ↔ s.state = State.released.name := by
  unfold Status.isTerminal
  rw [Option.any_eq_true]
  constructor
  · rintro ⟨state, hstate, hlast⟩
    obtain rfl := Profile.isTerminal_iff.mp hlast
    exact lifecycle?_eq_some_iff.mp hstate
  · intro hstate
    exact ⟨.released, lifecycle?_eq_some_iff.mpr hstate, by decide⟩

end Profile

namespace Client

open Call
open Profile

variable {c : Client} {iccid : String} {status : Status} {xs ys : List Exchange}

/-! ## Expectation -/

/-- An exchange behind which the end of the lifecycle is to be expected. Of the first report,
the token is looked at before the state. -/
def Exchange.announcesEnd (before : List Exchange) (x : Exchange) : Prop :=
  x.op = .confirmOrder ∨
    ∃ s, x.status? = some s ∧ s.state = "RELEASED" ∧ (before = [] → s.isActivated = false)

/-- The end of the lifecycle was to be expected before the last request. -/
def EndExpected (xs : List Exchange) : Prop :=
  ∃ before x last, xs = before ++ [x, last] ∧ x.announcesEnd before

/-- Which exchange is the one before the last is no matter of choice. -/
theorem endExpected_iff (before : List Exchange) (x last : Exchange) :
    EndExpected (before ++ [x] ++ [last]) ↔ x.announcesEnd before := by
  constructor
  · rintro ⟨before', x', last', heq, h⟩
    have hsplit : before ++ [x] ++ [last] = before' ++ [x'] ++ [last'] := by simp [heq]
    obtain ⟨hfront, -⟩ := List.append_inj' hsplit rfl
    obtain ⟨rfl, hx⟩ := List.append_inj' hfront rfl
    obtain rfl : x = x' := by simpa using hx
    exact h
  · intro h
    exact ⟨before, x, last, by simp, h⟩

/-- A report announces the end if its state is the last one, and the first report only if it shows
no token. -/
theorem announcesEnd_of_status? {before : List Exchange} {x : Exchange}
    (hx : x.status? = some status) : x.announcesEnd before ↔
      status.state = State.released.name ∧ (before = [] → status.isActivated = false) := by
  have hop := Exchange.op_of_status? hx
  simp [Exchange.announcesEnd, hop, hx, State.name]

theorem announcesEnd_of_confirm {before : List Exchange} {x : Exchange}
    (hop : x.op = .confirmOrder) : x.announcesEnd before :=
  Or.inl hop

/-- The disposition is settled before the last query. -/
theorem Way.completed_iff {first : Status} {q z : Exchange}
    {r : Except Error (Disposition × List Step)} (hq : q.status? = some first)
    (bare : first.isActivated = false) (h : Way c iccid first ys r) {d : Disposition}
    {steps : List Step} (hr : r = .ok (d, steps)) :
    d = .completed ↔ EndExpected ([q] ++ ys ++ [z]) := by
  -- One case for each way through the lifecycle; the exchange that matters is the last one on the
  -- way.
  cases h with
  | rest ends =>
      cases hr
      have hend : EndExpected ([q] ++ [z]) ↔ q.announcesEnd [] :=
        endExpected_iff [] q z
      rw [List.append_nil, ends, hend, announcesEnd_of_status? hq]
      simp [bare]
  | @confirm _ o reported order =>
      cases o with
      | error e => cases hr
      | ok u =>
          cases hr
          obtain ⟨k, rfl, hop, -⟩ := order.eq_singleton_of_ok
          exact iff_of_true rfl ((endExpected_iff [q] k z).mpr (announcesEnd_of_confirm hop))
  | undelivered reported order => cases hr
  | unseen reported order query => cases hr
  | download reported order query reported' ends =>
      cases hr
      obtain ⟨x, rfl, -⟩ := order.eq_singleton_of_ok
      obtain ⟨q', rfl, -, -, hq', -⟩ := query.eq_singleton_of_ok
      have hend := endExpected_iff [q, x] q' z
      rw [ends]
      simpa [announcesEnd_of_status? hq'] using hend.symm
  | @both _ _ _ _ o reported order query reported' order' =>
      cases o with
      | error e => cases hr
      | ok u =>
          cases hr
          obtain ⟨k, rfl, hop, -⟩ := order'.eq_singleton_of_ok
          refine iff_of_true rfl ?_
          rw [← List.append_assoc]
          exact (endExpected_iff _ k z).mpr (announcesEnd_of_confirm hop)

/-- The same for a driven profile, which may also have been left alone because of its token. -/
theorem Driven.completed_iff {first : Status} {q z : Exchange} {d : Disposition}
    {steps : List Step} (hq : q.status? = some first)
    (h : Driven c iccid first ys (.ok (d, steps))) :
    d = .completed ↔ EndExpected ([q] ++ ys ++ [z]) := by
  cases h with
  | spared token =>
      have hend : EndExpected ([q] ++ [z]) ↔ q.announcesEnd [] :=
        endExpected_iff [] q z
      rw [List.append_nil]
      refine iff_of_false nofun fun h => ?_
      -- A first report with a token announces nothing.
      have hbare := ((announcesEnd_of_status? hq).mp (hend.mp h)).2 rfl
      rw [token] at hbare
      cases hbare
  | driven bare course => exact course.way.completed_iff hq bare rfl

/-- An activation is called completed exactly if the end was to be expected before the last query.
-/
theorem Run.completed_iff {a : Activation} (h : Run c iccid xs (.ok a)) :
    a.disposition = .completed ↔ EndExpected xs := by
  cases h with
  | ended query driven reread =>
      obtain ⟨q, rfl, -, -, hq, -⟩ := query.eq_singleton_of_ok
      obtain ⟨z, rfl, -⟩ := reread.eq_singleton_of_ok
      exact driven.completed_iff hq

/-! ## Exception -/

/-- An activation that is called completed has its profile at the end of the lifecycle. -/
def CompletesTruly : Except Error Activation → Prop
  | .ok a => a.disposition = .completed → a.status.isTerminal = true
  | .error _ => True

instance : DecidablePred CompletesTruly
  | .ok a => inferInstanceAs (Decidable (a.disposition = .completed → _))
  | .error _ => instDecidableTrue

/-- The exception is an activation whose end was to be expected and is not reported. -/
theorem Run.completesTruly_iff {r : Except Error Activation} (h : Run c iccid xs r) :
    CompletesTruly r ↔ ¬ ∃ a, r = .ok a ∧ a.status.state ≠ "RELEASED" ∧ EndExpected xs := by
  cases r with
  | error e => exact iff_of_true trivial nofun
  | ok a =>
      have hstate : a.status.isTerminal = true ↔ a.status.state = "RELEASED" :=
        Status.isTerminal_iff
      change (a.disposition = .completed → _) ↔ _
      rw [h.completed_iff, hstate]
      constructor
      · rintro hend ⟨b, hb, hne, hexpected⟩
        cases hb
        exact hne (hend hexpected)
      · intro hnone hexpected
        by_contra hne
        exact hnone ⟨a, rfl, hne, hexpected⟩

/-- Against any endpoint, an activation is wrongly called completed exactly if the end of the
lifecycle was to be expected before the last query, and this query does not report it. -/
theorem activate_completesTruly_iff {σ : Type} (c : Client) (iccid : String)
    (answer : (e : Host.Effect) → σ → e.Answer × σ) (s : σ) :
    CompletesTruly ((c.activate iccid).run.run answer s).1 ↔
      ¬ ∃ a, ((c.activate iccid).run.run answer s).1 = .ok a ∧ a.status.state ≠ "RELEASED" ∧
        EndExpected (conversation answer (c.activate iccid) s) :=
  (conversation_run answer s).completesTruly_iff

/-- An endpoint that declares success for the confirmation and leaves the profile allocated. -/
theorem activate_completed_allocated : ¬ CompletesTruly
    ((Client.activate ⟨"ACME", ⟨false, false⟩⟩ "8965030119040000067").run.run (alone script still)
      ([reporting ⟨"8965030119040000067", "", "ALLOCATED", "", false, ""⟩, succeeding,
        reporting ⟨"8965030119040000067", "", "ALLOCATED", "", false, ""⟩], ())).1 := by
  decide +kernel

end Client

end ProfileAdmin
