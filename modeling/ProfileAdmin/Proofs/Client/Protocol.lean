import ProfileAdmin.Proofs.Client.Course
import ProfileAdmin.Proofs.Client.Endpoint

/-!
# Proofs.Client.Protocol — an activation keeps to the lifecycle

1. **Requests**: an activation sends few of them.
2. **Licences**: each names the profile, and a step is asked for only directly after a report
   of the state that it leaves.
3. **Steps**: the steps of an activation are the requests for them, each answered with
   success.
4. **Protocol**: what holds of every activation, against any endpoint.
-/

namespace ProfileAdmin.Client

open Call
open Profile

variable {c : Client} {iccid : String} {taken : List Step} {status : Status}
  {xs : List Exchange}

/-! ## Requests -/

/-- A query is one request at most, and so is an order. -/
theorem Query.length_le {r : Except Error Status} (h : Query c iccid xs r) : xs.length ≤ 1 := by
  rcases h.eq_nil_or_singleton with rfl | ⟨q, rfl, -⟩ <;> simp

theorem Order.length_le {step : Step} {r : Except Error Unit} (h : Order c iccid step xs r) :
    xs.length ≤ 1 := by
  rcases h.eq_nil_or_singleton with rfl | ⟨x, rfl, -⟩ <;> simp

/-- Two steps, and a query between them. -/
theorem Way.length_le {r : Except Error (Disposition × List Step)} (h : Way c iccid status xs r) :
    xs.length ≤ 3 := by
  cases h with
  | rest ends => simp
  | confirm reported order | undelivered reported order =>
      have hx := order.length_le
      omega
  | unseen reported order query | download reported order query reported' ends =>
      have hx := order.length_le
      have hy := query.length_le
      rw [List.length_append]
      omega
  | both reported order query reported' order' =>
      have hx := order.length_le
      have hy := query.length_le
      have hz := order'.length_le
      simp only [List.length_append]
      omega

/-- A profile that is left alone takes no request. -/
theorem Driven.length_le {r : Except Error (Disposition × List Step)}
    (h : Driven c iccid status xs r) : xs.length ≤ 3 := by
  cases h with
  | spared token => simp
  | driven bare course => exact course.way.length_le

/-- With a query before and one after, that makes five requests. -/
theorem Run.length_le {r : Except Error Activation} (h : Run c iccid xs r) : xs.length ≤ 5 := by
  cases h with
  | unread query =>
      have hx := query.length_le
      omega
  | broken query driven =>
      have hx := query.length_le
      have hy := driven.length_le
      rw [List.length_append]
      omega
  | unseen query driven reread | ended query driven reread =>
      have hx := query.length_le
      have hy := driven.length_le
      have hz := reread.length_le
      simp only [List.length_append]
      omega

/-! ## Licences -/

/-- A request names the profile only. If it asks for a step, it comes directly after a report
of the state that the step leaves. -/
structure Proper (iccid : String) (before : List Exchange) (x : Exchange) : Prop where
  named : x.iccids = [iccid]
  licensed : ∀ t ∈ transitions, x.op = t.step.operation →
    (reported? before).map Status.state = some t.source.name

/-- A query asks for no step. -/
theorem Query.proper {r : Except Error Status} (before : List Exchange)
    (h : Query c iccid xs r) : Throughout (fun mid x => Proper iccid (before ++ mid) x) xs := by
  have hne : ∀ t ∈ transitions, Operation.getProfileStatus ≠ t.step.operation := by decide
  rcases h.eq_nil_or_singleton with rfl | ⟨q, rfl, hop, hnamed⟩
  · exact throughout_nil
  · refine throughout_singleton.mpr ⟨hnamed, fun t ht hstep => ?_⟩
    exact absurd (hop.symm.trans hstep) (hne t ht)

/-- Only one transition has the operation of a step. -/
theorem Order.proper {t : Transition} {r : Except Error Unit} {before : List Exchange}
    (known : t ∈ transitions) (hbefore : reported? before = some status)
    (reported : status.state = t.source.name) (h : Order c iccid t.step xs r) :
    Throughout (fun mid x => Proper iccid (before ++ mid) x) xs := by
  have hinj : ∀ t ∈ transitions, ∀ u ∈ transitions,
      t.step.operation = u.step.operation → t = u := by decide
  rcases h.eq_nil_or_singleton with rfl | ⟨x, rfl, hop, hnamed⟩
  · exact throughout_nil
  · refine throughout_singleton.mpr ⟨hnamed, fun u hu hstep => ?_⟩
    obtain rfl := hinj t known u hu (hop.symm.trans hstep)
    rw [List.append_nil, hbefore, Option.map_some, reported]

/-- A query that gives a status leaves it reported. -/
theorem Query.reported (before : List Exchange) (h : Query c iccid xs (.ok status)) :
    reported? (before ++ xs) = some status := by
  obtain ⟨q, rfl, -, -, hq, -⟩ := h.eq_singleton_of_ok
  rw [reported?_concat, hq]

/-- Along a course, the status on which a turn decides is the one reported last. -/
theorem Course.proper {r : Except Error (Disposition × List Step)} {before : List Exchange}
    (hbefore : reported? before = some status) (h : Course c iccid taken status xs r) :
    Throughout (fun mid x => Proper iccid (before ++ mid) x) xs := by
  -- The induction is on the course; what was reported before is handed on from turn to turn.
  induction h generalizing before with
  | unrecognized unknown => exact throughout_nil
  | arrived reported last => exact throughout_nil
  | stalled known reported again => exact throughout_nil
  | failed known reported fresh order => exact order.proper known hbefore reported
  | finished known reported fresh order last => exact order.proper known hbefore reported
  | @lost _ _ _ xs _ _ known reported fresh order onward query =>
      refine throughout_append.mpr ⟨order.proper known hbefore reported, ?_⟩
      simpa only [List.append_assoc] using query.proper (before ++ xs)
  | @turn _ _ _ _ xs ys _ _ known reported fresh order onward query rest ih =>
      refine throughout_append.mpr ⟨throughout_append.mpr
        ⟨order.proper known hbefore reported, ?_⟩, ?_⟩
      · simpa only [List.append_assoc] using query.proper (before ++ xs)
      · -- The rest begins with the report that was read after the step.
        simpa only [List.append_assoc] using ih (query.reported (before ++ xs))

/-- Between the first query and the last, every request is licensed. -/
theorem Driven.proper {r : Except Error (Disposition × List Step)} {before : List Exchange}
    (hbefore : reported? before = some status) (h : Driven c iccid status xs r) :
    Throughout (fun mid x => Proper iccid (before ++ mid) x) xs := by
  cases h with
  | spared token => exact throughout_nil
  | driven bare course => exact course.proper hbefore

/-- Every request of a run is licensed by the report directly before it. -/
theorem Run.proper {r : Except Error Activation} (h : Run c iccid xs r) :
    Throughout (Proper iccid) xs := by
  cases h with
  | unread query => exact query.proper []
  | broken query driven =>
      exact throughout_append.mpr ⟨query.proper [], driven.proper (query.reported [])⟩
  | unseen query driven reread | ended query driven reread =>
      refine throughout_append.mpr ⟨throughout_append.mpr
        ⟨query.proper [], driven.proper (query.reported [])⟩, ?_⟩
      exact reread.proper _

/-! ## Steps -/

/-- The requests that are there to change something. -/
def mutations (xs : List Exchange) : List Exchange :=
  xs.filter fun x => x.op.isMutating

@[simp] theorem mutations_append (xs ys : List Exchange) :
    mutations (xs ++ ys) = mutations xs ++ mutations ys :=
  List.filter_append ..

/-- A query changes nothing. -/
theorem Query.mutations {r : Except Error Status} (h : Query c iccid xs r) :
    Client.mutations xs = [] := by
  rcases h.eq_nil_or_singleton with rfl | ⟨q, rfl, hop, -⟩
  · rfl
  · simp [Client.mutations, hop, Operation.isMutating]

/-- Requests for steps, in order, each answered with success. -/
structure Taken (steps : List Step) (xs : List Exchange) : Prop where
  ops : (mutations xs).map Exchange.op = steps.map Step.operation
  succeeded : ∀ x ∈ mutations xs, x.Declares ExecutionStatus.success

theorem Taken.nil : Taken [] [] :=
  ⟨rfl, by simp [mutations]⟩

/-- Steps add up, and so do the requests for them. -/
theorem Taken.append {steps steps' : List Step} {ys : List Exchange} (h : Taken steps xs)
    (h' : Taken steps' ys) : Taken (steps ++ steps') (xs ++ ys) := by
  constructor
  · simp [h.ops, h'.ops]
  · rw [mutations_append]
    exact List.forall_mem_append.mpr ⟨h.succeeded, h'.succeeded⟩

/-- A query takes no step. -/
theorem Query.takes {r : Except Error Status} (h : Query c iccid xs r) : Taken [] xs :=
  ⟨by simp [h.mutations], by simp [h.mutations]⟩

/-- An order that succeeds takes its step. -/
theorem Order.takes {step : Step} (h : Order c iccid step xs (.ok ())) : Taken [step] xs := by
  obtain ⟨x, rfl, hop, -, hdeclared⟩ := h.eq_singleton_of_ok
  have hmutating : x.op.isMutating = true := by
    rw [hop]
    cases step <;> rfl
  have hall : mutations [x] = [x] := List.filter_eq_self.mpr (by simpa using hmutating)
  constructor
  · simp [hall, hop]
  · simpa [hall] using hdeclared

/-- Every step that the loop reports was asked for on the way. -/
theorem Course.takes {r : Except Error (Disposition × List Step)}
    (h : Course c iccid taken status xs r) {d : Disposition} {steps : List Step}
    (hr : r = .ok (d, steps)) : ∃ more, steps = taken ++ more ∧ Taken more xs := by
  induction h with
  | unrecognized unknown | arrived reported last | stalled known reported again =>
      cases hr
      exact ⟨[], by simp, Taken.nil⟩
  | failed known reported fresh order => cases hr
  | finished known reported fresh order last =>
      cases hr
      exact ⟨_, rfl, order.takes⟩
  | lost known reported fresh order onward query => cases hr
  | turn known reported fresh order onward query rest ih =>
      -- The step of this turn stands before those of the turns behind it.
      obtain ⟨more, rfl, hmore⟩ := ih hr
      exact ⟨_, List.append_assoc .., (order.takes.append query.takes).append hmore⟩

/-- The steps that are reported were asked for, one by one. -/
theorem Driven.takes {d : Disposition} {steps : List Step}
    (h : Driven c iccid status xs (.ok (d, steps))) : Taken steps xs := by
  cases h with
  | spared token => exact Taken.nil
  | driven bare course =>
      obtain ⟨more, rfl, hmore⟩ := course.takes rfl
      exact hmore

/-- What is asked by a query, and what by an order, if neither fails. -/
theorem Query.ops (h : Query c iccid xs (.ok status)) :
    xs.map Exchange.op = [.getProfileStatus] := by
  obtain ⟨q, rfl, hop, -⟩ := h.eq_singleton_of_ok
  simp [hop]

theorem Order.ops {step : Step} (h : Order c iccid step xs (.ok ())) :
    xs.map Exchange.op = [step.operation] := by
  obtain ⟨x, rfl, hop, -⟩ := h.eq_singleton_of_ok
  simp [hop]

/-- The operations of an activation in which nothing fails. -/
def itineraries : List (List Operation) :=
  [[.getProfileStatus, .getProfileStatus],
   [.getProfileStatus, .confirmOrder, .getProfileStatus],
   [.getProfileStatus, .downloadOrder, .getProfileStatus, .getProfileStatus],
   [.getProfileStatus, .downloadOrder, .getProfileStatus, .confirmOrder, .getProfileStatus]]

/-- What lies between the first query and the last makes one of the itineraries. -/
theorem Way.ops {r : Except Error (Disposition × List Step)} (h : Way c iccid status xs r)
    {d : Disposition} {steps : List Step} (hr : r = .ok (d, steps)) :
    [.getProfileStatus] ++ xs.map Exchange.op ++ [.getProfileStatus] ∈ itineraries := by
  cases h with
  | rest ends => simp [itineraries]
  | @confirm _ o reported order =>
      cases o with
      | error e => cases hr
      | ok u => simp [itineraries, order.ops, Step.operation]
  | undelivered reported order => cases hr
  | unseen reported order query => cases hr
  | download reported order query reported' ends =>
      simp [itineraries, order.ops, query.ops, Step.operation]
  | @both _ _ _ _ o reported order query reported' order' =>
      cases o with
      | error e => cases hr
      | ok u => simp [itineraries, order.ops, query.ops, order'.ops, Step.operation]

/-- The same for a profile that may have been left alone. -/
theorem Driven.ops {d : Disposition} {steps : List Step}
    (h : Driven c iccid status xs (.ok (d, steps))) :
    [.getProfileStatus] ++ xs.map Exchange.op ++ [.getProfileStatus] ∈ itineraries := by
  cases h with
  | spared token => simp [itineraries]
  | driven bare course => exact course.way.ops rfl

/-! ## Protocol -/

/-- What an activation that fails nowhere has said and heard. -/
structure Complete (iccid : String) (xs : List Exchange) (a : Activation) : Prop where
  ops : xs.map Exchange.op ∈ itineraries
  taken : Taken a.steps xs
  reread : reported? xs = some a.status
  same : a.status.iccid = iccid

/-- The protocol of an activation: it sends at most five requests, all naming the profile;
a download is asked for only directly after a report that the profile is available, and a
confirmation only directly after one that it is allocated. -/
structure KeepsProtocol (iccid : String) (xs : List Exchange)
    (r : Except Error Activation) : Prop where
  few : xs.length ≤ 5
  named : ∀ x ∈ xs, x.iccids = [iccid]
  downloads : Throughout (fun before x => x.op = .downloadOrder →
    (reported? before).map Status.state = some "AVAILABLE") xs
  confirmations : Throughout (fun before x => x.op = .confirmOrder →
    (reported? before).map Status.state = some "ALLOCATED") xs
  complete : ∀ a, r = .ok a → Complete iccid xs a

/-- An activation that fails nowhere has followed one of the itineraries. -/
theorem Run.complete {a : Activation} (h : Run c iccid xs (.ok a)) : Complete iccid xs a := by
  cases h with
  | ended query driven reread =>
      constructor
      · rw [List.map_append, List.map_append, query.ops, reread.ops]
        exact driven.ops
      · simpa using (query.takes.append driven.takes).append reread.takes
      · exact reread.reported _
      · obtain ⟨q, -, -, -, -, hsame⟩ := reread.eq_singleton_of_ok
        exact hsame

/-- Every run keeps to the protocol. -/
theorem Run.keepsProtocol {r : Except Error Activation} (h : Run c iccid xs r) :
    KeepsProtocol iccid xs r where
  few := h.length_le
  named x hx := by
    obtain ⟨i, hi, rfl⟩ := List.getElem_of_mem hx
    exact (h.proper i hi).named
  downloads i hi hop :=
    (h.proper i hi).licensed ⟨.available, .download, .allocated⟩ (by decide) hop
  confirmations i hi hop :=
    (h.proper i hi).licensed ⟨.allocated, .confirm, .released⟩ (by decide) hop
  complete a hr := by
    subst hr
    exact h.complete

/-- An activation ends by itself: more turns for its loop make no difference. Against any
endpoint, it keeps to its protocol. -/
theorem activate_keepsProtocol (c : Client) (iccid : String) :
    (∀ (extra : Nat) (first : Status), c.drive iccid (transitions.length + 1 + extra) [] first =
      c.drive iccid (transitions.length + 1) [] first) ∧
    ∀ {σ : Type} (answer : (e : Host.Effect) → σ → e.Answer × σ) (s : σ),
      KeepsProtocol iccid (conversation answer (c.activate iccid) s)
        ((c.activate iccid).run.run answer s).1 := by
  constructor
  -- One turn more makes no difference, and so no number of turns does.
  · intro extra first
    induction extra with
    | zero => rfl
    | succ extra ih =>
        rw [← ih, ← Nat.add_assoc]
        refine drive_succ_eq _ [] first ?_
        have huntaken : untaken [] = transitions.length := rfl
        omega
  · intro σ answer s
    exact (conversation_run answer s).keepsProtocol

/-- The longest of the itineraries. -/
example : (conversation (alone script still)
    (Client.activate ⟨"ACME", ⟨false, false⟩⟩ "8965030119040000067")
      ([reporting ⟨"8965030119040000067", "", "AVAILABLE", "", false, ""⟩, succeeding,
        reporting ⟨"8965030119040000067", "", "ALLOCATED", "", false, ""⟩, succeeding,
        reporting ⟨"8965030119040000067", "", "RELEASED", "1$smdp.example$TOKEN", false, ""⟩],
        ())).map Exchange.op =
    [.getProfileStatus, .downloadOrder, .getProfileStatus, .confirmOrder, .getProfileStatus] := by
  decide +kernel

end ProfileAdmin.Client
