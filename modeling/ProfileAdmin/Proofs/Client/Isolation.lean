import ProfileAdmin.Proofs.Client.Steady
import ProfileAdmin.Proofs.Host.Pool

/-!
# Proofs.Client.Isolation — jobs about different profiles do not meet

1. **Alone**: what a job gives and says with an endpoint for itself does not depend on the
   identifiers of its calls.
2. **Progress**: a job among others is on track if it has said so far, and will give and say
   from here on, what it would alone.
3. **Isolation**: a job stays on track by its own effects, and effects about another profile
   do not touch it.
-/

namespace ProfileAdmin.Client

open Call
open Host (Deed Effect Pool Program)
open Host.Program

variable {α β τ ρ : Type} (serve : Service τ) (ambient : (e : Effect) → ρ → e.Answer × ρ)
  {iccid : String}

/-! ## Alone -/

/-- The source of random bytes works at all times, or fails in the same words at all times. -/
def SteadySource : Prop :=
  ∀ a b, drawn (ambient .draw a).1 = drawn (ambient .draw b).1

/-- What a program says and hears with an endpoint for itself, up to identifiers of calls. -/
def saidAlone (p : Program α) (t : τ) (a : ρ) : List Exchange :=
  (exchanges (p.history (alone serve ambient) (t, a))).map Exchange.anonymous

/-- Endpoints in the same state give the same replies to requests that are alike. -/
theorem alone_simulates (hsource : SteadySource ambient) :
    Simulates (about iccid) (recording (alone serve ambient)) (recording (alone serve ambient))
      (fun x y => x.1.1 = y.1.1 ∧
        (exchanges x.2).map Exchange.anonymous = (exchanges y.2).map Exchange.anonymous) := by
  rintro e e' ⟨⟨t, a⟩, log⟩ ⟨⟨t', b⟩, log'⟩ heffects ⟨hstate, hlog⟩
  obtain rfl : t = t' := hstate
  -- Alike effects are of the same kind, and jobs about a profile read no files and print nothing.
  cases e with
  | draw =>
      cases e' with
      | draw => exact ⟨hsource a b, rfl, by simpa [recording, alone] using hlog⟩
      | exchange | note | print | fileBytes | clock => cases heffects
  | exchange op r =>
      cases e' with
      | exchange op' r' =>
          -- Without the identifiers of their calls, the two requests are the same.
          obtain ⟨-, hsame⟩ := heffects
          obtain ⟨rfl, hr⟩ := Sigma.mk.inj hsame
          have hr' : op.anonymous r = op.anonymous r' := eq_of_heq hr
          refine ⟨?_, ?_, ?_⟩
          · change (serve op (op.anonymous r) t).1 = (serve op (op.anonymous r') t).1
            rw [hr']
          · change (serve op (op.anonymous r) t).2 = (serve op (op.anonymous r') t).2
            rw [hr']
          change (exchanges (log ++ [_])).map _ = (exchanges (log' ++ [_])).map _
          rw [exchanges_append, exchanges_append, List.map_append, List.map_append, hlog]
          change _ ++ [Exchange.mk op (op.anonymous r) (serve op (op.anonymous r) t).1] =
            _ ++ [Exchange.mk op (op.anonymous r') (serve op (op.anonymous r') t).1]
          rw [hr']
      | draw | note | print | fileBytes | clock => cases heffects
  | note event =>
      cases e' with
      | note event' => exact ⟨trivial, rfl, by simpa [recording, alone] using hlog⟩
      | draw | exchange | print | fileBytes | clock => cases heffects
  | print | fileBytes | clock => cases heffects

/-- Programs that are alike give and say the same, if the endpoint is in the same state. -/
theorem alone_alike (hsource : SteadySource ambient) {p q : Program α}
    (h : Corresponds (about iccid) Eq p q) (t : τ) (a b : ρ) :
    (p.run (alone serve ambient) (t, a)).1 = (q.run (alone serve ambient) (t, b)).1 ∧
      saidAlone serve ambient p t a = saidAlone serve ambient q t b := by
  have hrun := run_corresponds (alone_simulates serve ambient hsource) h
    (s := ((t, a), [])) (t := ((t, b), [])) ⟨rfl, rfl⟩
  rw [run_recording, run_recording] at hrun
  exact ⟨hrun.1, hrun.2.2⟩

/-! ## Progress -/

/-- What was said and heard about a profile, up to identifiers of calls. -/
def saidAbout (iccid : String) (log : List Deed) : List Exchange :=
  ((exchanges log).filter fun x => x.iccids = [iccid]).map Exchange.anonymous

/-- What is said about a profile adds up along the history. -/
theorem saidAbout_append (log log' : List Deed) :
    saidAbout iccid (log ++ log') = saidAbout iccid log ++ saidAbout iccid log' := by
  rw [saidAbout, exchanges_append, List.filter_append, List.map_append]
  rfl

/-- An exchange about the profile counts, without its identifier. -/
theorem saidAbout_own {op : Operation} {r : op.Request} (h : op.iccids r = [iccid])
    (reply : Except String (List UInt8)) :
    saidAbout iccid [⟨.exchange op r, reply⟩] = [⟨op, op.anonymous r, reply⟩] := by
  have hall : [Exchange.mk op r reply].filter (fun x => x.iccids = [iccid]) = [⟨op, r, reply⟩] :=
    List.filter_eq_self.mpr fun x hx => by
      rw [List.mem_singleton.mp hx]
      exact decide_eq_true h
  exact congrArg (List.map Exchange.anonymous) hall

/-- An exchange about another profile does not count. -/
theorem saidAbout_other {other : String} {op : Operation} {r : op.Request}
    (h : op.iccids r = [other]) (hne : iccid ≠ other) (reply : Except String (List UInt8)) :
    saidAbout iccid [⟨.exchange op r, reply⟩] = [] := by
  have hnone : [Exchange.mk op r reply].filter (fun x => x.iccids = [iccid]) = [] :=
    List.filter_eq_nil_iff.mpr fun x hx => by
      rw [List.mem_singleton.mp hx, Exchange.iccids, h]
      simpa using hne.symm
  exact congrArg (List.map Exchange.anonymous) hnone

/-- A job among others, with an endpoint that keeps a state for each profile: what it has said,
and what is left of it, make up what it would say alone, and it will give what it would give
alone. -/
structure OnTrack (job : Program α) (t₀ : τ) (a₀ : ρ) (iccid : String) (rest : Program α)
    (s : ((String → τ) × ρ) × List Deed) : Prop where
  steady : Steady iccid rest
  result : (job.run (alone serve ambient) (t₀, a₀)).1 =
    (rest.run (alone serve ambient) (s.1.1 iccid, a₀)).1
  said : saidAlone serve ambient job t₀ a₀ =
    saidAbout iccid s.2 ++ saidAlone serve ambient rest (s.1.1 iccid) a₀

variable {serve ambient}

/-- Before it begins, a job is on track. -/
theorem onTrack_start {job : Program α} (h : Steady iccid job) (states : String → τ) (a : ρ) :
    OnTrack serve ambient job (states iccid) a iccid job ((states, a), []) :=
  ⟨h, rfl, rfl⟩

/-! ## Isolation -/

/-- The effects of a steady program are about its profile. -/
theorem steady_perform {e : Effect} {next : e.Answer → Program α}
    (h : Steady iccid (.perform e next)) :
    aboutEffects iccid e e ∧ ∀ reply reply', aboutAnswers e e reply reply' →
      Corresponds (about iccid) Eq (next reply) (next reply') := by
  cases h with
  | perform effects rest => exact ⟨effects, rest⟩

/-- A deed that says nothing about the profile, and leaves a rest that does alike. -/
theorem OnTrack.silent {job rest rest' : Program α} {t₀ : τ} {a₀ : ρ} {states : String → τ}
    {a a' : ρ} {log : List Deed} {d : Deed}
    (h : OnTrack serve ambient job t₀ a₀ iccid rest ((states, a), log))
    (hsteady : Steady iccid rest')
    (halike : (rest.run (alone serve ambient) (states iccid, a₀)).1 =
        (rest'.run (alone serve ambient) (states iccid, a₀)).1 ∧
      saidAlone serve ambient rest (states iccid) a₀ =
        saidAlone serve ambient rest' (states iccid) a₀)
    (hsilent : saidAbout iccid [d] = []) :
    OnTrack serve ambient job t₀ a₀ iccid rest' ((states, a'), log ++ [d]) := by
  refine ⟨hsteady, h.result.trans halike.1, ?_⟩
  rw [saidAbout_append, hsilent, List.append_nil, ← halike.2]
  exact h.said

/-- A job stays on track by its own effects. An exchange takes the same state along as it would
alone; what else there is does not matter for the rest. -/
theorem OnTrack.own (hsource : SteadySource ambient) {job : Program α} {t₀ : τ} {a₀ : ρ}
    {e : Effect} {next : e.Answer → Program α} {s : ((String → τ) × ρ) × List Deed}
    (h : OnTrack serve ambient job t₀ a₀ iccid (.perform e next) s) :
    OnTrack serve ambient job t₀ a₀ iccid
      (next (recording (served serve ambient) e s).1)
      (recording (served serve ambient) e s).2 := by
  obtain ⟨hits, hnext⟩ := steady_perform h.steady
  obtain ⟨⟨states, a⟩, log⟩ := s
  cases e with
  | draw =>
      exact h.silent (hnext _ _ rfl)
        (alone_alike serve ambient hsource (hnext _ _ (hsource a₀ a)) (states iccid) _ a₀) rfl
  | note event =>
      exact h.silent (hnext _ _ trivial)
        (alone_alike serve ambient hsource (hnext _ _ trivial) (states iccid) _ a₀) rfl
  | exchange op r =>
      -- The state of the profile goes where it would go alone.
      obtain ⟨hsteady, hresult, hsaid⟩ := h
      obtain rfl : op.key r = iccid := by rw [Operation.key, hits.1, List.headD_cons]
      have hstate : (recording (served serve ambient) (.exchange op r) ((states, a), log)).2.1.1
          (op.key r) = (serve op (op.anonymous r) (states (op.key r))).2 :=
        Function.update_self ..
      refine ⟨hnext _ _ rfl, ?_, ?_⟩
      · rw [hstate]
        exact hresult
      · rw [hstate]
        change _ = saidAbout (op.key r) (log ++ [_]) ++ _
        rw [saidAbout_append, saidAbout_own hits.1, List.append_assoc]
        exact hsaid
  | print | fileBytes | clock => cases hits

/-- Effects about another profile leave a job where it is. -/
theorem OnTrack.frame {other : String} {job rest : Program α} {t₀ : τ} {a₀ : ρ} {e : Effect}
    {s : ((String → τ) × ρ) × List Deed} (hne : iccid ≠ other) (hother : aboutEffects other e e)
    (h : OnTrack serve ambient job t₀ a₀ iccid rest s) :
    OnTrack serve ambient job t₀ a₀ iccid rest (recording (served serve ambient) e s).2 := by
  obtain ⟨⟨states, a⟩, log⟩ := s
  cases e with
  | draw | note => exact h.silent h.steady ⟨rfl, rfl⟩ rfl
  | exchange op r =>
      -- It is the state of the other profile that changes.
      obtain ⟨hsteady, hresult, hsaid⟩ := h
      have hkey : op.key r = other := by rw [Operation.key, hother.1, List.headD_cons]
      have hstate : (recording (served serve ambient) (.exchange op r) ((states, a), log)).2.1.1
          iccid = states iccid :=
        Function.update_of_ne (hkey ▸ hne) ..
      refine ⟨hsteady, ?_, ?_⟩
      · rw [hstate]
        exact hresult
      · rw [hstate]
        change _ = saidAbout iccid (log ++ [_]) ++ _
        rw [saidAbout_append, saidAbout_other hother.1 hne, List.append_nil]
        exact hsaid
  | print | fileBytes | clock => cases hother

/-- Jobs about different profiles stay on track under every schedule. -/
theorem run_onTrack (hsource : SteadySource ambient) {iccids : List String}
    (hdistinct : iccids.Nodup) {job : String → Program α}
    (hjob : ∀ iccid, Steady iccid (job iccid)) (count : Nat) (states : String → τ) (a : ρ)
    (schedule : List Nat) {i : Nat} {rest : Program α}
    (hleft : (Pool.run (recording (served serve ambient)) schedule
      (Pool.start count (iccids.map job)) ((states, a), [])).1.Left i rest) :
    ∃ iccid, iccids[i]? = some iccid ∧
      OnTrack serve ambient (job iccid) (states iccid) a iccid rest
        (Pool.run (recording (served serve ambient)) schedule
          (Pool.start count (iccids.map job)) ((states, a), [])).2 := by
  refine Pool.run_left
    (Q := fun i rest s => ∃ iccid, iccids[i]? = some iccid ∧
      OnTrack serve ambient (job iccid) (states iccid) a iccid rest s)
    ?_ ?_ schedule _ _ (Pool.start_accounted _ _) ?_ i rest hleft
  -- The effect is the job's own, or that of a job about another profile, or nothing has happened
  -- yet.
  · rintro i e next s ⟨iccid, hi, htrack⟩
    exact ⟨iccid, hi, htrack.own hsource⟩
  · rintro i j e next rest s hne ⟨other, hi, hother⟩ ⟨iccid, hj, htrack⟩
    refine ⟨iccid, hj, htrack.frame (fun heq => ?_) (steady_perform hother.steady).1⟩
    -- The same ICCID would stand at two indices of the list.
    subst heq
    have hlt : j < iccids.length := (List.getElem?_eq_some_iff.mp hj).1
    exact hne ((List.getElem?_inj hlt hdistinct).mp (hj.trans hi.symm))
  · intro i rest hstart
    have hjobs := Pool.left_start hstart
    rw [List.getElem?_map, Option.map_eq_some_iff] at hjobs
    obtain ⟨iccid, hi, rfl⟩ := hjobs
    exact ⟨iccid, hi, onTrack_start (hjob iccid) states a⟩

end ProfileAdmin.Client
