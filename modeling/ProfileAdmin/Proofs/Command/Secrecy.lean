import ProfileAdmin.Proofs.Client.Provider
import ProfileAdmin.Proofs.Client.Secrecy
import ProfileAdmin.Proofs.Command.Bulk

/-!
# Proofs.Command.Secrecy — tokens do not reach the log

1. **Bulk activations** behind the veil: one entry, one after the other, and in turns.
2. **Secrecy**: as long as no payloads are shown, runs that hear the same but for the contents of
   tokens cannot be told apart from the outside, and end with the same but for these contents.
-/

namespace ProfileAdmin.Command.Bulk

open Call
open Client
open Host
open Host.Program
open Profile

variable {σ τ : Type} {c : Client} {iccids : List String} {parallelism : Nat}

/-! ## Bulk activations -/

/-- An outcome with a veil over the token. -/
def Outcome.veiled (o : Outcome) : Outcome :=
  { o with result := o.result.map Activation.veiled }

section

variable (hoff : c.debugging.payloads = false)

include hoff

/-- Activations behind the veil have outcomes that are the same behind it. -/
theorem activateOne_corresponds (iccid : String) :
    Corresponds veil (fun o o' => Outcome.veiled o = Outcome.veiled o') (activateOne c iccid)
      (activateOne c iccid) := by
  rw [activateOne_eq]
  refine corresponds_bind (activate_likewise hoff iccid) fun r r' hr => ?_
  have hveiled : Outcome.veiled ⟨iccid, r⟩ = Outcome.veiled ⟨iccid, r'⟩ :=
    congrArg (Outcome.mk iccid) hr
  -- A failure is noted, and then it is the same failure.
  rcases r with e | a
  · rcases r' with e' | a'
    · cases hr
      exact Corresponds.perform rfl fun _ _ _ => Corresponds.done rfl
    · cases hr
  · rcases r' with e' | a'
    · cases hr
    · exact Corresponds.done hveiled

/-- So have lists of them. -/
theorem activateEach_corresponds (iccids : List String) :
    Corresponds veil (fun os os' => os.map Outcome.veiled = os'.map Outcome.veiled)
      (activateEach c iccids) (activateEach c iccids) := by
  induction iccids with
  | nil => exact Corresponds.done rfl
  | cons iccid others ih =>
      refine corresponds_bind (activateOne_corresponds hoff iccid) fun o o' ho => ?_
      refine corresponds_bind ih fun os os' hos => Corresponds.done ?_
      rw [List.map_cons, List.map_cons, ho, hos]

/-- And it makes no difference that the workers are announced. -/
theorem activateAll_corresponds (iccids : List String) (parallelism : Nat) :
    Corresponds veil (fun os os' => os.map Outcome.veiled = os'.map Outcome.veiled)
      (activateAll c iccids parallelism) (activateAll c iccids parallelism) :=
  Corresponds.perform rfl fun _ _ _ => activateEach_corresponds hoff iccids

/-- Workers at the same list begin in step. -/
theorem pool_inStep (iccids : List String) (parallelism : Nat) :
    Pool.InStep veil (fun o o' => Outcome.veiled o = Outcome.veiled o')
      (pool c iccids parallelism) (pool c iccids parallelism) := by
  refine Pool.start_inStep _ ?_
  induction iccids with
  | nil => exact List.Forall₂.nil
  | cons iccid others ih => exact List.Forall₂.cons (activateOne_corresponds hoff iccid) ih

end

/-! ## Secrecy -/

/-- What is done to activate a list when the workers take turns by a schedule. -/
def bulkDeeds (answer : (e : Effect) → σ → e.Answer × σ) (c : Client) (iccids : List String)
    (parallelism : Nat) (schedule : List Nat) (s : σ) : List Deed :=
  ⟨.note (.bulkStarted iccids.length (workerCount iccids parallelism)), ()⟩ ::
    Pool.doings answer schedule (pool c iccids parallelism) (begun iccids parallelism answer s)

/-- The workers of a list after a schedule. -/
def bulkEnd (answer : (e : Effect) → σ → e.Answer × σ) (c : Client) (iccids : List String)
    (parallelism : Nat) (schedule : List Nat) (s : σ) : Pool Outcome :=
  (Pool.run answer schedule (pool c iccids parallelism) (begun iccids parallelism answer s)).1

/-- Activation tokens do not reach the log. Whatever the surroundings are, two runs in which like
requests are answered alike, up to the identifiers of calls and the contents of tokens, send the
same requests and log the same events, and end alike. This holds of status queries, of
activations, and of the activation of a list in whatever order the workers take turns. -/
theorem tokens_unlogged (hoff : c.debugging.payloads = false)
    (answer : (e : Effect) → σ → e.Answer × σ) (answer' : (e : Effect) → τ → e.Answer × τ)
    (s : σ) (t : τ) :
    (∀ iccid, let query := (c.status? iccid).run
      AnsweredAlike veil (query.history answer s) (query.history answer' t) →
        Indistinct (query.history answer s) (query.history answer' t) ∧
          (query.run answer s).1.map (Option.map Status.veiled) =
            (query.run answer' t).1.map (Option.map Status.veiled)) ∧
      (∀ iccid, let activation := (c.activate iccid).run
        AnsweredAlike veil (activation.history answer s) (activation.history answer' t) →
          Indistinct (activation.history answer s) (activation.history answer' t) ∧
            (activation.run answer s).1.map Activation.veiled =
              (activation.run answer' t).1.map Activation.veiled) ∧
      (∀ iccids parallelism, let bulk := activateAll c iccids parallelism
        AnsweredAlike veil (bulk.history answer s) (bulk.history answer' t) →
          Indistinct (bulk.history answer s) (bulk.history answer' t) ∧
            (bulk.run answer s).1.map Outcome.veiled =
              (bulk.run answer' t).1.map Outcome.veiled) ∧
      ∀ iccids parallelism schedule,
        AnsweredAlike veil (bulkDeeds answer c iccids parallelism schedule s)
          (bulkDeeds answer' c iccids parallelism schedule t) →
        Indistinct (bulkDeeds answer c iccids parallelism schedule s)
            (bulkDeeds answer' c iccids parallelism schedule t) ∧
          (bulkEnd answer c iccids parallelism schedule s).isOver =
            (bulkEnd answer' c iccids parallelism schedule t).isOver ∧
          (bulkEnd answer c iccids parallelism schedule s).outcomes.map Outcome.veiled =
            (bulkEnd answer' c iccids parallelism schedule t).outcomes.map Outcome.veiled := by
  refine ⟨?_, ?_, ?_, ?_⟩
  · intro iccid query halike
    rcases (status?_likewise hoff iccid).unison (returns_history answer query s)
      (returns_history answer' query t) halike with ⟨hdone, hresults⟩
    exact ⟨indistinct_of_doneAlike hdone, hresults⟩
  · intro iccid activation halike
    rcases (activate_likewise hoff iccid).unison (returns_history answer activation s)
      (returns_history answer' activation t) halike with ⟨hdone, hresults⟩
    exact ⟨indistinct_of_doneAlike hdone, hresults⟩
  · intro iccids parallelism bulk halike
    rcases (activateAll_corresponds hoff iccids parallelism).unison (returns_history answer bulk s)
      (returns_history answer' bulk t) halike with ⟨hdone, hresults⟩
    exact ⟨indistinct_of_doneAlike hdone, hresults⟩
  · intro iccids parallelism schedule halike
    rcases (pool_inStep hoff iccids parallelism).run schedule halike.2 with ⟨hdone, hafter⟩
    have hall : DoneAlike veil (bulkDeeds answer c iccids parallelism schedule s)
        (bulkDeeds answer' c iccids parallelism schedule t) :=
      List.Forall₂.cons (show veiledEffects (.note _) (.note _) from rfl) hdone
    exact ⟨indistinct_of_doneAlike hall, hafter.isOver_eq, hafter.outcomes_eq⟩

/-- An endpoint that reports a released profile with a token, and answers nothing else. -/
def telling (token : String) : Service Unit
  | .getProfileStatus, r, _ =>
    (reporting ⟨Operation.getProfileStatus.key r, "", "RELEASED", token, false, ""⟩, ())
  | _, _, _ => (.error "not here", ())

/-- Behind the veil, endpoints that tell different tokens are heard alike. -/
theorem heard_telling {token token' : String} (htoken : token ≠ "") (htoken' : token' ≠ "")
    (op : Operation) (r : op.Request) :
    heard op (telling token op r ()).1 = heard op (telling token' op r ()).1 := by
  cases op with
  | getProfileStatus =>
      have hheard : ∀ s : Status, heard .getProfileStatus (reporting s) =
          ⟨.getProfileStatus, .ok (⟨.success, [s.veiled], ""⟩ : StatusResponse)⟩ := by
        intro s
        have hread : reading .getProfileStatus (reporting s) =
            .ok (⟨.success, [s], ""⟩ : StatusResponse) := reading_encode .getProfileStatus _
        unfold heard
        rw [hread]
        rfl
      have hveiled : ∀ iccid, Status.veiled ⟨iccid, "", "RELEASED", token, false, ""⟩ =
          Status.veiled ⟨iccid, "", "RELEASED", token', false, ""⟩ := by
        intro iccid
        exact Status.veiled_eq_iff.mpr ⟨rfl, rfl, rfl, iff_of_false htoken htoken', rfl, rfl⟩
      show heard .getProfileStatus (reporting _) = heard .getProfileStatus (reporting _)
      rw [hheard, hheard, hveiled]
  | recoverProfile | cancelOrder | downloadOrder | confirmOrder => rfl

/-- Endpoints that report different tokens correspond. -/
theorem telling_simulates {token token' : String} (htoken : token ≠ "") (htoken' : token' ≠ "") :
    Simulates veil (alone (telling token) still) (alone (telling token') still)
      fun _ _ => True := by
  intro e e' a a' heffects _
  refine ⟨?_, trivial⟩
  have heffects : veiledEffects e e' := heffects
  cases e with
  | draw =>
      cases e' with
      | draw =>
          show drawn (still .draw a.2).1 = drawn (still .draw a'.2).1
          exact congrArg (fun u => drawn (still .draw u).1) (Subsingleton.elim a.2 a'.2)
      | exchange | note | print | fileBytes | clock => exact heffects.elim
  | exchange op r =>
      cases e' with
      | exchange op' r' =>
          -- The requests differ in their identifiers alone, and the endpoint does not look at
          -- these.
          have hunnamed : unnamed op r = unnamed op' r' := heffects
          rcases Sigma.mk.inj hunnamed with ⟨rfl, hsame⟩
          show heard op (telling token op (op.anonymous r) ()).1 =
            heard op (telling token' op (op.anonymous r') ()).1
          rw [eq_of_heq hsame]
          exact heard_telling htoken htoken' op _
      | draw | note | print | fileBytes | clock => exact heffects.elim
  | note x =>
      cases e' with
      | note x' => exact trivial
      | draw | exchange | print | fileBytes | clock => exact heffects.elim
  | print | fileBytes | clock => exact heffects.elim

/-- Two profiles, two workers in turn, and two endpoints that tell different tokens. -/
theorem tokens_unlogged_telling :
    let c : Client := ⟨"ACME", ⟨false, true⟩⟩
    let iccids := ["8965030119040000067", "8965030119040000075"]
    let schedule := (List.range 40).map fun n => n % 2
    let answer := alone (telling "1$smdp.example$ALPHA") still
    let answer' := alone (telling "1$smdp.example$B") still
    c.debugging.payloads = false ∧
      AnsweredAlike veil (bulkDeeds answer c iccids 2 schedule ((), ()))
        (bulkDeeds answer' c iccids 2 schedule ((), ())) ∧
      Indistinct (bulkDeeds answer c iccids 2 schedule ((), ()))
        (bulkDeeds answer' c iccids 2 schedule ((), ())) ∧
      (bulkEnd answer c iccids 2 schedule ((), ())).isOver = true ∧
      (bulkEnd answer c iccids 2 schedule ((), ())).outcomes.map Outcome.veiled =
        (bulkEnd answer' c iccids 2 schedule ((), ())).outcomes.map Outcome.veiled := by
  intro c iccids schedule answer answer'
  have hoff : c.debugging.payloads = false := rfl
  have halike : AnsweredAlike veil (bulkDeeds answer c iccids 2 schedule ((), ()))
      (bulkDeeds answer' c iccids 2 schedule ((), ())) :=
    ⟨fun _ => trivial, (pool_inStep hoff iccids 2).answeredAlike
      (telling_simulates (by decide) (by decide)) trivial schedule⟩
  rcases tokens_unlogged hoff answer answer' ((), ()) ((), ()) with ⟨-, -, -, hbulk⟩
  rcases hbulk iccids 2 schedule halike with ⟨hindistinct, -, houtcomes⟩
  have hover : (bulkEnd answer c iccids 2 schedule ((), ())).isOver = true := by
    decide +kernel
  exact ⟨hoff, halike, hindistinct, hover, houtcomes⟩

end ProfileAdmin.Command.Bulk
