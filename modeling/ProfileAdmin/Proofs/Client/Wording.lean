import ProfileAdmin.Proofs.Client.Made
import ProfileAdmin.Proofs.Schema.Blame

/-!
# Proofs.Client.Wording — what a failure says in the words of others

1. **Quotations**: texts from outside that stand in the wording of a failure as they are.
2. **Occurrence**: the failures that there are of calls about a profile. Apart from what they quote
   and from the ICCID, they are worded on one line, also if they say why a reply is unreadable.
3. **Failures** of an activation: there are no others, whatever the replies are.
-/

namespace ProfileAdmin.Client

open Call
open Host (Event Program)
open Host.Program
open Profile
open Text (OneLine breaks breaksIn breaksIn_singleton breaks_behind breaks_between oneLine_append
  oneLine_toString_nat)

variable {α β : Type} {iccid : String}

/-! ## Quotations -/

/-- The texts that a failure quotes: why something failed, in the words of what failed, or what the
endpoint declares or reports. -/
def Error.quotes : Error → List String
  | .transport _ reason => [reason]
  | .protocol (.callIdentifier reason) => [reason]
  | .declined _ status _ => [status]
  | .otherProfile _ reported => [reported]
  | _ => []

/-! ## Occurrence -/

/-- The failures of calls about a profile. -/
inductive Error.Occurs (iccid : String) : Error → Prop where
  | unsent (reason : String) : Occurs iccid (.protocol (.callIdentifier reason))
  | unanswered (op : Operation) (reason : String) : Occurs iccid (.transport op reason)
  | unreadable {op : Operation} {body : List UInt8} {f : Json.Fault}
      (fault : op.responseShape.decode body = .error f) :
      Occurs iccid (.protocol (.undecodable op f))
  | declined (op : Operation) (status : String) (data : Option StatusCodeData) :
      Occurs iccid (.declined op status data)
  | ambiguous (count : Nat) : Occurs iccid (.ambiguous iccid count)
  | otherProfile (reported : String) : Occurs iccid (.otherProfile iccid reported)
  | unknownProfile : Occurs iccid (.unknownProfile iccid)

theorem oneLine_name (op : Operation) : OneLine op.name := by
  cases op <;> decide

/-- Every line break in the wording is one of a quotation. -/
theorem Error.Occurs.breaks_message {e : Error} (h : e.Occurs iccid) (hiccid : OneLine iccid) :
    breaks e.message = breaksIn e.quotes := by
  cases h with
  | unsent reason =>
      -- The wording around a quotation is fixed, so it can be looked at once and for all.
      calc breaks (Error.protocol (.callIdentifier reason)).message
          = breaks ("failed to generate function call identifier: " ++ reason) :=
            breaks_behind (by decide)
        _ = breaks reason := breaks_behind (by decide)
        _ = breaksIn [reason] := (breaksIn_singleton reason).symm
  | unanswered op reason =>
      rw [Error.quotes, breaksIn_singleton]
      refine breaks_behind (s := "transport error calling " ++ op.name ++ ": ") ?_
      exact oneLine_append.mpr ⟨oneLine_append.mpr ⟨by decide, oneLine_name op⟩, by decide⟩
  | @unreadable op body f fault =>
      have hfault : OneLine f.message := oneLine_undecodable fault
      have hinner : OneLine ("failed to decode " ++ op.name ++ " response: " ++ f.message) :=
        oneLine_append.mpr ⟨oneLine_append.mpr ⟨oneLine_append.mpr ⟨by decide, oneLine_name op⟩,
          by decide⟩, hfault⟩
      exact oneLine_append.mpr ⟨by decide, hinner⟩
  | declined op status data =>
      rw [Error.quotes, breaksIn_singleton]
      refine breaks_between (s := op.name ++ " execution status was '") ?_ (by decide)
      exact oneLine_append.mpr ⟨oneLine_name op, by decide⟩
  | ambiguous count =>
      have hcount : OneLine ("getProfileStatus returned " ++ toString count) :=
        oneLine_append.mpr ⟨by decide, oneLine_toString_nat count⟩
      exact oneLine_append.mpr ⟨oneLine_append.mpr ⟨hcount, by decide⟩, hiccid⟩
  | otherProfile reported =>
      rw [Error.quotes, breaksIn_singleton]
      refine breaks_behind (s := "getProfileStatus for iccid " ++ iccid ++ " reported iccid ") ?_
      exact oneLine_append.mpr ⟨oneLine_append.mpr ⟨by decide, hiccid⟩, by decide⟩
  | unknownProfile =>
      exact oneLine_append.mpr ⟨oneLine_append.mpr ⟨by decide, hiccid⟩, by decide⟩

/-! ## Failures -/

/-- All failures of an attempt are failures of calls about a profile. -/
def Foreseen (iccid : String) (x : Attempt α) : Prop :=
  ∀ h e, Program.Returns x.run h (.error e) → e.Occurs iccid

theorem foreseen_pure (a : α) : Foreseen iccid (pure a : Attempt α) := by
  intro h e hr
  obtain ⟨-, hfail⟩ := returns_pure_iff.mp hr
  cases hfail

theorem foreseen_throw {e : Error} (he : e.Occurs iccid) :
    Foreseen iccid (throw e : Attempt α) := by
  intro h e' hr
  obtain ⟨-, hfail⟩ := returns_throw_iff.mp hr
  cases hfail
  exact he

theorem foreseen_note (e : Event) : Foreseen iccid (plain (note e)) := by
  intro h e' hr
  obtain ⟨u, hfail, -⟩ := returns_lift_iff.mp hr
  cases hfail

/-- Foreseen failures of two attempts are those of one after the other. -/
theorem foreseen_seq {x : Attempt α} {f : α → Attempt β} (hx : Foreseen iccid x)
    (hf : ∀ a, Foreseen iccid (f a)) : Foreseen iccid (x >>= f) := by
  intro h e hr
  rcases returns_seq_iff.mp hr with ⟨e', hfail, hfirst⟩ | ⟨h₁, h₂, a, -, -, hrest⟩
  · cases hfail
    exact hx h e hfirst
  · exact hf a h₂ e hrest

/-- A report fails for one of two reasons: too many entries, or an entry of another profile. -/
theorem occurs_of_entryFor {statuses : List Status} {e : Error}
    (hfail : entryFor iccid statuses = .error e) : e.Occurs iccid := by
  unfold entryFor at hfail
  split at hfail
  · cases hfail
  · split at hfail
    · cases hfail
    · cases hfail
      exact Error.Occurs.otherProfile _
  · cases hfail
    exact Error.Occurs.ambiguous _

/-- A failure that is declared is worded with the operation and the status. -/
theorem occurs_of_declared {op : Operation} {response : op.Response} {e : Error}
    (hfail : declared op response = .error e) : e.Occurs iccid := by
  unfold declared at hfail
  split at hfail
  · cases hfail
  · cases hfail
    exact Error.Occurs.declined _ _ _

/-- What is concluded from a response fails as foreseen. -/
theorem occurs_of_conclude {e : Errand} {response : e.op.Response} {failure : Error}
    (hfail : e.conclude response = .error failure) : failure.Occurs e.iccid := by
  cases e with
  | query iccid => exact occurs_of_entryFor hfail
  | recover iccid target | cancel iccid target => cases hfail
  | download iccid | confirm iccid => exact occurs_of_declared hfail

/-- A reply fails because it did not come or cannot be read. -/
theorem occurs_of_reading {op : Operation} {reply : Except String (List UInt8)} {e : Error}
    (hfail : reading op reply = .error e) : e.Occurs iccid := by
  cases reply with
  | error reason =>
      cases hfail
      exact Error.Occurs.unanswered op reason
  | ok body =>
      unfold reading at hfail
      dsimp only at hfail
      split at hfail
      · rename_i f hfault
        cases hfail
        exact Error.Occurs.unreadable hfault
      · cases hfail

/-- All failures of an errand are failures of calls about its profile. -/
theorem errand_foreseen (c : Client) (e : Errand) : Foreseen e.iccid (e.attempt c) := by
  intro h failure hr
  -- The result is an index of `Goes`, so that it is a failure has to be kept apart.
  generalize hfail : Except.error failure = r at hr
  rcases Errand.returns hr with reason | ⟨undrawn, said⟩
  · cases hfail
    exact Error.Occurs.unsent reason
  · rename_i d h reply
    cases hread : reading e.op reply with
    | error e' =>
        rw [hread] at hfail
        cases hfail
        exact occurs_of_reading hread
    | ok response =>
        rw [hread] at hfail
        exact occurs_of_conclude hfail.symm

/-- Whatever the replies are, an activation fails with nothing else. -/
theorem activate_foreseen (c : Client) (iccid : String) : Foreseen iccid (c.activate iccid) := by
  refine Inherited.activate (P := Foreseen iccid) ?_
  constructor
  case pure => exact foreseen_pure
  case note => exact foreseen_note
  case seq => exact foreseen_seq
  case query => exact errand_foreseen c (.query iccid)
  case unknown => exact foreseen_throw Error.Occurs.unknownProfile
  case download => exact errand_foreseen c (.download iccid)
  case confirm => exact errand_foreseen c (.confirm iccid)

end ProfileAdmin.Client
