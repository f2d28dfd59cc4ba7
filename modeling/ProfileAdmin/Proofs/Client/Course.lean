import ProfileAdmin.Proofs.Client.Operations

/-!
# Proofs.Client.Course — the runs of an activation

1. **Lifecycle**: what the table of transitions says of a reported state.
2. **Courses**: `Course` lists what a turn of the loop can do, `Run` what an activation can
   do around the loop.
3. **Turns**: every step is taken at most once, so the loop ends by itself before its turns
   are used up.
4. **Courses of the program**: the loop follows a course, and an activation is a run.
5. **Courses by the table**: the few courses that the two transitions leave.
-/

namespace ProfileAdmin

open Call
open Host (Deed Event Program)
open Profile

/-! ## Lifecycle -/

namespace Profile

theorem ofName?_name (state : State) : State.ofName? state.name = some state := by
  cases state <;> decide

/-- States are known by their names. -/
theorem ofName?_eq_some_iff {name : String} {state : State} :
    State.ofName? name = some state ↔ name = state.name := by
  constructor
  · intro h
    have hname := List.find?_some h
    exact (beq_iff_eq.mp hname).symm
  · rintro rfl
    exact ofName?_name state

/-- A reported state is known exactly if it is written like one of the lifecycle. -/
theorem lifecycle?_eq_some_iff {s : Status} {state : State} :
    s.lifecycle? = some state ↔ s.state = state.name :=
  ofName?_eq_some_iff

/-- A report without a known state has a name that is none of theirs. -/
theorem lifecycle?_eq_none_iff {s : Status} :
    s.lifecycle? = none ↔ ∀ state : State, s.state ≠ state.name := by
  rw [Option.eq_none_iff_forall_ne_some]
  exact forall_congr' fun state => not_congr lifecycle?_eq_some_iff

/-- A transition that is found is in the table, and leaves the state. -/
theorem transition?_eq_some_iff {state : State} {t : Transition} :
    state.transition? = some t ↔ t ∈ transitions ∧ t.source = state := by
  constructor
  · intro h
    exact ⟨List.mem_of_find?_eq_some h, by simpa using List.find?_some h⟩
  · rintro ⟨ht, rfl⟩
    have hall : ∀ u ∈ transitions, u.source.transition? = some u := by decide
    exact hall t ht

/-- The table has two transitions. -/
theorem mem_transitions_iff {t : Transition} :
    t ∈ transitions ↔
      t = ⟨.available, .download, .allocated⟩ ∨ t = ⟨.allocated, .confirm, .released⟩ := by
  simp [transitions]

/-- Only the last state is left by no transition. -/
theorem isTerminal_iff {state : State} : state.isTerminal = true ↔ state = .released := by
  cases state <;> decide

/-- The transitions whose step has not been taken. -/
def untaken (taken : List Step) : Nat :=
  transitions.countP fun t => t.step ∉ taken

/-- Taking a step for the first time leaves fewer to take. -/
theorem untaken_append_lt {taken : List Step} {t : Transition} (ht : t ∈ transitions)
    (hfresh : t.step ∉ taken) : untaken (taken ++ [t.step]) < untaken taken := by
  calc untaken (taken ++ [t.step])
      = (transitions.filter fun u => u.step ∉ taken).countP fun u => u.step ≠ t.step := by
        rw [untaken, List.countP_filter]
        congr 1
        funext u
        simp [and_comm]
    _ < (transitions.filter fun u => u.step ∉ taken).length := by
        refine Nat.lt_of_le_of_ne List.countP_le_length fun hall => ?_
        have ht' := List.countP_eq_length.mp hall t (by simpa using ⟨ht, hfresh⟩)
        simp at ht'
    _ = untaken taken := by rw [untaken, List.countP_eq_length_filter]

end Profile

namespace Client

open Host.Program

variable {c : Client} {iccid : String} {taken : List Step} {status : Status}

/-! ## Courses -/

/-- What the loop can say and hear from a reported status on, after some steps, and how it
can end. -/
inductive Course (c : Client) (iccid : String) : List Step → Status → List Exchange →
    Except Error (Disposition × List Step) → Prop where
  | unrecognized {taken : List Step} {status : Status} (unknown : status.lifecycle? = none) :
      Course c iccid taken status [] (.ok (.unrecognized status.state, taken))
  /-- No transition leaves the reported state. -/
  | arrived {taken : List Step} {status : Status} {state : State}
      (reported : status.state = state.name) (last : state.isTerminal = true) :
      Course c iccid taken status [] (.ok (.completed, taken))
  /-- The step that leaves the reported state was taken before. -/
  | stalled {taken : List Step} {status : Status} {t : Transition} (known : t ∈ transitions)
      (reported : status.state = t.source.name) (again : t.step ∈ taken) :
      Course c iccid taken status [] (.ok (.stalled status.state, taken))
  /-- The step fails. -/
  | failed {taken : List Step} {status : Status} {t : Transition} {xs : List Exchange} {e : Error}
      (known : t ∈ transitions) (reported : status.state = t.source.name)
      (fresh : t.step ∉ taken) (order : Order c iccid t.step xs (.error e)) :
      Course c iccid taken status xs (.error e)
  /-- The step leads to the end of the lifecycle. -/
  | finished {taken : List Step} {status : Status} {t : Transition} {xs : List Exchange}
      (known : t ∈ transitions) (reported : status.state = t.source.name)
      (fresh : t.step ∉ taken) (order : Order c iccid t.step xs (.ok ()))
      (last : t.target.isTerminal = true) :
      Course c iccid taken status xs (.ok (.completed, taken ++ [t.step]))
  /-- The status cannot be read after the step. -/
  | lost {taken : List Step} {status : Status} {t : Transition} {xs ys : List Exchange}
      {e : Error} (known : t ∈ transitions) (reported : status.state = t.source.name)
      (fresh : t.step ∉ taken) (order : Order c iccid t.step xs (.ok ()))
      (onward : t.target.isTerminal = false) (query : Query c iccid ys (.error e)) :
      Course c iccid taken status (xs ++ ys) (.error e)
  /-- The loop goes on with the status read after the step. -/
  | turn {taken : List Step} {status status' : Status} {t : Transition}
      {xs ys zs : List Exchange} {r : Except Error (Disposition × List Step)}
      (known : t ∈ transitions) (reported : status.state = t.source.name)
      (fresh : t.step ∉ taken) (order : Order c iccid t.step xs (.ok ()))
      (onward : t.target.isTerminal = false) (query : Query c iccid ys (.ok status'))
      (rest : Course c iccid (taken ++ [t.step]) status' zs r) :
      Course c iccid taken status (xs ++ ys ++ zs) r

/-- What lies between the first status and the last: a profile that carries a token is left
alone, any other is driven. -/
inductive Driven (c : Client) (iccid : String) (first : Status) : List Exchange →
    Except Error (Disposition × List Step) → Prop where
  | spared (token : first.isActivated = true) :
      Driven c iccid first [] (.ok (.alreadyActivated, []))
  | driven {xs : List Exchange} {r : Except Error (Disposition × List Step)}
      (bare : first.isActivated = false) (course : Course c iccid [] first xs r) :
      Driven c iccid first xs r

/-- What an activation can say and hear, and how it can end. -/
inductive Run (c : Client) (iccid : String) :
    List Exchange → Except Error Activation → Prop where
  /-- The first status cannot be read. -/
  | unread {xs : List Exchange} {e : Error} (query : Query c iccid xs (.error e)) :
      Run c iccid xs (.error e)
  /-- A step fails, or the status behind it. -/
  | broken {first : Status} {xs ys : List Exchange} {e : Error}
      (query : Query c iccid xs (.ok first)) (between : Driven c iccid first ys (.error e)) :
      Run c iccid (xs ++ ys) (.error e)
  /-- The last status cannot be read. -/
  | unseen {first : Status} {xs ys zs : List Exchange} {e : Error} {d : Disposition}
      {steps : List Step} (query : Query c iccid xs (.ok first))
      (between : Driven c iccid first ys (.ok (d, steps)))
      (reread : Query c iccid zs (.error e)) :
      Run c iccid (xs ++ ys ++ zs) (.error e)
  | ended {first last : Status} {xs ys zs : List Exchange} {d : Disposition}
      {steps : List Step} (query : Query c iccid xs (.ok first))
      (between : Driven c iccid first ys (.ok (d, steps)))
      (reread : Query c iccid zs (.ok last)) :
      Run c iccid (xs ++ ys ++ zs) (.ok ⟨last, steps, d⟩)

/-! ## Turns -/

/-- With enough turns for the steps not yet taken, the number of turns makes no difference:
the loop is never ended by it. -/
theorem drive_succ_eq (turns : Nat) (taken : List Step) (status : Status)
    (hturns : untaken taken < turns) :
    c.drive iccid (turns + 1) taken status = c.drive iccid turns taken status := by
  induction turns generalizing taken status with
  | zero => exact absurd hturns (Nat.not_lt_zero _)
  | succ turns ih =>
      rw [drive]
      conv => rhs; rw [drive]
      split
      · rfl
      split
      · rfl
      case h_2 t ht =>
        split
        · rfl
        · rename_i hfresh
          have hknown := (transition?_eq_some_iff.mp ht).1
          -- A new step is taken now, so one turn fewer is needed behind it.
          have hfewer := untaken_append_lt hknown hfresh
          simp only [ih (taken ++ [t.step]) _ (by omega)]

/-! ## Courses of the program -/

/-- The loop follows a course. The induction is on the turns; there are always more of them
than steps not yet taken. -/
theorem drive_returns {turns : Nat} {taken : List Step} {status : Status} {h : List Deed}
    {r : Except Error (Disposition × List Step)} (hturns : untaken taken < turns)
    (hr : Program.Returns (c.drive iccid turns taken status).run h r) :
    Course c iccid taken status (exchanges h) r := by
  induction turns generalizing taken status h with
  | zero => exact absurd hturns (Nat.not_lt_zero _)
  | succ turns ih =>
      -- The cases are those of the loop: an unknown state, the last one, a step taken before, a new
      -- step.
      unfold drive at hr
      split at hr
      case h_1 hunknown =>
        obtain ⟨h', heq, hp⟩ := returns_note_seq hr
        obtain ⟨rfl, rfl⟩ := returns_pure_iff.mp hp
        rw [heq]
        exact Course.unrecognized hunknown
      case h_2 state hstate =>
        rw [lifecycle?_eq_some_iff] at hstate
        split at hr
        case h_1 hlast =>
          obtain ⟨rfl, rfl⟩ := returns_pure_iff.mp hr
          exact Course.arrived hstate (by simp [State.isTerminal, hlast])
        case h_2 t ht =>
          obtain ⟨hknown, rfl⟩ := transition?_eq_some_iff.mp ht
          split at hr
          case isTrue hagain =>
            obtain ⟨h', heq, hp⟩ := returns_note_seq hr
            obtain ⟨rfl, rfl⟩ := returns_pure_iff.mp hp
            rw [heq]
            exact Course.stalled hknown hstate hagain
          case isFalse hfresh =>
            obtain ⟨h₁, heq, hstep⟩ := returns_note_seq hr
            rw [heq]
            -- The step fails, or it is the last one, or the profile is looked at again.
            rcases returns_seq_iff.mp hstep with ⟨e, rfl, ho⟩ | ⟨h₂, h₃, u, rfl, ho, hrest⟩
            · exact Course.failed hknown hstate hfresh (take_returns ho)
            rw [exchanges_append]
            dsimp only at hrest
            split at hrest
            case isTrue hlast =>
              obtain ⟨rfl, rfl⟩ := returns_pure_iff.mp hrest
              simpa using Course.finished hknown hstate hfresh (take_returns ho) hlast
            case isFalse honward =>
              rw [Bool.not_eq_true] at honward
              rcases returns_seq_iff.mp hrest with ⟨e, rfl, hq⟩ | ⟨h₄, h₅, status', rfl, hq, hloop⟩
              · exact Course.lost hknown hstate hfresh (take_returns ho) honward
                  (status_returns hq)
              · -- The step is taken now, so the turns that are left are still enough.
                have hfewer := untaken_append_lt hknown hfresh
                have hcourse := ih (by omega) hloop
                rw [exchanges_append, ← List.append_assoc]
                exact Course.turn hknown hstate hfresh (take_returns ho) honward
                  (status_returns hq) hcourse

/-- What is done between the first query and the last. -/
def between (c : Client) (iccid : String) (first : Status) : Attempt (Disposition × List Step) :=
  if first.isActivated then do
    plain (Program.note (.alreadyActivated iccid first.state))
    pure (.alreadyActivated, [])
  else c.drive iccid (transitions.length + 1) [] first

/-- An activation is two queries and what is done between them. -/
theorem activate_eq (c : Client) (iccid : String) :
    c.activate iccid = (do
      let first ← c.status iccid
      let (disposition, steps) ← c.between iccid first
      let last ← c.status iccid
      plain (Program.note (.activationFinished iccid last.state last.isActivated steps.length))
      return ⟨last, steps, disposition⟩) := by
  unfold activate between
  congr 1
  funext first
  cases first.isActivated <;> rfl

/-- Between the first query and the last, a profile with a token is left alone and any other is
driven. -/
theorem between_returns {first : Status} {h : List Deed}
    {r : Except Error (Disposition × List Step)}
    (hr : Program.Returns (c.between iccid first).run h r) :
    Driven c iccid first (exchanges h) r := by
  unfold between at hr
  split at hr
  case isTrue htoken =>
    obtain ⟨h', heq, hp⟩ := returns_note_seq hr
    obtain ⟨rfl, rfl⟩ := returns_pure_iff.mp hp
    rw [heq]
    exact Driven.spared htoken
  case isFalse hbare =>
    rw [Bool.not_eq_true] at hbare
    exact Driven.driven hbare (drive_returns (by decide) hr)

/-- Every activation is a run. -/
theorem activate_returns {h : List Deed} {r : Except Error Activation}
    (hr : Program.Returns (c.activate iccid).run h r) : Run c iccid (exchanges h) r := by
  rw [activate_eq] at hr
  rcases returns_seq_iff.mp hr with ⟨e, rfl, hq⟩ | ⟨h₁, h₂, first, rfl, hq, hrest⟩
  · exact Run.unread (status_returns hq)
  rw [exchanges_append]
  rcases returns_seq_iff.mp hrest with ⟨e, rfl, hb⟩ | ⟨h₃, h₄, ⟨d, steps⟩, rfl, hb, hlast⟩
  · exact Run.broken (status_returns hq) (between_returns hb)
  rw [exchanges_append, ← List.append_assoc]
  rcases returns_seq_iff.mp hlast with ⟨e, rfl, hz⟩ | ⟨h₅, h₆, last, rfl, hz, hend⟩
  · exact Run.unseen (status_returns hq) (between_returns hb) (status_returns hz)
  -- What is noted at the end is not said to the endpoint.
  obtain ⟨h', heq, hp⟩ := returns_note_seq hend
  obtain ⟨rfl, rfl⟩ := returns_pure_iff.mp hp
  rw [exchanges_append, heq, exchanges_nil, List.append_nil]
  exact Run.ended (status_returns hq) (between_returns hb) (status_returns hz)

/-- What is said and heard in an activation is a run, whatever the surroundings. -/
theorem conversation_run {σ : Type} (answer : (e : Host.Effect) → σ → e.Answer × σ) (s : σ) :
    Run c iccid (conversation answer (c.activate iccid) s)
      ((c.activate iccid).run.run answer s).1 :=
  activate_returns (Program.returns_history answer (c.activate iccid).run s)

/-! ## Courses by the table -/

/-- After the download, the loop ends, or the confirmation ends it. -/
theorem Course.after_download {xs : List Exchange} {r : Except Error (Disposition × List Step)}
    (h : Course c iccid [.download] status xs r) :
    (status.state ≠ State.allocated.name ∧ xs = [] ∧ ∃ d, r = .ok (d, [.download]) ∧
        (d = .completed ↔ status.state = State.released.name)) ∨
      (status.state = State.allocated.name ∧ ∃ o, Order c iccid .confirm xs o ∧
        r = o.map fun _ => (.completed, [.download, .confirm])) := by
  have hfresh : ∀ t ∈ transitions, t.step ∉ [Step.download] →
      t = ⟨.allocated, .confirm, .released⟩ := by decide
  have hagain : ∀ t ∈ transitions, t.step ∈ [Step.download] →
      t = ⟨.available, .download, .allocated⟩ := by decide
  -- The download has been taken, so the only new step is the confirmation, which ends the loop.
  cases h with
  | unrecognized unknown =>
      have hne := lifecycle?_eq_none_iff.mp unknown
      exact Or.inl ⟨hne .allocated, rfl, _, rfl, by simp [hne .released]⟩
  | arrived reported last =>
      obtain rfl := isTerminal_iff.mp last
      exact Or.inl ⟨by simp [reported, State.name], rfl, _, rfl, by simp [reported]⟩
  | stalled known reported again =>
      obtain rfl := hagain _ known again
      exact Or.inl ⟨by simp [reported, State.name], rfl, _, rfl, by simp [reported, State.name]⟩
  | failed known reported fresh order =>
      obtain rfl := hfresh _ known fresh
      exact Or.inr ⟨reported, _, order, rfl⟩
  | finished known reported fresh order last =>
      obtain rfl := hfresh _ known fresh
      exact Or.inr ⟨reported, _, order, rfl⟩
  | lost known reported fresh order onward query =>
      obtain rfl := hfresh _ known fresh
      cases onward
  | turn known reported fresh order onward query rest =>
      obtain rfl := hfresh _ known fresh
      cases onward

/-- The courses from the start on, with the two transitions written out. -/
inductive Way (c : Client) (iccid : String) (status : Status) :
    List Exchange → Except Error (Disposition × List Step) → Prop where
  /-- No step is taken. -/
  | rest {d : Disposition} (ends : d = .completed ↔ status.state = State.released.name) :
      Way c iccid status [] (.ok (d, []))
  /-- The confirmation comes first, and ends it. -/
  | confirm {xs : List Exchange} {o : Except Error Unit}
      (reported : status.state = State.allocated.name) (order : Order c iccid .confirm xs o) :
      Way c iccid status xs (o.map fun _ => (.completed, [.confirm]))
  /-- The download fails. -/
  | undelivered {xs : List Exchange} {e : Error} (reported : status.state = State.available.name)
      (order : Order c iccid .download xs (.error e)) : Way c iccid status xs (.error e)
  /-- The status cannot be read after the download. -/
  | unseen {xs ys : List Exchange} {e : Error} (reported : status.state = State.available.name)
      (order : Order c iccid .download xs (.ok ())) (query : Query c iccid ys (.error e)) :
      Way c iccid status (xs ++ ys) (.error e)
  /-- The download is the only step. -/
  | download {xs ys : List Exchange} {status' : Status} {d : Disposition}
      (reported : status.state = State.available.name)
      (order : Order c iccid .download xs (.ok ())) (query : Query c iccid ys (.ok status'))
      (reported' : status'.state ≠ State.allocated.name)
      (ends : d = .completed ↔ status'.state = State.released.name) :
      Way c iccid status (xs ++ ys) (.ok (d, [.download]))
  /-- The confirmation comes after the download, and ends it. -/
  | both {xs ys zs : List Exchange} {status' : Status} {o : Except Error Unit}
      (reported : status.state = State.available.name)
      (order : Order c iccid .download xs (.ok ())) (query : Query c iccid ys (.ok status'))
      (reported' : status'.state = State.allocated.name) (order' : Order c iccid .confirm zs o) :
      Way c iccid status (xs ++ ys ++ zs) (o.map fun _ => (.completed, [.download, .confirm]))

/-- A course from the start on is one of the ways that the table leaves. -/
theorem Course.way {xs : List Exchange} {r : Except Error (Disposition × List Step)}
    (h : Course c iccid [] status xs r) : Way c iccid status xs r := by
  have honward : ∀ t ∈ transitions, t.target.isTerminal = false →
      t = ⟨.available, .download, .allocated⟩ := by decide
  cases h with
  | unrecognized unknown =>
      have hne := lifecycle?_eq_none_iff.mp unknown .released
      exact Way.rest (by simp [hne])
  | arrived reported last =>
      obtain rfl := isTerminal_iff.mp last
      exact Way.rest (by simp [reported])
  | stalled known reported again => cases again
  | failed known reported fresh order =>
      rcases mem_transitions_iff.mp known with rfl | rfl
      · exact Way.undelivered reported order
      · exact Way.confirm reported order
  | finished known reported fresh order last =>
      rcases mem_transitions_iff.mp known with rfl | rfl
      · cases last
      · exact Way.confirm reported order
  | lost known reported fresh order onward query =>
      -- What goes on behind a step has taken the download.
      obtain rfl := honward _ known onward
      exact Way.unseen reported order query
  | turn known reported fresh order onward query rest =>
      obtain rfl := honward _ known onward
      rcases rest.after_download with ⟨reported', rfl, d, rfl, hends⟩ | ⟨reported', o, order', rfl⟩
      · rw [List.append_nil]
        exact Way.download reported order query reported' hends
      · exact Way.both reported order query reported' order'

end Client

end ProfileAdmin
