import ProfileAdmin.Host.Program

/-!
# Proofs.Host.History — what a program has done

1. **Deeds**: an effect together with its answer. A history is a list of deeds.
2. **Sequences** of programs may be grouped in any way.
3. **Returning**: a program returns a value after a history if it asks for the effects
   of the history, one after the other, and ends with the value. The answers are any
   answers, so a law of all histories is a law of all surroundings.
4. **What is left** of a program after some of its deeds. Whatever the answers are, it ends.
5. **Histories**: what a program does in given surroundings.
6. **Recording**: surroundings that answer as others do and keep what was done.
-/

namespace ProfileAdmin.Host

/-! ## Deeds -/

/-- An effect and its answer. -/
structure Deed where
  effect : Effect
  answer : effect.Answer

namespace Program

variable {α β γ σ : Type}

/-! ## Sequences -/

theorem bind_done (p : Program α) : p.bind .done = p := by
  induction p with
  | done a => rfl
  | perform e next ih => exact congrArg (perform e) (funext ih)

/-- It does not matter which of three programs are taken together first. -/
theorem bind_bind (p : Program α) (f : α → Program β) (g : β → Program γ) :
    (p.bind f).bind g = p.bind fun a => (f a).bind g := by
  induction p with
  | done a => rfl
  | perform e next ih => exact congrArg (perform e) (funext ih)

instance : LawfulMonad Program :=
  LawfulMonad.mk' Program bind_done (fun _ _ => rfl) bind_bind

/-! ## Returning -/

/-- The program asks for the effects of a history, is answered as the history says, and
ends with a value. -/
inductive Returns : Program α → List Deed → α → Prop where
  | done (a : α) : Returns (.done a) [] a
  | perform {e : Effect} {next : e.Answer → Program α} {h : List Deed} {a : α}
      (answer : e.Answer) (rest : Returns (next answer) h a) :
      Returns (.perform e next) (⟨e, answer⟩ :: h) a

/-- A program that is done does nothing more. -/
theorem returns_done_iff {a b : α} {h : List Deed} :
    (done a).Returns h b ↔ h = [] ∧ b = a := by
  constructor
  · intro hr
    cases hr
    exact ⟨rfl, rfl⟩
  · rintro ⟨rfl, rfl⟩
    exact Returns.done _

/-- The effect that a program asks for is the first of its deeds. -/
theorem returns_perform_iff {e : Effect} {next : e.Answer → Program α} {h : List Deed} {a : α} :
    (perform e next).Returns h a ↔
      ∃ answer h', h = ⟨e, answer⟩ :: h' ∧ (next answer).Returns h' a := by
  constructor
  · intro hr
    cases hr with
    | perform answer rest => exact ⟨answer, _, rfl, rest⟩
  · rintro ⟨answer, h', rfl, rest⟩
    exact Returns.perform answer rest

/-- The history of a sequence of two programs falls into the histories of both. -/
theorem returns_bind_iff {p : Program α} {f : α → Program β} {h : List Deed} {b : β} :
    (p >>= f).Returns h b ↔
      ∃ h₁ h₂ a, h = h₁ ++ h₂ ∧ p.Returns h₁ a ∧ (f a).Returns h₂ b := by
  constructor
  · intro hr
    induction p generalizing h with
    | done a => exact ⟨[], h, a, rfl, Returns.done a, hr⟩
    | perform e next ih =>
        obtain ⟨answer, h', rfl, rest⟩ := returns_perform_iff.mp hr
        obtain ⟨h₁, h₂, a, rfl, hp, hf⟩ := ih answer rest
        exact ⟨⟨e, answer⟩ :: h₁, h₂, a, rfl, Returns.perform answer hp, hf⟩
  · rintro ⟨h₁, h₂, a, rfl, hp, hf⟩
    induction hp with
    | done a => exact hf
    | perform answer _ ih => exact Returns.perform answer (ih hf)

/-- To ask for an effect is to return the answer. -/
theorem returns_ask_iff {e : Effect} {h : List Deed} {a : e.Answer} :
    (ask e).Returns h a ↔ h = [⟨e, a⟩] := by
  unfold ask
  rw [returns_perform_iff]
  constructor
  · rintro ⟨answer, h', rfl, rest⟩
    obtain ⟨rfl, rfl⟩ := returns_done_iff.mp rest
    rfl
  · rintro rfl
    exact ⟨a, [], rfl, Returns.done a⟩

/-- What a program does is settled by the answers that it gets, and so is what it returns. -/
theorem Returns.unique {p : Program α} {h h' later later' : List Deed} {a b : α}
    (hr : p.Returns h a) (hr' : p.Returns h' b) (heq : h ++ later = h' ++ later') :
    h = h' ∧ a = b := by
  induction hr generalizing h' with
  | done a =>
      obtain ⟨rfl, rfl⟩ := returns_done_iff.mp hr'
      exact ⟨rfl, rfl⟩
  | perform answer rest ih =>
      obtain ⟨answer', h'', rfl, rest'⟩ := returns_perform_iff.mp hr'
      obtain ⟨hdeed, hlater⟩ := List.cons.inj heq
      -- Both ask for the same effect, so the answers are of one type.
      obtain rfl := eq_of_heq (Deed.mk.inj hdeed).2
      obtain ⟨rfl, rfl⟩ := ih rest' hlater
      exact ⟨rfl, rfl⟩

/-! ## What is left -/

/-- What is left of a program after some of its deeds. -/
def Remains (job : Program α) (before : List Deed) (rest : Program α) : Prop :=
  ∀ h a, rest.Returns h a → job.Returns (before ++ h) a

/-- Before its first deed, all of a program is left. -/
theorem remains_start (job : Program α) : Remains job [] job :=
  fun _ _ hr => hr

/-- After the effect that is asked for, what is left goes on with the answer. -/
theorem Remains.perform {job : Program α} {before : List Deed} {e : Effect}
    {next : e.Answer → Program α} (h : Remains job before (.perform e next)) (reply : e.Answer) :
    Remains job (before ++ [⟨e, reply⟩]) (next reply) := by
  intro h' a hr
  rw [List.append_assoc]
  exact h _ a (Returns.perform reply hr)

/-- When nothing is left but a value, this is what the program returns. -/
theorem Remains.returns {job : Program α} {before : List Deed} {a : α}
    (h : Remains job before (.done a)) : job.Returns before a := by
  have hr := h [] a (Returns.done a)
  rwa [List.append_nil] at hr

/-- An answer to an effect. -/
def anyAnswer : (e : Effect) → e.Answer
  | .draw => Except.error ""
  | .exchange _ _ => Except.error ""
  | .note _ => ()
  | .print _ => Except.error ""
  | .fileBytes _ => Except.error .absent
  | .clock => (0 : Int)

/-- Every program comes to an end, if only it is answered somehow. -/
theorem exists_returns (p : Program α) : ∃ h a, p.Returns h a := by
  induction p with
  | done a => exact ⟨[], a, Returns.done a⟩
  | perform e next ih =>
      obtain ⟨h, a, hr⟩ := ih (anyAnswer e)
      exact ⟨_, a, Returns.perform (anyAnswer e) hr⟩

/-! ## Histories -/

/-- What a program does in surroundings that are in a state. -/
def history (answer : (e : Effect) → σ → e.Answer × σ) : Program α → σ → List Deed
  | .done _, _ => []
  | .perform e next, s =>
    let (reply, s) := answer e s
    ⟨e, reply⟩ :: (next reply).history answer s

/-- A run in any surroundings is a return after its history. -/
theorem returns_history (answer : (e : Effect) → σ → e.Answer × σ) (p : Program α) (s : σ) :
    p.Returns (p.history answer s) (p.run answer s).1 := by
  induction p generalizing s with
  | done a => exact Returns.done a
  | perform e next ih => exact Returns.perform _ (ih _ _)

/-- A sequence is run by running its parts, one after the other. -/
theorem run_bind (answer : (e : Effect) → σ → e.Answer × σ) (p : Program α)
    (f : α → Program β) (s : σ) :
    (p >>= f).run answer s = (f (p.run answer s).1).run answer (p.run answer s).2 := by
  induction p generalizing s with
  | done a => rfl
  | perform e next ih => exact ih _ _

/-- And what it does is what both of them do. -/
theorem history_bind (answer : (e : Effect) → σ → e.Answer × σ) (p : Program α)
    (f : α → Program β) (s : σ) :
    (p >>= f).history answer s = p.history answer s ++
      (f (p.run answer s).1).history answer (p.run answer s).2 := by
  induction p generalizing s with
  | done a => rfl
  | perform e next ih => exact congrArg (List.cons _) (ih _ _)

/-! ## Recording -/

/-- Surroundings that answer as others do, and keep what was done, in order. -/
def recording (answer : (e : Effect) → σ → e.Answer × σ) (e : Effect) (s : σ × List Deed) :
    e.Answer × (σ × List Deed) :=
  let (reply, t) := answer e s.1
  (reply, t, s.2 ++ [⟨e, reply⟩])

/-- What is recorded of a program is its history, and recording changes nothing else. -/
theorem run_recording (answer : (e : Effect) → σ → e.Answer × σ) (p : Program α) (s : σ)
    (before : List Deed) :
    p.run (recording answer) (s, before) =
      ((p.run answer s).1, (p.run answer s).2, before ++ p.history answer s) := by
  induction p generalizing s before with
  | done a => simp [run, history]
  | perform e next ih =>
      have hrest := ih (answer e s).1 (answer e s).2 (before ++ [⟨e, (answer e s).1⟩])
      simpa [run, history, recording] using hrest

end Program

end ProfileAdmin.Host
