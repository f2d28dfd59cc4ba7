import ProfileAdmin.Proofs.Host.History

/-!
# Proofs.Host.Correspondence — programs that do alike

1. **Correspondence**: which effects are alike, and which answers to them.
2. **Programs**: two programs correspond if they ask for effects that are alike, whatever
   like answers they are given, and end with values that are alike.
3. **Runs**: corresponding programs in corresponding surroundings end alike.
-/

namespace ProfileAdmin.Host

/-! ## Correspondence -/

/-- What is taken for alike: effects, and answers to effects that are. -/
structure Correspondence where
  effects : Effect → Effect → Prop
  answers : (e e' : Effect) → e.Answer → e'.Answer → Prop

namespace Program

variable {α β γ δ σ τ : Type} {R : Correspondence} {V : α → β → Prop} {W : γ → δ → Prop}

/-! ## Programs -/

/-- Two programs do alike as long as they are answered alike, and end with like values. -/
inductive Corresponds (R : Correspondence) (V : α → β → Prop) : Program α → Program β → Prop where
  | done {a : α} {b : β} (values : V a b) : Corresponds R V (.done a) (.done b)
  | perform {e e' : Effect} {next : e.Answer → Program α} {next' : e'.Answer → Program β}
      (effects : R.effects e e')
      (rest : ∀ a a', R.answers e e' a a' → Corresponds R V (next a) (next' a')) :
      Corresponds R V (.perform e next) (.perform e' next')

/-- Sequences correspond if both of their parts do. -/
theorem corresponds_bind {p : Program α} {q : Program β} {f : α → Program γ}
    {g : β → Program δ} (h : Corresponds R V p q)
    (hfg : ∀ a b, V a b → Corresponds R W (f a) (g b)) :
    Corresponds R W (p >>= f) (q >>= g) := by
  induction h with
  | done values => exact hfg _ _ values
  | perform effects rest ih => exact Corresponds.perform effects fun a a' ha => ih a a' ha

/-! ## Runs -/

/-- States of two surroundings that correspond: like effects are answered alike, and leave
states that correspond. -/
def Simulates (R : Correspondence) (answer : (e : Effect) → σ → e.Answer × σ)
    (answer' : (e : Effect) → τ → e.Answer × τ) (S : σ → τ → Prop) : Prop :=
  ∀ e e' s t, R.effects e e' → S s t →
    R.answers e e' (answer e s).1 (answer' e' t).1 ∧ S (answer e s).2 (answer' e' t).2

/-- Corresponding programs end alike where like effects are answered alike. -/
theorem run_corresponds {answer : (e : Effect) → σ → e.Answer × σ}
    {answer' : (e : Effect) → τ → e.Answer × τ} {S : σ → τ → Prop}
    (hS : Simulates R answer answer' S) {p : Program α} {q : Program β}
    (h : Corresponds R V p q) {s : σ} {t : τ} (hst : S s t) :
    V (p.run answer s).1 (q.run answer' t).1 ∧ S (p.run answer s).2 (q.run answer' t).2 := by
  induction h generalizing s t with
  | done values => exact ⟨values, hst⟩
  | perform effects rest ih =>
      obtain ⟨hanswers, hnext⟩ := hS _ _ s t effects hst
      exact ih _ _ hanswers hnext

end Program

end ProfileAdmin.Host
