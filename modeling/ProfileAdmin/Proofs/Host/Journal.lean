import ProfileAdmin.Proofs.Host.History

/-!
# Proofs.Host.Journal — what is seen of a history

1. **Events** of a history: what was logged, in order.
2. **Files** of a history: what was read, in order.
3. **File systems**: surroundings in which every file holds the same from first to last, and
   everything else is answered as elsewhere.
-/

namespace ProfileAdmin.Host

variable {α σ : Type}

/-! ## Events -/

/-- The event that a deed logs, if it logs one. -/
def Deed.event? : Deed → Option Event
  | ⟨.note e, _⟩ => some e
  | _ => none

/-- What was logged in a history. -/
def events (h : List Deed) : List Event :=
  h.filterMap Deed.event?

@[simp] theorem events_nil : events [] = [] := rfl

/-- What was logged in two parts was logged in order. -/
@[simp] theorem events_append (h₁ h₂ : List Deed) : events (h₁ ++ h₂) = events h₁ ++ events h₂ :=
  List.filterMap_append

/-! ## Files -/

/-- The file that a deed reads, if it reads one. -/
def Deed.path? : Deed → Option String
  | ⟨.fileBytes path, _⟩ => some path
  | _ => none

/-- The files that were read in a history. -/
def filesRead (h : List Deed) : List String :=
  h.filterMap Deed.path?

@[simp] theorem filesRead_nil : filesRead [] = [] := rfl

/-- So were files read. -/
@[simp] theorem filesRead_append (h₁ h₂ : List Deed) :
    filesRead (h₁ ++ h₂) = filesRead h₁ ++ filesRead h₂ :=
  List.filterMap_append

/-! ## File systems -/

/-- What comes of opening each file. -/
abbrev FileSystem := String → Except FileError (List UInt8)

/-- All that was read in a history is what the files hold. -/
def ReadFrom (files : FileSystem) (h : List Deed) : Prop :=
  ∀ path opened, (⟨.fileBytes path, opened⟩ : Deed) ∈ h → opened = files path

/-- Files hold what was read in two parts if they hold what was read in each. -/
theorem readFrom_append_iff {files : FileSystem} {h₁ h₂ : List Deed} :
    ReadFrom files (h₁ ++ h₂) ↔ ReadFrom files h₁ ∧ ReadFrom files h₂ := by
  constructor
  · intro hread
    constructor
    · intro path opened hmem
      exact hread path opened (List.mem_append_left h₂ hmem)
    · intro path opened hmem
      exact hread path opened (List.mem_append_right h₁ hmem)
  · rintro ⟨h₁read, h₂read⟩ path opened hmem
    rcases List.mem_append.mp hmem with hmem | hmem
    · exact h₁read path opened hmem
    · exact h₂read path opened hmem

namespace Program

/-- Surroundings with some files. -/
def holding (files : FileSystem) (ambient : (e : Effect) → σ → e.Answer × σ) :
    (e : Effect) → σ → e.Answer × σ
  | .fileBytes path, s => (files path, s)
  | e, s => ambient e s

/-- With some files around, all that is read is what they hold. -/
theorem history_holding (files : FileSystem) (ambient : (e : Effect) → σ → e.Answer × σ)
    (p : Program α) (s : σ) : ReadFrom files (p.history (holding files ambient) s) := by
  induction p generalizing s with
  | done a => exact fun _ _ hmem => absurd hmem List.not_mem_nil
  | perform e next ih =>
      intro path opened hmem
      rcases List.mem_cons.mp hmem with heq | hmem
      · -- The deed itself reads a file only if this is its effect.
        cases e with
        | fileBytes path' =>
            cases heq
            rfl
        | draw | exchange | note | print | clock => cases heq
      · exact ih _ _ path opened hmem

end Program

end ProfileAdmin.Host
