import ProfileAdmin.Config.Settings
import ProfileAdmin.Proofs.Schema.Record

/-!
# Proofs.Config.Meaning — what settings stand for

1. **Modes** and the other members of a verification, as far as they are texts.
2. **Verifications**, whose members are looked at when all of them have been read.
3. **Settings.**
-/

namespace ProfileAdmin.Config

open Document (Value)
open Json
open Schema
open Text.Utf8 (encode)

namespace Verification

/-! ## Modes -/

/-- The mode that a tree stands for. -/
def modeSense (tree : Tree) : Option Mode :=
  (textSense tree).bind fun s => (Mode.ofName s).toOption

/-- Each mode is known by its name. -/
theorem modeSense_of (mode : Mode) : modeSense (.text (Body.of mode.name)) = some mode := by
  rw [modeSense, textSense, text?_of]
  cases mode <;> rfl

/-- A mode is read from a text, which has to be one of its names. -/
theorem readsAs_mode (body : Body) : ReadsAs Mode.read (.text body) (modeSense (.text body)) := by
  refine readsAs_peekValue fun b rest t hopens hspells _ => ?_
  obtain rfl := hopens
  rw [if_pos rfl, outcome_bind, outcome_advance, Option.bind_some, outcome_bind,
    outcome_quoted hspells]
  change _ = (body.text?.bind _).map _
  cases body.text? with
  | none => rfl
  | some s =>
      rw [Option.map_some, Option.bind_some, Option.bind_some]
      dsimp only
      cases Mode.ofName s <;> rfl

/-- A text that is only looked at is kept as it is. -/
theorem readsAs_glimpse (body : Body) :
    ReadsAs glimpse (.text body) (body.text?.map .text) := by
  refine readsAs_peekValue fun b rest t hopens hspells _ => ?_
  obtain rfl := hopens
  change outcome (do advance; Document.Found.text <$> Json.text) _ = _
  rw [outcome_bind, outcome_advance, Option.bind_some, outcome_map, outcome_quoted hspells]
  cases body.text? <;> rfl

/-- A text beside the mode, whatever its name. -/
theorem readsAs_content (levels : Nat) (body : Body) :
    ReadsAs (content levels) (.text body) (body.text?.map .text) := by
  intro bytes blanks s hspells hblanks hs
  have hglimpse := readsAs_glimpse body bytes blanks s hspells hblanks hs
  cases levels with
  | zero =>
      rw [content, outcome_bind, hglimpse]
      cases body.text? <;> rfl
  | succ levels =>
      rw [content, outcome_bind, hglimpse]
      cases body.text? <;> rfl

/-! ## Verifications -/

/-- The mode, if it has been met, and the members beside it, the last one first. -/
abbrev Met := Option Mode × List (String × Value)

/-- Reads on behind the name of a member. -/
def step (levels : Nat) (name : String) (met : Met) : Reader Met := do
  if name = "mode" then
    if met.1.isSome then stopLoose (.repeatedMember name)
    else
      colon
      return (some (← Mode.read), met.2)
  else
    colon
    return (met.1, (name, ← content levels) :: met.2)

/-- What there is when all members have been met. -/
def gathered : Met → Option (Mode × Value)
  | (some mode, others) => some (mode, .table others.reverse)
  | (none, _) => none

/-- The members of a verification are gathered one by one. -/
theorem outcome_readMembers (levels : Nat) (s : List UInt8) :
    outcome (readMembers levels) s =
      (outcome (members (step levels) (none, [])) s).bind fun x =>
        (gathered x.1).map (·, x.2) := by
  unfold readMembers
  rw [outcome_bind]
  refine congrArg _ (funext fun x => ?_)
  obtain ⟨⟨mode, others⟩, rest⟩ := x
  cases mode <;> rfl

/-- One member is taken up: the mode once, and any number of others. -/
def take (name : String) (tree : Tree) (met : Met) : Option Met :=
  if name = "mode" then
    if met.1.isSome then none else (modeSense tree).map fun mode => (some mode, met.2)
  else (textSense tree).map fun s => (met.1, (name, .text s) :: met.2)

/-- One member is read as it is taken up. -/
theorem steps_text (levels : Nat) (name body : Body) :
    Steps (step levels) take (name, .text body) := by
  intro name _ met
  unfold step take
  by_cases hname : name = "mode"
  · rw [if_pos hname, if_pos hname]
    -- A second mode is refused before it is read.
    by_cases hmet : met.1.isSome = true
    · rw [if_pos hmet, if_pos hmet]
      exact fun _ _ _ _ _ _ _ _ => rfl
    · rw [if_neg hmet, if_neg hmet]
      exact ((readsAs_mode body).map fun mode => (some mode, met.2)).behindName
  · rw [if_neg hname, if_neg hname]
    have h := ((readsAs_content levels body).map fun v => (met.1, (name, v) :: met.2)).behindName
    rw [Option.map_map] at h
    exact h

/-- The verification that a tree stands for, if its members are texts. -/
def sense : Tree → Option Verification
  | .object ms =>
    (ms.foldlM (takeNamed take) (none, [])).bind fun met =>
      (gathered met).bind fun x => (ofMode x.1 x.2).toOption
  | _ => none

/-- The members of a verification. -/
def entries : Verification → List Entry
  | .disabled => [⟨"mode", .text (Body.of Mode.disabled.name), writeText Mode.disabled.name⟩]
  | .caBundle path =>
    [⟨"mode", .text (Body.of Mode.caBundle.name), writeText Mode.caBundle.name⟩,
      ⟨"path", .text (Body.of path), writeText path⟩]

/-- All members of a verification are texts. -/
theorem entries_text (v : Verification) :
    ∀ e ∈ v.entries, ∃ s, e.tree = .text (Body.of s) ∧ e.chars = writeText s := by
  cases v with
  | disabled =>
      intro e he
      obtain rfl := List.mem_singleton.mp he
      exact ⟨_, rfl, rfl⟩
  | caBundle path =>
      intro e he
      rcases List.mem_cons.mp he with rfl | he
      · exact ⟨_, rfl, rfl⟩
      · obtain rfl := List.mem_singleton.mp he
        exact ⟨_, rfl, rfl⟩

/-- Verifications, as far as their members are texts. -/
def meaning : Meaning shape where
  regular tree := ∃ ms, tree = .object ms ∧ ∀ m ∈ ms, ∃ body, m.2 = .text body
  sense := sense
  height := 1
  reads := by
    rintro levels hlevels _ ⟨ms, rfl, htexts⟩
    obtain ⟨levels, rfl⟩ := Nat.exists_eq_add_one_of_ne_zero (Nat.ne_zero_of_lt hlevels)
    refine readsAs_peekValue fun b rest t hopens hspells _ => ?_
    obtain rfl := hopens
    obtain ⟨inner, rfl, hmembers⟩ := outcome_members_inner hspells
    have hsteps : ∀ m ∈ ms, Steps (step levels) take m := by
      rintro ⟨name, tree⟩ hm
      obtain ⟨body, rfl⟩ := htexts _ hm
      exact steps_text levels name body
    have hinside : outcome (readMembers levels) (inner ++ 0x7D :: t) =
        ((ms.foldlM (takeNamed take) (none, [])).bind gathered).map (·, 0x7D :: t) := by
      rw [outcome_readMembers, hmembers (none, []) t hsteps]
      cases ms.foldlM (takeNamed take) (none, []) <;> rfl
    rw [List.append_assoc]
    dsimp only
    rw [if_neg (by decide), if_pos rfl, outcome_bind]
    refine (congrArg (Option.bind · _) (outcome_bracketed .object hinside)).trans ?_
    rw [sense]
    cases ms.foldlM (takeNamed take) (none, []) with
    | none => rfl
    | some met =>
        rw [Option.bind_some, Option.bind_some]
        cases gathered met with
        | none => rfl
        | some x =>
            obtain ⟨mode, others⟩ := x
            rw [Option.map_some, Option.bind_some, Option.bind_some]
            dsimp only
            cases ofMode mode others <;> rfl
  tree v := .object ((v.entries.map Entry.member).map Member.pair)
  spells v := by
    have h := spells_object_entries v.entries fun e he => by
      obtain ⟨s, htree, hchars⟩ := v.entries_text e he
      rw [htree, hchars]
      exact spells_writeText s
    cases v <;> exact h
  regular_tree v := by
    refine ⟨_, rfl, List.forall_mem_map.mpr (List.forall_mem_map.mpr fun e he => ?_)⟩
    obtain ⟨s, htree, -⟩ := v.entries_text e he
    exact ⟨Body.of s, htree⟩
  sense_tree v := by
    rw [sense, foldlM_takeNamed, named?_entries, Option.bind_some]
    cases v with
    | disabled =>
        have hmode : take "mode" (.text (Body.of Mode.disabled.name)) (none, []) =
            some (some .disabled, []) := by
          rw [take, if_pos rfl, if_neg (by simp), modeSense_of]
          rfl
        rw [entries, List.map_singleton, List.foldlM_cons, hmode]
        rfl
    | caBundle path =>
        have hmode : take "mode" (.text (Body.of Mode.caBundle.name)) (none, []) =
            some (some .caBundle, []) := by
          rw [take, if_pos rfl, if_neg (by simp), modeSense_of]
          rfl
        have hpath : take "path" (.text (Body.of path)) (some .caBundle, []) =
            some (some .caBundle, [("path", .text path)]) := by
          rw [take, if_neg (by decide), textSense, text?_of]
          rfl
        have hfold : (entries (.caBundle path)).map (fun e => (e.name, e.tree)) =
            [("mode", .text (Body.of Mode.caBundle.name)), ("path", .text (Body.of path))] := rfl
        simp only [hfold, List.foldlM_cons, List.foldlM_nil, hmode, hpath, Option.bind_eq_bind,
          Option.bind_some]
        rfl

end Verification

/-! ## Settings -/

/-- The switches of what to show. -/
def Debugging.meaning : Meaning Debugging.shape :=
  .map (.record _ <| .defaulted .flag <| .defaulted .flag .nil) _ _ fun _ => rfl

/-- The connection to an endpoint. -/
def Settings.meaning : Meaning Settings.shape :=
  .map (.record _ <| .required .text <| .required .text <| .required (.textAs _) <|
    .required (.textAs _) <| .defaulted Verification.meaning <|
    .defaulted Debugging.meaning .nil) _ _ fun _ => rfl

end ProfileAdmin.Config
