import ProfileAdmin.Schema.Codec
import ProfileAdmin.Proofs.Json.Brackets
import ProfileAdmin.Proofs.Json.Writing

/-!
# Proofs.Schema.Meaning — what shapes make of trees

1. **Meanings**: the value that a tree stands for, and the tree that is written for a value.
   A meaning comes with the laws that tie both to reading and writing.
2. **Whole texts** stand for what their tree stands for, and what was written is read back.
3. **Basic shapes**: texts, flags, lists, values that may be null.
-/

namespace ProfileAdmin.Schema

open Json
open Text.Utf8 (encode)

variable {α β : Type} {s : Shape α} {tree : Tree}

/-! ## Meanings -/

/-- What a shape makes of trees, and which it writes. -/
structure Meaning (s : Shape α) where
  /-- The trees that are spoken of. Where members are expected, no list stands. -/
  regular : Tree → Prop
  /-- The value that a tree stands for. -/
  sense : Tree → Option α
  /-- How deep the brackets are nested whose inside matters. -/
  height : Nat
  reads : ∀ {levels : Nat}, height ≤ levels → ∀ {tree : Tree}, regular tree →
    ReadsAs (s.read levels) tree (sense tree)
  /-- The tree that is written for a value. -/
  tree : α → Tree
  spells : ∀ a, Spells (tree a) (encode (s.write a))
  regular_tree : ∀ a, regular (tree a)
  sense_tree : ∀ a, sense (tree a) = some a

/-! ## Whole texts -/

/-- Nothing but blanks may stand behind the value. -/
theorem outcome_atEnd {blanks : List UInt8} (h : Blanks blanks) :
    outcome atEnd blanks = some ((), []) := by
  have hdrop : blanks.dropWhile isBlankByte = [] := by
    have h := dropWhile_blanks h []
    rwa [List.append_nil] at h
  rw [outcome, atEnd, hdrop]
  rfl

theorem toOption_decode (s : Shape α) (bytes : List UInt8) :
    (s.decode bytes).toOption =
      (outcome (do let a ← s.read deepest; atEnd; pure a : Reader α) bytes).map Prod.fst := by
  unfold Shape.decode outcome
  cases (do let a ← s.read deepest; atEnd; pure a : Reader α) bytes <;> rfl

/-- A text stands for what its tree stands for. -/
theorem Meaning.decode (m : Meaning s) (hheight : m.height ≤ deepest) {bytes : List UInt8}
    (hdocument : IsDocument tree bytes) (hregular : m.regular tree) :
    (s.decode bytes).toOption = m.sense tree := by
  obtain ⟨x, rfl, rfl, hclear, hspells⟩ := hdocument
  -- The value is read up to the blanks behind it, and then the end is looked for.
  have hread : outcome (s.read deepest) x.written = (m.sense x.tree).map (·, x.behind) := by
    have hslot := (m.reads hheight hregular).slot hclear hspells ends_nil
    simpa using hslot
  have hwhole : outcome (do let a ← s.read deepest; atEnd; pure a : Reader α) x.written =
      (m.sense x.tree).map (·, []) := by
    rw [outcome_bind, hread]
    cases m.sense x.tree with
    | none => rfl
    | some a =>
        rw [Option.map_some, Option.bind_some, outcome_bind, outcome_atEnd hclear.behind]
        rfl
  rw [toOption_decode, hwhole, Option.map_map]
  exact Option.map_id'

/-- What is written is read back. -/
def Shape.ReadsBack (s : Shape α) : Prop :=
  ∀ a, s.decode (s.encode a) = .ok a

/-- A shape whose values mean what they are written as reads back what it writes. -/
theorem Meaning.readsBack (m : Meaning s) (hheight : m.height ≤ deepest) : s.ReadsBack := by
  intro a
  have hdocument : IsDocument (m.tree a) (s.encode a) :=
    ⟨.tight (m.tree a) (encode (s.write a)), rfl, Slot.written_tight _ _, Slot.clear_tight _ _,
      m.spells a⟩
  -- What is written is a text without blanks, and stands for the value it was written for.
  have h := m.decode hheight hdocument (m.regular_tree a)
  rw [m.sense_tree a] at h
  cases hrun : s.decode (s.encode a) with
  | ok b =>
      rw [hrun] at h
      cases h
      rfl
  | error fault =>
      rw [hrun] at h
      cases h

/-! ## Basic shapes -/

/-- A body that is read as a text. -/
theorem outcome_quoted {rest t : List UInt8} {body : Body}
    (h : Spells (.text body) (0x22 :: rest)) :
    outcome Json.text (rest ++ t) = body.text?.map (·, t) := by
  cases h
  rw [List.append_assoc]
  exact outcome_text body t

/-- The text that a tree stands for. -/
def textSense : Tree → Option String
  | .text body => body.text?
  | _ => none

/-- Texts that are announced as `expected` where they are missed. -/
def Meaning.textAs (expected : String) : Meaning (Schema.textAs expected) where
  regular _ := True
  sense := textSense
  height := 0
  reads := by
    intro levels _ tree _
    refine readsAs_peekValue fun b rest t hopens hspells _ => ?_
    cases tree with
    | text body =>
        obtain rfl := hopens
        rw [if_pos rfl, outcome_bind, outcome_advance]
        exact outcome_quoted hspells
    | null | flag v | number | list items | object members =>
        rw [if_neg (hopens.ne (by simp [Tree.kind, kindOf])), outcome_unexpected]
        rfl
  tree a := .text (Body.of a)
  spells := spells_writeText
  regular_tree _ := trivial
  sense_tree := text?_of

/-- Texts. -/
def Meaning.text : Meaning Schema.text :=
  .textAs _

/-- The truth value that a tree stands for. -/
def flagSense : Tree → Option Bool
  | .flag b => some b
  | _ => none

/-- A truth value is written as a spelling of it. -/
theorem spells_writeFlag (b : Bool) : Spells (.flag b) (encode (writeFlag b)) := by
  cases b with
  | true => exact .true
  | false => exact .false

/-- Truth values. -/
def Meaning.flag : Meaning Schema.flag where
  regular _ := True
  sense := flagSense
  height := 0
  reads := by
    intro levels _ tree _
    refine readsAs_peekValue fun b rest t hopens hspells _ => ?_
    cases tree with
    | flag v =>
        cases v with
        | true =>
            obtain rfl := hopens
            cases hspells
            rw [if_pos rfl, outcome_bind, outcome_advance, Option.bind_some, outcome_bind,
              outcome_word]
            rfl
        | false =>
            obtain rfl := hopens
            cases hspells
            rw [if_neg (by decide), if_pos rfl, outcome_bind, outcome_advance, Option.bind_some,
              outcome_bind, outcome_word]
            rfl
    | null | text body | number | list items | object members =>
        rw [if_neg (hopens.ne (by simp [Tree.kind, kindOf])),
          if_neg (hopens.ne (by simp [Tree.kind, kindOf])), outcome_unexpected]
        rfl
  tree := .flag
  spells := spells_writeFlag
  regular_tree _ := trivial
  sense_tree _ := rfl

/-- The values that the items of a tree stand for. -/
def listSense (sense : Tree → Option α) : Tree → Option (List α)
  | .list items => items.mapM sense
  | _ => none

/-- The trees of the items stand for the items. -/
theorem mapM_tree (m : Meaning s) (items : List α) :
    (items.map m.tree).mapM m.sense = some items := by
  induction items with
  | nil => rfl
  | cons a items ih =>
      rw [List.map_cons, List.mapM_cons, m.sense_tree, ih]
      rfl

/-- Lists of values of one meaning. -/
def Meaning.list (m : Meaning s) : Meaning (Schema.list s) where
  regular tree := ∀ items, tree = .list items → ∀ item ∈ items, m.regular item
  sense := listSense m.sense
  height := m.height + 1
  reads := by
    intro levels hlevels tree hregular
    obtain ⟨levels, rfl⟩ := Nat.exists_eq_add_one_of_ne_zero (Nat.ne_zero_of_lt hlevels)
    refine readsAs_peekValue fun b rest t hopens hspells _ => ?_
    cases tree with
    | list items =>
        obtain rfl := hopens
        have hitems : ∀ item ∈ items, ReadsAs (s.read levels) item (m.sense item) :=
          fun item hitem =>
            m.reads (Nat.le_of_succ_le_succ hlevels) (hregular items rfl item hitem)
        rw [if_pos rfl]
        exact outcome_bracketed_elements s.read hitems hspells
    | null | flag v | number | text body | object members =>
        rw [if_neg (hopens.ne (by simp [Tree.kind, kindOf])), outcome_unexpected]
        rfl
  tree items := .list (items.map m.tree)
  spells items := spells_writeList items m.tree s.write fun a _ => m.spells a
  regular_tree items := by
    intro trees htrees
    obtain rfl := Tree.list.inj htrees
    exact List.forall_mem_map.mpr fun a _ => m.regular_tree a
  sense_tree := mapM_tree m

/-- Null stands for no value, and any other tree for what it stands for by itself. -/
def optionalSense (sense : Tree → Option α) : Tree → Option (Option α)
  | .null => some none
  | tree => (sense tree).map some

theorem optionalSense_of_ne {sense : Tree → Option α} (h : tree ≠ .null) :
    optionalSense sense tree = (sense tree).map some := by
  cases tree with
  | null => exact absurd rfl h
  | flag v | number | text body | list items | object members => rfl

/-- Values that may be null, where none of them is written so. -/
def Meaning.optional (m : Meaning s) (hnull : ∀ a, m.tree a ≠ .null) :
    Meaning (Schema.optional s) where
  regular tree := tree ≠ .null → m.regular tree
  sense := optionalSense m.sense
  height := m.height
  reads := by
    intro levels hlevels tree hregular
    -- The first byte tells null from all other values, and is still there for these.
    refine readsAs_peek fun b rest t hopens hspells ht => ?_
    cases tree with
    | null =>
        obtain rfl := hopens
        cases hspells
        rw [if_pos rfl, outcome_bind, outcome_advance, Option.bind_some, outcome_bind, outcome_word]
        rfl
    | flag v | number | text body | list items | object members =>
        have hne : ¬ some b = some 0x6E := fun h =>
          hopens.ne (c := 0x6E) (by simp [Tree.kind, kindOf]) (Option.some.inj h)
        rw [if_neg hne, outcome_map]
        have hread := m.reads hlevels (hregular (by simp)) _ [] t hspells blanks_nil ht
        rw [List.nil_append, List.cons_append] at hread
        rw [hread, Option.map_map, optionalSense_of_ne (by simp), Option.map_map]
        rfl
  tree
    | none => .null
    | some a => m.tree a
  spells
    | none => .null
    | some a => m.spells a
  regular_tree
    | none => fun h => absurd rfl h
    | some a => fun _ => m.regular_tree a
  sense_tree
    | none => rfl
    | some a => by
        rw [optionalSense_of_ne (hnull a), m.sense_tree]
        rfl

/-- The same meaning for a type in correspondence with another. -/
def Meaning.map (m : Meaning s) (into : α → β) (back : β → α) (h : ∀ b, into (back b) = b) :
    Meaning (s.map into back) where
  regular := m.regular
  sense tree := (m.sense tree).map into
  height := m.height
  reads hlevels _ hregular := (m.reads hlevels hregular).map into
  tree b := m.tree (back b)
  spells b := m.spells (back b)
  regular_tree b := m.regular_tree (back b)
  sense_tree b := by rw [m.sense_tree, Option.map_some, h]

end ProfileAdmin.Schema
