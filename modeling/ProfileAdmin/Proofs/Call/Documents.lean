import Mathlib.Data.List.Forall2
import ProfileAdmin.Proofs.Call.Meaning
import ProfileAdmin.Proofs.Schema.Alike

/-!
# Proofs.Call.Documents — the schema of responses

1. **Values**: when a tree is a text, a truth value, a list, an object.
2. **Members**: when an object gives a value to a name.
3. **The schema** of the responses and of the records in them.
4. **Where lists may stand**: the reader would take a list for a record as well, value by value.
5. **Senses are schemas**: each meaning makes of a tree what its schema says.
6. **Every document**: a response is read exactly if the document is one for it, whatever the
   order of the members.
-/

namespace ProfileAdmin.Call

open Json (Tree Body IsDocument Spells)
open Schema
open Text.Utf8 (encode)

variable {α : Type} {Right : Tree → α → Prop} {tree : Tree}

/-! ## Values -/

/-- The tree is a text in quotes, and denotes `s`. -/
def IsText (tree : Tree) (s : String) : Prop :=
  ∃ body, tree = .text body ∧ body.denoted? = some (Text.Utf8.bytes s)

/-- The tree is a truth value. -/
def IsFlag (tree : Tree) (b : Bool) : Prop :=
  tree = .flag b

/-- The tree is a list whose items are those of `as`, in the same order. -/
def IsList (Right : Tree → α → Prop) (tree : Tree) (as : List α) : Prop :=
  ∃ items, tree = .list items ∧ List.Forall₂ Right items as

/-- The tree is null, or a value. -/
def IsNullOr (Right : Tree → α → Prop) (tree : Tree) : Option α → Prop
  | none => tree = .null
  | some a => Right tree a

/-- The tree is an object, the names of its members denote texts, and its members hold. -/
def IsObject (tree : Tree) (Holds : List (String × Tree) → Prop) : Prop :=
  ∃ ms named, tree = .object ms ∧ named? ms = some named ∧ Holds named

/-! ## Members -/

/-- A name is there once, and its value is the right one for `a`. -/
def Given (named : List (String × Tree)) (name : String) (Right : Tree → α → Prop) (a : α) : Prop :=
  ∃ tree, valuesOf name named = [tree] ∧ Right tree a

/-- A name is there once, or it is not there, and `a` is the fallback. -/
def GivenOr (fallback : α) (named : List (String × Tree)) (name : String)
    (Right : Tree → α → Prop) (a : α) : Prop :=
  Given named name Right a ∨ valuesOf name named = [] ∧ a = fallback

/-! ## The schema -/

/-- Why a call went as it did. -/
def IsReason (tree : Tree) (d : StatusCodeData) : Prop :=
  IsObject tree fun named =>
    GivenOr "" named "subjectCode" IsText d.subjectCode ∧
      GivenOr "" named "reasonCode" IsText d.reasonCode ∧
      GivenOr "" named "subjectIdentifier" IsText d.subjectIdentifier ∧
      GivenOr "" named "message" IsText d.message

/-- The outcome that an endpoint declares. -/
def IsExecution (tree : Tree) (e : ExecutionStatus) : Prop :=
  IsObject tree fun named =>
    Given named "status" IsText e.status ∧
      GivenOr none named "statusCodeData" (IsNullOr IsReason) e.data

/-- The header of a response. -/
def IsHeader (tree : Tree) (h : ResponseHeader) : Prop :=
  IsObject tree fun named => Given named "functionExecutionStatus" IsExecution h.execution

/-- An entry of a status report. -/
def IsProfile (tree : Tree) (p : Profile.Status) : Prop :=
  IsObject tree fun named =>
    Given named "iccid" IsText p.iccid ∧
      GivenOr "" named "eid" IsText p.eid ∧
      Given named "state" IsText p.state ∧
      GivenOr "" named "acToken" IsText p.token ∧
      GivenOr false named "lockFlag" IsFlag p.locked ∧
      GivenOr "" named "status_last_update_timestamp" IsText p.updatedAt

/-- The members of a response of an operation. -/
def Operation.IsResponse : (op : Operation) → op.Response → List (String × Tree) → Prop
  | .getProfileStatus, r, named =>
    Given named "header" IsHeader (StatusResponse.header r) ∧
      GivenOr [] named "profileStatusList" (IsList IsProfile) (StatusResponse.profiles r) ∧
      GivenOr "" named "completionTimestamp" IsText (StatusResponse.completedAt r)
  | .recoverProfile, r, named => Given named "header" IsHeader (RecoverResponse.header r)
  | .cancelOrder, r, named => Given named "header" IsHeader (CancelResponse.header r)
  | .downloadOrder, r, named =>
    Given named "header" IsHeader (DownloadResponse.header r) ∧
      GivenOr "" named "iccid" IsText (DownloadResponse.iccid r)
  | .confirmOrder, r, named =>
    Given named "header" IsHeader (ConfirmResponse.header r) ∧
      GivenOr "" named "iccid" IsText (ConfirmResponse.iccid r) ∧
      GivenOr "" named "eid" IsText (ConfirmResponse.eid r) ∧
      GivenOr "" named "matchingId" IsText (ConfirmResponse.matchingId r) ∧
      GivenOr "" named "smdpAddress" IsText (ConfirmResponse.smdpAddress r)

/-! ## Where lists may stand -/

/-- The tree is no list. -/
def NoList (tree : Tree) : Prop :=
  ∀ items, tree ≠ .list items

/-- Whatever an object gives to a name satisfies `P`. -/
def Within (tree : Tree) (name : String) (P : Tree → Prop) : Prop :=
  ∀ ms, tree = .object ms → ∀ m ∈ ms, m.1.text? = some name → P m.2

/-- No list stands for a declared outcome or for its reasons. -/
def BareExecution (tree : Tree) : Prop :=
  NoList tree ∧ Within tree "statusCodeData" NoList

/-- No list stands for a header, or for a record in it. -/
def BareHeader (tree : Tree) : Prop :=
  NoList tree ∧ Within tree "functionExecutionStatus" BareExecution

/-- No list stands for an item of a list. -/
def BareItems (tree : Tree) : Prop :=
  ∀ items, tree = .list items → ∀ item ∈ items, NoList item

/-- No list stands for a record of a response. -/
def Operation.Bare (op : Operation) (tree : Tree) : Prop :=
  Within tree "header" BareHeader ∧
    (op = .getProfileStatus → Within tree "profileStatusList" BareItems)

theorem noList_object (ms : List (Body × Tree)) : NoList (.object ms) := by
  intro items h
  cases h

theorem NoList.alike {tree' : Tree} (h : NoList tree) (halike : Alike tree tree') :
    NoList tree' := by
  rintro items rfl
  have hkind := halike.kind_eq
  cases tree with
  | list items => exact h items rfl
  | null | flag b | number | text body | object members => cases hkind

/-- Members of alike trees are alike. -/
theorem Within.alike {tree' : Tree} {name : String} {P : Tree → Prop}
    (hP : ∀ {tree tree'}, P tree → Alike tree tree' → P tree') (h : Within tree name P)
    (halike : Alike tree tree') : Within tree' name P := by
  induction halike with
  | refl tree => exact h
  | trans _ _ ih ih' => exact ih' (ih h)
  | text _ | item before after _ _ =>
      intro _ heq
      cases heq
  | @member before after first first' value value' hname halike ih =>
      intro ms heq m hm hm'
      obtain rfl := Tree.object.inj heq
      -- The member in question stands before the exchanged one, is the exchanged one, or stands
      -- behind it.
      rcases List.mem_append.mp hm with hbefore | hrest
      · exact h _ rfl m (List.mem_append_left _ hbefore) hm'
      rcases List.mem_cons.mp hrest with rfl | hafter
      · have hvalue : P value :=
          h _ rfl (first, value) (List.mem_append_right _ List.mem_cons_self) (hname.trans hm')
        exact hP hvalue halike
      · exact h _ rfl m (List.mem_append_right _ (List.mem_cons_of_mem _ hafter)) hm'
  | order hperm =>
      intro ms heq m hm hm'
      obtain rfl := Tree.object.inj heq
      exact h _ rfl m (hperm.mem_iff.mpr hm) hm'

theorem BareExecution.alike {tree' : Tree} (h : BareExecution tree) (halike : Alike tree tree') :
    BareExecution tree' :=
  ⟨h.1.alike halike, h.2.alike NoList.alike halike⟩

theorem BareHeader.alike {tree' : Tree} (h : BareHeader tree) (halike : Alike tree tree') :
    BareHeader tree' :=
  ⟨h.1.alike halike, h.2.alike BareExecution.alike halike⟩

/-- An item may be exchanged for an alike one, which is no list either. -/
theorem BareItems.alike {tree' : Tree} (h : BareItems tree) (halike : Alike tree tree') :
    BareItems tree' := by
  induction halike with
  | refl tree => exact h
  | trans _ _ ih ih' => exact ih' (ih h)
  | text _ | member before after hname _ _ | order _ =>
      intro _ heq
      cases heq
  | item before after halike ih =>
      intro items heq item hitem
      obtain rfl := Tree.list.inj heq
      rcases List.mem_append.mp hitem with hbefore | hrest
      · exact h _ rfl item (List.mem_append_left _ hbefore)
      rcases List.mem_cons.mp hrest with rfl | hafter
      · exact (h _ rfl _ (List.mem_append_right _ List.mem_cons_self)).alike halike
      · exact h _ rfl item (List.mem_append_right _ (List.mem_cons_of_mem _ hafter))

/-- Whether lists stand where they might be taken for records is the same in alike trees. -/
theorem Operation.Bare.alike {op : Operation} {tree' : Tree} (h : op.Bare tree)
    (halike : Alike tree tree') : op.Bare tree' :=
  ⟨h.1.alike BareHeader.alike halike, fun hop => (h.2 hop).alike BareItems.alike halike⟩

/-! ## Senses are schemas -/

/-- A sense makes of trees what a schema says. -/
def Agrees (sense : Tree → Option α) (Right : Tree → α → Prop) : Prop :=
  ∀ tree a, sense tree = some a ↔ Right tree a

/-- A tree is read as a text exactly if it is one in quotes. -/
theorem agrees_text : Agrees textSense IsText := by
  intro tree s
  cases tree with
  | text body =>
      rw [textSense, Body.text?, Option.bind_eq_some_iff]
      constructor
      · rintro ⟨bytes, hbytes, htext⟩
        obtain rfl := Text.Utf8.text?_eq_some_iff.mp htext
        exact ⟨body, rfl, hbytes⟩
      · rintro ⟨_, heq, hbytes⟩
        obtain rfl := Tree.text.inj heq
        exact ⟨_, hbytes, Text.Utf8.text?_eq_some_iff.mpr rfl⟩
  | null | flag b | number | list items | object members =>
      constructor
      · intro h
        cases h
      · rintro ⟨_, h, -⟩
        cases h

theorem agrees_flag : Agrees flagSense IsFlag := by
  intro tree b
  cases tree with
  | flag v => simp [flagSense, IsFlag]
  | null | number | text body | list items | object members => simp [flagSense, IsFlag]

variable {sense : Tree → Option α}

/-- Items are read one by one, each as its own value. -/
theorem Agrees.mapM_eq_some_iff (h : Agrees sense Right) {items : List Tree} {as : List α} :
    items.mapM sense = some as ↔ List.Forall₂ Right items as := by
  induction items generalizing as with
  | nil =>
      rw [List.forall₂_nil_left_iff]
      exact Option.some_inj.trans eq_comm
  | cons item items ih =>
      rw [List.forall₂_cons_left_iff, List.mapM_cons]
      constructor
      · intro hrun
        obtain ⟨a, ha, hrest⟩ := Option.bind_eq_some_iff.mp hrun
        obtain ⟨others, hothers, heq⟩ := Option.bind_eq_some_iff.mp hrest
        exact ⟨a, others, (h item a).mp ha, ih.mp hothers, (Option.some.inj heq).symm⟩
      · rintro ⟨a, others, hright, hothers, rfl⟩
        rw [(h item a).mpr hright, ih.mpr hothers]
        rfl

/-- If the items are read as a schema says, then the list is. -/
theorem Agrees.list (h : Agrees sense Right) : Agrees (listSense sense) (IsList Right) := by
  intro tree as
  cases tree with
  | list items =>
      rw [listSense, h.mapM_eq_some_iff]
      constructor
      · exact fun h => ⟨items, rfl, h⟩
      · rintro ⟨_, heq, h⟩
        obtain rfl := Tree.list.inj heq
        exact h
  | null | flag b | number | text body | object members =>
      constructor
      · intro h
        cases h
      · rintro ⟨_, h, -⟩
        cases h

/-- Null is read as no value, and everything else as by itself. -/
theorem Agrees.optional (h : Agrees sense Right) (hnull : ∀ a, ¬ Right .null a) :
    Agrees (optionalSense sense) (IsNullOr Right) := by
  intro tree a
  by_cases hne : tree = .null
  · subst hne
    cases a with
    | none => simp [optionalSense, IsNullOr]
    | some a => simp [optionalSense, IsNullOr, hnull]
  · rw [optionalSense_of_ne hne]
    cases a with
    | none => simp [IsNullOr, hne]
    | some a => simp [IsNullOr, h tree a]

section

variable {types : List Type} {fields : Fields types}

/-- A record is an object whose members make up the row. -/
theorem recordSense_eq_some_iff {ms : Meanings fields} {row : Row types} :
    recordSense ms tree = some row ↔ IsObject tree fun named => ms.row named = some row := by
  cases tree with
  | object members =>
      rw [recordSense, Option.bind_eq_some_iff]
      constructor
      · rintro ⟨named, hnamed, hrow⟩
        exact ⟨members, named, rfl, hnamed, hrow⟩
      · rintro ⟨_, named, heq, hnamed, hrow⟩
        obtain rfl := Tree.object.inj heq
        exact ⟨named, hnamed, hrow⟩
  | null | flag b | number | text body | list items =>
      constructor
      · intro h
        cases h
      · rintro ⟨_, _, h, -⟩
        cases h

variable {field : Schema.Field α} {m : Meaning field.shape}
  {omits : ∀ a, field.omitted a = true → field.absent = some a} {fresh : field.name ∉ fields.names}
  {others : Meanings fields} {named : List (String × Tree)} {a : α} {row : Row types}

/-- A row is made up of its first value and of the others. -/
theorem row_cons_iff :
    (Meanings.cons m omits fresh others).row named = some (Meanings.front a row) ↔
      Meanings.single field.absent m.sense (valuesOf field.name named) = some a ∧
        others.row named = some row := by
  rw [Meanings.row, Option.bind_eq_some_iff]
  constructor
  · rintro ⟨b, hb, hrow⟩
    obtain ⟨row', hrow', heq⟩ := Option.map_eq_some_iff.mp hrow
    cases heq
    exact ⟨hb, hrow'⟩
  · rintro ⟨ha, hrow⟩
    exact ⟨a, ha, congrArg (Option.map _) hrow⟩

/-- Without a fallback, a member has to be there once. -/
theorem single_none_iff {name : String} (h : Agrees sense Right) :
    Meanings.single none sense (valuesOf name named) = some a ↔ Given named name Right a := by
  unfold Given
  cases valuesOf name named with
  | nil => simp [Meanings.single]
  | cons tree trees =>
      cases trees with
      | nil => simpa [Meanings.single] using h tree a
      | cons next trees => simp [Meanings.single]

/-- With a fallback, it may be absent. -/
theorem single_some_iff {name : String} {fallback : α} (h : Agrees sense Right) :
    Meanings.single (some fallback) sense (valuesOf name named) = some a ↔
      GivenOr fallback named name Right a := by
  rw [GivenOr, ← single_none_iff h]
  cases valuesOf name named with
  | nil => simp [Meanings.single, eq_comm]
  | cons tree trees => cases trees <;> simp [Meanings.single]

variable {name : String} {s : Shape α} {n : Meaning s} {fresh : name ∉ fields.names} {P : Prop}

theorem row_nil_iff : Meanings.nil.row named = some () ↔ True :=
  iff_true_intro rfl

/-- One law for each kind of field: a member that has to be there, one with a fallback, a text that
may be left out, and a value that may be null or left out. -/
theorem row_required_iff (h : Agrees n.sense Right) (hothers : others.row named = some row ↔ P) :
    (.required n others fresh : Meanings (.cons (required name s) fields)).row named =
        some (Meanings.front a row) ↔
      Given named name Right a ∧ P :=
  row_cons_iff.trans (and_congr (single_none_iff h) hothers)

theorem row_defaulted_iff {fallback : α} (h : Agrees n.sense Right)
    (hothers : others.row named = some row ↔ P) :
    (.defaulted n others fresh : Meanings (.cons (defaulted name s fallback) fields)).row named =
        some (Meanings.front a row) ↔
      GivenOr fallback named name Right a ∧ P :=
  row_cons_iff.trans (and_congr (single_some_iff h) hothers)

theorem row_nonEmptyText_iff {text : String} (hothers : others.row named = some row ↔ P) :
    (.nonEmptyText others fresh : Meanings (.cons (nonEmptyText name) fields)).row named =
        some (Meanings.front text row) ↔
      GivenOr "" named name IsText text ∧ P :=
  row_cons_iff.trans (and_congr (single_some_iff agrees_text) hothers)

theorem row_possible_iff {b : Option α} {hnull : ∀ a, n.tree a ≠ .null} (h : Agrees n.sense Right)
    (hright : ∀ a, ¬ Right .null a) (hothers : others.row named = some row ↔ P) :
    (.possible n others hnull fresh : Meanings (.cons (possible name s) fields)).row named =
        some (Meanings.front b row) ↔
      GivenOr none named name (IsNullOr Right) b ∧ P :=
  row_cons_iff.trans (and_congr (single_some_iff (h.optional hright)) hothers)

/-- A record agrees with a schema if its rows do, and every value is one of a row. -/
theorem Agrees.record {ms : Meanings fields} {into : Row types → α}
    {Holds : α → List (String × Tree) → Prop} (hinto : ∀ a, ∃ row, into row = a)
    (h : ∀ row named, ms.row named = some row ↔ Holds (into row) named) :
    Agrees (fun tree => (recordSense ms tree).map into) fun tree a => IsObject tree (Holds a) := by
  intro tree a
  rw [Option.map_eq_some_iff]
  constructor
  · rintro ⟨row, hrow, rfl⟩
    obtain ⟨members, named, rfl, hnamed, hrow⟩ := recordSense_eq_some_iff.mp hrow
    exact ⟨members, named, rfl, hnamed, (h row named).mp hrow⟩
  · rintro ⟨members, named, rfl, hnamed, hholds⟩
    obtain ⟨row, rfl⟩ := hinto a
    exact ⟨row, recordSense_eq_some_iff.mpr
      ⟨members, named, rfl, hnamed, (h row named).mpr hholds⟩, rfl⟩

end

theorem agrees_reason : Agrees StatusCodeData.meaning.sense IsReason := by
  refine Agrees.record (fun d => ⟨(_, _, _, _, ()), rfl⟩) fun row named => ?_
  obtain ⟨subject, reason, identifier, message, ⟨⟩⟩ := row
  refine (row_defaulted_iff agrees_text <| row_defaulted_iff agrees_text <|
    row_defaulted_iff agrees_text <| row_defaulted_iff agrees_text row_nil_iff).trans ?_
  rw [and_true]

theorem agrees_execution : Agrees ExecutionStatus.meaning.sense IsExecution := by
  refine Agrees.record (fun e => ⟨(_, _, ()), rfl⟩) fun row named => ?_
  obtain ⟨status, data, ⟨⟩⟩ := row
  refine (row_required_iff agrees_text <|
    row_possible_iff agrees_reason (fun d => ?_) row_nil_iff).trans ?_
  · rintro ⟨_, _, h, -⟩
    cases h
  · rw [and_true]

theorem agrees_header : Agrees ResponseHeader.meaning.sense IsHeader := by
  refine Agrees.record (fun h => ⟨(_, ()), rfl⟩) fun row named => ?_
  obtain ⟨execution, ⟨⟩⟩ := row
  refine (row_required_iff agrees_execution row_nil_iff).trans ?_
  rw [and_true]

theorem agrees_profile : Agrees Profile.Status.meaning.sense IsProfile := by
  refine Agrees.record (fun p => ⟨(_, _, _, _, _, _, ()), rfl⟩) fun row named => ?_
  obtain ⟨iccid, eid, state, token, locked, updatedAt, ⟨⟩⟩ := row
  refine (row_required_iff agrees_text <| row_defaulted_iff agrees_text <|
    row_required_iff agrees_text <| row_defaulted_iff agrees_text <|
    row_defaulted_iff agrees_flag <| row_defaulted_iff agrees_text row_nil_iff).trans ?_
  rw [and_true]

/-- What is read as a response has the members that the schema of the operation says, in any order.
-/
theorem agrees_response (op : Operation) :
    Agrees op.responseMeaning.sense fun tree r => IsObject tree (op.IsResponse r) := by
  -- Field by field, in the order of the record; the row ends where the fields do.
  cases op with
  | getProfileStatus =>
      refine Agrees.record (fun r => ⟨(_, _, _, ()), rfl⟩) fun row named => ?_
      obtain ⟨header, profiles, completedAt, ⟨⟩⟩ := row
      refine (row_required_iff agrees_header <| row_defaulted_iff agrees_profile.list <|
        row_defaulted_iff agrees_text row_nil_iff).trans ?_
      rw [and_true]
      rfl
  | recoverProfile =>
      refine Agrees.record (fun r => ⟨(_, ()), rfl⟩) fun row named => ?_
      obtain ⟨header, ⟨⟩⟩ := row
      refine (row_required_iff agrees_header row_nil_iff).trans ?_
      rw [and_true]
      rfl
  | cancelOrder =>
      refine Agrees.record (fun r => ⟨(_, ()), rfl⟩) fun row named => ?_
      obtain ⟨header, ⟨⟩⟩ := row
      refine (row_required_iff agrees_header row_nil_iff).trans ?_
      rw [and_true]
      rfl
  | downloadOrder =>
      refine Agrees.record (fun r => ⟨(_, _, ()), rfl⟩) fun row named => ?_
      obtain ⟨header, iccid, ⟨⟩⟩ := row
      refine (row_required_iff agrees_header <|
        row_defaulted_iff agrees_text row_nil_iff).trans ?_
      rw [and_true]
      rfl
  | confirmOrder =>
      refine Agrees.record (fun r => ⟨(_, _, _, _, _, ()), rfl⟩) fun row named => ?_
      obtain ⟨header, iccid, eid, matchingId, smdpAddress, ⟨⟩⟩ := row
      refine (row_required_iff agrees_header <| row_defaulted_iff agrees_text <|
        row_nonEmptyText_iff <| row_nonEmptyText_iff <| row_nonEmptyText_iff row_nil_iff).trans ?_
      rw [and_true]
      rfl

/-! ## Every document -/

/-- Where no list stands for a record, the meaning of the record is spoken of. -/
theorem BareExecution.regular (h : BareExecution tree) : ExecutionStatus.meaning.regular tree := by
  refine And.intro h.1 fun ms hms m hm name hname => ?_
  refine ⟨fun _ => trivial, fun hdata _ => ⟨?_, fun _ _ _ _ _ _ => ?_⟩, trivial⟩
  · exact h.2 ms hms m hm (hname.trans (congrArg some hdata))
  · exact ⟨fun _ => trivial, fun _ => trivial, fun _ => trivial, fun _ => trivial, trivial⟩

theorem BareHeader.regular (h : BareHeader tree) : ResponseHeader.meaning.regular tree := by
  refine And.intro h.1 fun ms hms m hm name hname => ⟨fun hexecution => ?_, trivial⟩
  exact (h.2 ms hms m hm (hname.trans (congrArg some hexecution))).regular

theorem regular_profile (h : NoList tree) : Profile.Status.meaning.regular tree := by
  refine And.intro h fun _ _ _ _ _ _ => ?_
  exact ⟨fun _ => trivial, fun _ => trivial, fun _ => trivial, fun _ => trivial,
    fun _ => trivial, fun _ => trivial, trivial⟩

/-- The same for whole responses. -/
theorem Operation.Bare.regular {op : Operation} (h : op.Bare tree) (hnoList : NoList tree) :
    op.responseMeaning.regular tree := by
  -- The header is the one member that all responses have.
  have hheader : ∀ ms, tree = .object ms → ∀ m ∈ ms, ∀ name, m.1.text? = some name →
      name = "header" → ResponseHeader.meaning.regular m.2 :=
    fun ms hms m hm name hname heq => (h.1 ms hms m hm (hname.trans (congrArg some heq))).regular
  cases op with
  | getProfileStatus =>
      refine And.intro hnoList fun ms hms m hm name hname =>
        ⟨hheader ms hms m hm name hname, fun hprofiles items hitems item hitem => ?_,
          fun _ => trivial, trivial⟩
      have hitems := h.2 rfl ms hms m hm (hname.trans (congrArg some hprofiles)) items hitems
      exact regular_profile (hitems item hitem)
  | recoverProfile | cancelOrder =>
      exact And.intro hnoList fun ms hms m hm name hname =>
        ⟨hheader ms hms m hm name hname, trivial⟩
  | downloadOrder =>
      exact And.intro hnoList fun ms hms m hm name hname =>
        ⟨hheader ms hms m hm name hname, fun _ => trivial, trivial⟩
  | confirmOrder =>
      exact And.intro hnoList fun ms hms m hm name hname =>
        ⟨hheader ms hms m hm name hname, fun _ => trivial, fun _ => trivial, fun _ => trivial,
          fun _ => trivial, trivial⟩

theorem stable_reason : StatusCodeData.meaning.Stable := by
  refine .map (.record ?_) fun _ => rfl
  exact ⟨stable_text, stable_text, stable_text, stable_text, trivial⟩

theorem stable_execution : ExecutionStatus.meaning.Stable := by
  refine .map (.record ?_) fun _ => rfl
  exact ⟨stable_text, stable_reason.optional _, trivial⟩

theorem stable_header : ResponseHeader.meaning.Stable := by
  refine .map (.record ?_) fun _ => rfl
  exact ⟨stable_execution, trivial⟩

theorem stable_profile : Profile.Status.meaning.Stable := by
  refine .map (.record ?_) fun _ => rfl
  exact ⟨stable_text, stable_text, stable_text, stable_text, stable_flag, stable_text, trivial⟩

theorem stable_response (op : Operation) : op.responseMeaning.Stable := by
  cases op with
  | getProfileStatus =>
      refine .map (.record ?_) fun _ => rfl
      exact ⟨stable_header, stable_profile.list, stable_text, trivial⟩
  | recoverProfile | cancelOrder =>
      refine .map (.record ?_) fun _ => rfl
      exact ⟨stable_header, trivial⟩
  | downloadOrder =>
      refine .map (.record ?_) fun _ => rfl
      exact ⟨stable_header, stable_text, trivial⟩
  | confirmOrder =>
      refine .map (.record ?_) fun _ => rfl
      exact ⟨stable_header, stable_text, stable_text, stable_text, stable_text, trivial⟩

theorem Operation.toOption_decode {op : Operation} {ms : List (Body × Tree)} {bytes : List UInt8}
    (hdocument : IsDocument (.object ms) bytes) (hbare : op.Bare (.object ms)) :
    (op.responseShape.decode bytes).toOption = op.responseMeaning.sense (.object ms) :=
  op.responseMeaning.decode op.height_responseMeaning hdocument (hbare.regular (noList_object ms))

/-- A document is read exactly if its members are those of a response, and then as this one. Any
alike document is read in the same way. -/
theorem Operation.decode_document (op : Operation) {ms : List (Body × Tree)} {bytes : List UInt8}
    (hdocument : IsDocument (.object ms) bytes) (hbare : op.Bare (.object ms)) :
    (∀ r, op.responseShape.decode bytes = .ok r ↔
        ∃ named, named? ms = some named ∧ op.IsResponse r named) ∧
      ∀ tree' bytes', Alike (.object ms) tree' → IsDocument tree' bytes' →
        (op.responseShape.decode bytes').toOption = (op.responseShape.decode bytes).toOption := by
  constructor
  · intro r
    have hok : op.responseShape.decode bytes = .ok r ↔
        (op.responseShape.decode bytes).toOption = some r := by
      cases op.responseShape.decode bytes <;> simp [Except.toOption]
    rw [hok, toOption_decode hdocument hbare, agrees_response op (.object ms) r]
    constructor
    · rintro ⟨_, named, heq, hnamed, hholds⟩
      obtain rfl := Tree.object.inj heq
      exact ⟨named, hnamed, hholds⟩
    · rintro ⟨named, hnamed, hholds⟩
      exact ⟨ms, named, rfl, hnamed, hholds⟩
  · intro tree' bytes' halike hdocument'
    have hkind := halike.kind_eq
    have hbare' := hbare.alike halike
    cases tree' with
    | object ms' =>
        rw [toOption_decode hdocument hbare, toOption_decode hdocument' hbare']
        exact (stable_response op _ _ halike).symm
    | null | flag b | number | text body | list items => cases hkind

/-- The answer to a cancellation that declares a failure, with an unknown member in front. -/
def failedDocument : List (Body × Tree) :=
  [(.of "extra", .list []), (.of "header", .object [(.of "functionExecutionStatus",
    .object [(.of "statusCodeData", .null), (.of "status", .text (.of "Failed"))])])]

/-- Its text. -/
def failedText : List UInt8 :=
  Text.Utf8.bytes ("\x7b\"extra\":[],\"header\":\x7b\"functionExecutionStatus\":" ++
    "\x7b\"statusCodeData\":null,\"status\":\"Failed\"\x7d\x7d\x7d")

/-- The text is put together from the inside out. -/
theorem isDocument_failed : IsDocument (.object failedDocument) failedText := by
  have hdata : Spells .null (encode Json.writeNull) := .null
  have hstatus := Json.spells_writeText "Failed"
  have hexecution := spells_object_entries [⟨"statusCodeData", _, _⟩, ⟨"status", _, _⟩]
    (List.forall_mem_cons.mpr ⟨hdata, List.forall_mem_singleton.mpr hstatus⟩)
  have hheader := spells_object_entries [⟨"functionExecutionStatus", _, _⟩]
    (List.forall_mem_singleton.mpr hexecution)
  have hextra : Spells (.list []) (encode (Json.writeList [])) := .emptyList Json.blanks_nil
  have hwhole := spells_object_entries [⟨"extra", _, _⟩, ⟨"header", _, _⟩]
    (List.forall_mem_cons.mpr ⟨hextra, List.forall_mem_singleton.mpr hheader⟩)
  refine ⟨.tight _ _, rfl, (Json.Slot.written_tight _ _).trans ?_, Json.Slot.clear_tight _ _,
    hwhole⟩
  decide +kernel

/-- None of its records is given as a list; the list in it belongs to the unknown member. -/
theorem bare_failed : Operation.cancelOrder.Bare (.object failedDocument) := by
  have hdata : Within
      (.object [(.of "statusCodeData", .null), (.of "status", .text (.of "Failed"))])
      "statusCodeData" NoList := by
    intro ms h m hm hname
    obtain rfl := Tree.object.inj h
    rcases List.mem_cons.mp hm with rfl | hm
    · intro items h
      cases h
    · obtain rfl := List.mem_singleton.mp hm
      intro items h
      cases h
  refine ⟨fun ms h m hm hname => ?_, by simp⟩
  obtain rfl := Tree.object.inj h
  rcases List.mem_cons.mp hm with rfl | hm
  -- The unknown member is no header, so nothing is asked of it.
  · rw [Json.text?_of] at hname
    exact absurd hname (by decide)
  · obtain rfl := List.mem_singleton.mp hm
    refine ⟨noList_object _, fun ms h m hm hname => ?_⟩
    obtain rfl := Tree.object.inj h
    obtain rfl := List.mem_singleton.mp hm
    exact ⟨noList_object _, hdata⟩

/-- A failure that an endpoint declares is read as one, whatever unknown member stands before it. -/
theorem decode_document_failed :
    IsDocument (.object failedDocument) failedText ∧
      Operation.cancelOrder.Bare (.object failedDocument) ∧
      Operation.cancelOrder.responseShape.decode failedText =
        .ok (⟨⟨⟨"Failed", none⟩⟩⟩ : CancelResponse) := by
  refine ⟨isDocument_failed, bare_failed, ?_⟩
  refine ((Operation.decode_document .cancelOrder isDocument_failed bare_failed).1 _).mpr ?_
  refine ⟨_, named?_of [("extra", .list []), ("header", _)], _, rfl, _, _, rfl,
    named?_of [("functionExecutionStatus", _)], _, rfl, _, _, rfl,
    named?_of [("statusCodeData", .null), ("status", .text _)], ?_, ?_⟩
  · exact ⟨_, rfl, .of "Failed", rfl, Json.denoted?_of "Failed"⟩
  · exact Or.inl ⟨_, rfl, rfl⟩

end ProfileAdmin.Call
