import ProfileAdmin.Call.Response
import ProfileAdmin.Proofs.Json.Blame
import ProfileAdmin.Proofs.Text.Line
import ProfileAdmin.Schema.Codec

/-!
# Proofs.Schema.Blame — what is said of a reply that cannot be read

1. **Wording**: a mismatch is worded on one line if what is expected is. What is found is quoted.
2. **Shapes** that blame nothing but mismatches worded on one line.
3. **Records**: what holds of the fields holds of the record.
4. **Replies**: why a reply is refused is said on one line, whatever its bytes are.
-/

namespace ProfileAdmin.Schema

open Document (Found Mismatch)
open Json
open Text (OneLine oneLine_append oneLine_toString_nat oneLine_toString_int oneLine_layout
  oneLine_quoted)

variable {α β : Type}

/-! ## Wording -/

/-- What is found has no line breaks, as a text in it is quoted. -/
theorem oneLine_found (numbers : Decimal.Layout) (found : Found) :
    OneLine (found.message numbers) := by
  cases found with
  | null => exact (by decide : OneLine "null")
  | flag b =>
      cases b with
      | false => exact (by decide : OneLine "boolean `false`")
      | true => exact (by decide : OneLine "boolean `true`")
  | integer n =>
      exact oneLine_append.mpr ⟨oneLine_append.mpr ⟨by decide, oneLine_toString_int n⟩, by decide⟩
  | real x =>
      exact oneLine_append.mpr ⟨oneLine_append.mpr ⟨by decide, oneLine_layout numbers x⟩, by decide⟩
  | text s => exact oneLine_append.mpr ⟨by decide, oneLine_quoted s⟩
  | list => exact (by decide : OneLine "sequence")
  | table => exact (by decide : OneLine "map")

/-- What a mismatch names, apart from what is found, has no line breaks. -/
def Plain : Mismatch → Prop
  | .wrongType _ expected | .wrongLength _ expected => OneLine expected
  | .missingMember name | .repeatedMember name => OneLine name
  | .unknownVariant _ _ => False

/-- A mismatch that names nothing with a line break is worded on one line. -/
theorem Plain.oneLine {m : Mismatch} (h : Plain m) (numbers : Decimal.Layout) :
    OneLine (m.message numbers) := by
  cases m with
  | wrongType found expected =>
      exact oneLine_append.mpr ⟨oneLine_append.mpr ⟨oneLine_append.mpr
        ⟨by decide, oneLine_found numbers found⟩, by decide⟩, h⟩
  | wrongLength length expected =>
      exact oneLine_append.mpr ⟨oneLine_append.mpr ⟨oneLine_append.mpr
        ⟨by decide, oneLine_toString_nat length⟩, by decide⟩, h⟩
  | missingMember name =>
      exact oneLine_append.mpr ⟨oneLine_append.mpr ⟨by decide, h⟩, by decide⟩
  | repeatedMember name =>
      exact oneLine_append.mpr ⟨oneLine_append.mpr ⟨by decide, h⟩, by decide⟩
  | unknownVariant name known => exact absurd h id

theorem oneLine_cause {cause : Cause} (h : ∀ m, cause = .mismatch m → Plain m) :
    OneLine cause.message := by
  cases cause with
  | flaw f => cases f <;> decide +kernel
  | mismatch m => exact (h m rfl).oneLine numberLayout

/-- A place is given by numbers. -/
theorem oneLine_fault {cause : Cause} (h : ∀ m, cause = .mismatch m → Plain m)
    (place : Option Place) : OneLine (Fault.message ⟨cause, place⟩) := by
  cases place with
  | none => exact oneLine_cause h
  | some p =>
      exact oneLine_append.mpr ⟨oneLine_append.mpr ⟨oneLine_append.mpr ⟨oneLine_append.mpr
        ⟨oneLine_cause h, by decide⟩, oneLine_toString_nat p.line⟩, by decide⟩,
        oneLine_toString_nat p.column⟩

/-! ## Shapes -/

/-- Where a value of the shape is read, only mismatches on one line are blamed. -/
def Shape.Plain (s : Shape α) : Prop :=
  ∀ levels, Blames Schema.Plain (s.read levels)

theorem plain_text : text.Plain := by
  intro levels
  refine blames_bind blames_peekValue fun b => ?_
  split
  · exact blames_bind blames_advance fun _ => blames_text
  · exact blames_unexpected fun found => (by decide : OneLine "a string")

theorem plain_flag : flag.Plain := by
  intro levels
  refine blames_bind blames_peekValue fun b => ?_
  split
  · exact blames_bind blames_advance fun _ => blames_bind (blames_word _) fun _ => blames_pure _
  split
  · exact blames_bind blames_advance fun _ => blames_bind (blames_word _) fun _ => blames_pure _
  · exact blames_unexpected fun found => (by decide : OneLine "a boolean")

variable {s : Shape α}

theorem plain_list (hs : s.Plain) : (list s).Plain := by
  intro levels
  refine blames_bind blames_peekValue fun b => ?_
  split
  · exact blames_bracketed _ _ fun inner => blames_elements (hs inner) true
  · exact blames_unexpected fun found => (by decide : OneLine "a sequence")

theorem plain_optional (hs : s.Plain) : (optional s).Plain := by
  intro levels
  refine blames_bind blames_peek fun b => ?_
  split
  · exact blames_bind blames_advance fun _ => blames_bind (blames_word _) fun _ => blames_pure _
  · exact blames_map _ (hs levels)

theorem plain_map (hs : s.Plain) (into : α → β) (back : β → α) : (s.map into back).Plain :=
  fun levels => blames_map into (hs levels)

/-! ## Records -/

/-- All fields have names without line breaks, and shapes that are plain. -/
def Fields.Plain : {types : List Type} → Fields types → Prop
  | _, .nil => True
  | _, .cons field rest => OneLine field.name ∧ field.shape.Plain ∧ rest.Plain

/-- What is missed is a field. -/
theorem Fields.Plain.complete {types : List Type} {fields : Fields types} (h : fields.Plain)
    {draft : Draft types} {m : Mismatch} (herror : fields.complete draft = .error m) :
    Schema.Plain m := by
  induction fields with
  | nil => cases herror
  | cons field rest ih =>
      obtain ⟨met, draft⟩ := draft
      obtain ⟨hname, -, hrest⟩ := h
      rw [Fields.complete] at herror
      -- The first field that has neither been met nor has a fallback is the one that is missed.
      cases hmet : met <|> field.absent with
      | none =>
          rw [hmet] at herror
          cases herror
          exact hname
      | some a =>
          rw [hmet] at herror
          cases hlater : rest.complete draft with
          | error m' =>
              rw [hlater] at herror
              cases herror
              exact ih hrest hlater
          | ok row =>
              rw [hlater] at herror
              cases herror

/-- What is repeated is a field. -/
theorem Fields.Plain.readMember {types : List Type} {fields : Fields types} (h : fields.Plain)
    (levels : Nat) (name : String) (draft : Draft types) {r : Reader (Draft types)}
    (hr : fields.readMember levels name draft = some r) : Blames Schema.Plain r := by
  induction fields with
  | nil => cases hr
  | cons field rest ih =>
      obtain ⟨met, draft⟩ := draft
      obtain ⟨hname, hshape, hrest⟩ := h
      rw [Fields.readMember] at hr
      -- A field met before is repeated; one met for the first time blames what its shape blames.
      split at hr
      · rename_i hsame
        cases hr
        split
        · exact blames_stopLoose (hsame ▸ hname)
        · exact blames_bind blames_colon fun _ =>
            blames_bind (hshape levels) fun a => blames_pure _
      · obtain ⟨r', hr', rfl⟩ := Option.map_eq_some_iff.mp hr
        exact blames_bind (ih hrest draft hr') fun draft => blames_pure _

/-- Members are blamed for what their fields blame, or for what is missed at the end. -/
theorem Fields.Plain.readMembers {types : List Type} {fields : Fields types} (h : fields.Plain)
    (levels : Nat) : Blames Schema.Plain (fields.readMembers levels) := by
  -- A name that is no field's has its value passed over, which blames flaws only.
  have hstep : ∀ name draft, Blames Schema.Plain (fields.step levels name draft) := by
    intro name draft
    unfold Fields.step
    split
    · rename_i r hr
      exact h.readMember levels name draft hr
    · exact blames_bind blames_colon fun _ => blames_bind blames_skip fun _ => blames_pure _
  refine blames_bind (blames_members hstep fields.blank) fun draft => ?_
  split
  · exact blames_pure _
  · rename_i m herror
    exact blames_stopLoose (h.complete herror)

/-- In a list, a field is missed by the number of elements, and this is put in plain words. -/
theorem Fields.Plain.readElements {types : List Type} {fields : Fields types} (h : fields.Plain)
    {expected : String} (hexpected : OneLine expected) (levels index : Nat) :
    Blames Schema.Plain (fields.readElements expected levels index) := by
  induction fields generalizing index with
  | nil => exact blames_pure _
  | cons field rest ih =>
      obtain ⟨-, hshape, hrest⟩ := h
      refine blames_bind (blames_anotherElement _) fun found => ?_
      split
      · exact blames_bind (hshape levels) fun a =>
          blames_bind (ih hrest (index + 1)) fun row => blames_pure _
      split
      · exact blames_bind (ih hrest (index + 1)) fun row => blames_pure _
      · exact blames_stopLoose hexpected

/-- A record with a plain title and plain fields is plain. -/
theorem plain_record {types : List Type} {title : String} {fields : Fields types}
    (htitle : OneLine title) (h : fields.Plain) : (record title fields).Plain := by
  have hwanted : OneLine (lengthWanted title fields.count) := by
    unfold lengthWanted
    split
    · exact oneLine_append.mpr ⟨htitle, by decide⟩
    · exact oneLine_append.mpr ⟨oneLine_append.mpr ⟨oneLine_append.mpr ⟨htitle, by decide⟩,
        oneLine_toString_nat _⟩, by decide⟩
  -- A record may be given as an object or as a list of its fields in order.
  intro levels
  refine blames_bind blames_peekValue fun b => ?_
  split
  · exact blames_bracketed _ _ fun inner => h.readElements hwanted inner 0
  split
  · exact blames_bracketed _ _ fun inner => h.readMembers inner
  · exact blames_unexpected fun found => htitle

/-! ## Replies -/

theorem blames_atEnd : Blames Plain atEnd := by
  intro s
  unfold atEnd
  split
  · exact blames_pure () _
  · exact blames_stopAhead _ _

/-- Why a text is refused is said on one line. -/
theorem Shape.Plain.oneLine_decode (hs : s.Plain) {bytes : List UInt8} {f : Fault}
    (h : s.decode bytes = .error f) : OneLine f.message := by
  have hblames : Blames Schema.Plain
      (do let a ← s.read deepest; atEnd; pure a : Reader α) :=
    blames_bind (hs deepest) fun a => blames_bind blames_atEnd fun _ => blames_pure a
  unfold Shape.decode at h
  split at h
  · cases h
  · rename_i stop hstop
    cases h
    have hstop := hblames bytes stop hstop
    -- A mismatch without a place is given one in the end, and so both are worded alike.
    cases stop with
    | placed cause left =>
        refine oneLine_fault ?_ _
        rintro m rfl
        exact hstop
    | loose m rest =>
        refine oneLine_fault ?_ _
        rintro _ ⟨⟩
        exact hstop

end ProfileAdmin.Schema

namespace ProfileAdmin.Call

open Schema

/-- The document form of a type in correspondence with the rows of plain fields. -/
theorem plain_map_record {types : List Type} {α : Type} {title : String} {fields : Fields types}
    (htitle : Text.OneLine title) (h : fields.Plain) (into : Row types → α) (back : α → Row types) :
    ((record title fields).map into back).Plain :=
  plain_map (plain_record htitle h) into back

theorem plain_statusCodeData : StatusCodeData.shape.Plain := by
  refine plain_map_record (by decide) ?_ _ _
  exact ⟨by decide, plain_text, by decide, plain_text, by decide, plain_text, by decide,
    plain_text, trivial⟩

theorem plain_execution : ExecutionStatus.shape.Plain := by
  refine plain_map_record (by decide) ?_ _ _
  exact ⟨by decide, plain_text, by decide, plain_optional plain_statusCodeData, trivial⟩

theorem plain_header : ResponseHeader.shape.Plain := by
  refine plain_map_record (by decide) ?_ _ _
  exact ⟨by decide, plain_execution, trivial⟩

theorem plain_status : Profile.Status.shape.Plain := by
  refine plain_map_record (by decide) ?_ _ _
  exact ⟨by decide, plain_text, by decide, plain_text, by decide, plain_text, by decide,
    plain_text, by decide, plain_flag, by decide, plain_text, trivial⟩

/-- The replies of all operations are blamed on one line. -/
theorem plain_response (op : Operation) : op.responseShape.Plain := by
  cases op with
  | getProfileStatus =>
      refine plain_map_record (by decide) ?_ _ _
      exact ⟨by decide, plain_header, by decide, plain_list plain_status, by decide, plain_text,
        trivial⟩
  | recoverProfile | cancelOrder =>
      refine plain_map_record (by decide) ?_ _ _
      exact ⟨by decide, plain_header, trivial⟩
  | downloadOrder =>
      refine plain_map_record (by decide) ?_ _ _
      exact ⟨by decide, plain_header, by decide, plain_text, trivial⟩
  | confirmOrder =>
      refine plain_map_record (by decide) ?_ _ _
      exact ⟨by decide, plain_header, by decide, plain_text, by decide, plain_text, by decide,
        plain_text, by decide, plain_text, trivial⟩

/-- Whatever the bytes of a reply are, if they cannot be read, this is said on one line. -/
theorem oneLine_undecodable {op : Operation} {body : List UInt8} {f : Json.Fault}
    (h : op.responseShape.decode body = .error f) : Text.OneLine f.message :=
  (plain_response op).oneLine_decode h

end ProfileAdmin.Call
