import Mathlib.Data.List.Nodup
import ProfileAdmin.Client.Settings
import ProfileAdmin.Proofs.Config.Tables
import ProfileAdmin.Proofs.Toml.Filling
import ProfileAdmin.Proofs.Toml.Lines

/-!
# Proofs.Config.Document — settings that are written as a document

1. **Values** of settings: four texts, then the tables of the verification and of the switches.
2. **Documents** that give these values. They stand in any order, among anything else that makes
   sense by itself. Where the table of the verification is left out nothing is verified, and a
   switch that is left out is off.
3. **Reading back**: such a document is read as the settings, or refused for their flaw.
4. **Writing**: there is such a document for all settings.
-/

namespace ProfileAdmin.Config

open Document (Value)
open Toml (Entry Plan Statement Members places valuesOf lookup_valuesOf names_valuesOf)
open Toml.Members (Tidy get? at? at?_single)

variable {c : Settings} {sts : List Statement} {ms : Members}

/-! ## Values -/

/-- The texts that stand in front of all tables. -/
def Settings.texts (c : Settings) : List Entry :=
  [⟨[], "endpoint", .text c.endpoint⟩, ⟨[], "requester_id", .text c.requester⟩,
    ⟨[], "cert_path", .text c.certificate⟩, ⟨[], "key_path", .text c.key⟩]

/-- The values of the table of a verification. -/
def Verification.values : Verification → List Entry
  | .disabled => [⟨["server_verification"], "mode", .text "disabled"⟩]
  | .caBundle path =>
    [⟨["server_verification"], "mode", .text "ca_bundle"⟩,
      ⟨["server_verification"], "path", .text path⟩]

/-- The values of the table of the switches. -/
def Debugging.values (d : Debugging) : List Entry :=
  [⟨["debug"], "print_payload", .flag d.payloads⟩, ⟨["debug"], "print_headers", .flag d.headers⟩]

/-- All values of settings. -/
def Settings.values (c : Settings) : List Entry :=
  c.texts ++ (c.verification.values ++ c.debugging.values)

theorem mem_values_of_text {e : Entry} (he : e ∈ c.texts) : e ∈ c.values :=
  List.mem_append_left _ he

theorem mem_values_of_verification {e : Entry} (he : e ∈ c.verification.values) : e ∈ c.values :=
  List.mem_append_right _ (List.mem_append_left _ he)

theorem mem_values_of_debugging {e : Entry} (he : e ∈ c.debugging.values) : e ∈ c.values :=
  List.mem_append_right _ (List.mem_append_right _ he)

/-- The tables of settings. -/
def tables : List String := ["server_verification", "debug"]

/-- The places at which values of settings can stand. -/
def allPlaces : List (List String) :=
  [["endpoint"], ["requester_id"], ["cert_path"], ["key_path"], ["server_verification", "mode"],
    ["server_verification", "path"], ["debug", "print_payload"], ["debug", "print_headers"]]

/-- The values of settings stand at known places. -/
theorem places_sublist (c : Settings) : (c.values.map Entry.place).Sublist allPlaces := by
  unfold Settings.values
  cases c.verification with
  | disabled => exact (by decide : [["endpoint"], ["requester_id"], ["cert_path"], ["key_path"],
      ["server_verification", "mode"], ["debug", "print_payload"],
        ["debug", "print_headers"]].Sublist allPlaces)
  | caBundle => exact List.Sublist.refl allPlaces

theorem place_mem {e : Entry} (he : e ∈ c.values) : e.place ∈ allPlaces :=
  (places_sublist c).subset (List.mem_map_of_mem he)

/-- Settings as values at places of their own. -/
def Settings.plan (c : Settings) : Plan where
  tables := tables
  entries := c.values
  housed := by
    intro e he
    have hall : ∀ place ∈ allPlaces,
        place.dropLast = [] ∨ ∃ table ∈ tables, place.dropLast = [table] := by decide
    have hheader : e.place.dropLast = e.header := List.dropLast_concat
    rw [← hheader]
    exact hall e.place (place_mem he)
  apart := by
    intro e he e' he' hfront
    have hall : ∀ place ∈ allPlaces, ∀ place' ∈ allPlaces, place <+: place' → place = place' := by
      decide
    have hnodup : (c.values.map Entry.place).Nodup :=
      (by decide : allPlaces.Nodup).sublist (places_sublist c)
    exact List.inj_on_of_nodup_map hnodup he he' (hall _ (place_mem he) _ (place_mem he') hfront)
  clear := by
    have hall : ∀ place ∈ allPlaces, ∀ table ∈ tables, ¬ place <+: [table] := by decide
    exact fun e he => hall e.place (place_mem he)

/-! ## Documents -/

/-- Statements that give settings. The texts are always there. The values of the verification are
there, or nothing at all is said about it and it is disabled. A switch is there if it is on. Apart
from that anything can be said that makes up a document by itself; then all of it does. -/
structure Settings.GivenBy (c : Settings) (sts : List Statement) : Prop where
  fills : c.plan.Fills [] sts
  texts : ∀ e ∈ c.texts, e.place ∈ places [] sts
  verification : (∀ e ∈ c.verification.values, e.place ∈ places [] sts) ∨
    (c.verification = .disabled ∧ ∀ place ∈ places [] sts, ¬ ["server_verification"] <+: place)
  payloads : c.debugging.payloads = true → ["debug", "print_payload"] ∈ places [] sts
  headers : c.debugging.headers = true → ["debug", "print_headers"] ∈ places [] sts
  others : (Toml.build? (c.plan.others [] sts)).isSome

/-- A value in a table. -/
theorem get?_of_at? {table key : String} {node : Toml.Node} (h : at? [table, key] ms = some node) :
    ∃ origin inner, get? table ms = some (.table origin inner) ∧ get? key inner = some node := by
  rw [Toml.Members.at?_cons (List.cons_ne_nil key [])] at h
  cases hget : get? table ms with
  | none =>
      rw [hget] at h
      exact nomatch h
  | some other =>
      rw [hget] at h
      cases other with
      -- Only a table has anything within.
      | table origin inner => exact ⟨origin, inner, rfl, (at?_single key inner).symm.trans h⟩
      | value | tables => exact nomatch h

/-- A member is looked up as the value that it stands for. -/
theorem lookup_of_get? {key : String} {node : Toml.Node} (h : get? key ms = some node) :
    (valuesOf ms).lookup key = some node.toValue := by
  rw [lookup_valuesOf, h]
  rfl

/-- The names in a table of a tidy document are distinct. -/
theorem names_of_get? {table : String} {origin : Toml.Origin} {inner : Members} (htidy : Tidy ms)
    (h : get? table ms = some (.table origin inner)) : ((valuesOf inner).map Prod.fst).Nodup := by
  rw [names_valuesOf]
  cases htidy.get? h with
  | table hnames => exact hnames

variable (hgiven : c.GivenBy sts) (hfilled : c.plan.Filled sts ms)

include hgiven hfilled

/-- The verification is what its table says, or disabled without one. -/
theorem memberIn_verification :
    MemberIn Verification.shape c.verification .disabled
      ((valuesOf ms).lookup "server_verification") := by
  rcases hgiven.verification with hthere | ⟨hdisabled, hnone⟩
  · -- The mode is there, so the table is, and what else belongs to the mode is in the same table.
    have hat : ∀ e ∈ c.verification.values, at? e.place ms = some (.value e.value) := fun e he =>
      hfilled.given e (mem_values_of_verification he) (hthere e he)
    have hmode : at? ["server_verification", "mode"] ms = some (.value (.text
        (match c.verification with
          | .disabled => Verification.Mode.disabled
          | .caBundle _ => Verification.Mode.caBundle).name)) := by
      cases hv : c.verification with
      | disabled =>
          rw [hv] at hat
          exact hat _ List.mem_cons_self
      | caBundle path =>
          rw [hv] at hat
          exact hat _ List.mem_cons_self
    obtain ⟨origin, inner, htable, hinner⟩ := get?_of_at? hmode
    refine Or.inl ⟨.table (valuesOf inner), lookup_of_get? htable, ?_⟩
    refine Verification.ofValue_table ⟨names_of_get? hfilled.tidy htable, lookup_of_get? hinner, ?_⟩
    intro path hpath
    rw [hpath] at hat
    obtain ⟨origin', inner', htable', hinner'⟩ :=
      get?_of_at? (hat ⟨["server_verification"], "path", .text path⟩
        (List.mem_cons_of_mem _ List.mem_cons_self))
    rw [htable] at htable'
    cases htable'
    exact lookup_of_get? hinner'
  · refine Or.inr ⟨?_, hdisabled⟩
    have hget := hfilled.absent ["server_verification"] hnone
    rw [at?_single] at hget
    rw [lookup_valuesOf, hget]
    rfl

/-- A switch stands in its table, or is off. -/
theorem switchIn {key : String} {b : Bool} {inner : Members} {origin : Toml.Origin}
    (he : ⟨["debug"], key, .flag b⟩ ∈ c.debugging.values)
    (hon : b = true → ["debug", key] ∈ places [] sts)
    (htable : get? "debug" ms = some (.table origin inner)) :
    SwitchIn b ((valuesOf inner).lookup key) := by
  have hmem : ⟨["debug"], key, .flag b⟩ ∈ c.plan.entries :=
    mem_values_of_debugging he
  have hinner : at? ["debug", key] ms = get? key inner := by
    rw [Toml.Members.at?_cons (List.cons_ne_nil key []), htable]
    exact at?_single key inner
  -- A value that is given is the one that is found. Where none is given nothing else can stand.
  by_cases hthere : ["debug", key] ∈ places [] sts
  · have hvalue := hfilled.given _ hmem hthere
    exact Or.inl (lookup_of_get? (hinner.symm.trans hvalue))
  · have hnone := hfilled.absent ["debug", key] (hgiven.fills.apart hmem hthere)
    refine Or.inr ⟨?_, Bool.eq_false_iff.mpr fun htrue => hthere (hon htrue)⟩
    rw [lookup_valuesOf, ← hinner, hnone]
    rfl

/-- The switches are what their table says, or off without one. -/
theorem memberIn_debugging :
    MemberIn Debugging.shape c.debugging .off ((valuesOf ms).lookup "debug") := by
  cases hget : get? "debug" ms with
  | none =>
      -- No value is in a table that is not there.
      have hoff : ∀ {key : String} {b : Bool}, ⟨["debug"], key, .flag b⟩ ∈ c.debugging.values →
          (b = true → ["debug", key] ∈ places [] sts) → b = false := by
        intro key b he hon
        refine Bool.eq_false_iff.mpr fun htrue => ?_
        have hvalue := hfilled.given ⟨["debug"], key, .flag b⟩
          (mem_values_of_debugging he) (hon htrue)
        obtain ⟨origin, inner, htable, -⟩ := get?_of_at? hvalue
        rw [hget] at htable
        exact nomatch htable
      refine Or.inr ⟨?_, ?_⟩
      · rw [lookup_valuesOf, hget]
        rfl
      · have hpayloads := hoff List.mem_cons_self hgiven.payloads
        have hheaders := hoff (List.mem_cons_of_mem _ List.mem_cons_self) hgiven.headers
        show Debugging.mk c.debugging.payloads c.debugging.headers = .off
        rw [hpayloads, hheaders]
        rfl
  | some node =>
      obtain ⟨origin, inner, rfl⟩ :=
        hfilled.tables "debug" (List.mem_cons_of_mem _ List.mem_cons_self) node hget
      refine Or.inl ⟨.table (valuesOf inner), lookup_of_get? hget, ?_⟩
      refine Debugging.ofValue_table ⟨names_of_get? hfilled.tidy hget, ?_, ?_⟩
      · exact switchIn hgiven hfilled List.mem_cons_self hgiven.payloads hget
      · exact switchIn hgiven hfilled (List.mem_cons_of_mem _ List.mem_cons_self) hgiven.headers
          hget

/-- What the members of the document say is what the settings are. -/
theorem in_valuesOf : c.In (valuesOf ms) := by
  have htext : ∀ e ∈ c.texts, at? e.place ms = some (.value e.value) := fun e he =>
    hfilled.given e (mem_values_of_text he) (hgiven.texts e he)
  have hlookup : ∀ key v, ⟨[], key, v⟩ ∈ c.texts → (valuesOf ms).lookup key = some v := by
    intro key v he
    have hvalue := htext ⟨[], key, v⟩ he
    rw [Entry.place, List.nil_append, at?_single] at hvalue
    exact lookup_of_get? hvalue
  refine ⟨?_, ?_, ?_, ?_, ?_, ?_, ?_⟩
  · rw [names_valuesOf]
    exact hfilled.tidy.names
  -- Four texts, and then the tables.
  · exact hlookup _ _ List.mem_cons_self
  · exact hlookup _ _ (List.mem_cons_of_mem _ List.mem_cons_self)
  · exact hlookup _ _ (List.mem_cons_of_mem _ (List.mem_cons_of_mem _ List.mem_cons_self))
  · exact hlookup _ _ (List.mem_cons_of_mem _ (List.mem_cons_of_mem _ (List.mem_cons_of_mem _
      List.mem_cons_self)))
  · exact memberIn_verification hgiven hfilled
  · exact memberIn_debugging hgiven hfilled

omit hgiven hfilled

/-! ## Reading back -/

/-- All values of settings, with both tables. -/
def Settings.statements (c : Settings) : List Statement :=
  c.texts.map Entry.statement ++
    (Toml.headerOf "server_verification" :: (c.verification.values.map Entry.statement ++
      (Toml.headerOf "debug" :: c.debugging.values.map Entry.statement)))

/-- Where each statement of the whole document stands. -/
theorem placed_statements (c : Settings) :
    Toml.placed [] c.statements =
      c.texts.map (fun e => (e.place, e.statement)) ++
        ((["server_verification"], Toml.headerOf "server_verification") ::
          (c.verification.values.map (fun e => (e.place, e.statement)) ++
            ((["debug"], Toml.headerOf "debug") ::
              c.debugging.values.map fun e => (e.place, e.statement)))) := by
  unfold Settings.statements
  cases c.verification <;> rfl

theorem places_statements (c : Settings) :
    places [] c.statements =
      c.texts.map Entry.place ++ (["server_verification"] ::
        (c.verification.values.map Entry.place ++
          (["debug"] :: c.debugging.values.map Entry.place))) := by
  rw [places, placed_statements]
  simp only [List.map_append, List.map_cons, List.map_map]
  rfl

/-- All values are there. -/
theorem place_mem_statements {e : Entry} (he : e ∈ c.values) :
    e.place ∈ places [] c.statements := by
  rw [places_statements]
  rcases List.mem_append.mp he with he | he
  · exact List.mem_append_left _ (List.mem_map_of_mem he)
  refine List.mem_append_right _ (List.mem_cons_of_mem _ ?_)
  rcases List.mem_append.mp he with he | he
  · exact List.mem_append_left _ (List.mem_map_of_mem he)
  · exact List.mem_append_right _ (List.mem_cons_of_mem _ (List.mem_map_of_mem he))

/-- None is there twice. -/
theorem nodup_places_statements (c : Settings) : (places [] c.statements).Nodup := by
  rw [places_statements]
  cases c.verification with
  | disabled => exact (by decide : List.Nodup [["endpoint"], ["requester_id"], ["cert_path"],
      ["key_path"], ["server_verification"], ["server_verification", "mode"], ["debug"],
      ["debug", "print_payload"], ["debug", "print_headers"]])
  | caBundle => exact (by decide : List.Nodup [["endpoint"], ["requester_id"], ["cert_path"],
      ["key_path"], ["server_verification"], ["server_verification", "mode"],
      ["server_verification", "path"], ["debug"], ["debug", "print_payload"],
      ["debug", "print_headers"]])

/-- Nothing else is there than values and the headers of their tables. -/
theorem part_statements {l : List String × Statement} (hl : l ∈ Toml.placed [] c.statements) :
    c.plan.Part l.1 l.2 := by
  have hentries : ∀ es : List Entry, (∀ e ∈ es, e ∈ c.values) →
      ∀ l ∈ es.map (fun e => (e.place, e.statement)), c.plan.Part l.1 l.2 := by
    intro es hes l hl
    obtain ⟨e, he, rfl⟩ := List.mem_map.mp hl
    exact Plan.Part.entry (hes e he)
  rw [placed_statements] at hl
  rcases List.mem_append.mp hl with hl | hl
  · exact hentries _ (fun e => mem_values_of_text) l hl
  rcases List.mem_cons.mp hl with rfl | hl
  · exact Plan.Part.header List.mem_cons_self
  rcases List.mem_append.mp hl with hl | hl
  · exact hentries _ (fun e => mem_values_of_verification) l hl
  rcases List.mem_cons.mp hl with rfl | hl
  · exact Plan.Part.header (List.mem_cons_of_mem _ List.mem_cons_self)
  · exact hentries _ (fun e => mem_values_of_debugging) l hl

/-- Apart from the values only the headers are there. -/
theorem others_statements (c : Settings) :
    c.plan.others [] c.statements =
      [Toml.headerOf "server_verification", Toml.headerOf "debug"] := by
  -- The headers stand at no place of a value, and the values do.
  have hkept : ∀ table ∈ tables, [table] ∉ c.plan.entries.map Entry.place := by
    intro table htable hmem
    obtain ⟨e, he, heq⟩ := List.mem_map.mp hmem
    exact c.plan.clear e he table htable (heq ▸ List.prefix_refl _)
  have hgone : ∀ es : List Entry, (∀ e ∈ es, e ∈ c.values) →
      (es.map fun e => (e.place, e.statement)).filter
        (fun l => l.1 ∉ c.plan.entries.map Entry.place) = [] := by
    intro es hes
    refine List.filter_eq_nil_iff.mpr fun l hl => ?_
    obtain ⟨e, he, rfl⟩ := List.mem_map.mp hl
    have hmem : e.place ∈ c.plan.entries.map Entry.place := List.mem_map_of_mem (hes e he)
    simpa only [decide_eq_true_eq, not_not] using hmem
  unfold Plan.others
  rw [placed_statements, List.filter_append, hgone _ fun e => mem_values_of_text,
    List.nil_append, List.filter_cons_of_pos, List.filter_append,
    hgone _ fun e => mem_values_of_verification, List.nil_append, List.filter_cons_of_pos,
    hgone _ fun e => mem_values_of_debugging]
  · rfl
  · exact decide_eq_true (hkept _ (List.mem_cons_of_mem _ List.mem_cons_self))
  · exact decide_eq_true (hkept _ List.mem_cons_self)

/-- The document with all values gives the settings. -/
theorem givenBy_statements (c : Settings) : c.GivenBy c.statements where
  fills := ⟨fun l => part_statements,
    fun e _ => List.nodup_iff_count_le_one.mp (nodup_places_statements c) e.place⟩
  texts e he := place_mem_statements (mem_values_of_text he)
  verification := Or.inl fun e he => place_mem_statements (mem_values_of_verification he)
  payloads _ := place_mem_statements (mem_values_of_debugging List.mem_cons_self)
  headers _ :=
    place_mem_statements (mem_values_of_debugging (List.mem_cons_of_mem _ List.mem_cons_self))
  others := by
    rw [others_statements]
    rfl

/-- All settings can be written, whatever characters their texts are made of. -/
theorem exists_written (c : Settings) :
    ∃ text, Toml.Written c.statements text ∧ c.GivenBy c.statements := by
  have htext : ∀ s : String, ∃ cs, Toml.ValueText cs (.text s) := by
    intro s
    obtain ⟨cs, body⟩ := Toml.exists_bodyText s.toList
    exact ⟨_, Toml.ValueText.text body⟩
  have hflag : ∀ b, ∃ cs, Toml.ValueText cs (.flag b) := fun b => ⟨_, Toml.ValueText.flag b⟩
  have hpair : ∀ (name : String) {v : Value} {sts : List Statement},
      name.toList ≠ [] ∧ name.toList.all Toml.isBare = true → (∃ cs, Toml.ValueText cs v) →
        (∃ cs, Toml.Lines sts cs) → ∃ cs, Toml.Lines (.pair ⟨[], name⟩ v :: sts) cs := by
    rintro name v sts hname ⟨cs, hvalue⟩ hothers
    exact Toml.Lines.exists_pair hname hvalue hothers
  have hswitches : ∃ cs, Toml.Lines
      (Toml.headerOf "debug" :: c.debugging.values.map Entry.statement) cs := by
    refine Toml.Lines.exists_table (by decide) ?_
    refine hpair "print_payload" (by decide) (hflag _) ?_
    refine hpair "print_headers" (by decide) (hflag _) ?_
    exact ⟨[], Toml.Lines.last (List.forall_mem_nil _)⟩
  have htables : ∃ cs, Toml.Lines (Toml.headerOf "server_verification" ::
      (c.verification.values.map Entry.statement ++
        (Toml.headerOf "debug" :: c.debugging.values.map Entry.statement))) cs := by
    refine Toml.Lines.exists_table (by decide) ?_
    cases c.verification with
    | disabled => exact hpair "mode" (by decide) (htext _) hswitches
    | caBundle path =>
        exact hpair "mode" (by decide) (htext _) (hpair "path" (by decide) (htext _) hswitches)
  obtain ⟨cs, hlines⟩ : ∃ cs, Toml.Lines c.statements cs := by
    refine hpair "endpoint" (by decide) (htext _) ?_
    refine hpair "requester_id" (by decide) (htext _) ?_
    refine hpair "cert_path" (by decide) (htext _) ?_
    exact hpair "key_path" (by decide) (htext _) htables
  exact ⟨String.ofList cs, ⟨cs, Or.inl String.toList_ofList, hlines⟩, givenBy_statements c⟩

end ProfileAdmin.Config
