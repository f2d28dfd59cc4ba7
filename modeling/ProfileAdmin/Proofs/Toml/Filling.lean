import ProfileAdmin.Proofs.Toml.Shape

/-!
# Proofs.Toml.Filling — documents that give certain values

1. **Places** at which the statements of a document have their effect.
2. **Plans**: the values that are asked for, each at a place of its own, and the tables they are in.
3. **Documents that fill a plan.** Apart from the values and the headers of those tables they can
   say anything else, as long as it makes sense by itself.
4. **What a run over the statements keeps**, and what stands in the document in the end.
5. **Values** of the members, under the same keys.
-/

namespace ProfileAdmin.Toml

open Document (Value)
open Members

variable {header path : List String} {ms ms' : Members} {st : Statement} {sts : List Statement}
  {d : Draft}

/-! ## Places -/

/-- The statements, each with the place at which it has its effect. -/
def placed : List String → List Statement → List (List String × Statement)
  | _, [] => []
  | header, st :: sts => (st.place header, st) :: placed (st.header header) sts

/-- The places at which statements have their effect. -/
def places (header : List String) (sts : List Statement) : List (List String) :=
  (placed header sts).map Prod.fst

/-- The statements of a list are taken up one after the other. -/
theorem foldlM_step_cons (ms : Members) (header : List String) (st : Statement)
    (sts : List Statement) :
    (st :: sts).foldlM Draft.step ⟨ms, header⟩ =
      (st.effect? header ms).bind fun ms => sts.foldlM Draft.step ⟨ms, st.header header⟩ := by
  rw [List.foldlM_cons, Draft.step_eq]
  cases st.effect? header ms <;> rfl

/-- A document is built exactly if all its statements are accepted. -/
theorem isSome_build?_eq (sts : List Statement) :
    (build? sts).isSome = (sts.foldlM Draft.step ⟨[], []⟩).isSome := by
  unfold build?
  cases sts.foldlM Draft.step ⟨[], []⟩ <;> rfl

/-- Where no statement has its effect nothing changes. -/
theorem at?_run (hrun : sts.foldlM Draft.step ⟨ms, header⟩ = some d)
    (hapart : ∀ place ∈ places header sts, ¬ path <+: place) :
    at? path d.members = at? path ms := by
  induction sts generalizing ms header with
  | nil => rw [← Option.some.inj hrun]
  | cons st sts ih =>
      rw [foldlM_step_cons] at hrun
      obtain ⟨ms', hstep, hrest⟩ := Option.bind_eq_some_iff.mp hrun
      have hfirst := hapart (st.place header) List.mem_cons_self
      rw [ih hrest fun place hplace => hapart place (List.mem_cons_of_mem _ hplace)]
      exact at?_edit (edit_statement header st) hfirst hstep

/-- No key comes to stand twice. -/
theorem tidy_run (hrun : sts.foldlM Draft.step ⟨ms, header⟩ = some d) (htidy : Tidy ms) :
    Tidy d.members := by
  induction sts generalizing ms header with
  | nil => rwa [← Option.some.inj hrun]
  | cons st sts ih =>
      rw [foldlM_step_cons] at hrun
      obtain ⟨ms', hstep, hrest⟩ := Option.bind_eq_some_iff.mp hrun
      exact ih hrest (tidy_edit (edit_statement header st) htidy hstep)

/-! ## Plans -/

/-- A value that is asked for: in which table, under which key. -/
structure Entry where
  header : List String
  key : String
  value : Value

/-- Where the value of an entry stands. -/
def Entry.place (e : Entry) : List String :=
  e.header ++ [e.key]

/-- How a value is given. -/
def Entry.statement (e : Entry) : Statement :=
  .pair ⟨[], e.key⟩ e.value

/-- The header of a table with a key. -/
def headerOf (table : String) : Statement :=
  .table ⟨[], table⟩

/-- Values at places of their own, in the document itself and in tables of it. -/
structure Plan where
  tables : List String
  entries : List Entry
  housed : ∀ e ∈ entries, e.header = [] ∨ ∃ table ∈ tables, e.header = [table]
  apart : ∀ e ∈ entries, ∀ e' ∈ entries, e.place <+: e'.place → e = e'
  clear : ∀ e ∈ entries, ∀ table ∈ tables, ¬ e.place <+: [table]

namespace Plan

variable {plan : Plan} {e : Entry}

/-- Leaves out the values of a plan. -/
def strip (plan : Plan) (ms : Members) : Members :=
  (plan.entries.map Entry.place).foldl (fun ms path => ms.without path) ms

/-- A statement that is far from the values and tables of a plan. -/
structure Apart (plan : Plan) (place : List String) : Prop where
  entries : ∀ e ∈ plan.entries, ¬ e.place <+: place
  tables : ∀ table ∈ plan.tables, place ≠ [table]

/-- What can stand in a document that fills a plan. -/
inductive Part (plan : Plan) : List String → Statement → Prop where
  | entry {e : Entry} (h : e ∈ plan.entries) : Part plan e.place e.statement
  | header {table : String} (h : table ∈ plan.tables) : Part plan [table] (headerOf table)
  | other {place : List String} {st : Statement} (h : plan.Apart place) : Part plan place st

/-- Statements that give values of a plan, none of them twice. -/
structure Fills (plan : Plan) (header : List String) (sts : List Statement) : Prop where
  parts : ∀ l ∈ placed header sts, plan.Part l.1 l.2
  once : ∀ e ∈ plan.entries, (places header sts).count e.place ≤ 1

/-- What statements say apart from the values of a plan. -/
def others (plan : Plan) (header : List String) (sts : List Statement) : List Statement :=
  ((placed header sts).filter fun l => l.1 ∉ plan.entries.map Entry.place).map Prod.snd

/-- A value of the plan is none of the others. -/
theorem others_of_mem (h : st.place header ∈ plan.entries.map Entry.place) :
    plan.others header (st :: sts) = plan.others (st.header header) sts := by
  unfold others
  rw [placed, List.filter_cons_of_neg]
  simpa only [decide_eq_true_eq, not_not] using h

/-- What is given at no place of the plan is. -/
theorem others_of_not_mem (h : st.place header ∉ plan.entries.map Entry.place) :
    plan.others header (st :: sts) = st :: plan.others (st.header header) sts := by
  unfold others
  rw [placed, List.filter_cons_of_pos]
  · rfl
  · simpa only [decide_eq_true_eq] using h

/-! ## What a run keeps -/

/-- Where a document so far stands before statements that fill a plan: the table that is open is
there, and the values that follow are not. -/
structure Ready (plan : Plan) (header : List String) (ms : Members) (sts : List Statement) :
    Prop where
  room : ∀ table ∈ plan.tables, header = [table] → Room [table] ms
  fresh : ∀ e ∈ plan.entries, e.place ∈ places header sts → at? e.place ms = none

/-- An edit apart from all values of a plan does the same without them. -/
theorem strip_edit {place : List String} {g : Members → Option Members} (hedit : Edit place g)
    (h : ∀ e ∈ plan.entries, ¬ e.place <+: place) (ms : Members) :
    g (plan.strip ms) = (g ms).map plan.strip := by
  -- One path after the other is left out.
  have hall : ∀ (paths : List (List String)) (ms : Members), (∀ path ∈ paths, ¬ path <+: place) →
      g (paths.foldl (fun ms path => ms.without path) ms) =
        (g ms).map (paths.foldl fun ms path => ms.without path) := by
    intro paths
    induction paths with
    | nil =>
        intro ms _
        show g ms = (g ms).map id
        rw [Option.map_id]
        rfl
    | cons path paths ih =>
        intro ms hpaths
        have hothers : ∀ other ∈ paths, ¬ other <+: place := fun other hother =>
          hpaths other (List.mem_cons_of_mem path hother)
        rw [List.foldl_cons, ih _ hothers, without_edit hedit (hpaths path List.mem_cons_self),
          Option.map_map]
        rfl
  refine hall _ ms fun path hpath => ?_
  obtain ⟨e, he, rfl⟩ := List.mem_map.mp hpath
  exact h e he

/-- Members that only differ where they are left out. -/
theorem strip_congr (he : e ∈ plan.entries) (h : ms'.without e.place = ms.without e.place) :
    plan.strip ms' = plan.strip ms := by
  have hall : ∀ (paths : List (List String)) (ms' ms : Members), e.place ∈ paths →
      ms'.without e.place = ms.without e.place →
        paths.foldl (fun ms path => ms.without path) ms' =
          paths.foldl (fun ms path => ms.without path) ms := by
    intro paths
    induction paths with
    | nil => exact fun _ _ hmem => nomatch hmem
    | cons path paths ih =>
        intro ms' ms hmem hsame
        rw [List.foldl_cons, List.foldl_cons]
        rcases List.mem_cons.mp hmem with rfl | hmem
        · rw [hsame]
        · refine ih _ _ hmem ?_
          rw [without_comm, hsame, without_comm]
  exact hall _ ms' ms (List.mem_map_of_mem he) h

/-- A part is a value of the plan, or far from all of them. -/
theorem Part.clear {place : List String} (h : plan.Part place st) :
    (∃ e ∈ plan.entries, place = e.place ∧ st = e.statement) ∨
      ∀ e ∈ plan.entries, ¬ e.place <+: place := by
  cases h with
  | entry he => exact Or.inl ⟨_, he, rfl, rfl⟩
  | header htable => exact Or.inr fun e he => plan.clear e he _ htable
  | other hapart => exact Or.inr hapart.entries

/-- What follows a part fills the plan, too. -/
theorem Fills.tail (h : plan.Fills header (st :: sts)) : plan.Fills (st.header header) sts := by
  refine ⟨fun l hl => h.parts l (List.mem_cons_of_mem _ hl), fun e he => ?_⟩
  exact Nat.le_trans (List.count_le_count_cons) (h.once e he)

/-- A value that is given is not given again. -/
theorem Fills.not_mem_tail (h : plan.Fills header (st :: sts)) (he : e ∈ plan.entries)
    (hplace : st.place header = e.place) : e.place ∉ places (st.header header) sts := by
  intro hmem
  have honce := h.once e he
  have hpos := List.count_pos_iff.mpr hmem
  have hcount : (places header (st :: sts)).count e.place =
      (places (st.header header) sts).count e.place + 1 := by
    show (st.place header :: places (st.header header) sts).count e.place = _
    rw [hplace, List.count_cons_self]
  omega

/-- Nothing is put at or below a place whose value is not given. -/
theorem Fills.apart (h : plan.Fills header sts) (he : e ∈ plan.entries)
    (hnot : e.place ∉ places header sts) : ∀ place ∈ places header sts, ¬ e.place <+: place := by
  intro place hplace
  obtain ⟨l, hl, rfl⟩ := List.mem_map.mp hplace
  rcases (h.parts l hl).clear with ⟨e', he', heq, -⟩ | hclear
  · intro hfront
    rw [heq] at hfront hplace
    exact hnot (plan.apart e he e' he' hfront ▸ hplace)
  · exact hclear e he

/-- The table that is open behind a statement is there. -/
theorem Part.room {place : List String} (h : plan.Part place st) (hplace : st.place header = place)
    (hroom : ∀ table ∈ plan.tables, header = [table] → Room [table] ms)
    (hdone : st.effect? header ms = some ms') :
    ∀ table ∈ plan.tables, st.header header = [table] → Room [table] ms' := by
  intro table htable hheader
  cases h with
  | entry he => exact room_edit (edit_statement header _) (hroom table htable hheader) hdone
  | header =>
      obtain rfl : _ = table := (List.cons.inj hheader).1
      exact (room_openTable? hdone).1
  | other hapart =>
      cases st with
      | table k => exact absurd (hplace.symm.trans hheader) (hapart.tables table htable)
      | item k => exact absurd (hplace.symm.trans hheader) (hapart.tables table htable)
      | pair k v => exact room_edit (edit_statement header _) (hroom table htable hheader) hdone

/-- Where only a table stands no part of a document puts anything else. -/
theorem Part.onlyTable {place : List String} {table : String} (h : plan.Part place st)
    (hplace : st.place header = place) (htable : table ∈ plan.tables) (honly : OnlyTable table ms)
    (hdone : st.effect? header ms = some ms') : OnlyTable table ms' := by
  have hedit := edit_statement header st
  rw [hplace] at hedit
  cases h with
  | @entry e he =>
      refine onlyTable_edit hedit (fun heq => ?_) honly hdone
      exact plan.clear e he table htable (heq ▸ List.prefix_refl _)
  | @header other hother =>
      by_cases hsame : other = table
      · exact hsame ▸ (room_openTable? hdone).2
      · exact onlyTable_edit hedit (fun heq => hsame (List.cons.inj heq).1) honly hdone
  | other hapart => exact onlyTable_edit hedit (hapart.tables table htable) honly hdone

/-- Where only a table can stand, nothing else is put by a whole document. -/
theorem Fills.onlyTable {table : String} (h : plan.Fills header sts) (htable : table ∈ plan.tables)
    (honly : OnlyTable table ms) (hrun : sts.foldlM Draft.step ⟨ms, header⟩ = some d) :
    OnlyTable table d.members := by
  induction sts generalizing ms header with
  | nil => rwa [← Option.some.inj hrun]
  | cons st sts ih =>
      rw [foldlM_step_cons] at hrun
      obtain ⟨ms', hstep, hrest⟩ := Option.bind_eq_some_iff.mp hrun
      have hpart := h.parts (st.place header, st) List.mem_cons_self
      exact ih h.tail (hpart.onlyTable rfl htable honly hstep) hrest

/-- A value of a plan is accepted, and makes no difference to what is said apart from it. -/
theorem Ready.put (hready : plan.Ready header ms (e.statement :: sts))
    (hfills : plan.Fills header (e.statement :: sts)) (he : e ∈ plan.entries)
    (hheader : header = e.header) :
    ∃ ms', e.statement.effect? header ms = some ms' ∧ at? e.place ms' = some (.value e.value) ∧
      plan.strip ms' = plan.strip ms ∧ plan.Ready header ms' sts := by
  subst hheader
  -- The value is in the document itself, or in a table that is open and so is there.
  have hroom : Room e.header ms := by
    rcases plan.housed e he with hnone | ⟨table, htable, hin⟩
    · rw [hnone]
      trivial
    · rw [hin]
      exact hready.room table htable hin
  have hfresh : at? e.place ms = none := hready.fresh e he List.mem_cons_self
  obtain ⟨ms', hdone, hthere, hsame⟩ := exists_put e.value .opened hroom hfresh
  refine ⟨ms', hdone, hthere, strip_congr he hsame, ?_, fun e' he' hmem => ?_⟩
  · exact (Part.entry he).room rfl hready.room hdone
  · have hne : ¬ e'.place <+: e.place := by
      intro hfront
      have heq := plan.apart e' he' e he hfront
      exact hfills.not_mem_tail he rfl (heq ▸ hmem)
    rw [at?_edit (edit_statement e.header e.statement) hne hdone]
    exact hready.fresh e' he' (List.mem_cons_of_mem _ hmem)

/-- Any other statement leaves the values that follow open. -/
theorem Ready.pass (hready : plan.Ready header ms (st :: sts))
    (hpart : plan.Part (st.place header) st)
    (hclear : ∀ e ∈ plan.entries, ¬ e.place <+: st.place header)
    (hdone : st.effect? header ms = some ms') : plan.Ready (st.header header) ms' sts := by
  refine ⟨hpart.room rfl hready.room hdone, fun e he hmem => ?_⟩
  rw [at?_edit (edit_statement header st) (hclear e he) hdone]
  exact hready.fresh e he (List.mem_cons_of_mem _ hmem)

/-- Statements that fill a plan are accepted exactly if what they say apart from it is. -/
theorem Fills.isSome_run (hfills : plan.Fills header sts) (hready : plan.Ready header ms sts) :
    (sts.foldlM Draft.step ⟨ms, header⟩).isSome =
      ((plan.others header sts).foldlM Draft.step ⟨plan.strip ms, header⟩).isSome := by
  induction sts generalizing ms header with
  | nil => rfl
  | cons st sts ih =>
      have hpart := hfills.parts (st.place header, st) List.mem_cons_self
      rw [foldlM_step_cons]
      rcases hpart.clear with ⟨e, he, hplace, rfl⟩ | hclear
      · -- A value of the plan is accepted, and there is no trace of it in what is left.
        have hheader : header = e.header := List.append_cancel_right hplace
        obtain ⟨ms', hdone, -, hstrip, hready'⟩ := hready.put hfills he hheader
        rw [others_of_mem (List.mem_map.mpr ⟨e, he, hplace.symm⟩), ← hstrip, hdone]
        exact ih hfills.tail hready'
      · -- Any other statement does to the document what it does without the values.
        have hother : st.place header ∉ plan.entries.map Entry.place := by
          intro hmem
          obtain ⟨e, he, heq⟩ := List.mem_map.mp hmem
          exact hclear e he (heq ▸ List.prefix_refl _)
        rw [others_of_not_mem hother, foldlM_step_cons,
          strip_edit (edit_statement header st) hclear]
        cases hdone : st.effect? header ms with
        | none => rfl
        | some ms' => exact ih hfills.tail (hready.pass hpart hclear hdone)

/-- In the end all values that are given stand in the document. -/
theorem Fills.given (hfills : plan.Fills header sts) (hready : plan.Ready header ms sts)
    (hrun : sts.foldlM Draft.step ⟨ms, header⟩ = some d) (he : e ∈ plan.entries)
    (hmem : e.place ∈ places header sts) : at? e.place d.members = some (.value e.value) := by
  induction sts generalizing ms header with
  | nil => exact nomatch hmem
  | cons st sts ih =>
      have hpart := hfills.parts (st.place header, st) List.mem_cons_self
      rw [foldlM_step_cons] at hrun
      obtain ⟨ms', hdone, hrest⟩ := Option.bind_eq_some_iff.mp hrun
      rcases hpart.clear with ⟨e', he', hplace, rfl⟩ | hclear
      · have hheader : header = e'.header := List.append_cancel_right hplace
        obtain ⟨ms'', hput, hthere, -, hready'⟩ := hready.put hfills he' hheader
        obtain rfl : ms'' = ms' := Option.some.inj (hput.symm.trans hdone)
        rcases List.mem_cons.mp hmem with heq | hmem
        · -- Nothing touches a value any more once it has been given.
          obtain rfl : e = e' := plan.apart e he e' he' (heq.trans hplace ▸ List.prefix_refl _)
          rw [at?_run hrest (hfills.tail.apart he (hfills.not_mem_tail he hplace)), hthere]
        · exact ih hfills.tail hready' hrest hmem
      · rcases List.mem_cons.mp hmem with heq | hmem
        · exact absurd (heq ▸ List.prefix_refl _) (hclear e he)
        · exact ih hfills.tail (hready.pass hpart hclear hdone) hrest hmem

/-- What stands in a document that fills a plan. -/
structure Filled (plan : Plan) (sts : List Statement) (ms : Members) : Prop where
  tidy : Tidy ms
  given : ∀ e ∈ plan.entries, e.place ∈ places [] sts → at? e.place ms = some (.value e.value)
  tables : ∀ table ∈ plan.tables, OnlyTable table ms
  absent : ∀ path, (∀ place ∈ places [] sts, ¬ path <+: place) → at? path ms = none

/-- Nothing is left out of an empty document. -/
theorem strip_nil (plan : Plan) : plan.strip [] = [] := by
  have hall : ∀ paths : List (List String),
      paths.foldl (fun (ms : Members) path => ms.without path) [] = [] := by
    intro paths
    induction paths with
    | nil => rfl
    | cons path paths ih => rw [List.foldl_cons, without_nil, ih]
  exact hall _

/-- At the beginning nothing is there and no table is open. -/
theorem ready_nil (plan : Plan) (sts : List Statement) : plan.Ready [] [] sts := by
  refine ⟨fun table _ hnone => ?_, fun e _ _ => at?_nil e.place⟩
  exact absurd hnone.symm (List.cons_ne_nil table [])

/-- Statements that fill a plan make up a document exactly if what they say apart from it does. -/
theorem Fills.isSome_build? (hfills : plan.Fills [] sts) :
    (build? sts).isSome = (build? (plan.others [] sts)).isSome := by
  have hrun := hfills.isSome_run (plan.ready_nil sts)
  rw [strip_nil] at hrun
  rw [isSome_build?_eq, isSome_build?_eq]
  exact hrun

/-- What a document says that is made up of statements that fill a plan. -/
theorem Fills.exists_build (hfills : plan.Fills [] sts)
    (hothers : (build? (plan.others [] sts)).isSome) :
    ∃ ms, build? sts = some (.table (valuesOf ms)) ∧ plan.Filled sts ms := by
  have hready := plan.ready_nil sts
  rw [← hfills.isSome_build?, isSome_build?_eq] at hothers
  obtain ⟨d, hd⟩ := Option.isSome_iff_exists.mp hothers
  refine ⟨d.members, ?_, tidy_run hd tidy_nil, ?_, fun table htable => ?_, fun path hapart => ?_⟩
  · unfold build?
    rw [hd]
    rfl
  · exact fun e he hmem => hfills.given hready hd he hmem
  · have honly : OnlyTable table [] := fun node hnone => nomatch hnone
    exact hfills.onlyTable htable honly hd
  · rw [at?_run hd hapart, at?_nil]

end Plan

/-! ## Values of members -/

/-- The values of members stand under the same keys. -/
theorem names_valuesOf (ms : Members) : (valuesOf ms).map Prod.fst = ms.map Prod.fst := by
  induction ms with
  | nil => rfl
  | cons m ms ih => rw [valuesOf, List.map_cons, List.map_cons, ih]

/-- A value is looked up where its member is. -/
theorem lookup_valuesOf (key : String) (ms : Members) :
    (valuesOf ms).lookup key = (get? key ms).map Node.toValue := by
  unfold get?
  induction ms with
  | nil => rfl
  | cons m ms ih =>
      rw [valuesOf, List.lookup_cons, List.lookup_cons, ih]
      cases key == m.1 <;> rfl

end ProfileAdmin.Toml
