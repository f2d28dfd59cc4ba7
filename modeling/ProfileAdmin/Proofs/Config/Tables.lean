import ProfileAdmin.Config.Settings
import ProfileAdmin.Proofs.Schema.Table

/-!
# Proofs.Config.Tables — settings from the tables of a document

1. **Verification**: the member `mode` says which way it is, wherever it stands among the others.
2. **Switches** that are absent are off.
3. **Settings**, from what stands under their six names.
-/

namespace ProfileAdmin.Config

open Document (Value Mismatch)
open Schema (Fields)

variable {ms : List (String × Value)} {name : String}

/-! ## Verification -/

/-- What is left out has another name. -/
theorem lookup_filter_of_ne {other : String} (h : name ≠ other) (ms : List (String × Value)) :
    (ms.filter fun m => m.1 ≠ other).lookup name = ms.lookup name := by
  induction ms with
  | nil => rfl
  | cons m ms ih =>
      by_cases hm : m.1 = other
      · have hne : (name == m.1) = false := beq_false_of_ne (hm ▸ h)
        rw [List.filter_cons_of_neg (by simpa using hm), List.lookup_cons, hne, ih]
      · rw [List.filter_cons_of_pos (by simpa using hm), List.lookup_cons, List.lookup_cons, ih]

namespace Verification

variable {mode : Mode} {before : List (String × Value)}

theorem Mode.ofName_name (mode : Mode) : Mode.ofName mode.name = .ok mode := by
  cases mode <;> rfl

/-- Once the mode has been met all other members are kept. -/
theorem foldlM_putMember_met (hnone : "mode" ∉ ms.map Prod.fst) (met : Option Mode) :
    ms.foldlM putMember (met, before) = .ok (met, ms.reverse ++ before) := by
  induction ms generalizing before with
  | nil => rfl
  | cons m ms ih =>
      obtain ⟨hm, hnone⟩ : "mode" ≠ m.1 ∧ "mode" ∉ ms.map Prod.fst :=
        not_or.mp (mt List.mem_cons.mpr hnone)
      have hput : putMember (met, before) m = .ok (met, m :: before) := if_neg (Ne.symm hm)
      rw [List.foldlM_cons, hput]
      show ms.foldlM putMember (met, m :: before) = _
      rw [ih hnone, List.reverse_cons, List.append_assoc]
      rfl

/-- The mode is met wherever it stands, and all other members are kept in their order. -/
theorem foldlM_putMember (hnames : (ms.map Prod.fst).Nodup)
    (hmode : ms.lookup "mode" = some (.text mode.name)) :
    ms.foldlM putMember (none, before) =
      .ok (some mode, (ms.filter fun m => m.1 ≠ "mode").reverse ++ before) := by
  induction ms generalizing before with
  | nil => exact nomatch hmode
  | cons m ms ih =>
      obtain ⟨hfirst, hnames⟩ := List.nodup_cons.mp hnames
      rw [List.lookup_cons] at hmode
      by_cases hm : m.1 = "mode"
      · rw [hm, beq_self_eq_true] at hmode
        have hvalue : m.2 = .text mode.name := Option.some.inj hmode
        have hput : putMember (none, before) m = .ok (some mode, before) := by
          refine (if_pos hm).trans ?_
          show (Mode.ofValue m.2 >>= fun mode => pure (some mode, before)) = _
          rw [hvalue]
          show (Mode.ofName mode.name >>= fun mode => pure (some mode, before)) = _
          rw [Mode.ofName_name]
          rfl
        -- Names are distinct, so there is no other mode to be left out.
        have hkept : (ms.filter fun m => m.1 ≠ "mode") = ms := by
          refine List.filter_eq_self.mpr fun other hother => ?_
          refine decide_eq_true fun heq => hfirst ?_
          rw [hm, ← heq]
          exact List.mem_map_of_mem hother
        rw [List.foldlM_cons, hput, List.filter_cons_of_neg (by simpa using hm), hkept]
        exact foldlM_putMember_met (hm ▸ hfirst) (some mode)
      · rw [beq_false_of_ne (Ne.symm hm)] at hmode
        have hput : putMember (none, before) m = .ok (none, m :: before) := if_neg hm
        rw [List.foldlM_cons, hput, List.filter_cons_of_pos (by simpa using hm)]
        show ms.foldlM putMember (none, m :: before) = _
        rw [ih hnames hmode, List.reverse_cons, List.append_assoc]
        rfl

/-- What stands in the table of a verification. -/
structure In (v : Verification) (ms : List (String × Value)) : Prop where
  names : (ms.map Prod.fst).Nodup
  mode : ms.lookup "mode" =
    some (.text (match v with | .disabled => Mode.disabled | .caBundle _ => Mode.caBundle).name)
  path : ∀ path, v = .caBundle path → ms.lookup "path" = some (.text path)

/-- A table in which a verification stands is read as this verification. -/
theorem ofValue_table {v : Verification} (h : v.In ms) : ofValue (.table ms) = .ok v := by
  have hmembers : ms.foldlM putMember (none, []) =
      .ok (some _, (ms.filter fun m => m.1 ≠ "mode").reverse ++ []) :=
    foldlM_putMember h.names h.mode
  rw [List.append_nil] at hmembers
  show (ms.foldlM putMember (none, []) >>= _) = _
  rw [hmembers]
  show ofMode _ (.table (ms.filter fun m => m.1 ≠ "mode").reverse.reverse) = _
  rw [List.reverse_reverse]
  cases v with
  | disabled => rfl
  | caBundle path =>
      -- The path is looked for among what is left when the mode is gone.
      have hnames : ((ms.filter fun m => m.1 ≠ "mode").map Prod.fst).Nodup :=
        h.names.sublist (List.Sublist.map Prod.fst List.filter_sublist)
      have hpath : bundleFields.ofTable (ms.filter fun m => m.1 ≠ "mode") = .ok (path, ()) := by
        refine Fields.ofTable_eq (by decide) hnames ⟨?_, trivial⟩
        show Schema.Field.Takes _ _ (List.lookup "path" _) _
        rw [lookup_filter_of_ne (by decide), h.path path rfl]
        exact ⟨rfl, rfl⟩
      show (bundleFields.ofTable (ms.filter fun m => m.1 ≠ "mode") >>= _) = _
      rw [hpath]
      rfl

end Verification

/-! ## Switches -/

/-- A switch stands under its name, unless it is off. -/
def SwitchIn (b : Bool) (found : Option Value) : Prop :=
  found = some (.flag b) ∨ (found = none ∧ b = false)

/-- What stands in the table of the switches. -/
structure Debugging.In (d : Debugging) (ms : List (String × Value)) : Prop where
  names : (ms.map Prod.fst).Nodup
  payloads : SwitchIn d.payloads (ms.lookup "print_payload")
  headers : SwitchIn d.headers (ms.lookup "print_headers")

/-- A switch that is absent takes its default. -/
theorem SwitchIn.takes {b : Bool} {found : Option Value} (h : SwitchIn b found) :
    (Schema.defaulted name Schema.flag false).Takes none found b := by
  rcases h with rfl | ⟨rfl, rfl⟩
  · exact ⟨rfl, rfl⟩
  · exact rfl

/-- A table in which switches stand is read as these switches. -/
theorem Debugging.ofValue_table {d : Debugging} (h : d.In ms) :
    Debugging.shape.ofValue (.table ms) = .ok d := by
  have hrow : (Schema.Fields.cons (Schema.defaulted "print_payload" Schema.flag false) <|
      .cons (Schema.defaulted "print_headers" Schema.flag false) .nil).ofTable ms =
        .ok (d.payloads, d.headers, ()) :=
    Fields.ofTable_eq (by decide) h.names ⟨h.payloads.takes, h.headers.takes, trivial⟩
  show _ <$> Fields.ofTable _ ms = _
  rw [hrow]
  rfl

/-! ## Settings -/

/-- What stands under the name of a member that has a fallback. -/
def MemberIn {α : Type} (s : Schema.Shape α) (a fallback : α) (found : Option Value) : Prop :=
  (∃ v, found = some v ∧ s.ofValue v = .ok a) ∨ (found = none ∧ a = fallback)

/-- A member that is absent takes its fallback. -/
theorem MemberIn.takes {α : Type} {s : Schema.Shape α} {a fallback : α} {found : Option Value}
    (h : MemberIn s a fallback found) : (Schema.defaulted name s fallback).Takes none found a := by
  rcases h with ⟨v, rfl, hv⟩ | ⟨rfl, rfl⟩
  · exact ⟨rfl, hv⟩
  · exact rfl

/-- What stands in the document of settings. -/
structure Settings.In (c : Settings) (ms : List (String × Value)) : Prop where
  names : (ms.map Prod.fst).Nodup
  endpoint : ms.lookup "endpoint" = some (.text c.endpoint)
  requester : ms.lookup "requester_id" = some (.text c.requester)
  certificate : ms.lookup "cert_path" = some (.text c.certificate)
  key : ms.lookup "key_path" = some (.text c.key)
  verification :
    MemberIn Verification.shape c.verification .disabled (ms.lookup "server_verification")
  debugging : MemberIn Debugging.shape c.debugging .off (ms.lookup "debug")

/-- A document in which settings stand is read as these settings. -/
theorem Settings.ofValue_table {c : Settings} (h : c.In ms) :
    Settings.shape.ofValue (.table ms) = .ok c := by
  have htext : ∀ {name : String} {s : String} {found : Option Value}, found = some (.text s) →
      (Schema.required name Schema.text).Takes none found s ∧
        (Schema.required name Schema.path).Takes none found s := by
    rintro name s found rfl
    exact ⟨⟨rfl, rfl⟩, ⟨rfl, rfl⟩⟩
  have hrow : (Schema.Fields.cons (Schema.required "endpoint" Schema.text) <|
      .cons (Schema.required "requester_id" Schema.text) <|
      .cons (Schema.required "cert_path" Schema.path) <|
      .cons (Schema.required "key_path" Schema.path) <|
      .cons (Schema.defaulted "server_verification" Verification.shape .disabled) <|
      .cons (Schema.defaulted "debug" Debugging.shape .off) .nil).ofTable ms =
        .ok (c.endpoint, c.requester, c.certificate, c.key, c.verification, c.debugging, ()) :=
    Fields.ofTable_eq (by decide) h.names
      ⟨(htext h.endpoint).1, (htext h.requester).1, (htext h.certificate).2, (htext h.key).2,
        h.verification.takes, h.debugging.takes, trivial⟩
  show _ <$> Fields.ofTable _ ms = _
  rw [hrow]
  rfl

end ProfileAdmin.Config
