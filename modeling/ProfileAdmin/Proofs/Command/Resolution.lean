import ProfileAdmin.Proofs.Command.Overriding

/-!
# Proofs.Command.Resolution — where every setting comes from

1. **Merging**: each setting is the one that the flags tell, or else the one of other settings.
   A switch is on if either of them has it on.
2. **Grounds**: the settings that the flags are laid over. A file gives them, or else the flags
   themselves.
3. **Lacks**: the flags that would have to be there without a file.
4. **Resolution**: settings are given exactly if there are grounds and nothing is wrong with what
   is merged.
-/

namespace ProfileAdmin.Command

open Client (checkedSettings settingsOf)
open Config (Settings Verification)
open Host (Effect FileError)

variable {σ : Type} {answer : (e : Effect) → σ → e.Answer × σ} {s : σ} {f : Flags} {path : String}
  {t c : Settings}

/-! ## Merging -/

/-- A value is the one that is told. If none is told, it is the one that there would be
otherwise. -/
inductive Takes {α : Type} : Option α → α → α → Prop where
  | told (a otherwise : α) : Takes (some a) otherwise a
  | untold (otherwise : α) : Takes none otherwise otherwise

/-- Settings are what flags and other settings say together. -/
structure Flags.Merges (f : Flags) (t c : Settings) : Prop where
  certificate : Takes f.certificate t.certificate c.certificate
  key : Takes f.key t.key c.key
  endpoint : Takes f.endpoint t.endpoint c.endpoint
  requester : Takes f.requester t.requester c.requester
  bundle : ∀ path, f.bundle = some path → c.verification = .caBundle path
  verification : f.bundle = none → c.verification = t.verification
  payloads : c.debugging.payloads = true ↔ f.showsPayloads = true ∨ t.debugging.payloads = true
  headers : c.debugging.headers = true ↔ f.showsHeaders = true ∨ t.debugging.headers = true

/-- To take a value is to have a default for it. -/
theorem takes_iff {α : Type} {told : Option α} {otherwise a : α} :
    Takes told otherwise a ↔ a = told.getD otherwise := by
  constructor
  · intro htakes
    cases htakes with
    | told => rfl
    | untold => rfl
  · intro ha
    rw [ha]
    cases told with
    | none => exact Takes.untold otherwise
    | some b => exact Takes.told b otherwise

/-- There is one way to merge. -/
theorem Flags.merges_iff : f.Merges t c ↔ c = f.laidOver t := by
  constructor
  · intro hmerges
    have hverification : c.verification = (f.bundle.map .caBundle).getD t.verification := by
      cases hbundle : f.bundle with
      | none => exact hmerges.verification hbundle
      | some path => exact hmerges.bundle path hbundle
    have hpayloads : c.debugging.payloads = (t.debugging.payloads || f.showsPayloads) := by
      rw [Bool.eq_iff_iff, hmerges.payloads, Bool.or_eq_true, or_comm]
    have hheaders : c.debugging.headers = (t.debugging.headers || f.showsHeaders) := by
      rw [Bool.eq_iff_iff, hmerges.headers, Bool.or_eq_true, or_comm]
    unfold laidOver
    rw [← takes_iff.mp hmerges.endpoint, ← takes_iff.mp hmerges.requester,
      ← takes_iff.mp hmerges.certificate, ← takes_iff.mp hmerges.key, ← hverification,
      ← hpayloads, ← hheaders]
  · intro hc
    rw [hc]
    constructor
    case certificate => exact takes_iff.mpr rfl
    case key => exact takes_iff.mpr rfl
    case endpoint => exact takes_iff.mpr rfl
    case requester => exact takes_iff.mpr rfl
    case bundle =>
      intro path hbundle
      simp [laidOver, hbundle]
    case verification =>
      intro hbundle
      simp [laidOver, hbundle]
    case payloads => simp [laidOver, or_comm]
    case headers => simp [laidOver, or_comm]

/-! ## Grounds -/

/-- The settings that the flags are laid over. -/
inductive Flags.Grounds (answer : (e : Effect) → σ → e.Answer × σ) (s : σ) (f : Flags) :
    Settings → Prop where
  /-- A file that describes settings without a flaw. -/
  | file {path : String} {t : Settings} (config : f.config = some path)
      (describes : Describes answer path s t) (flawless : t.flaw? = none) : Grounds answer s f t
  /-- The flags themselves, if they tell all that cannot be left open. -/
  | flags {cert key hostport requesterid : String} (config : f.config = none)
      (certificate : f.certificate = some cert) (ownKey : f.key = some key)
      (endpoint : f.endpoint = some hostport) (requester : f.requester = some requesterid) :
      Grounds answer s f ⟨hostport, requesterid, cert, key, .disabled, .off⟩

/-- A text gives the settings that it describes, if these have no flaw. -/
theorem settingsOf_eq_ok_iff {text : String} :
    settingsOf text = .ok t ↔ described? text = some t ∧ t.flaw? = none := by
  have hchecked : ∀ t', checkedSettings t' = .ok t ↔ t' = t ∧ t.flaw? = none := by
    intro t'
    rw [checkedSettings]
    cases hflaw : t'.flaw? with
    | some flaw =>
        constructor
        · intro hok
          cases hok
        · rintro ⟨rfl, hnone⟩
          rw [hnone] at hflaw
          cases hflaw
    | none =>
        constructor
        · intro hok
          cases hok
          exact ⟨rfl, hflaw⟩
        · rintro ⟨rfl, -⟩
          rfl
  unfold settingsOf described?
  cases Toml.document? text with
  | none => simp
  | some v =>
      cases hshape : Settings.shape.ofValue v with
      | error m => simp [hshape, Except.toOption]
      | ok t' => simpa [hshape, Except.toOption] using hchecked t'

/-- A file describes one thing only. -/
theorem Describes.unique {t' : Settings} (h : Describes answer path s t)
    (h' : Describes answer path s t') : t = t' := by
  obtain ⟨bytes, text, hbytes, htext, hdescribed⟩ := h
  obtain ⟨bytes', text', hbytes', htext', hdescribed'⟩ := h'
  rw [hbytes] at hbytes'
  cases hbytes'
  rw [htext] at htext'
  cases htext'
  rw [hdescribed] at hdescribed'
  exact Option.some.inj hdescribed'

/-- A file gives the settings that it describes, if these have no flaw. -/
theorem settingsIn_eq_ok_iff :
    settingsIn path (answer (.fileBytes path) s).1 = .ok t ↔
      Describes answer path s t ∧ t.flaw? = none := by
  unfold Describes
  generalize (answer (.fileBytes path) s).1 = reply
  change Except FileError (List UInt8) at reply
  -- The file cannot be read, or it is no text, or it is one.
  rcases reply with e | bytes
  · refine iff_of_false nofun ?_
    rintro ⟨⟨bytes, text, hbytes, -⟩, -⟩
    cases hbytes
  · rw [settingsIn]
    constructor
    · intro hok
      cases htext : Text.Utf8.text? bytes with
      | none =>
          rw [htext] at hok
          cases hok
      | some text =>
          rw [htext] at hok
          obtain ⟨hdescribed, hflawless⟩ := settingsOf_eq_ok_iff.mp hok
          exact ⟨⟨bytes, text, rfl, htext, hdescribed⟩, hflawless⟩
    · rintro ⟨⟨bytes', text, hbytes, htext, hdescribed⟩, hflawless⟩
      cases hbytes
      rw [htext]
      exact settingsOf_eq_ok_iff.mpr ⟨hdescribed, hflawless⟩

/-! ## Lacks -/

/-- A flag is not there, and without a file it would have to be. -/
inductive Flags.Lacks (f : Flags) : String → Prop where
  | cert (h : f.certificate = none) : Lacks f "--cert"
  | key (h : f.key = none) : Lacks f "--key"
  | hostport (h : f.endpoint = none) : Lacks f "--hostport"
  | requesterid (h : f.requester = none) : Lacks f "--requesterid"

/-- A flag is missing exactly if it is not there and would have to be. -/
theorem Flags.mem_missing_iff {name : String} : name ∈ f.missing ↔ f.Lacks name := by
  have hmem : name ∈ f.missing ↔ (name, none) ∈ f.needed := by
    unfold missing
    rw [List.mem_map]
    constructor
    · rintro ⟨⟨name', told⟩, hflag, rfl⟩
      obtain ⟨hneeded, hnone⟩ := List.mem_filter.mp hflag
      cases Option.isNone_iff_eq_none.mp hnone
      exact hneeded
    · intro hneeded
      exact ⟨(name, none), List.mem_filter.mpr ⟨hneeded, rfl⟩, rfl⟩
  rw [hmem]
  constructor
  · intro hneeded
    simp only [needed, List.mem_cons, Prod.mk.injEq, List.not_mem_nil, or_false] at hneeded
    rcases hneeded with ⟨rfl, h⟩ | ⟨rfl, h⟩ | ⟨rfl, h⟩ | ⟨rfl, h⟩
    · exact Lacks.cert h.symm
    · exact Lacks.key h.symm
    · exact Lacks.hostport h.symm
    · exact Lacks.requesterid h.symm
  · intro hlacks
    cases hlacks with
    | cert h => simp [needed, h]
    | key h => simp [needed, h]
    | hostport h => simp [needed, h]
    | requesterid h => simp [needed, h]

/-- What is missing is listed in the order of the flags. -/
theorem Flags.missing_sublist (f : Flags) :
    f.missing.Sublist ["--cert", "--key", "--hostport", "--requesterid"] :=
  List.filter_sublist.map Prod.fst

example : Flags.missing { key := some "client.key" } = ["--cert", "--hostport", "--requesterid"] :=
  rfl

/-- Without a file there are grounds as soon as nothing is missing. -/
theorem Flags.grounds_alone (hconfig : f.config = none) (h : f.missing = []) :
    f.Grounds answer s f.alone := by
  have hthere : ∀ name, ¬ f.Lacks name := by
    intro name hlacks
    have hmem := mem_missing_iff.mpr hlacks
    rw [h] at hmem
    cases hmem
  -- None of the four is missing, so each of them is told.
  obtain ⟨cert, hcert⟩ := Option.ne_none_iff_exists'.mp fun hn => hthere _ (Lacks.cert hn)
  obtain ⟨key, hkey⟩ := Option.ne_none_iff_exists'.mp fun hn => hthere _ (Lacks.key hn)
  obtain ⟨hostport, hhostport⟩ :=
    Option.ne_none_iff_exists'.mp fun hn => hthere _ (Lacks.hostport hn)
  obtain ⟨requesterid, hrequesterid⟩ :=
    Option.ne_none_iff_exists'.mp fun hn => hthere _ (Lacks.requesterid hn)
  have halone : f.alone = ⟨hostport, requesterid, cert, key, .disabled, .off⟩ := by
    simp [alone, hcert, hkey, hhostport, hrequesterid]
  rw [halone]
  exact Grounds.flags hconfig hcert hkey hhostport hrequesterid

/-! ## Resolution -/

/-- What comes of the flags without a file. -/
theorem resolve_run_alone (hconfig : f.config = none)
    (answer : (e : Effect) → σ → e.Answer × σ) (s : σ) :
    (f.resolve.run.run answer s).1 =
      if f.missing = [] then
        (checkedSettings (f.laidOver f.alone)).mapError Error.unusableSettings
      else .error (.missingSettings f.missing) := by
  unfold Flags.resolve Flags.base
  rw [hconfig]
  dsimp only
  by_cases hmissing : f.missing = []
  · rw [if_pos hmissing, if_pos (List.isEmpty_iff.mpr hmissing), pure_bind]
    cases checkedSettings (f.laidOver f.alone) with
    | error e => rfl
    | ok c => rfl
  · rw [if_neg hmissing, if_neg (mt List.isEmpty_iff.mp hmissing)]
    rfl

/-- On its grounds, a resolution ends with a check of what is merged. -/
theorem Flags.Grounds.resolve_eq (h : f.Grounds answer s t) :
    (f.resolve.run.run answer s).1 =
      (checkedSettings (f.laidOver t)).mapError Error.unusableSettings := by
  cases h with
  | file config describes flawless => exact resolve_of_flawless config describes flawless
  | flags config certificate ownKey endpoint requester =>
      have hmissing : f.missing = [] := by
        simp [missing, needed, certificate, ownKey, endpoint, requester]
      rw [resolve_run_alone config, if_pos hmissing]
      simp [alone, certificate, ownKey, endpoint, requester]

/-- Without grounds there are no settings. -/
theorem Flags.Grounds.of_resolve_eq_ok (h : (f.resolve.run.run answer s).1 = .ok c) :
    ∃ t, f.Grounds answer s t := by
  -- The grounds are the flags themselves, or a file that could be used.
  cases hconfig : f.config with
  | none =>
      rw [resolve_run_alone hconfig] at h
      by_cases hmissing : f.missing = []
      · exact ⟨f.alone, f.grounds_alone hconfig hmissing⟩
      · rw [if_neg hmissing] at h
        cases h
  | some path =>
      rw [resolve_run hconfig] at h
      cases hfile : settingsIn path (answer (.fileBytes path) s).1 with
      | error e =>
          rw [hfile] at h
          cases h
      | ok t =>
          obtain ⟨hdescribes, hflawless⟩ := settingsIn_eq_ok_iff.mp hfile
          exact ⟨t, Grounds.file hconfig hdescribes hflawless⟩

/-- Resolution is a merge that ends with a check. Settings are given exactly if there are grounds,
and they are then what the flags and the grounds say together; a flaw of these is reported. Without
a file the flags that are missing are listed in their order. A file that cannot be read, or does not
describe settings without a flaw, is named. So all settings that are given are without a flaw, and a
server is trusted unchecked only if neither a flag nor the file names a bundle. -/
theorem resolve_eq_merge (answer : (e : Effect) → σ → e.Answer × σ) (f : Flags) (s : σ) :
    let result := (f.resolve.run.run answer s).1
    (∀ c, result = .ok c ↔ ∃ t, f.Grounds answer s t ∧ f.Merges t c ∧ c.flaw? = none) ∧
      (∀ t c flaw, f.Grounds answer s t → f.Merges t c → c.flaw? = some flaw →
        result = .error (.unusableSettings (.invalid flaw))) ∧
      (f.config = none → (∃ name, f.Lacks name) →
        ∃ names, result = .error (.missingSettings names) ∧
          names.Sublist ["--cert", "--key", "--hostport", "--requesterid"] ∧
          ∀ name, name ∈ names ↔ f.Lacks name) ∧
      (∀ path, f.config = some path → (¬ ∃ t, Describes answer path s t ∧ t.flaw? = none) →
        ∃ e, result = .error (.unusableFile path e) ∧
          (Error.unusableFile path e).message = s!"cannot load {path}") ∧
      ∀ c, result = .ok c → c.flaw? = none ∧
        (c.verification = .disabled → f.bundle = none ∧
          ∀ path t, f.config = some path → Describes answer path s t →
            ¬ ∃ bundle, t.verification = .caBundle bundle) := by
  intro result
  have hchecked : ∀ t, f.Grounds answer s t →
      result = (checkedSettings (f.laidOver t)).mapError Error.unusableSettings :=
    fun _ hgrounds => hgrounds.resolve_eq
  have hok : ∀ c, result = .ok c ↔
      ∃ t, f.Grounds answer s t ∧ f.Merges t c ∧ c.flaw? = none := by
    intro c
    constructor
    · intro hresult
      obtain ⟨t, hgrounds⟩ := Flags.Grounds.of_resolve_eq_ok hresult
      rw [hchecked t hgrounds, checkedSettings] at hresult
      cases hflaw : (f.laidOver t).flaw? with
      | some flaw =>
          rw [hflaw] at hresult
          cases hresult
      | none =>
          rw [hflaw] at hresult
          cases hresult
          exact ⟨t, hgrounds, Flags.merges_iff.mpr rfl, hflaw⟩
    · rintro ⟨t, hgrounds, hmerges, hflawless⟩
      rw [hchecked t hgrounds, ← Flags.merges_iff.mp hmerges, checkedSettings, hflawless]
      rfl
  refine ⟨hok, ?_, ?_, ?_, ?_⟩
  · intro t c flaw hgrounds hmerges hflaw
    rw [hchecked t hgrounds, ← Flags.merges_iff.mp hmerges, checkedSettings, hflaw]
    rfl
  · rintro hconfig ⟨name, hlacks⟩
    have hmissing : f.missing ≠ [] := List.ne_nil_of_mem (Flags.mem_missing_iff.mpr hlacks)
    have hresult : result = .error (.missingSettings f.missing) := by
      show (f.resolve.run.run answer s).1 = _
      rw [resolve_run_alone hconfig, if_neg hmissing]
    exact ⟨f.missing, hresult, f.missing_sublist, fun _ => Flags.mem_missing_iff⟩
  · intro path hconfig hnone
    have hresult : result = _ := resolve_run hconfig answer s
    cases hfile : settingsIn path (answer (.fileBytes path) s).1 with
    | ok t => exact absurd ⟨t, settingsIn_eq_ok_iff.mp hfile⟩ hnone
    | error e =>
        rw [hfile] at hresult
        exact ⟨e, hresult, rfl⟩
  · intro c hresult
    obtain ⟨t, hgrounds, hmerges, hflawless⟩ := (hok c).mp hresult
    refine ⟨hflawless, fun hdisabled => ?_⟩
    -- A bundle that is told would have been taken.
    have hbundle : f.bundle = none := by
      refine Option.eq_none_iff_forall_ne_some.mpr fun bundle htold => ?_
      have hverification := hmerges.bundle bundle htold
      rw [hdisabled] at hverification
      cases hverification
    refine ⟨hbundle, ?_⟩
    rintro path t' hconfig hdescribes ⟨bundle, hnamed⟩
    -- The file describes one thing only, so these are the grounds.
    cases hgrounds with
    | flags hnoconfig =>
        rw [hnoconfig] at hconfig
        cases hconfig
    | file hconfig' hdescribes' hflawless' =>
        rw [hconfig'] at hconfig
        cases hconfig
        rw [hdescribes.unique hdescribes'] at hnamed
        rw [← hmerges.verification hbundle, hdisabled] at hnamed
        cases hnamed

end ProfileAdmin.Command
