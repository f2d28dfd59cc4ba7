import ProfileAdmin.Command.Flags
import ProfileAdmin.Proofs.Client.Endpoint
import ProfileAdmin.Proofs.Command.Execution
import ProfileAdmin.Proofs.Config.Endpoint
import ProfileAdmin.Proofs.Text.Utf8

/-!
# Proofs.Command.Overriding — flags over the values of a file

1. **Overriding**: settings that differ at most in what the flags tell. These are the ones that
   come to the same under the flags.
2. **Files**: the settings that a file describes, with or without a flaw.
3. **Resolution**: the settings of a file are checked before the flags are laid over them. So a
   flaw counts even if the value that has it is overridden.
-/

namespace ProfileAdmin.Command

open Client
open Config (Settings Verification flaw?_congr settingsAt)
open Host (Effect Program)

variable {σ τ : Type} {f : Flags} {path : String} {t t' : Settings}

/-! ## Overriding -/

/-- Settings differ at most in what the flags tell. A switch is told if it is on. -/
structure Flags.Covers (f : Flags) (t t' : Settings) : Prop where
  endpoint : f.endpoint = none → t.endpoint = t'.endpoint
  requester : f.requester = none → t.requester = t'.requester
  certificate : f.certificate = none → t.certificate = t'.certificate
  key : f.key = none → t.key = t'.key
  verification : f.bundle = none → t.verification = t'.verification
  payloads : f.showsPayloads = false → t.debugging.payloads = t'.debugging.payloads
  headers : f.showsHeaders = false → t.debugging.headers = t'.debugging.headers

/-- What is told does not depend on the value behind it. -/
theorem getD_eq_getD_iff {α : Type} {told : Option α} {a b : α} :
    told.getD a = told.getD b ↔ (told = none → a = b) := by
  cases told <;> simp

/-- So it is with switches. -/
theorem or_eq_or_iff {told a b : Bool} : (a || told) = (b || told) ↔ (told = false → a = b) := by
  cases told <;> simp

/-- The flags cover a difference exactly if nothing is left of it under them. -/
theorem Flags.laidOver_eq_iff : f.laidOver t = f.laidOver t' ↔ f.Covers t t' := by
  -- A bundle is told by its path, and taken as a way to verify.
  have hbundle : f.bundle.map Verification.caBundle = none ↔ f.bundle = none :=
    Option.map_eq_none_iff
  unfold laidOver
  rw [Settings.mk.injEq, Config.Debugging.mk.injEq]
  simp only [getD_eq_getD_iff, or_eq_or_iff, hbundle]
  constructor
  · rintro ⟨hendpoint, hrequester, hcertificate, hkey, hverification, hpayloads, hheaders⟩
    exact ⟨hendpoint, hrequester, hcertificate, hkey, hverification, hpayloads, hheaders⟩
  · rintro ⟨hendpoint, hrequester, hcertificate, hkey, hverification, hpayloads, hheaders⟩
    exact ⟨hendpoint, hrequester, hcertificate, hkey, hverification, hpayloads, hheaders⟩

/-! ## Files -/

/-- The settings that a text describes, usable or not. -/
def described? (text : String) : Option Settings :=
  (Toml.document? text).bind fun v => (Settings.shape.ofValue v).toOption

/-- A file can be read, it is a text, and these are the settings that it describes. -/
def Describes (answer : (e : Effect) → σ → e.Answer × σ) (path : String) (s : σ)
    (t : Settings) : Prop :=
  ∃ bytes text, (answer (.fileBytes path) s).1 = Except.ok bytes ∧
    Text.Utf8.text? bytes = some text ∧ described? text = some t

/-- Settings that a text describes are given once they are checked. -/
theorem settingsOf_described {text : String} (h : described? text = some t) :
    settingsOf text = checkedSettings t := by
  obtain ⟨v, hdocument, hshape⟩ := Option.bind_eq_some_iff.mp h
  have hvalue : Settings.shape.ofValue v = .ok t := by
    cases hmember : Settings.shape.ofValue v with
    | error m =>
        rw [hmember] at hshape
        cases hshape
    | ok t' =>
        rw [hmember] at hshape
        exact congrArg Except.ok (Option.some.inj hshape)
  unfold settingsOf
  rw [hdocument]
  dsimp only
  rw [hvalue]

/-- What is made of the bytes of a file of settings. -/
def settingsIn (path : String) :
    Except Host.FileError (List UInt8) → Except SettingsError Settings
  | .error e => .error (.unreadable path e)
  | .ok bytes =>
    match Text.Utf8.text? bytes with
    | some text => settingsOf text
    | none => .error (.unreadable path .notText)

/-- To load settings is to read a file. -/
theorem loadSettings_eq (path : String) :
    (loadSettings path).run =
      .perform (.fileBytes path) fun reply => .done (settingsIn path reply) := by
  refine congrArg (Program.perform _) (funext fun reply => ?_)
  change Except Host.FileError (List UInt8) at reply
  rcases reply with e | bytes
  · rfl
  · dsimp only [Program.bind, settingsIn]
    cases Text.Utf8.text? bytes with
    | none => rfl
    | some text =>
        dsimp only [pure, Program.bind, Function.comp_apply, ExceptT.bindCont]
        cases settingsOf text <;> rfl

/-- The settings that a file describes are checked and given. -/
theorem Describes.settingsIn_eq {answer : (e : Effect) → σ → e.Answer × σ} {s : σ}
    (h : Describes answer path s t) :
    settingsIn path (answer (.fileBytes path) s).1 = checkedSettings t := by
  obtain ⟨bytes, text, hbytes, htext, hdescribed⟩ := h
  rw [hbytes, settingsIn, htext]
  exact settingsOf_described hdescribed

/-! ## Resolution -/

/-- The settings of a file under flags. -/
theorem resolve_run (hconfig : f.config = some path) (answer : (e : Effect) → σ → e.Answer × σ)
    (s : σ) :
    (f.resolve.run.run answer s).1 =
      match settingsIn path (answer (.fileBytes path) s).1 with
      | .error e => .error (.unusableFile path e)
      | .ok t => (checkedSettings (f.laidOver t)).mapError Error.unusableSettings := by
  unfold Flags.resolve Flags.base
  rw [hconfig]
  dsimp only
  rw [bind_assoc, run_lift_seq, loadSettings_eq]
  dsimp only [Program.run]
  cases settingsIn path (answer (.fileBytes path) s).1 with
  | error e => rfl
  | ok t =>
      dsimp only
      rw [pure_bind]
      cases checkedSettings (f.laidOver t) <;> rfl

/-- A flaw of the file is reported, whatever the flags tell. -/
theorem resolve_of_flaw {answer : (e : Effect) → σ → e.Answer × σ} {s : σ} {flaw : Config.Flaw}
    (hconfig : f.config = some path) (hfile : Describes answer path s t)
    (hflaw : t.flaw? = some flaw) :
    (f.resolve.run.run answer s).1 = .error (.unusableFile path (.invalid flaw)) := by
  have hchecked : checkedSettings t = .error (.invalid flaw) := by rw [checkedSettings, hflaw]
  rw [resolve_run hconfig, hfile.settingsIn_eq, hchecked]

/-- A file without a flaw leaves the rest to the flags. -/
theorem resolve_of_flawless {answer : (e : Effect) → σ → e.Answer × σ} {s : σ}
    (hconfig : f.config = some path) (hfile : Describes answer path s t)
    (hflawless : t.flaw? = none) :
    (f.resolve.run.run answer s).1 =
      (checkedSettings (f.laidOver t)).mapError Error.unusableSettings := by
  have hchecked : checkedSettings t = .ok t := by rw [checkedSettings, hflawless]
  rw [resolve_run hconfig, hfile.settingsIn_eq, hchecked]

/-- A flaw of the file is reported exactly if it has one. -/
theorem resolve_eq_unusableFile_iff {answer : (e : Effect) → σ → e.Answer × σ} {s : σ}
    {flaw : Config.Flaw} (hconfig : f.config = some path) (hfile : Describes answer path s t) :
    (f.resolve.run.run answer s).1 = .error (.unusableFile path (.invalid flaw)) ↔
      t.flaw? = some flaw := by
  constructor
  · intro hresult
    cases hflaw : t.flaw? with
    | some other =>
        rw [resolve_of_flaw hconfig hfile hflaw] at hresult
        cases hresult
        rfl
    | none =>
        -- Whatever is wrong with what is merged, it is not said of the file.
        rw [resolve_of_flawless hconfig hfile hflaw] at hresult
        cases hmerged : checkedSettings (f.laidOver t) with
        | error e =>
            rw [hmerged] at hresult
            cases hresult
        | ok merged =>
            rw [hmerged] at hresult
            cases hresult
  · exact resolve_of_flaw hconfig hfile

/-- Two files differ at most in what the flags tell. They come to the same exactly if the same is
wrong with both before the flags are laid over them, which is so if the flags tell neither an
endpoint nor a requester. A flaw of a file is reported by itself, and without one the settings
under the flags are given if these have none. -/
theorem resolve_covered_iff {answer : (e : Effect) → σ → e.Answer × σ}
    {answer' : (e : Effect) → τ → e.Answer × τ} {s : σ} {s' : τ} (hconfig : f.config = some path)
    (hfile : Describes answer path s t) (hfile' : Describes answer' path s' t')
    (hcovers : f.Covers t t') :
    ((f.resolve.run.run answer s).1 = (f.resolve.run.run answer' s').1 ↔ t.flaw? = t'.flaw?) ∧
    (f.endpoint = none → f.requester = none →
      (f.resolve.run.run answer s).1 = (f.resolve.run.run answer' s').1) ∧
    (∀ flaw, (f.resolve.run.run answer s).1 = .error (.unusableFile path (.invalid flaw)) ↔
      t.flaw? = some flaw) ∧
    ((f.laidOver t).flaw? = none →
      ((f.resolve.run.run answer s).1 = .ok (f.laidOver t) ↔ t.flaw? = none)) := by
  have hmerged : f.laidOver t = f.laidOver t' := Flags.laidOver_eq_iff.mpr hcovers
  have hsame : (f.resolve.run.run answer s).1 = (f.resolve.run.run answer' s').1 ↔
      t.flaw? = t'.flaw? := by
    constructor
    · -- The flaw of a file can be read off what comes of it.
      intro hresults
      refine Option.ext fun flaw => ?_
      rw [← resolve_eq_unusableFile_iff hconfig hfile, hresults]
      exact resolve_eq_unusableFile_iff hconfig hfile'
    · intro hflaws
      cases hflaw : t.flaw? with
      | some flaw =>
          rw [resolve_of_flaw hconfig hfile hflaw,
            resolve_of_flaw hconfig hfile' (hflaws.symm.trans hflaw)]
      | none =>
          -- Both files get as far as the flags, under which they are the same.
          rw [resolve_of_flawless hconfig hfile hflaw,
            resolve_of_flawless hconfig hfile' (hflaws.symm.trans hflaw), hmerged]
  refine ⟨hsame, fun hendpoint hrequester => ?_, fun flaw => ?_, fun hflawless => ?_⟩
  · exact hsame.mpr (flaw?_congr (hcovers.endpoint hendpoint) (hcovers.requester hrequester))
  · exact resolve_eq_unusableFile_iff hconfig hfile
  · constructor
    · intro hresult
      refine Option.eq_none_iff_forall_not_mem.mpr fun flaw hflaw => ?_
      rw [resolve_of_flaw hconfig hfile hflaw] at hresult
      cases hresult
    · intro hflaw
      have hchecked : checkedSettings (f.laidOver t) = .ok (f.laidOver t) := by
        rw [checkedSettings, hflawless]
      rw [resolve_of_flawless hconfig hfile hflaw, hchecked]
      rfl

/-- A file with these settings. -/
def written (endpoint : String) : String :=
  s!"endpoint = \"{endpoint}\"\n" ++
    "requester_id = \"ACME\"\ncert_path = \"client.crt\"\n" ++
    "key_path = \"client.key\"\n"

/-- Nothing happens, but there is the file with these settings. -/
def shelving (endpoint : String) : (e : Effect) → Unit → e.Answer × Unit
  | .fileBytes _, _ => (.ok (Text.Utf8.bytes (written endpoint)), ())
  | e, u => still e u

theorem describes_shelving {endpoint : String}
    (h : described? (written endpoint) = some (settingsAt endpoint)) :
    Describes (shelving endpoint) path () (settingsAt endpoint) :=
  ⟨_, written endpoint, rfl, Text.Utf8.text?_eq_some_iff.mpr rfl, h⟩

theorem described_usable :
    described? (written "a.example:443") = some (settingsAt "a.example:443") := by
  decide +kernel

/-- Flags that tell an endpoint, beside a file. -/
def redirecting : Flags :=
  { config := some "es2plus.toml", endpoint := some "smdp.example:8443" }

theorem redirecting_covers (endpoint endpoint' : String) :
    redirecting.Covers (settingsAt endpoint) (settingsAt endpoint') where
  endpoint := by rintro ⟨⟩
  requester := fun _ => rfl
  certificate := fun _ => rfl
  key := fun _ => rfl
  verification := fun _ => rfl
  payloads := fun _ => rfl
  headers := fun _ => rfl

/-- Two files with different endpoints, both of them usable, and a flag with a third one. -/
theorem resolve_covered_usable :
    Describes (shelving "a.example:443") "es2plus.toml" () (settingsAt "a.example:443") ∧
    Describes (shelving "b.example:443") "es2plus.toml" () (settingsAt "b.example:443") ∧
    (redirecting.resolve.run.run (shelving "a.example:443") ()).1 =
      (redirecting.resolve.run.run (shelving "b.example:443") ()).1 ∧
    (redirecting.resolve.run.run (shelving "a.example:443") ()).1 =
      .ok (settingsAt "smdp.example:8443") := by
  have hfile : Describes (shelving "a.example:443") "es2plus.toml" ()
      (settingsAt "a.example:443") := describes_shelving described_usable
  have hfile' : Describes (shelving "b.example:443") "es2plus.toml" ()
      (settingsAt "b.example:443") := describes_shelving (by decide +kernel)
  obtain ⟨hsame, -, -, hmerged⟩ := resolve_covered_iff (f := redirecting) rfl hfile hfile'
    (redirecting_covers _ _)
  exact ⟨hfile, hfile', hsame.mpr (by decide +kernel),
    (hmerged (by decide +kernel)).mpr (by decide +kernel)⟩

/-- The endpoint of one of two files has no port. A flag tells another endpoint, and still one of
the files is turned down while the other one is used. -/
theorem resolve_overridden_flaw :
    Describes (shelving "smdp.example") "es2plus.toml" () (settingsAt "smdp.example") ∧
    Describes (shelving "a.example:443") "es2plus.toml" () (settingsAt "a.example:443") ∧
    redirecting.Covers (settingsAt "smdp.example") (settingsAt "a.example:443") ∧
    (redirecting.laidOver (settingsAt "smdp.example")).flaw? = none ∧
    (redirecting.resolve.run.run (shelving "smdp.example") ()).1 =
      .error (.unusableFile "es2plus.toml" (.invalid (.noPort "smdp.example"))) ∧
    (redirecting.resolve.run.run (shelving "a.example:443") ()).1 =
      .ok (settingsAt "smdp.example:8443") := by
  have hflawed : Describes (shelving "smdp.example") "es2plus.toml" ()
      (settingsAt "smdp.example") := describes_shelving (by decide +kernel)
  have husable : Describes (shelving "a.example:443") "es2plus.toml" ()
      (settingsAt "a.example:443") := describes_shelving described_usable
  refine ⟨hflawed, husable, redirecting_covers _ _, by decide +kernel, ?_, ?_⟩
  · exact resolve_of_flaw rfl hflawed (by decide +kernel)
  · rw [resolve_of_flawless rfl husable (by decide +kernel)]
    rfl

end ProfileAdmin.Command
