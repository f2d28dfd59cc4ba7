import ProfileAdmin.Proofs.Client.Url
import ProfileAdmin.Proofs.Credential.Items
import ProfileAdmin.Proofs.Host.Journal
import ProfileAdmin.Proofs.Tls.Bundle

/-!
# Proofs.Client.Construction — how a connection comes about

1. **Stages** of a construction, in their order, with the files that they read.
2. **Faults** of each stage, seen by itself. A stage that needs what an earlier one provides has
   no fault of its own without it.
3. **Readiness**: what has to be in the files for a connection.
4. **Identity**: when a key fits a certificate.
5. **One fault at a time**: a stage has one fault at most, and there is one first fault.
6. **Outcomes**: the first stage with a fault decides. Up to it the files are read, and none
   behind it, and whoever believes any server is warned once.
7. **Runs** of a construction, stage by stage.
-/

namespace ProfileAdmin.Client

open Config (Settings Verification)
open Credential
open Host
open Host.Program
open Tls (Blames Channel PrivateKey Provides Trust channelWith identityError? subjectKey)

variable {σ : Type} {files : FileSystem} {s : Settings} {h : List Deed}

/-! ## Stages -/

/-- A stage of a construction. -/
inductive Stage where
  | settings
  | certificates
  | key
  | leaf
  | trust
  | identity
  deriving DecidableEq, Repr

namespace Stage

/-- The stages in their order. -/
def all : List Stage := [settings, certificates, key, leaf, trust, identity]

/-- The file that a stage reads, if it reads one. -/
def path? (s : Settings) : Stage → Option String
  | .certificates => some s.certificate
  | .key => some s.key
  | .trust =>
    match s.verification with
    | .disabled => none
    | .caBundle path => some path
  | _ => none

end Stage

/-! ## Faults -/

/-- A key cannot be used together with a certificate. -/
inductive Misfit (leaf : List UInt8) (key : PrivateKey) : ChannelError → Prop where
  | unusable (none : key.info? = none) : Misfit leaf key .unusableKey
  | certificate {info : List UInt8} {f : Tls.CertificateFlaw} (usable : key.info? = some info)
      (unread : subjectKey .party leaf = .error f) : Misfit leaf key (.certificate f)
  | mismatch {info other : List UInt8} (usable : key.info? = some info)
      (read : subjectKey .party leaf = .ok other) (different : other ≠ info) :
      Misfit leaf key .keyMismatch

/-- The public side of a key is the one in the certificate. -/
def Fits (leaf : List UInt8) (key : PrivateKey) : Prop :=
  ∃ info, key.info? = some info ∧ subjectKey .party leaf = .ok info

/-- What is wrong at a stage. -/
inductive Fault (files : FileSystem) (s : Settings) : Stage → Error → Prop where
  | settings {f : Config.Flaw} (flaw : s.flaw? = some f) :
      Fault files s .settings (.settings (.invalid f))
  | certificates {e : PemError} (unlisted : Unlisted (files s.certificate) e) :
      Fault files s .certificates (.protocol (.credentials (.file s.certificate e)))
  | key {e : PemError} (noKey : NoKey (files s.key) e) :
      Fault files s .key (.protocol (.credentials (.file s.key e)))
  | noLeaf (lists : Lists (files s.certificate) []) :
      Fault files s .leaf (.protocol (.credentials .emptyChain))
  | leaf {leaf : List UInt8} {others : List (List UInt8)}
      (lists : Lists (files s.certificate) (leaf :: others))
      (unread : X509.certificate? leaf = none) :
      Fault files s .leaf (.protocol (.credentials .malformedLeaf))
  | trust {path : String} {e : BundleError} (bundle : s.verification = .caBundle path)
      (blames : Blames (files path) e) : Fault files s .trust (.protocol (.caBundle path e))
  | identity {leaf : List UInt8} {others : List (List UInt8)} {key : PrivateKey}
      {e : ChannelError} (lists : Lists (files s.certificate) (leaf :: others))
      (keyOf : KeyOf (files s.key) key) (misfit : Misfit leaf key e) :
      Fault files s .identity (.protocol (.channel e))

/-- The stages up to the first one with a fault, and the fault. -/
inductive FirstFault (files : FileSystem) (s : Settings) : List Stage → Error → Prop where
  | mk {before after : List Stage} {stage : Stage} {e : Error}
      (order : Stage.all = before ++ stage :: after) (fault : Fault files s stage e)
      (sound : ∀ earlier ∈ before, ∀ e', ¬ Fault files s earlier e') :
      FirstFault files s (before ++ [stage]) e

/-! ## Readiness -/

/-- Whom a way of verification believes, with these files. -/
inductive Trusts (files : FileSystem) : Verification → Trust → Prop where
  | disabled : Trusts files .disabled .anyServer
  | caBundle {path : String} {anchors : List (List UInt8)}
      (provides : Provides (files path) anchors) :
      Trusts files (.caBundle path) (.anchors anchors)

/-- Everything is there for a connection. -/
inductive Ready (files : FileSystem) (s : Settings) : Connection → Prop where
  | mk {leaf : List UInt8} {others : List (List UInt8)} {key : PrivateKey}
      {certificate : X509.Certificate} {trust : Trust} (flawless : s.flaw? = none)
      (lists : Lists (files s.certificate) (leaf :: others)) (keyOf : KeyOf (files s.key) key)
      (read : X509.certificate? leaf = some certificate)
      (trusts : Trusts files s.verification trust) (fits : Fits leaf key) :
      Ready files s ⟨s.endpoint, ⟨trust, .under (leaf :: others) key certificate⟩,
        s.debugging.headers⟩

/-! ## Identity -/

variable {leaf : List UInt8} {others : List (List UInt8)} {key : PrivateKey}

/-- The check of the identity finds a misfit and names it. -/
theorem identityError?_eq_some_iff {c : Credentials} {e : ChannelError} :
    identityError? c = some e ↔ Misfit (c.chain.headD []) c.key e := by
  unfold identityError?
  -- The check asks in this order: is the key usable, can the certificate be read, are they the
  -- same.
  rcases hinfo : c.key.info? with _ | info
  · constructor
    · intro h
      cases h
      exact Misfit.unusable hinfo
    · intro h
      cases h with
      | unusable none => rfl
      | certificate usable => exact absurd (hinfo.symm.trans usable) nofun
      | mismatch usable => exact absurd (hinfo.symm.trans usable) nofun
  rcases hkey : subjectKey .party (c.chain.headD []) with f | other
  · constructor
    · intro h
      cases h
      exact Misfit.certificate hinfo hkey
    · intro h
      cases h with
      | unusable none => exact absurd (hinfo.symm.trans none) nofun
      | certificate usable unread =>
          cases hkey.symm.trans unread
          rfl
      | mismatch usable read => exact absurd (hkey.symm.trans read) nofun
  · constructor
    · intro h
      by_cases heq : other = info
      · simp only [if_pos heq] at h
        cases h
      · simp only [if_neg heq] at h
        cases h
        exact Misfit.mismatch hinfo hkey heq
    · intro h
      cases h with
      | unusable none => exact absurd (hinfo.symm.trans none) nofun
      | certificate usable unread => exact absurd (hkey.symm.trans unread) nofun
      | mismatch usable read different =>
          cases hinfo.symm.trans usable
          cases hkey.symm.trans read
          simp only [if_neg different]

theorem identityError?_eq_none_iff {c : Credentials} :
    identityError? c = none ↔ Fits (c.chain.headD []) c.key := by
  unfold identityError? Fits
  rcases c.key.info? with _ | info
  · simp
  rcases subjectKey .party (c.chain.headD []) with f | other
  · simp
  · simp

/-- A key misfits a certificate in one way at most. -/
theorem Misfit.unique {e e' : ChannelError} (h : Misfit leaf key e) (h' : Misfit leaf key e') :
    e = e' := by
  have heq : identityError? ⟨[leaf], key, "", ""⟩ = some e := identityError?_eq_some_iff.mpr h
  have heq' : identityError? ⟨[leaf], key, "", ""⟩ = some e' := identityError?_eq_some_iff.mpr h'
  rw [heq'] at heq
  exact (Option.some.inj heq).symm

/-- What fits does not misfit. -/
theorem Fits.not_misfit {e : ChannelError} (h : Fits leaf key) : ¬ Misfit leaf key e := by
  intro h'
  have heq : identityError? ⟨[leaf], key, "", ""⟩ = none := identityError?_eq_none_iff.mpr h
  have heq' : identityError? ⟨[leaf], key, "", ""⟩ = some e := identityError?_eq_some_iff.mpr h'
  rw [heq'] at heq
  cases heq

/-! ## One fault at a time -/

/-- A stage has no fault. -/
def Sound (files : FileSystem) (s : Settings) (stage : Stage) : Prop :=
  ∀ e, ¬ Fault files s stage e

/-- What is there for a connection leaves its stage without a fault, stage by stage. -/
theorem sound_settings (flawless : s.flaw? = none) : Sound files s .settings := by
  intro e hfault
  cases hfault with
  | settings flaw =>
      rw [flawless] at flaw
      cases flaw

theorem sound_certificates {chain : List (List UInt8)} (lists : Lists (files s.certificate) chain) :
    Sound files s .certificates := by
  intro e hfault
  cases hfault with
  | certificates unlisted => exact (certificatesIn_decides _).not_both lists unlisted

theorem sound_key (keyOf : KeyOf (files s.key) key) : Sound files s .key := by
  intro e hfault
  cases hfault with
  | key noKey => exact (keyIn_decides _).not_both keyOf noKey

theorem sound_leaf {certificate : X509.Certificate}
    (lists : Lists (files s.certificate) (leaf :: others))
    (read : X509.certificate? leaf = some certificate) : Sound files s .leaf := by
  intro e hfault
  cases hfault with
  | noLeaf lists' => cases (certificatesIn_decides _).gives_unique lists lists'
  | leaf lists' unread =>
      cases (certificatesIn_decides _).gives_unique lists lists'
      rw [read] at unread
      cases unread

/-- A bundle gives its certificates or a reason, and not both. -/
theorem bundleIn_decides (opened : Except FileError (List UInt8)) :
    Decides (Tls.bundleIn opened) (Provides opened) (Blames opened) :=
  ⟨fun _ => Tls.bundleIn_eq_ok_iff, fun _ => Tls.bundleIn_eq_error_iff⟩

theorem sound_trust {trust : Trust} (trusts : Trusts files s.verification trust) :
    Sound files s .trust := by
  intro e hfault
  cases hfault with
  | trust bundle blames =>
      rw [bundle] at trusts
      cases trusts with
      | caBundle provides => exact (bundleIn_decides _).not_both provides blames

theorem sound_identity (lists : Lists (files s.certificate) (leaf :: others))
    (keyOf : KeyOf (files s.key) key) (fits : Fits leaf key) : Sound files s .identity := by
  intro e hfault
  cases hfault with
  | identity lists' keyOf' misfit =>
      cases (certificatesIn_decides _).gives_unique lists lists'
      cases (keyIn_decides _).gives_unique keyOf keyOf'
      exact fits.not_misfit misfit

/-- A stage has one fault at most. -/
theorem Fault.unique {stage : Stage} {e e' : Error} (h : Fault files s stage e)
    (h' : Fault files s stage e') : e = e' := by
  cases h with
  | settings flaw =>
      cases h' with
      | settings flaw' =>
          rw [flaw] at flaw'
          cases flaw'
          rfl
  | certificates unlisted =>
      cases h' with
      | certificates unlisted' =>
          cases (certificatesIn_decides _).fails_unique unlisted unlisted'
          rfl
  | key noKey =>
      cases h' with
      | key noKey' =>
          cases (keyIn_decides _).fails_unique noKey noKey'
          rfl
  | noLeaf lists =>
      -- The leaf has two faults, but the file lists one chain: it is empty or it is not.
      cases h' with
      | noLeaf lists' => rfl
      | leaf lists' unread => cases (certificatesIn_decides _).gives_unique lists lists'
  | leaf lists unread =>
      cases h' with
      | noLeaf lists' => cases (certificatesIn_decides _).gives_unique lists lists'
      | leaf lists' unread' => rfl
  | trust bundle blames =>
      cases h' with
      | trust bundle' blames' =>
          rw [bundle] at bundle'
          cases bundle'
          cases (bundleIn_decides _).fails_unique blames blames'
          rfl
  | identity lists keyOf misfit =>
      cases h' with
      | identity lists' keyOf' misfit' =>
          cases (certificatesIn_decides _).gives_unique lists lists'
          cases (keyIn_decides _).gives_unique keyOf keyOf'
          cases misfit.unique misfit'
          rfl

/-- The first fault is one fault at one stage. -/
theorem FirstFault.unique {stages stages' : List Stage} {e e' : Error}
    (h : FirstFault files s stages e) (h' : FirstFault files s stages' e') :
    stages = stages' ∧ e = e' := by
  rcases h with @⟨before, after, stage, _, order, fault, sound⟩
  rcases h' with @⟨before', after', stage', _, order', fault', sound'⟩
  -- Of two first faults neither stands before the other.
  rcases List.append_eq_append_iff.mp (order.symm.trans order') with
    ⟨between, rfl, hrest⟩ | ⟨between, rfl, hrest⟩
  -- The stages between the two would hold one with a fault among those without.
  · rcases between with _ | ⟨x, between⟩
    · cases hrest
      exact ⟨by rw [List.append_nil], fault.unique fault'⟩
    · cases hrest
      exact absurd fault (sound' _ (List.mem_append_right _ List.mem_cons_self) _)
  · rcases between with _ | ⟨x, between⟩
    · cases hrest
      exact ⟨by rw [List.append_nil], fault.unique fault'⟩
    · cases hrest
      exact absurd fault' (sound _ (List.mem_append_right _ List.mem_cons_self) _)

/-- With these files, a way of verification believes one way only. -/
theorem Trusts.unique {v : Verification} {trust trust' : Trust} (h : Trusts files v trust)
    (h' : Trusts files v trust') : trust = trust' := by
  cases h with
  | disabled =>
      cases h'
      rfl
  | caBundle provides =>
      cases h' with
      | caBundle provides' =>
          cases (bundleIn_decides _).gives_unique provides provides'
          rfl

/-- The connection is settled by the files and the settings. -/
theorem Ready.unique {c c' : Connection} (h : Ready files s c) (h' : Ready files s c') :
    c = c' := by
  rcases h with ⟨flawless, lists, keyOf, read, trusts, fits⟩
  rcases h' with ⟨flawless', lists', keyOf', read', trusts', fits'⟩
  cases (certificatesIn_decides _).gives_unique lists lists'
  cases (keyIn_decides _).gives_unique keyOf keyOf'
  cases read.symm.trans read'
  cases trusts.unique trusts'
  rfl

/-- Where everything is there, no stage has a fault. -/
theorem Ready.sound {c : Connection} (h : Ready files s c) (stage : Stage) :
    Sound files s stage := by
  rcases h with ⟨flawless, lists, keyOf, read, trusts, fits⟩
  cases stage with
  | settings => exact sound_settings flawless
  | certificates => exact sound_certificates lists
  | key => exact sound_key keyOf
  | leaf => exact sound_leaf lists read
  | trust => exact sound_trust trusts
  | identity => exact sound_identity lists keyOf fits

/-! ## Outcomes -/

/-- How often a history warns that any server is believed. -/
def alarms (h : List Deed) : Nat :=
  ((events h).map Event.entry).count
    ⟨.warn, "ES2+ server certificate verification is disabled", []⟩

@[simp] theorem alarms_append (h₁ h₂ : List Deed) : alarms (h₁ ++ h₂) = alarms h₁ + alarms h₂ := by
  rw [alarms, events_append, List.map_append, List.count_append]
  rfl

/-- What a construction that went through some stages leaves behind. -/
structure Leaves (s : Settings) (stages : List Stage) (h : List Deed) : Prop where
  filesRead_eq : filesRead h = stages.filterMap (Stage.path? s)
  alarms_eq : alarms h = if s.verification = .disabled then stages.count .trust else 0

/-- What is left behind adds up, stage by stage. -/
theorem Leaves.append {stages stages' : List Stage} {h h' : List Deed} (hl : Leaves s stages h)
    (hl' : Leaves s stages' h') : Leaves s (stages ++ stages') (h ++ h') := by
  constructor
  · rw [filesRead_append, hl.filesRead_eq, hl'.filesRead_eq, List.filterMap_append]
  · rw [alarms_append, hl.alarms_eq, hl'.alarms_eq, List.count_append]
    split
    · rfl
    · rfl

/-- How a construction ends, after the stages that it went through. -/
inductive Outcome (files : FileSystem) (s : Settings) :
    List Stage → Except Error Connection → Prop where
  | fails {stages : List Stage} {e : Error} (first : FirstFault files s stages e) :
      Outcome files s stages (.error e)
  | succeeds {c : Connection} (ready : Ready files s c) : Outcome files s Stage.all (.ok c)

/-! ## Runs -/

/-- Only the note about verification is an alarm. -/
theorem alarms_noting {e : Event}
    (hmessage : e.entry.message ≠ "ES2+ server certificate verification is disabled") :
    alarms [noting e] = 0 := by
  refine List.count_eq_zero_of_not_mem ?_
  intro hmem
  exact hmessage (congrArg Entry.message (List.mem_singleton.mp hmem)).symm

/-- To be outside its validity is noted of a certificate without an alarm. -/
theorem alarms_validityNotes (certificate : X509.Certificate) (now : Int) :
    alarms (validityNotes certificate now) = 0 := by
  unfold validityNotes
  split
  · rfl
  · exact alarms_noting (by simp [Event.entry])

theorem filesRead_validityNotes (certificate : X509.Certificate) (now : Int) :
    filesRead (validityNotes certificate now) = [] := by
  unfold validityNotes
  split
  · rfl
  · rfl

/-- Credentials that were loaded are those of the files. -/
theorem loads_ok {c : Credentials} (hloads : Loads s.certificate s.key h (.ok c))
    (hread : ReadFrom files h) :
    ∃ leaf others key certificate, Lists (files s.certificate) (leaf :: others) ∧
      KeyOf (files s.key) key ∧ X509.certificate? leaf = some certificate ∧
      c = .under (leaf :: others) key certificate ∧
      Leaves s [.settings, .certificates, .key, .leaf] h := by
  cases hloads with
  | @loaded opened opened' chain key notes _ certificates found checked =>
      cases hread _ _ List.mem_cons_self
      cases hread _ _ (List.mem_cons_of_mem _ List.mem_cons_self)
      cases checked with
      | @shown leaf others certificate read now =>
          -- Two files have been read, and nothing was noted that would count as an alarm.
          refine ⟨leaf, others, key, certificate, certificatesIn_eq_ok_iff.mp certificates,
            keyIn_eq_ok_iff.mp found, read, rfl, ?_, ?_⟩
          · show s.certificate :: s.key :: filesRead (validityNotes certificate now ++ _) = _
            rw [filesRead_append, filesRead_validityNotes]
            rfl
          · show alarms (validityNotes certificate now ++ [noting _]) = _
            rw [alarms_append, alarms_validityNotes, alarms_noting (by simp [Event.entry])]
            exact (ite_self 0).symm

/-- Without credentials, something is wrong with the files of certificates and keys. -/
theorem loads_error {e : CredentialsError} (flawless : s.flaw? = none)
    (hloads : Loads s.certificate s.key h (.error e)) (hread : ReadFrom files h) :
    ∃ stages, FirstFault files s stages (.protocol (.credentials e)) ∧ Leaves s stages h := by
  have hsettings : Sound files s .settings := sound_settings flawless
  cases hloads with
  | noCertificates certificates =>
      cases hread _ _ List.mem_cons_self
      have hfault := Fault.certificates (s := s) (certificatesIn_eq_error_iff.mp certificates)
      refine ⟨[.settings] ++ [.certificates], FirstFault.mk rfl hfault ?_, ⟨rfl, ?_⟩⟩
      · exact List.forall_mem_singleton.mpr hsettings
      · exact (ite_self 0).symm
  | noKey certificates missed =>
      -- What was opened, in both cases, is what the files hold.
      cases hread _ _ List.mem_cons_self
      cases hread _ _ (List.mem_cons_of_mem _ List.mem_cons_self)
      have hcertificates := sound_certificates (certificatesIn_eq_ok_iff.mp certificates)
      have hfault := Fault.key (keyIn_eq_error_iff.mp missed)
      refine ⟨[.settings, .certificates] ++ [.key], FirstFault.mk rfl hfault ?_, ⟨rfl, ?_⟩⟩
      · simp only [List.forall_mem_cons]
        exact ⟨hsettings, hcertificates, List.forall_mem_nil _⟩
      · exact (ite_self 0).symm
  | unchecked certificates found checked =>
      cases hread _ _ List.mem_cons_self
      cases hread _ _ (List.mem_cons_of_mem _ List.mem_cons_self)
      have hlists := certificatesIn_eq_ok_iff.mp certificates
      have hfault : Fault files s .leaf (.protocol (.credentials e)) := by
        cases checked with
        | empty => exact Fault.noLeaf hlists
        | malformed unread => exact Fault.leaf hlists unread
      refine ⟨[.settings, .certificates, .key] ++ [.leaf], FirstFault.mk rfl hfault ?_, ?_⟩
      · simp only [List.forall_mem_cons]
        exact ⟨hsettings, sound_certificates hlists, sound_key (keyIn_eq_ok_iff.mp found),
          List.forall_mem_nil _⟩
      · -- A chain that is refused leaves nothing behind.
        cases checked with
        | empty => exact ⟨rfl, (ite_self 0).symm⟩
        | malformed unread => exact ⟨rfl, (ite_self 0).symm⟩

/-- What is done to know whom to believe. -/
def trusting (files : FileSystem) : Verification → List Deed
  | .disabled => [noting .verificationDisabled]
  | .caBundle path => [opening path (files path)]

/-- Whoever believes any server says so first. -/
theorem build_disabled_eq (c : Credentials) :
    (Channel.build c .disabled).run =
      .perform (.note .verificationDisabled) fun _ => .done (channelWith c .anyServer) := by
  refine congrArg (Program.perform _) (funext fun _ => ?_)
  unfold channelWith
  dsimp only [Bind.bind, Pure.pure, Program.bind, Function.comp_apply, ExceptT.bindCont]
  rcases identityError? c with _ | e
  · rfl
  · rfl

/-- A channel is set up by knowing whom to believe, and then by presenting the credentials. -/
theorem build_returns {c : Credentials} {v : Verification} {r : Except ProtocolError Channel}
    (hr : Program.Returns (Channel.build c v).run h r) (hread : ReadFrom files h) :
    h = trusting files v ∧
      ((∃ path e, v = .caBundle path ∧ Blames (files path) e ∧ r = .error (.caBundle path e)) ∨
        ∃ trust, Trusts files v trust ∧ r = channelWith c trust) := by
  cases v with
  | disabled =>
      rw [build_disabled_eq] at hr
      rcases returns_perform_iff.mp hr with ⟨answer, h', rfl, hdone⟩
      rcases returns_done_iff.mp hdone with ⟨rfl, rfl⟩
      exact ⟨rfl, Or.inr ⟨_, Trusts.disabled, rfl⟩⟩
  | caBundle path =>
      rw [Tls.build_caBundle_eq] at hr
      rcases returns_perform_iff.mp hr with ⟨opened, h', rfl, hdone⟩
      rcases returns_done_iff.mp hdone with ⟨rfl, rfl⟩
      -- The bundle that was opened is the one that the files hold.
      cases hread path opened List.mem_cons_self
      refine ⟨rfl, ?_⟩
      rcases hbundle : Tls.bundleIn (files path) with e | anchors
      · exact Or.inl ⟨path, e, rfl, Tls.bundleIn_eq_error_iff.mp hbundle, rfl⟩
      · exact Or.inr ⟨_, Trusts.caBundle (Tls.bundleIn_eq_ok_iff.mp hbundle), rfl⟩

/-- To know whom to believe takes the file of a bundle, or a warning. -/
theorem leaves_trusting (s : Settings) :
    Leaves s [.trust] (trusting files s.verification) := by
  rcases hv : s.verification with _ | path
  · constructor
    · rw [List.filterMap_cons, Stage.path?, hv]
      rfl
    · rw [hv]
      rfl
  · constructor
    · rw [List.filterMap_cons, Stage.path?, hv]
      rfl
    · rw [hv]
      rfl

/-- What is done with a channel, or for want of one. -/
def concluding (s : Settings) (c : Credentials) :
    Except ProtocolError Channel → Attempt Connection
  | .error e => throw (.protocol e)
  | .ok channel => do
    plain (Program.note (.channelReady s.endpoint c.subject))
    return ⟨s.endpoint, channel, s.debugging.headers⟩

/-- When it is known whom to believe, whether everything is there is a question of the identity. -/
theorem concluding_outcome {certificate : X509.Certificate} {trust : Trust} {h' : List Deed}
    {r : Except Error Connection} (flawless : s.flaw? = none)
    (lists : Lists (files s.certificate) (leaf :: others)) (keyOf : KeyOf (files s.key) key)
    (read : X509.certificate? leaf = some certificate)
    (trusts : Trusts files s.verification trust)
    (leaves : Leaves s [.settings, .certificates, .key, .leaf, .trust] h)
    (hr : Program.Returns (concluding s (.under (leaf :: others) key certificate)
      (channelWith (.under (leaf :: others) key certificate) trust)).run h' r) :
    ∃ stages, Outcome files s stages r ∧ Leaves s stages (h ++ h') := by
  unfold channelWith at hr
  rcases hidentity : identityError? (.under (leaf :: others) key certificate) with _ | e
  · rw [hidentity] at hr
    rcases returns_plain_seq_iff.mp hr with ⟨h₁, h₂, u, rfl, hnote, hdone⟩
    obtain rfl := returns_ask_iff.mp hnote
    rcases returns_pure_iff.mp hdone with ⟨rfl, rfl⟩
    have hready := Ready.mk flawless lists keyOf read trusts
      (identityError?_eq_none_iff.mp hidentity)
    have hnoted : Leaves s [.identity]
        [noting (.channelReady s.endpoint certificate.subject.text)] := by
      refine ⟨rfl, ?_⟩
      rw [alarms_noting (by simp [Event.entry])]
      exact (ite_self 0).symm
    rw [List.append_nil]
    exact ⟨Stage.all, Outcome.succeeds hready, leaves.append hnoted⟩
  · rw [hidentity] at hr
    rcases returns_throw_iff.mp hr with ⟨rfl, rfl⟩
    have hfault := Fault.identity lists keyOf (identityError?_eq_some_iff.mp hidentity)
    -- Up to here nothing was wrong, so the identity is the first fault.
    have hsound : ∀ stage ∈ [Stage.settings, .certificates, .key, .leaf, .trust],
        Sound files s stage := by
      simp only [List.forall_mem_cons]
      exact ⟨sound_settings flawless, sound_certificates lists, sound_key keyOf,
        sound_leaf lists read, sound_trust trusts, List.forall_mem_nil _⟩
    have hnothing : Leaves s [.identity] [] := ⟨rfl, (ite_self 0).symm⟩
    exact ⟨_, Outcome.fails (FirstFault.mk rfl hfault hsound), leaves.append hnothing⟩

/-- However a construction goes, it ends at the first stage with a fault, or with everything
there, and leaves behind what the stages up to there leave. -/
theorem make_outcome {r : Except Error Connection}
    (hr : Program.Returns (Connection.make s).run h r) (hread : ReadFrom files h) :
    ∃ stages, Outcome files s stages r ∧ Leaves s stages h := by
  rcases hflaw : s.flaw? with _ | f
  swap
  · rw [make_of_flaw hflaw] at hr
    rcases returns_throw_iff.mp hr with ⟨rfl, rfl⟩
    have hfirst : FirstFault files s ([] ++ [.settings]) (.settings (.invalid f)) :=
      FirstFault.mk rfl (Fault.settings hflaw) nofun
    exact ⟨_, Outcome.fails hfirst, rfl, (ite_self 0).symm⟩
  rw [make_of_flawless hflaw] at hr
  -- The credentials.
  rcases returns_plain_seq_iff.mp hr with ⟨h₁, h₂, loaded, rfl, hload, hbehind⟩
  rcases readFrom_append_iff.mp hread with ⟨hread₁, hread₂⟩
  have hloads := load_returns hload
  rcases loaded with e | c
  · rcases returns_throw_iff.mp hbehind with ⟨rfl, rfl⟩
    rcases loads_error hflaw hloads hread₁ with ⟨stages, hfirst, hleaves⟩
    rw [List.append_nil]
    exact ⟨stages, Outcome.fails hfirst, hleaves⟩
  rcases loads_ok hloads hread₁ with ⟨leaf, others, key, certificate, hlists, hkey, hcertificate,
    rfl, hleaves⟩
  -- The channel.
  rcases returns_plain_seq_iff.mp hbehind with ⟨h₃, h₄, built, rfl, hbuild, hend⟩
  rcases readFrom_append_iff.mp hread₂ with ⟨hread₃, hread₄⟩
  rcases build_returns hbuild hread₃ with ⟨rfl, hbuilt⟩
  have htrusting : Leaves s [.trust] (trusting files s.verification) := leaves_trusting s
  have htrusted := hleaves.append htrusting
  rcases hbuilt with ⟨path, e, hbundle, hblames, rfl⟩ | ⟨trust, htrusts, rfl⟩
  · rcases returns_throw_iff.mp hend with ⟨rfl, rfl⟩
    have hsound : ∀ stage ∈ [Stage.settings, .certificates, .key, .leaf],
        Sound files s stage := by
      simp only [List.forall_mem_cons]
      exact ⟨sound_settings hflaw, sound_certificates hlists, sound_key hkey,
        sound_leaf hlists hcertificate, List.forall_mem_nil _⟩
    have hfirst := FirstFault.mk rfl (Fault.trust hbundle hblames) hsound
    rw [List.append_nil]
    exact ⟨_, Outcome.fails hfirst, htrusted⟩
  · rw [← List.append_assoc]
    exact concluding_outcome hflaw hlists hkey hcertificate htrusts htrusted hend

/-- With a fault somewhere, not everything is there. -/
theorem FirstFault.not_ready {stages : List Stage} {e : Error} {c : Connection}
    (hfirst : FirstFault files s stages e) : ¬ Ready files s c := by
  intro hready
  rcases hfirst with ⟨order, fault, sound⟩
  exact hready.sound _ _ fault

section Outcome

variable {stages stages' : List Stage} {r : Except Error Connection} {c : Connection} {e : Error}

/-- A construction succeeds exactly if everything is there. -/
theorem Outcome.ok_iff (houtcome : Outcome files s stages r) : r = .ok c ↔ Ready files s c := by
  cases houtcome with
  | fails first =>
      refine iff_of_false nofun ?_
      intro hready
      exact first.not_ready hready
  | succeeds ready =>
      constructor
      · intro hok
        cases hok
        exact ready
      · intro hready
        rw [ready.unique hready]

/-- A construction fails exactly with the first fault. -/
theorem Outcome.error_iff (houtcome : Outcome files s stages r) :
    r = .error e ↔ FirstFault files s stages e := by
  cases houtcome with
  | fails first =>
      constructor
      · intro herror
        cases herror
        exact first
      · intro hfirst
        rw [(first.unique hfirst).2]
  | succeeds ready =>
      refine iff_of_false nofun ?_
      intro hfirst
      exact hfirst.not_ready ready

/-- The stages that were gone through are those up to the first fault. -/
theorem Outcome.stages_eq (houtcome : Outcome files s stages r)
    (hfirst : FirstFault files s stages' e) : stages = stages' := by
  cases houtcome with
  | fails first => exact (first.unique hfirst).1
  | succeeds ready => exact absurd ready hfirst.not_ready

theorem Outcome.stages_of_ok (houtcome : Outcome files s stages (.ok c)) : stages = Stage.all := by
  cases houtcome with
  | succeeds ready => rfl

end Outcome

/-- A connection is made exactly if everything is there for it, with the certificates of their
file in its order. Otherwise the first stage with a fault decides, whatever is wrong behind it.
The stages up to there read their files, and no other file is read. That any server is believed
is warned of once if it comes to that, and never with a bundle. Settings that are turned down
leave nothing behind, so it makes no difference to them what the files hold. -/
theorem make_firstFault (files : FileSystem) (ambient : (e : Effect) → σ → e.Answer × σ)
    (s : Settings) (a : σ) :
    let result := ((Connection.make s).run.run (holding files ambient) a).1
    let done := (Connection.make s).run.history (holding files ambient) a
    (∀ c, result = .ok c ↔ Ready files s c) ∧
      (∀ e, result = .error e ↔ ∃ stages, FirstFault files s stages e) ∧
      (∀ c, result = .ok c → Lists (files s.certificate) c.channel.credentials.chain ∧
        filesRead done = Stage.all.filterMap (Stage.path? s) ∧
        alarms done = if s.verification = .disabled then 1 else 0) ∧
      (∀ stages e, FirstFault files s stages e →
        filesRead done = stages.filterMap (Stage.path? s) ∧
        alarms done = if s.verification = .disabled then stages.count .trust else 0) ∧
      (∀ path e, (Error.protocol (.credentials (.file path e))).message =
        s!"protocol error: failed to load client credentials: {path}: {e.message}") ∧
      ∀ f, s.flaw? = some f → result = .error (.settings (.invalid f)) ∧ done = [] ∧
        ∀ (files' : FileSystem) (a' : σ),
          ((Connection.make s).run.run (holding files' ambient) a').1 = result ∧
            (Connection.make s).run.history (holding files' ambient) a' = done := by
  intro result done
  rcases make_outcome (returns_history (holding files ambient) (Connection.make s).run a)
    (history_holding files ambient _ a) with ⟨stages, houtcome, hleaves⟩
  refine ⟨fun c => houtcome.ok_iff, ?_, ?_, ?_, fun _ _ => rfl, ?_⟩
  · intro e
    rw [houtcome.error_iff]
    constructor
    · exact fun hfirst => ⟨stages, hfirst⟩
    · rintro ⟨stages', hfirst⟩
      rw [houtcome.stages_eq hfirst]
      exact hfirst
  · intro c hok
    have hlists : Lists (files s.certificate) c.channel.credentials.chain := by
      rcases houtcome.ok_iff.mp hok with ⟨flawless, lists, keyOf, read, trusts, fits⟩
      exact lists
    change Outcome files s stages result at houtcome
    rw [hok] at houtcome
    cases houtcome.stages_of_ok
    exact ⟨hlists, hleaves.filesRead_eq, hleaves.alarms_eq⟩
  · intro stages' e hfirst
    cases houtcome.stages_eq hfirst
    exact ⟨hleaves.filesRead_eq, hleaves.alarms_eq⟩
  -- Settings that are turned down stop the construction before its first effect.
  · intro f hflaw
    have hnothing : (Connection.make s).run = .done (.error (.settings (.invalid f))) := by
      rw [make_of_flaw hflaw]
      rfl
    refine ⟨?_, ?_, ?_⟩
    · show ((Connection.make s).run.run (holding files ambient) a).1 = _
      rw [hnothing]
      rfl
    · show (Connection.make s).run.history (holding files ambient) a = _
      rw [hnothing]
      rfl
    · intro files' a'
      show ((Connection.make s).run.run (holding files' ambient) a').1 =
        ((Connection.make s).run.run (holding files ambient) a).1 ∧
        (Connection.make s).run.history (holding files' ambient) a' =
          (Connection.make s).run.history (holding files ambient) a
      rw [hnothing]
      exact ⟨rfl, rfl⟩

end ProfileAdmin.Client
