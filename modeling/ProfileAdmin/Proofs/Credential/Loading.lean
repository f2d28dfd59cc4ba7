import ProfileAdmin.Credential.Credentials
import ProfileAdmin.Proofs.Client.Attempt
import ProfileAdmin.Proofs.Client.Endpoint
import ProfileAdmin.Proofs.Text.Quoted
import ProfileAdmin.Proofs.X509.Extent

/-!
# Proofs.Credential.Loading — how credentials are loaded

1. **Checking**: what becomes of a chain and a key, with what is done meanwhile.
2. **Files**: certificates first, then the key, then the check. Each of them may be the last.
3. **Leaves**: the check asks whether the leaf begins with a certificate, and not whether the
   certificate is all of it.
4. **Showing**: what is shown of credentials tells whose they are, until when, and how many
   certificates there are. It tells nothing of the key.
-/

namespace ProfileAdmin.Credential

open Client
open Host (Deed Effect Event FileError Program)
open Host.Program
open Tls (PrivateKey)
open X509 (Certificate Exact Overlong)

variable {σ : Type} {chain : List (List UInt8)} {key : PrivateKey} {h : List Deed}

/-! ## Checking -/

/-- The deed of logging. -/
def noting (e : Event) : Deed :=
  ⟨.note e, ()⟩

/-- What is noted about a certificate at a time. -/
def validityNotes (certificate : Certificate) (now : Int) : List Deed :=
  if certificate.isValidAt now then []
  else [noting (.outsideValidity certificate.subject.text certificate.notAfter.text)]

/-- The credentials of a chain whose leaf is shown as a certificate. -/
def Credentials.under (chain : List (List UInt8)) (key : PrivateKey) (certificate : Certificate) :
    Credentials :=
  ⟨chain, key, certificate.subject.text, certificate.notAfter.text⟩

/-- How the check of a chain can go. -/
inductive Checked (key : PrivateKey) :
    List (List UInt8) → List Deed → Except CredentialsError Credentials → Prop where
  | empty : Checked key [] [] (.error .emptyChain)
  /-- The leaf cannot be shown. -/
  | malformed {leaf : List UInt8} {others : List (List UInt8)}
      (unread : X509.certificate? leaf = none) :
      Checked key (leaf :: others) [] (.error .malformedLeaf)
  /-- The leaf can be shown. -/
  | shown {leaf : List UInt8} {others : List (List UInt8)} {certificate : Certificate}
      (read : X509.certificate? leaf = some certificate) (now : Int) :
      Checked key (leaf :: others) (⟨.clock, now⟩ :: validityNotes certificate now)
        (.ok (.under (leaf :: others) key certificate))

/-- The check of a chain goes one of three ways. -/
theorem ofDer_returns {r : Except CredentialsError Credentials}
    (hr : Program.Returns (Credentials.ofDer chain key).run h r) : Checked key chain h r := by
  unfold Credentials.ofDer at hr
  rcases chain with _ | ⟨leaf, others⟩
  · rcases returns_throw_iff.mp hr with ⟨rfl, rfl⟩
    exact Checked.empty
  dsimp only at hr
  rcases hread : X509.certificate? leaf with _ | certificate
  · rw [hread] at hr
    rcases returns_throw_iff.mp hr with ⟨rfl, rfl⟩
    exact Checked.malformed hread
  rw [hread] at hr
  -- Only a certificate that can be shown is held against the clock.
  rcases returns_lift_seq_iff.mp hr with ⟨h₁, h₂, now, rfl, hclock, hrest⟩
  obtain rfl := returns_ask_iff.mp hclock
  have hnoted : h₂ = validityNotes certificate now ∧
      r = .ok (.under (leaf :: others) key certificate) := by
    unfold validityNotes
    by_cases hvalid : certificate.isValidAt now = true
    · simp only [hvalid, Bool.not_true, Bool.false_eq_true, if_false, if_true] at hrest ⊢
      exact returns_pure_iff.mp hrest
    · simp only [hvalid, Bool.not_false, if_true, Bool.false_eq_true, if_false] at hrest ⊢
      rcases returns_lift_seq_iff.mp hrest with ⟨h₃, h₄, u, rfl, hnote, hdone⟩
      obtain rfl := returns_ask_iff.mp hnote
      rcases returns_pure_iff.mp hdone with ⟨rfl, rfl⟩
      exact ⟨rfl, rfl⟩
  rcases hnoted with ⟨rfl, rfl⟩
  exact Checked.shown hread now

/-! ## Files -/

/-- The certificates in an opened file, or why there are none to be had. -/
def certificatesIn : Except FileError (List UInt8) → Except PemError (List (List UInt8))
  | .error e => .error (.unreadable e)
  | .ok bytes => (Pem.certificates bytes).mapError .malformed

/-- The first key in an opened file, or why there is none to be had. -/
def keyIn : Except FileError (List UInt8) → Except PemError PrivateKey
  | .error e => .error (.unreadable e)
  | .ok bytes => firstKey (Pem.items bytes)

/-- The deed of opening a file. -/
def opening (path : String) (opened : Except FileError (List UInt8)) : Deed :=
  ⟨.fileBytes path, opened⟩

/-- How loading credentials from two files can go. -/
inductive Loads (certificatePath keyPath : String) :
    List Deed → Except CredentialsError Credentials → Prop where
  | noCertificates {opened : Except FileError (List UInt8)} {e : PemError}
      (certificates : certificatesIn opened = .error e) :
      Loads certificatePath keyPath [opening certificatePath opened]
        (.error (.file certificatePath e))
  | noKey {opened opened' : Except FileError (List UInt8)} {chain : List (List UInt8)}
      {e : PemError} (certificates : certificatesIn opened = .ok chain)
      (missed : keyIn opened' = .error e) :
      Loads certificatePath keyPath [opening certificatePath opened, opening keyPath opened']
        (.error (.file keyPath e))
  | unchecked {opened opened' : Except FileError (List UInt8)} {chain : List (List UInt8)}
      {key : PrivateKey} {h : List Deed} {e : CredentialsError}
      (certificates : certificatesIn opened = .ok chain) (found : keyIn opened' = .ok key)
      (checked : Checked key chain h (.error e)) :
      Loads certificatePath keyPath
        (opening certificatePath opened :: opening keyPath opened' :: h) (.error e)
  | loaded {opened opened' : Except FileError (List UInt8)} {chain : List (List UInt8)}
      {key : PrivateKey} {h : List Deed} {c : Credentials}
      (certificates : certificatesIn opened = .ok chain) (found : keyIn opened' = .ok key)
      (checked : Checked key chain h (.ok c)) :
      Loads certificatePath keyPath
        (opening certificatePath opened :: opening keyPath opened' ::
          (h ++ [noting (.credentialsLoaded certificatePath c.subject c.notAfter)])) (.ok c)

/-- A file is opened, and what is in it decides. -/
theorem fromFile_returns {α : Type} {path : String} {h : List Deed}
    {r : Except CredentialsError α} {read : String → Program (Except PemError α)}
    {within : Except FileError (List UInt8) → Except PemError α}
    (hread : read path = .perform (.fileBytes path) fun opened => .done (within opened))
    (hr : Program.Returns (fromFile path read).run h r) :
    ∃ opened, h = [opening path opened] ∧ r = (within opened).mapError (.file path) := by
  unfold fromFile at hr
  rw [hread] at hr
  rcases returns_lift_seq_iff.mp hr with ⟨h₁, h₂, found, rfl, hfile, hrest⟩
  rcases returns_perform_iff.mp hfile with ⟨opened, h₃, rfl, hdone⟩
  rcases returns_done_iff.mp hdone with ⟨rfl, rfl⟩
  refine ⟨opened, ?_⟩
  rcases hwithin : within opened with e | a
  · rw [hwithin] at hrest
    rcases returns_throw_iff.mp hrest with ⟨rfl, rfl⟩
    exact ⟨rfl, rfl⟩
  · rw [hwithin] at hrest
    rcases returns_pure_iff.mp hrest with ⟨rfl, rfl⟩
    exact ⟨rfl, rfl⟩

/-- To read certificates is to open a file. -/
theorem readCertificates_eq (path : String) :
    readCertificates path = .perform (.fileBytes path) fun opened =>
      .done (certificatesIn opened) := by
  refine congrArg (Program.perform _) (funext fun opened => ?_)
  change Except FileError (List UInt8) at opened
  rcases opened with e | bytes
  · rfl
  · rfl

/-- So it is to read a key. -/
theorem readKey_eq (path : String) :
    readKey path = .perform (.fileBytes path) fun opened => .done (keyIn opened) := by
  refine congrArg (Program.perform _) (funext fun opened => ?_)
  change Except FileError (List UInt8) at opened
  rcases opened with e | bytes
  · rfl
  · rfl

/-- What a file gives and why it gives nothing, behind the name of the file. -/
theorem mapError_eq_ok {ε ε' α : Type} {f : ε → ε'} {x : Except ε α} {a : α}
    (h : .ok a = x.mapError f) : x = .ok a := by
  rcases x with e | b
  · cases h
  · cases h
    rfl

/-- A failure that is told in other words was one before. -/
theorem mapError_eq_error {ε ε' α : Type} {f : ε → ε'} {x : Except ε α} {e' : ε'}
    (h : .error e' = x.mapError f) : ∃ e, x = .error e ∧ e' = f e := by
  rcases x with e | b
  · cases h
    exact ⟨e, rfl, rfl⟩
  · cases h

/-- Loading goes one of four ways, and stops at the first file that fails. -/
theorem load_returns {certificatePath keyPath : String}
    {r : Except CredentialsError Credentials}
    (hr : Program.Returns (Credentials.load certificatePath keyPath).run h r) :
    Loads certificatePath keyPath h r := by
  unfold Credentials.load at hr
  rcases returns_seq_iff.mp hr with ⟨e, rfl, hfile⟩ | ⟨h₁, h₂, chain, rfl, hfile, hbehind⟩
  · rcases fromFile_returns (readCertificates_eq _) hfile with ⟨opened, rfl, hfound⟩
    rcases mapError_eq_error hfound with ⟨reason, hcertificates, rfl⟩
    exact Loads.noCertificates hcertificates
  rcases fromFile_returns (readCertificates_eq _) hfile with ⟨opened, rfl, hfound⟩
  have hcertificates := mapError_eq_ok hfound
  rcases returns_seq_iff.mp hbehind with ⟨e, rfl, hfile'⟩ | ⟨h₃, h₄, key, rfl, hfile', hcheck⟩
  · rcases fromFile_returns (readKey_eq _) hfile' with ⟨opened', rfl, hfound'⟩
    rcases mapError_eq_error hfound' with ⟨reason, hkey, rfl⟩
    exact Loads.noKey hcertificates hkey
  rcases fromFile_returns (readKey_eq _) hfile' with ⟨opened', rfl, hfound'⟩
  have hkey := mapError_eq_ok hfound'
  rcases returns_seq_iff.mp hcheck with ⟨e, rfl, hder⟩ | ⟨h₅, h₆, c, rfl, hder, hend⟩
  · exact Loads.unchecked hcertificates hkey (ofDer_returns hder)
  rcases returns_lift_seq_iff.mp hend with ⟨h₇, h₈, u, rfl, hnote, hdone⟩
  -- Credentials are noted once they are there.
  obtain rfl := returns_ask_iff.mp hnote
  rcases returns_pure_iff.mp hdone with ⟨rfl, rfl⟩
  exact Loads.loaded hcertificates hkey (ofDer_returns hder)

/-! ## Leaves -/

/-- A chain has a leaf of some kind. -/
def LeafIs (P : List UInt8 → Prop) (chain : List (List UInt8)) : Prop :=
  ∃ leaf others, chain = leaf :: others ∧ P leaf

/-- The check passes exactly if the leaf begins with a certificate. -/
theorem Checked.ok_iff {r : Except CredentialsError Credentials}
    (hchecked : Checked key chain h r) :
    (∃ c, r = .ok c) ↔ LeafIs (fun leaf => Exact leaf ∨ Overlong leaf) chain := by
  cases hchecked with
  | empty => simp [LeafIs]
  | malformed unread =>
      refine iff_of_false (by simp) ?_
      rintro ⟨leaf, others, heq, hbegins⟩
      cases heq
      rcases X509.exists_certificate?_iff.mpr hbegins with ⟨certificate, hread⟩
      rw [hread] at unread
      cases unread
  | shown read now =>
      exact iff_of_true ⟨_, rfl⟩ ⟨_, _, rfl, X509.exists_certificate?_iff.mp ⟨_, read⟩⟩

/-- Credentials that are loaded have passed the check. -/
theorem Loads.checked {certificatePath keyPath : String} {c : Credentials}
    (hloads : Loads certificatePath keyPath h (.ok c)) :
    ∃ key h', Checked key c.chain h' (.ok c) := by
  cases hloads with
  | loaded certificates found checked =>
      cases checked with
      | shown read now => exact ⟨_, _, Checked.shown read now⟩

/-- A check fails for want of a leaf, or of a certificate in it. -/
theorem Checked.error {e : CredentialsError} (hchecked : Checked key chain h (.error e)) :
    e = .emptyChain ∨ e = .malformedLeaf := by
  cases hchecked with
  | empty => exact Or.inl rfl
  | malformed unread => exact Or.inr rfl

/-- A chain passes exactly if its leaf begins with a certificate. So a leaf that passes is one
certificate and nothing else, unless something stands behind the certificate. Chains that do not
pass are refused for want of credentials. From files no other chains are loaded. -/
theorem ofDer_exact_iff (answer : (e : Effect) → σ → e.Answer × σ) (chain : List (List UInt8))
    (key : PrivateKey) (s : σ) :
    let result := ((Credentials.ofDer chain key).run.run answer s).1
    ((∃ c, result = .ok c) ↔ LeafIs (fun leaf => Exact leaf ∨ Overlong leaf) chain) ∧
      (((∃ c, result = .ok c) → LeafIs Exact chain) ↔ ¬ LeafIs Overlong chain) ∧
      (∀ e, result = .error e → e = .emptyChain ∨ e = .malformedLeaf) ∧
      ∀ certificatePath keyPath c,
        ((Credentials.load certificatePath keyPath).run.run answer s).1 = .ok c →
          LeafIs (fun leaf => Exact leaf ∨ Overlong leaf) c.chain ∧
            (LeafIs Exact c.chain ↔ ¬ LeafIs Overlong c.chain) := by
  intro result
  have hchecked : Checked key chain _ result := ofDer_returns (returns_history answer _ s)
  have hpasses := hchecked.ok_iff
  -- A leaf that begins with a certificate either ends there or does not.
  have hexact : ∀ {chain}, LeafIs (fun leaf => Exact leaf ∨ Overlong leaf) chain →
      (LeafIs Exact chain ↔ ¬ LeafIs Overlong chain) := by
    rintro chain ⟨leaf, others, rfl, hbegins⟩
    constructor
    · rintro ⟨leaf', others', heq, hleaf⟩ ⟨leaf'', others'', heq', hleaf'⟩
      cases heq
      cases heq'
      exact hleaf.not_overlong hleaf'
    · intro hnone
      rcases hbegins with hleaf | hleaf
      · exact ⟨leaf, others, rfl, hleaf⟩
      · exact absurd ⟨leaf, others, rfl, hleaf⟩ hnone
  refine ⟨hpasses, ?_, ?_, ?_⟩
  · constructor
    · rintro hleaf ⟨leaf, others, hchain, hoverlong⟩
      have hbegins : LeafIs (fun leaf => Exact leaf ∨ Overlong leaf) chain :=
        ⟨leaf, others, hchain, Or.inr hoverlong⟩
      exact (hexact hbegins).mp (hleaf (hpasses.mpr hbegins)) ⟨leaf, others, hchain, hoverlong⟩
    · intro hnone hok
      exact (hexact (hpasses.mp hok)).mpr hnone
  · intro e herror
    rw [herror] at hchecked
    exact hchecked.error
  · intro certificatePath keyPath c hok
    -- Loaded credentials have passed the same check.
    have hloads := load_returns (returns_history answer
      (Credentials.load certificatePath keyPath).run s)
    rw [hok] at hloads
    rcases hloads.checked with ⟨key', h', hchecked'⟩
    have hbegins := hchecked'.ok_iff.mp ⟨c, rfl⟩
    exact ⟨hbegins, hexact hbegins⟩

/-- A certificate of 141 bytes. -/
def shortCertificate : List UInt8 :=
  [0x30, 0x81, 0x8A, 0x30, 0x63, 0xA0, 0x03, 0x02, 0x01, 0x02, 0x02, 0x01, 0x01, 0x30, 0x0A, 0x06,
    0x08, 0x2A, 0x86, 0x48, 0xCE, 0x3D, 0x04, 0x03, 0x02, 0x30, 0x0C, 0x31, 0x0A, 0x30, 0x08, 0x06,
    0x03, 0x55, 0x04, 0x03, 0x0C, 0x01, 0x61, 0x30, 0x20, 0x17, 0x0D, 0x32, 0x30, 0x30, 0x31, 0x30,
    0x31, 0x30, 0x30, 0x30, 0x30, 0x30, 0x30, 0x5A, 0x18, 0x0F, 0x32, 0x30, 0x39, 0x39, 0x30, 0x31,
    0x30, 0x31, 0x30, 0x30, 0x30, 0x30, 0x30, 0x30, 0x5A, 0x30, 0x0C, 0x31, 0x0A, 0x30, 0x08, 0x06,
    0x03, 0x55, 0x04, 0x03, 0x0C, 0x01, 0x61, 0x30, 0x0F, 0x30, 0x09, 0x04, 0x07, 0x2A, 0x86, 0x48,
    0xCE, 0x3D, 0x02, 0x01, 0x03, 0x02, 0x00, 0x04, 0x30, 0x0A, 0x06, 0x08, 0x2A, 0x86, 0x48, 0xCE,
    0x3D, 0x04, 0x03, 0x02, 0x03, 0x17, 0x00, 0x30, 0x14, 0x02, 0x08, 0x01, 0x01, 0x01, 0x01, 0x01,
    0x01, 0x01, 0x01, 0x02, 0x08, 0x02, 0x02, 0x02, 0x02, 0x02, 0x02, 0x02, 0x02]

/-- A byte behind the certificate of the leaf goes unnoticed. -/
theorem ofDer_overlong :
    Exact shortCertificate ∧
      ∃ c, ((Credentials.ofDer [shortCertificate ++ [0x00]] ⟨.pkcs8, [0x6B]⟩).run.run still ()).1 =
        .ok c := by
  -- The leaf without its last byte is one certificate.
  have hexact : Exact shortCertificate := by
    have hreads : (X509.certificate? shortCertificate).isSome = true := by decide +kernel
    have hwhole : ((X509.element? shortCertificate).map Prod.snd) = some [] := by decide +kernel
    rcases Option.isSome_iff_exists.mp hreads with ⟨certificate, hcertificate⟩
    rcases Option.map_eq_some_iff.mp hwhole with ⟨⟨e, rest⟩, helement, rfl⟩
    exact ⟨certificate, hcertificate, e, helement⟩
  have hchecked := ofDer_returns (returns_history still
    (Credentials.ofDer [shortCertificate ++ [0x00]] ⟨.pkcs8, [0x6B]⟩).run ())
  refine ⟨hexact, hchecked.ok_iff.mpr ⟨_, [], rfl, Or.inr ?_⟩⟩
  exact ⟨shortCertificate, [0x00], rfl, hexact, List.cons_ne_nil _ _⟩

/-! ## Showing -/

/-- What is shown, piece by piece. -/
theorem Credentials.toList_label (c : Credentials) :
    c.label.toList = "ClientCredentials \x7b subject: ".toList ++
      ((Text.quoted c.subject).toList ++ (", not_after: ".toList ++
        ((Text.quoted c.notAfter).toList ++ (", chain_len: ".toList ++
          ((toString c.chain.length).toList ++ ", .. \x7d".toList))))) := by
  unfold Credentials.label
  simp only [String.join, List.foldl_cons, List.foldl_nil, String.toList_append, List.append_assoc]
  rfl

/-- Credentials are shown alike exactly if they belong to the same subject until the same time and
have equally long chains. So the key is not shown, and nothing of a subject is lost. -/
theorem Credentials.label_eq_iff {c c' : Credentials} :
    c.label = c'.label ↔ c.subject = c'.subject ∧ c.notAfter = c'.notAfter ∧
      c.chain.length = c'.chain.length := by
  constructor
  · intro h
    have htexts : c.label.toList = c'.label.toList := congrArg String.toList h
    rw [toList_label, toList_label] at htexts
    -- From left to right: a quoted text ends where its own quote ends, whatever is inside.
    obtain ⟨hsubject, hbehind⟩ := Text.quoted_append_inj.mp (List.append_cancel_left htexts)
    obtain ⟨hnotAfter, hlength⟩ := Text.quoted_append_inj.mp (List.append_cancel_left hbehind)
    have hnumeral := List.append_cancel_right (List.append_cancel_left hlength)
    have hdigits : Nat.toDigits 10 c.chain.length = Nat.toDigits 10 c'.chain.length := by
      simpa only [Nat.toString_eq_ofList_toDigits, String.toList_ofList] using hnumeral
    exact ⟨hsubject, hnotAfter, Text.toDigits_inj (by decide) (by decide) hdigits⟩
  · rintro ⟨hsubject, hnotAfter, hlength⟩
    unfold Credentials.label
    rw [hsubject, hnotAfter, hlength]

end ProfileAdmin.Credential
