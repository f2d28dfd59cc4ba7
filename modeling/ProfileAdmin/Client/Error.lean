import ProfileAdmin.Call.Header
import ProfileAdmin.Call.Operation
import ProfileAdmin.Config.Settings
import ProfileAdmin.Host.FileError
import ProfileAdmin.Json.Fault
import ProfileAdmin.Pem.Section
import ProfileAdmin.Tls.Certificate

/-!
# Client.Error — how an operation fails

1. **Credentials**: files that hold certificates and keys.
2. **Channels**: what a connection refuses.
3. **Protocol**: failures below the meaning of an answer.
4. **Client**: all failures of a client.
-/

namespace ProfileAdmin.Client

open Call (Operation StatusCodeData)
open Host (FileError)

/-! ## Credentials -/

/-- Why a file of sections gave nothing. -/
inductive PemError where
  | unreadable (e : FileError)
  | noItems
  | malformed (f : Pem.Flaw)
  deriving DecidableEq, Repr

/-- The wording of an error. -/
def PemError.message : PemError → String
  | .unreadable e => s!"I/O error: {e.message}"
  | .noItems => "no items found"
  | .malformed f => f.message

/-- Why there are no credentials. -/
inductive CredentialsError where
  | file (path : String) (e : PemError)
  | emptyChain
  | malformedLeaf
  deriving DecidableEq, Repr

/-- The wording of an error. That of a leaf that cannot be shown ends where the parser would go on
with a reason of its own; the reason is left out. -/
def CredentialsError.message : CredentialsError → String
  | .file path e => s!"{path}: {e.message}"
  | .emptyChain => "certificate chain is empty"
  | .malformedLeaf => "X.509 parse error"

/-! ## Channels -/

/-- Why a bundle of trusted certificates is not used. -/
inductive BundleError where
  | file (e : PemError)
  | refused (f : Tls.CertificateFlaw)
  | empty
  deriving DecidableEq, Repr

/-- The wording of an error. -/
def BundleError.message : BundleError → String
  | .file e => e.message
  | .refused f => f.message
  | .empty => "no certificates found"

/-- Why credentials are not used for a channel. -/
inductive ChannelError where
  | unusableKey
  | certificate (f : Tls.CertificateFlaw)
  | keyMismatch
  deriving DecidableEq, Repr

/-- The wording of an error. -/
def ChannelError.message : ChannelError → String
  | .unusableKey => "unexpected error: failed to parse private key as RSA, ECDSA, or EdDSA"
  | .certificate f => f.message
  | .keyMismatch => "keys may not be consistent: KeyMismatch"

/-! ## Protocol -/

/-- Failures below the meaning of an answer. -/
inductive ProtocolError where
  /-- No random bytes were to be had. -/
  | callIdentifier (reason : String)
  | undecodable (op : Operation) (f : Json.Fault)
  | credentials (e : CredentialsError)
  | caBundle (path : String) (e : BundleError)
  | channel (e : ChannelError)

/-- The wording of an error. -/
def ProtocolError.message : ProtocolError → String
  | .callIdentifier reason => s!"failed to generate function call identifier: {reason}"
  | .undecodable op f => s!"failed to decode {op.name} response: {f.message}"
  | .credentials e => s!"failed to load client credentials: {e.message}"
  | .caBundle path e => s!"failed to load CA bundle: {path}: {e.message}"
  | .channel e => s!"TLS configuration error: client cert config: {e.message}"

/-! ## Client -/

/-- Why settings were not had from a document. -/
inductive SettingsError where
  | unreadable (path : String) (e : FileError)
  | malformed
  | mismatch (m : Document.Mismatch)
  | invalid (f : Config.Flaw)

/-- Numbers in messages about settings are positional throughout. -/
def settingsNumbers : Decimal.Layout := ⟨none⟩

/-- The wording of an error. That of a text which is no document ends where the parser would go on
with the place and its reason; both are left out. -/
def SettingsError.message : SettingsError → String
  | .unreadable path e => s!"invalid client configuration: {path}: {e.message}"
  | .malformed => "failed to parse client configuration"
  | .mismatch m => s!"failed to parse client configuration: {m.message settingsNumbers}"
  | .invalid f => s!"invalid client configuration: {f.message}"

/-- The failures of a client. -/
inductive Error where
  | settings (e : SettingsError)
  | transport (op : Operation) (reason : String)
  /-- The endpoint answered, and declared something else than success. -/
  | declined (op : Operation) (status : String) (data : Option StatusCodeData)
  | ambiguous (iccid : String) (count : Nat)
  | otherProfile (requested reported : String)
  | unknownProfile (iccid : String)
  | protocol (e : ProtocolError)

/-- The wording of a failure. -/
def Error.message : Error → String
  | .settings e => e.message
  | .transport op reason => s!"transport error calling {op.name}: {reason}"
  | .declined op status _ => s!"{op.name} execution status was '{status}'"
  | .ambiguous iccid count => s!"getProfileStatus returned {count} profiles for iccid {iccid}"
  | .otherProfile requested reported =>
    s!"getProfileStatus for iccid {requested} reported iccid {reported}"
  | .unknownProfile iccid => s!"profile {iccid} is unknown to the administration endpoint"
  | .protocol e => s!"protocol error: {e.message}"

end ProfileAdmin.Client
