import ProfileAdmin.Config.Verification
import ProfileAdmin.Credential.Credentials

/-!
# Tls.Channel — what a connection is set up with

1. **Trust**: any server, or those that lead to a bundle of certificates.
2. **Identity**: the client's chain and key, which have to belong together.
3. **Channels**: both of them, trust first.
-/

namespace ProfileAdmin.Tls

open Client (BundleError ChannelError ProtocolError)
open Config (Verification)
open Credential (Credentials)
open Host (Program)

/-! ## Trust -/

/-- Whom a client believes. -/
inductive Trust where
  | anyServer
  | anchors (certificates : List (List UInt8))
  deriving DecidableEq, Repr

/-- The certificates among the items of a bundle, each of which has to be trustworthy.
The first item that is not as it should be decides. -/
def anchorsOf : List (Except Pem.Flaw Pem.Item) → Except BundleError (List (List UInt8))
  | [] => .ok []
  | .error f :: _ => .error (.file (.malformed f))
  | .ok item :: items =>
    if item.kind = .certificate then
      match trusted item.content with
      | .error f => .error (.refused f)
      | .ok () => (anchorsOf items).map (item.content :: ·)
    else anchorsOf items

/-- The anchors of a bundle, of which there has to be one. -/
def bundleOf (file : List UInt8) : Except BundleError (List (List UInt8)) := do
  match ← anchorsOf (Pem.items file) with
  | [] => throw .empty
  | anchors => return anchors

/-- A program that sets up a channel. -/
abbrev Setup (α : Type) := ExceptT ProtocolError Program α

/-- The anchors of a bundle in a file. -/
def readBundle (path : String) : Setup (List (List UInt8)) := do
  match ← ExceptT.lift (Program.fileBytes path) with
  | .error e => throw (.caBundle path (.file (.unreadable e)))
  | .ok bytes =>
    match bundleOf bytes with
    | .error e => throw (.caBundle path e)
    | .ok anchors => return anchors

/-- Whom a way of verification believes. -/
def trustOf : Verification → Setup Trust
  | .disabled => do
    ExceptT.lift (Program.note .verificationDisabled)
    return .anyServer
  | .caBundle path => .anchors <$> readBundle path

/-! ## Identity -/

/-- Why credentials cannot be presented: the key has to be usable, and its public side
has to be the one in the client's certificate. -/
def identityError? (c : Credentials) : Option ChannelError :=
  match c.key.info? with
  | none => some .unusableKey
  | some info =>
    match subjectKey .party (c.chain.headD []) with
    | .error f => some (.certificate f)
    | .ok key => if key = info then none else some .keyMismatch

/-! ## Channels -/

/-- What a connection is set up with. -/
structure Channel where
  trust : Trust
  credentials : Credentials
  deriving DecidableEq, Repr

/-- Sets up a channel. -/
def Channel.build (c : Credentials) (v : Verification) : Setup Channel := do
  let trust ← trustOf v
  match identityError? c with
  | some e => throw (.channel e)
  | none => return ⟨trust, c⟩

end ProfileAdmin.Tls
