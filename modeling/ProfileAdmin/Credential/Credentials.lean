import ProfileAdmin.Host.Program
import ProfileAdmin.Tls.PrivateKey
import ProfileAdmin.X509.Certificate

/-!
# Credential.Credentials — who the client is

1. **Credentials**: a chain of certificates, the client's own one first, and the key
   that belongs to it. The key is not shown.
2. **Loading** from bytes and from files.
-/

namespace ProfileAdmin.Credential

open Client (CredentialsError PemError)
open Host (Program)
open Tls (KeyForm PrivateKey)

/-! ## Credentials -/

/-- A chain of certificates with its key. -/
structure Credentials where
  chain : List (List UInt8)
  key : PrivateKey
  subject : String
  notAfter : String
  deriving DecidableEq, Repr

/-- The form in which credentials are shown to a developer, on one line and without the key. -/
def Credentials.label (c : Credentials) : String :=
  String.join ["ClientCredentials \x7b subject: ", Text.quoted c.subject, ", not_after: ",
    Text.quoted c.notAfter, ", chain_len: ", toString c.chain.length, ", .. \x7d"]

/-! ## Loading -/

/-- A program that loads credentials. -/
abbrev Loading (α : Type) := ExceptT CredentialsError Program α

/-- Credentials from bytes. The first certificate has to be one that can be shown. -/
def Credentials.ofDer (chain : List (List UInt8)) (key : PrivateKey) : Loading Credentials := do
  match chain with
  | [] => throw .emptyChain
  | leaf :: _ =>
    match X509.certificate? leaf with
    | none => throw .malformedLeaf
    | some certificate =>
      let subject := certificate.subject.text
      let notAfter := certificate.notAfter.text
      let now ← ExceptT.lift Program.clock
      -- A certificate that is out of date is noted, and used all the same.
      if !certificate.isValidAt now then
        ExceptT.lift (Program.note (.outsideValidity subject notAfter))
      return ⟨chain, key, subject, notAfter⟩

/-- The form of a key in a section of this kind. -/
def keyForm? : Pem.Kind → Option KeyForm
  | .rsaKey => some .pkcs1
  | .ecKey => some .sec1
  | .privateKey => some .pkcs8
  | _ => none

/-- The first key among the items of a file. What stands behind it is not looked at. -/
def firstKey : List (Except Pem.Flaw Pem.Item) → Except PemError PrivateKey
  | [] => .error .noItems
  | .error f :: _ => .error (.malformed f)
  | .ok item :: items =>
    match keyForm? item.kind with
    | some form => .ok ⟨form, item.content⟩
    | none => firstKey items

/-- The certificates of a file, in its order. -/
def readCertificates (path : String) : Program (Except PemError (List (List UInt8))) := do
  match ← Program.fileBytes path with
  | .error e => return .error (.unreadable e)
  | .ok bytes => return (Pem.certificates bytes).mapError .malformed

/-- The first key of a file. -/
def readKey (path : String) : Program (Except PemError PrivateKey) := do
  match ← Program.fileBytes path with
  | .error e => return .error (.unreadable e)
  | .ok bytes => return firstKey (Pem.items bytes)

/-- A result of a file as part of loading. -/
def fromFile {α : Type} (path : String) (read : String → Program (Except PemError α)) :
    Loading α := do
  match ← ExceptT.lift (read path) with
  | .ok a => return a
  | .error e => throw (.file path e)

/-- Credentials from a file of certificates and a file with a key. -/
def Credentials.load (certificatePath keyPath : String) : Loading Credentials := do
  let chain ← fromFile certificatePath readCertificates
  let key ← fromFile keyPath readKey
  let credentials ← Credentials.ofDer chain key
  ExceptT.lift <| Program.note <|
    .credentialsLoaded certificatePath credentials.subject credentials.notAfter
  return credentials

end ProfileAdmin.Credential
