import ProfileAdmin.Config.Verification
import ProfileAdmin.Text.Blank
import ProfileAdmin.Text.Numeral

/-!
# Config.Settings — what a client has to be told

1. **Settings**: the endpoint, who asks, with which credentials, and how carefully.
2. **Validity**: what can be checked without files and network.
-/

namespace ProfileAdmin.Config

open Schema

/-! ## Settings -/

/-- What to show of the traffic. -/
structure Debugging where
  payloads : Bool
  headers : Bool
  deriving DecidableEq, Repr

/-- Nothing is shown. -/
def Debugging.off : Debugging := ⟨false, false⟩

/-- The document form of the debugging switches. -/
def Debugging.shape : Shape Debugging :=
  (record "struct DebugOptions" <|
    .cons (defaulted "print_payload" flag false) <|
    .cons (defaulted "print_headers" flag false) .nil).map
  (fun (payloads, headers, ()) => ⟨payloads, headers⟩)
  (fun d => (d.payloads, d.headers, ()))

/-- The connection to one administration endpoint. -/
structure Settings where
  /-- Host and port. -/
  endpoint : String
  requester : String
  /-- The file of the client's certificates, its own one first. -/
  certificate : String
  /-- The file of the client's private key. -/
  key : String
  verification : Verification := .disabled
  debugging : Debugging := .off
  deriving DecidableEq, Repr

/-- The document form of the settings. -/
def Settings.shape : Shape Settings :=
  (record "struct ClientConfig" <|
    .cons (required "endpoint" text) <|
    .cons (required "requester_id" text) <|
    .cons (required "cert_path" path) <|
    .cons (required "key_path" path) <|
    .cons (defaulted "server_verification" Verification.shape .disabled) <|
    .cons (defaulted "debug" Debugging.shape .off) .nil).map
  (fun (endpoint, requester, certificate, key, verification, debugging, ()) =>
    ⟨endpoint, requester, certificate, key, verification, debugging⟩)
  (fun s =>
    (s.endpoint, s.requester, s.certificate, s.key, s.verification, s.debugging, ()))

/-! ## Validity -/

/-- Why settings cannot be used. -/
inductive Flaw where
  | noPort (endpoint : String)
  | noHost (endpoint : String)
  | invalidPort (endpoint : String)
  | noRequester
  deriving DecidableEq, Repr

/-- The wording of a flaw. -/
def Flaw.message : Flaw → String
  | .noPort endpoint => s!"endpoint '{endpoint}' must be host:port"
  | .noHost endpoint => s!"endpoint '{endpoint}' has no host"
  | .invalidPort endpoint => s!"endpoint '{endpoint}' has an invalid port"
  | .noRequester => "requester_id must not be empty"

/-- What stands before and behind the last colon. -/
def atLastColon? (cs : List Char) : Option (List Char × List Char) :=
  let port := cs.reverse.takeWhile (· != ':')
  match cs.reverse.dropWhile (· != ':') with
  | [] => none
  | _ :: host => some (host.reverse, port.reverse)

/-- Ports are below this. -/
def portBound : Nat := 65536

/-- The first flaw of the settings: a host, a colon and a port are wanted, and a requester
that is not blank. -/
def Settings.flaw? (s : Settings) : Option Flaw :=
  match atLastColon? s.endpoint.toList with
  | none => some (.noPort s.endpoint)
  | some (host, port) =>
    if host.isEmpty then some (.noHost s.endpoint)
    else if (Text.numeral? portBound port).isNone then some (.invalidPort s.endpoint)
    else if (Text.trimChars s.requester.toList).isEmpty then some .noRequester
    else none

end ProfileAdmin.Config
