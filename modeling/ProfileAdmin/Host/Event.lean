import ProfileAdmin.Client.Error
import ProfileAdmin.Profile.Activation

/-!
# Host.Event — what is logged

Each event has a level, a message, and named fields.
-/

namespace ProfileAdmin.Host

open Call (Operation)
open Profile (Disposition State Step Transition)

/-- What can be logged. -/
inductive Event where
  | requestBody (op : Operation) (payload : List UInt8)
  | responseBody (op : Operation) (payload : List UInt8)
  | callCompleted (op : Operation) (status : String)
  | noStatus (iccid : String)
  | alreadyActivated (iccid state : String)
  | noTransition (iccid state : String)
  | stalled (iccid : String) (t : Transition)
  | stepping (iccid : String) (t : Transition)
  | activationFinished (iccid state : String) (isActivated : Bool) (steps : Nat)
  | outsideValidity (subject notAfter : String)
  | credentialsLoaded (path subject notAfter : String)
  | verificationDisabled
  | certificateAccepted (server : String) (length : Nat)
  | channelReady (endpoint subject : String)
  | notActivated (iccid : String) (d : Disposition)
  | bulkStarted (count workers : Nat)
  | activationFailed (iccid : String) (e : Client.Error)
  | bulkFinished (total failed : Nat)
  | smoketestPassed (iccid : String)

/-- How much an event matters. -/
inductive Level where
  | debug
  | info
  | warn
  deriving DecidableEq, Repr

/-- How a level is written. -/
def Level.name : Level → String
  | .debug => "DEBUG"
  | .info => "INFO"
  | .warn => "WARN"

/-- An event as it appears in a log. -/
structure Entry where
  level : Level
  message : String
  fields : List (String × String)
  deriving DecidableEq, Repr

/-- The appearance of an event. -/
def Event.entry : Event → Entry
  | .requestBody op payload =>
    ⟨.info, "ES2+ request body",
      [("operation", op.name), ("payload", Text.Utf8.decodeLossy payload)]⟩
  | .responseBody op payload =>
    ⟨.info, "ES2+ response body",
      [("operation", op.name), ("payload", Text.Utf8.decodeLossy payload)]⟩
  | .callCompleted op status =>
    ⟨.debug, "ES2+ call completed", [("operation", op.name), ("status", status)]⟩
  | .noStatus iccid => ⟨.info, "no profile status reported", [("iccid", iccid)]⟩
  | .alreadyActivated iccid state =>
    ⟨.info, "profile already activated", [("iccid", iccid), ("state", state)]⟩
  | .noTransition iccid state =>
    ⟨.warn, "no lifecycle transition for reported state", [("iccid", iccid), ("state", state)]⟩
  | .stalled iccid t =>
    ⟨.warn, "profile did not leave state after step",
      [("iccid", iccid), ("state", t.source.name), ("step", t.step.name)]⟩
  | .stepping iccid t =>
    ⟨.info, "applying lifecycle step",
      [("iccid", iccid), ("from", t.source.name), ("to", t.target.name), ("step", t.step.name)]⟩
  | .activationFinished iccid state isActivated steps =>
    ⟨.info, "activation finished",
      [("iccid", iccid), ("state", state), ("activated", toString isActivated),
        ("steps", toString steps)]⟩
  | .outsideValidity subject notAfter =>
    ⟨.warn, "client certificate is outside its validity period",
      [("subject", subject), ("not_after", notAfter)]⟩
  | .credentialsLoaded path subject notAfter =>
    ⟨.info, "loaded ES2+ client credentials",
      [("cert", path), ("subject", subject), ("not_after", notAfter)]⟩
  | .verificationDisabled => ⟨.warn, "ES2+ server certificate verification is disabled", []⟩
  | .certificateAccepted server length =>
    ⟨.debug, "accepting server certificate without verification",
      [("server", s!"DnsName({Text.quoted server})"), ("cert_len", toString length)]⟩
  | .channelReady endpoint subject =>
    ⟨.info, "ES2+ transport ready", [("endpoint", endpoint), ("subject", subject)]⟩
  | .notActivated iccid d =>
    ⟨.warn, "profile not activated", [("iccid", iccid), ("disposition", d.label)]⟩
  | .bulkStarted count workers =>
    ⟨.info, "starting bulk activation",
      [("count", toString count), ("workers", toString workers)]⟩
  | .activationFailed iccid e =>
    ⟨.warn, "activation failed", [("iccid", iccid), ("error", e.message)]⟩
  | .bulkFinished total failed =>
    ⟨.info, "bulk activation finished",
      [("total", toString total), ("failed", toString failed)]⟩
  | .smoketestPassed iccid => ⟨.info, "smoketest passed", [("iccid", iccid)]⟩

end ProfileAdmin.Host
