import ProfileAdmin.Client.Operations
import ProfileAdmin.Tls.Channel

/-!
# Client.Connection — from settings to a client

The settings are checked first, then the credentials are loaded, then the channel is set
up. Nothing is sent.
-/

namespace ProfileAdmin.Client

open Call (Operation basePath)
open Config (Settings)
open Credential (Credentials)
open Host (Program)
open Tls (Channel)

/-- A channel to an endpoint. -/
structure Connection where
  endpoint : String
  channel : Channel
  showsHeaders : Bool
  deriving DecidableEq, Repr

/-- Where an endpoint offers an operation. -/
def urlAt (endpoint : String) (op : Operation) : String :=
  s!"https://{endpoint}{basePath}/{op.name}"

/-- Where a connection reaches an operation. -/
def Connection.url (c : Connection) (op : Operation) : String :=
  urlAt c.endpoint op

/-- A connection by its settings. -/
def Connection.make (s : Settings) : Attempt Connection := do
  if let some f := s.flaw? then throw (.settings (.invalid f))
  let credentials ← match ← plain (Credentials.load s.certificate s.key).run with
    | .ok c => pure c
    | .error e => throw (.protocol (.credentials e))
  let channel ← match ← plain (Channel.build credentials s.verification).run with
    | .ok c => pure c
    | .error e => throw (.protocol e)
  plain (Program.note (.channelReady s.endpoint credentials.subject))
  return ⟨s.endpoint, channel, s.debugging.headers⟩

/-- A client by its settings, with its connection. -/
def make (s : Settings) : Attempt (Connection × Client) := do
  let connection ← Connection.make s
  return (connection, ⟨s.requester, s.debugging⟩)

end ProfileAdmin.Client
