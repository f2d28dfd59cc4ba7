import Mathlib.Data.List.TakeWhile
import ProfileAdmin.Client.Connection
import ProfileAdmin.Proofs.Client.Attempt
import ProfileAdmin.Proofs.Config.Endpoint

/-!
# Proofs.Client.Url — where the operations of an endpoint are called

1. **Locators** in the generic syntax: a scheme, an authority and a path. Other signs than the
   one for a path end an authority, too.
2. **Aim**: a URL leads to an operation at an endpoint.
3. **Connections** call their operations at the endpoint of their settings, which lead there
   unless the endpoint goes on behind an authority, or writes a sign before its port.
-/

namespace ProfileAdmin.Client

open Call (Operation basePath)
open Config (HostPort Settings SignsPort settingsAt)
open Host (Deed Effect Program)

/-! ## Locators -/

/-- The first parts of a URL. -/
structure Locator where
  scheme : List Char
  authority : List Char
  path : List Char

/-- An authority ends where a path, a query or a fragment begins. -/
def endsAuthority (c : Char) : Bool :=
  c == '/' || c == '?' || c == '#'

/-- A path ends where a query or a fragment begins. -/
def endsPath (c : Char) : Bool :=
  c == '?' || c == '#'

/-- What stands before the first `://` and behind it. -/
def atScheme? : List Char → Option (List Char × List Char)
  | [] => none
  | ':' :: '/' :: '/' :: rest => some ([], rest)
  | c :: cs => (atScheme? cs).map fun (scheme, rest) => (c :: scheme, rest)

/-- The parts of a URL in the generic syntax. -/
def Locator.ofUrl? (url : String) : Option Locator :=
  (atScheme? url.toList).map fun (scheme, rest) =>
    { scheme := scheme
      authority := rest.takeWhile fun c => !endsAuthority c
      path := (rest.dropWhile fun c => !endsAuthority c).takeWhile fun c => !endsPath c }

/-- An authority in front of a path is read whole exactly if nothing in it ends it. -/
theorem takeWhile_append_path {authority path : List Char} :
    (authority ++ '/' :: path).takeWhile (fun c => !endsAuthority c) = authority ↔
      ∀ c ∈ authority, endsAuthority c = false := by
  constructor
  · intro hwhole c hc
    rw [← hwhole] at hc
    simpa using List.mem_takeWhile_imp hc
  · intro hall
    rw [List.takeWhile_append_of_pos (by simpa using hall)]
    exact List.append_nil authority

/-- The path begins where the authority ends. -/
theorem dropWhile_append_path {authority path : List Char}
    (h : ∀ c ∈ authority, endsAuthority c = false) :
    (authority ++ '/' :: path).dropWhile (fun c => !endsAuthority c) = '/' :: path := by
  rw [List.dropWhile_append_of_pos (by simpa using h)]
  rfl

/-! ## Aim -/

/-- A URL is secure, goes to a host and a port which are the endpoint, and names an operation. -/
def LeadsTo (url endpoint : String) (op : Operation) : Prop :=
  ∃ l, Locator.ofUrl? url = some l ∧ l.scheme = "https".toList ∧
    l.authority = endpoint.toList ∧ HostPort l.authority ∧
    l.path = ("/gsma/rsp2/es2plus/" ++ op.name).toList

theorem atScheme?_https (rest : List Char) :
    atScheme? ("https://".toList ++ rest) = some ("https".toList, rest) :=
  rfl

/-- A URL is the scheme, the endpoint, and a path for the operation. -/
theorem toList_urlAt (endpoint : String) (op : Operation) :
    (urlAt endpoint op).toList =
      "https://".toList ++ (endpoint.toList ++ ("/gsma/rsp2/es2plus/" ++ op.name).toList) := by
  change ("https://" ++ endpoint ++ "/gsma/rsp2/es2plus" ++ "/" ++ op.name).toList = _
  simp [String.toList_append]

/-- Only the endpoint decides where an operation is called. -/
theorem leadsTo_urlAt_iff {endpoint : String} {op : Operation} :
    LeadsTo (urlAt endpoint op) endpoint op ↔
      (∀ c ∈ endpoint.toList, endsAuthority c = false) ∧ HostPort endpoint.toList := by
  obtain ⟨path, hpath⟩ : ∃ path, ("/gsma/rsp2/es2plus/" ++ op.name).toList = '/' :: path := by
    cases op <;> exact ⟨_, rfl⟩
  have hends : (("/gsma/rsp2/es2plus/" ++ op.name).toList.all fun c => !endsPath c) = true := by
    cases op <;> decide +kernel
  -- The scheme is the same for all endpoints, so what is left to see is where the authority ends.
  unfold LeadsTo Locator.ofUrl?
  rw [toList_urlAt, atScheme?_https]
  constructor
  · rintro ⟨_, ⟨⟩, -, hauthority, hport, -⟩
    rw [hauthority] at hport
    rw [hpath] at hauthority
    exact ⟨takeWhile_append_path.mp hauthority, hport⟩
  · rintro ⟨hall, hport⟩
    have hauthority : (endpoint.toList ++ '/' :: path).takeWhile (fun c => !endsAuthority c) =
        endpoint.toList := takeWhile_append_path.mpr hall
    refine ⟨_, rfl, rfl, ?_, ?_, ?_⟩
    · rw [hpath]
      exact hauthority
    · dsimp only
      rw [hpath, hauthority]
      exact hport
    · dsimp only
      rw [hpath, dropWhile_append_path hall, ← hpath]
      exact List.takeWhile_eq_self_iff.mpr (List.all_eq_true.mp hends)

/-! ## Connections -/

/-- Settings with a flaw are turned down at once. -/
theorem make_of_flaw {s : Settings} {flaw : Config.Flaw} (h : s.flaw? = some flaw) :
    Connection.make s = throw (.settings (.invalid flaw)) := by
  unfold Connection.make
  rw [h]
  rfl

/-- Settings without a flaw go through the credentials and the channel. -/
theorem make_of_flawless {s : Settings} (h : s.flaw? = none) :
    Connection.make s = (do
      match ← plain (Credential.Credentials.load s.certificate s.key).run with
      | .error e => throw (.protocol (.credentials e))
      | .ok credentials =>
        match ← plain (Tls.Channel.build credentials s.verification).run with
        | .error e => throw (.protocol e)
        | .ok channel =>
          plain (Program.note (.channelReady s.endpoint credentials.subject))
          return ⟨s.endpoint, channel, s.debugging.headers⟩) := by
  unfold Connection.make
  rw [h]
  dsimp only
  apply bind_congr
  intro loaded
  -- Failures of the credentials end both sides alike.
  cases loaded with
  | error e => rfl
  | ok credentials =>
      dsimp only
      rw [pure_bind]
      apply bind_congr
      intro built
      cases built <;> rfl

/-- Connections are made by settings without a flaw, to their endpoint. -/
theorem make_returns {s : Settings} {h : List Deed} {x : Connection}
    (hr : Program.Returns (Connection.make s).run h (.ok x)) :
    s.flaw? = none ∧ x.endpoint = s.endpoint := by
  -- One part after the other: a failure would be the result, and the result is a connection.
  cases hflaw : s.flaw? with
  | some flaw =>
      rw [make_of_flaw hflaw] at hr
      cases (returns_throw_iff.mp hr).2
  | none =>
      refine ⟨rfl, ?_⟩
      rw [make_of_flawless hflaw] at hr
      obtain ⟨-, h₁, loaded, -, -, hloaded⟩ := returns_plain_seq_iff.mp hr
      cases loaded with
      | error e => cases (returns_throw_iff.mp hloaded).2
      | ok credentials =>
          obtain ⟨-, h₂, built, -, -, hbuilt⟩ := returns_plain_seq_iff.mp hloaded
          cases built with
          | error e => cases (returns_throw_iff.mp hbuilt).2
          | ok channel =>
              obtain ⟨-, h₃, -, -, -, hnoted⟩ := returns_plain_seq_iff.mp hbuilt
              cases (returns_pure_iff.mp hnoted).2
              rfl

/-- An operation is called at the endpoint of the settings and nowhere else, exactly if nothing
in the endpoint ends an authority and no sign stands before its port. -/
theorem url_leadsTo_iff {s : Settings} (hflawless : s.flaw? = none) (op : Operation) :
    (∀ (σ : Type) (answer : (e : Effect) → σ → e.Answer × σ) (t : σ) (x : Connection),
      ((Connection.make s).run.run answer t).1 = .ok x → x.url op = urlAt s.endpoint op) ∧
    (LeadsTo (urlAt s.endpoint op) s.endpoint op ↔
      (∀ c ∈ s.endpoint.toList, endsAuthority c = false) ∧ ¬ SignsPort s.endpoint.toList) := by
  constructor
  · intro σ answer t x hmade
    have hr := Program.returns_history answer (Connection.make s).run t
    rw [hmade] at hr
    unfold Connection.url
    rw [(make_returns hr).2]
  · rw [leadsTo_urlAt_iff, Config.hostPort_iff_of_flawless hflawless]

/-- An endpoint of a host and a port is the one that is called. -/
theorem url_leadsTo_plain :
    (settingsAt "smdp.example.com:8443").flaw? = none ∧
      LeadsTo (urlAt "smdp.example.com:8443" .downloadOrder) "smdp.example.com:8443"
        .downloadOrder := by
  have hflawless : (settingsAt "smdp.example.com:8443").flaw? = none := by decide +kernel
  have hwhole : ("smdp.example.com:8443".toList.all fun c => !endsAuthority c) = true := by
    decide +kernel
  refine ⟨hflawless, (url_leadsTo_iff hflawless .downloadOrder).2.mpr ⟨?_, by decide +kernel⟩⟩
  intro c hc
  simpa using List.all_eq_true.mp hwhole c hc

/-- A host with a path passes for a host, and the requests go to the host without a port. -/
theorem url_astray :
    (settingsAt "smdp.example.com/x:8443").flaw? = none ∧
      (Locator.ofUrl? (urlAt "smdp.example.com/x:8443" .downloadOrder)).map
        Locator.authority = some "smdp.example.com".toList ∧
      ¬ LeadsTo (urlAt "smdp.example.com/x:8443" .downloadOrder) "smdp.example.com/x:8443"
        .downloadOrder := by
  refine ⟨by decide +kernel, by decide +kernel, fun hleads => ?_⟩
  have hslash := (leadsTo_urlAt_iff.mp hleads).1 '/' (by decide +kernel)
  cases hslash

end ProfileAdmin.Client
