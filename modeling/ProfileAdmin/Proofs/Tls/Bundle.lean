import ProfileAdmin.Proofs.Host.History
import ProfileAdmin.Tls.Channel

/-!
# Proofs.Tls.Bundle — bundles of trusted certificates

1. **Offers**: the certificates that the file of a bundle has to offer, and the flaws between
   them. Items of other kinds are passed over.
2. **Anchors**: the first offer that is no good decides, and without one all offers are anchors,
   in their order.
3. **Blame**: what a bundle is turned down for.
4. **Channels**: where a bundle is to be used, a channel trusts its anchors, or there is no
   channel. No other trust takes their place, and nothing is logged.
-/

namespace ProfileAdmin.Tls

open Client (BundleError ProtocolError)
open Credential (Credentials)
open Host (Deed Effect FileError Program)

variable {items : List (Except Pem.Flaw Pem.Item)} {anchors : List (List UInt8)}
  {e : BundleError}

/-! ## Offers -/

/-- A certificate of a bundle, or what is wrong with the file at its place. -/
abbrev Offer := Except Pem.Flaw (List UInt8)

/-- The offer that an item is, if it is a certificate or a flaw. -/
def offer? : Except Pem.Flaw Pem.Item → Option Offer
  | .error f => some (.error f)
  | .ok item => if item.kind = .certificate then some (.ok item.content) else none

/-- What the items of a file offer, in their order. -/
def offers (items : List (Except Pem.Flaw Pem.Item)) : List Offer :=
  items.filterMap offer?

/-- A certificate that may be trusted. -/
def Offer.IsGood (o : Offer) : Prop :=
  ∃ der, o = .ok der ∧ trusted der = .ok ()

/-- Why an offer is no good. -/
def Offer.error? : Offer → Option BundleError
  | .error f => some (.file (.malformed f))
  | .ok der =>
    match trusted der with
    | .error f => some (.refused f)
    | .ok () => none

/-- An offer is good exactly if there is nothing against it. -/
theorem Offer.error?_eq_none_iff {o : Offer} : o.error? = none ↔ o.IsGood := by
  rcases o with f | der
  · have hflaw : Offer.error? (.error f) ≠ none := nofun
    refine iff_of_false hflaw ?_
    rintro ⟨der, hder, -⟩
    cases hder
  · have hgood : Offer.IsGood (.ok der) ↔ trusted der = .ok () := by
      simp [Offer.IsGood]
    rw [hgood, Offer.error?]
    split
    · rename_i f hrefused
      simp [hrefused]
    · rename_i htrusted
      simp [htrusted]

/-! ## Anchors -/

/-- The anchors of a file are looked for offer by offer. -/
theorem anchorsOf_cons (item : Except Pem.Flaw Pem.Item)
    (items : List (Except Pem.Flaw Pem.Item)) :
    anchorsOf (item :: items) =
      match offer? item with
      | none => anchorsOf items
      | some o =>
        match o.error? with
        | some e => .error e
        | none => (anchorsOf items).map fun anchors => o.toOption.toList ++ anchors := by
  rcases item with f | item
  · rfl
  · rw [anchorsOf, offer?]
    by_cases hkind : item.kind = .certificate
    · rw [if_pos hkind, if_pos hkind]
      dsimp only [Offer.error?]
      cases htrusted : trusted item.content with
      | error f => rfl
      | ok u => rfl
    -- Whatever is no certificate is passed over.
    · rw [if_neg hkind, if_neg hkind]

/-- The first offer that is no good decides. -/
theorem anchorsOf_eq (items : List (Except Pem.Flaw Pem.Item)) :
    anchorsOf items =
      match (offers items).findSome? Offer.error? with
      | some e => .error e
      | none => .ok ((offers items).filterMap Except.toOption) := by
  induction items with
  | nil => rfl
  | cons item items ih =>
      rw [anchorsOf_cons, offers, List.filterMap_cons]
      cases offer? item with
      | none => exact ih
      | some o =>
          dsimp only
          rw [List.findSome?_cons]
          cases hbad : o.error? with
          | some e => rfl
          | none =>
              -- A good offer is the first anchor, and the others decide about the rest.
              obtain ⟨der, rfl, -⟩ := Offer.error?_eq_none_iff.mp hbad
              rw [ih, offers]
              dsimp only
              cases (items.filterMap offer?).findSome? Offer.error? with
              | some e => rfl
              | none => rfl

/-- Offers that are good are certificates. -/
theorem map_ok_of_good {os : List Offer} (h : ∀ o ∈ os, o.IsGood) :
    (os.filterMap Except.toOption).map .ok = os := by
  induction os with
  | nil => rfl
  | cons o os ih =>
      obtain ⟨⟨der, rfl, -⟩, hothers⟩ := List.forall_mem_cons.mp h
      rw [List.filterMap_cons]
      exact congrArg (List.cons _) (ih hothers)

theorem filterMap_map_ok (anchors : List (List UInt8)) :
    (anchors.map (Except.ok (ε := Pem.Flaw))).filterMap Except.toOption = anchors := by
  rw [List.filterMap_map]
  exact List.filterMap_some

/-- Without an offer that is no good, the offers are the anchors. -/
theorem anchorsOf_eq_ok_iff :
    anchorsOf items = .ok anchors ↔
      offers items = anchors.map .ok ∧ ∀ der ∈ anchors, trusted der = .ok () := by
  rw [anchorsOf_eq]
  constructor
  · intro hok
    cases hfirst : (offers items).findSome? Offer.error? with
    | some e =>
        rw [hfirst] at hok
        cases hok
    | none =>
        rw [hfirst] at hok
        obtain rfl : (offers items).filterMap Except.toOption = anchors := Except.ok.inj hok
        have hgood : ∀ o ∈ offers items, o.IsGood := by
          intro o ho
          exact Offer.error?_eq_none_iff.mp (List.findSome?_eq_none_iff.mp hfirst o ho)
        -- All offers are good, so they are their anchors.
        have hoffers := map_ok_of_good hgood
        refine ⟨hoffers.symm, ?_⟩
        intro der hder
        have ho : Except.ok der ∈ offers items := by
          rw [← hoffers]
          exact List.mem_map_of_mem hder
        rcases hgood _ ho with ⟨der', heq, htrusted⟩
        cases heq
        exact htrusted
  · rintro ⟨hoffers, htrusted⟩
    have hfirst : (offers items).findSome? Offer.error? = none := by
      rw [List.findSome?_eq_none_iff, hoffers]
      intro o ho
      obtain ⟨der, hder, rfl⟩ := List.mem_map.mp ho
      exact Offer.error?_eq_none_iff.mpr ⟨der, rfl, htrusted der hder⟩
    rw [hfirst, hoffers]
    exact congrArg Except.ok (filterMap_map_ok anchors)

/-- An error is that of the first offer that is no good. -/
theorem anchorsOf_eq_error_iff :
    anchorsOf items = .error e ↔
      ∃ before o after, offers items = before ++ o :: after ∧ o.error? = some e ∧
        ∀ o' ∈ before, o'.IsGood := by
  have hfirst := List.findSome?_eq_some_iff (l := offers items) (f := Offer.error?) (b := e)
  simp only [Offer.error?_eq_none_iff] at hfirst
  rw [anchorsOf_eq, ← hfirst]
  cases (offers items).findSome? Offer.error? with
  | some e' => simp
  | none => simp

/-- A bundle needs an anchor. -/
theorem bundleOf_eq (file : List UInt8) :
    bundleOf file =
      match anchorsOf (Pem.items file) with
      | .error e => .error e
      | .ok [] => .error .empty
      | .ok anchors => .ok anchors := by
  unfold bundleOf
  rcases anchorsOf (Pem.items file) with e | (_ | ⟨der, others⟩)
  · rfl
  · rfl
  · rfl

/-! ## Blame -/

variable {opened : Except FileError (List UInt8)}

/-- What a bundle is turned down for, by what comes of opening its file. -/
inductive Blames : Except FileError (List UInt8) → BundleError → Prop where
  /-- The file cannot be read. -/
  | unreadable (e : FileError) : Blames (.error e) (.file (.unreadable e))
  /-- After nothing but good offers the file is flawed. -/
  | malformed {bytes : List UInt8} {before after : List Offer} {f : Pem.Flaw}
      (first : offers (Pem.items bytes) = before ++ .error f :: after)
      (good : ∀ o ∈ before, o.IsGood) : Blames (.ok bytes) (.file (.malformed f))
  /-- After nothing but good offers there is a certificate that may not be trusted. -/
  | refused {bytes : List UInt8} {before after : List Offer} {der : List UInt8}
      {f : CertificateFlaw} (first : offers (Pem.items bytes) = before ++ .ok der :: after)
      (good : ∀ o ∈ before, o.IsGood) (untrusted : trusted der = .error f) :
      Blames (.ok bytes) (.refused f)
  /-- The file has nothing to offer. -/
  | empty {bytes : List UInt8} (none : offers (Pem.items bytes) = []) : Blames (.ok bytes) .empty

/-- A file can be read, offers the anchors and nothing else, and all of them may be trusted. -/
structure Provides (opened : Except FileError (List UInt8)) (anchors : List (List UInt8)) :
    Prop where
  offered : ∃ bytes, opened = .ok bytes ∧ offers (Pem.items bytes) = anchors.map .ok
  nonempty : anchors ≠ []
  good : ∀ der ∈ anchors, trusted der = .ok ()

/-- The anchors in a file, or why it is not used. -/
def bundleIn : Except FileError (List UInt8) → Except BundleError (List (List UInt8))
  | .error e => .error (.file (.unreadable e))
  | .ok bytes => bundleOf bytes

/-- A bundle is used exactly if it provides anchors. -/
theorem bundleIn_eq_ok_iff : bundleIn opened = .ok anchors ↔ Provides opened anchors := by
  -- A store without anchors is none.
  have hnonempty : ∀ bytes, bundleOf bytes = .ok anchors ↔
      anchorsOf (Pem.items bytes) = .ok anchors ∧ anchors ≠ [] := by
    intro bytes
    rw [bundleOf_eq]
    rcases anchorsOf (Pem.items bytes) with e | (_ | ⟨der, others⟩)
    · simp
    · constructor
      · intro hok
        cases hok
      · rintro ⟨hok, hne⟩
        exact absurd (Except.ok.inj hok).symm hne
    · constructor
      · intro hok
        cases hok
        exact ⟨rfl, List.cons_ne_nil _ _⟩
      · exact fun h => h.1
  rcases opened with e | bytes
  · refine iff_of_false nofun ?_
    rintro ⟨⟨bytes, hbytes, -⟩, -, -⟩
    cases hbytes
  · rw [bundleIn, hnonempty, anchorsOf_eq_ok_iff]
    constructor
    · rintro ⟨⟨hoffers, hgood⟩, hne⟩
      exact ⟨⟨bytes, rfl, hoffers⟩, hne, hgood⟩
    · rintro ⟨⟨_, ⟨⟩, hoffers⟩, hne, hgood⟩
      exact ⟨⟨hoffers, hgood⟩, hne⟩

/-- What there is against a bundle is against one of its offers, or that it has none. -/
theorem bundleOf_eq_error_iff {bytes : List UInt8} :
    bundleOf bytes = .error e ↔ anchorsOf (Pem.items bytes) = .error e ∨
      offers (Pem.items bytes) = [] ∧ e = .empty := by
  have hnone : offers (Pem.items bytes) = [] ↔ anchorsOf (Pem.items bytes) = .ok [] := by
    rw [anchorsOf_eq_ok_iff]
    simp
  rw [hnone, bundleOf_eq]
  rcases anchorsOf (Pem.items bytes) with e' | (_ | ⟨der, others⟩)
  · simp
  · simp [eq_comm]
  · simp

/-- A bundle is turned down for exactly what it is to blame for. -/
theorem bundleIn_eq_error_iff : bundleIn opened = .error e ↔ Blames opened e := by
  rcases opened with reason | bytes
  · constructor
    · intro herror
      cases herror
      exact Blames.unreadable reason
    · intro hblames
      cases hblames
      rfl
  · rw [bundleIn, bundleOf_eq_error_iff, anchorsOf_eq_error_iff]
    constructor
    · rintro (⟨before, o, after, hfirst, hbad, hgood⟩ | ⟨hnone, rfl⟩)
      · rcases o with f | der
        · cases hbad
          exact Blames.malformed hfirst hgood
        · rw [Offer.error?] at hbad
          split at hbad
          · rename_i f huntrusted
            cases hbad
            exact Blames.refused hfirst hgood huntrusted
          · cases hbad
      · exact Blames.empty hnone
    · intro hblames
      cases hblames with
      | malformed first good => exact Or.inl ⟨_, _, _, first, rfl, good⟩
      | refused first good untrusted =>
          refine Or.inl ⟨_, _, _, first, ?_, good⟩
          rw [Offer.error?, untrusted]
      | empty none => exact Or.inr ⟨none, rfl⟩

/-! ## Channels -/

variable {σ : Type} {path : String}

/-- Reading a bundle does nothing but to read the file. -/
theorem readBundle_eq (path : String) :
    (readBundle path).run = .perform (.fileBytes path) fun reply =>
      .done ((bundleIn reply).mapError (.caBundle path)) := by
  refine congrArg (Program.perform _) (funext fun reply => ?_)
  change Except FileError (List UInt8) at reply
  rcases reply with e | bytes
  · rfl
  · dsimp only [pure, Program.bind, Function.comp_apply, ExceptT.bindCont, bundleIn]
    cases bundleOf bytes with
    | error e => rfl
    | ok anchors => rfl

/-- A channel with a trust, unless the credentials cannot be presented. -/
def channelWith (c : Credentials) (trust : Trust) : Except ProtocolError Channel :=
  match identityError? c with
  | some e => .error (.channel e)
  | none => .ok ⟨trust, c⟩

/-- To set up a channel with a bundle is to read its file, and nothing else. -/
theorem build_caBundle_eq (c : Credentials) (path : String) :
    (Channel.build c (.caBundle path)).run = .perform (.fileBytes path) fun reply =>
      .done (((bundleIn reply).mapError (.caBundle path)).bind fun anchors =>
        channelWith c (.anchors anchors)) := by
  -- The file decides about the trust before anything is asked of the credentials.
  have htrust : (trustOf (.caBundle path)).run = .perform (.fileBytes path) fun reply =>
      .done (((bundleIn reply).mapError (.caBundle path)).map Trust.anchors) := by
    rw [trustOf, ExceptT.run_map, readBundle_eq]
    rfl
  rw [Channel.build, ExceptT.run_bind, htrust]
  refine congrArg (Program.perform _) (funext fun reply => ?_)
  change Except FileError (List UInt8) at reply
  dsimp only [bind, Program.bind]
  cases bundleIn reply with
  | error e => rfl
  | ok anchors =>
      change _ = Program.done (channelWith c (.anchors anchors))
      unfold channelWith
      cases identityError? c with
      | some e => rfl
      | none => rfl

/-- A channel with a bundle trusts what the bundle provides, with the credentials it was
asked for. -/
theorem channelWith_eq_ok {c : Credentials} {trust : Trust} {channel : Channel}
    (h : channelWith c trust = .ok channel) : channel = ⟨trust, c⟩ := by
  rw [channelWith] at h
  cases hidentity : identityError? c with
  | some reason =>
      rw [hidentity] at h
      cases h
  | none =>
      rw [hidentity] at h
      exact (Except.ok.inj h).symm

/-- Credentials are never what a bundle is blamed for. -/
theorem channelWith_ne_caBundle (c : Credentials) (trust : Trust) (path : String)
    (e : BundleError) : channelWith c trust ≠ .error (.caBundle path e) := by
  intro herror
  rw [channelWith] at herror
  cases hidentity : identityError? c with
  | some reason =>
      rw [hidentity] at herror
      cases herror
  | none =>
      rw [hidentity] at herror
      cases herror

/-- A bundle is used as a whole or not at all. What comes of opening its file says whether it
provides anchors, and these are then all of its certificates. Otherwise it is turned down for
the first thing that is no good, whatever the credentials are, and there is no channel. A channel
that was asked for with a bundle never trusts anything else, and nothing is done for it but to
read the file; in particular nothing is logged. -/
theorem bundle_failsClosed (answer : (e : Effect) → σ → e.Answer × σ) (c : Credentials)
    (path : String) (s : σ) :
    let opened : Except FileError (List UInt8) := (answer (.fileBytes path) s).1
    let store := ((readBundle path).run.run answer s).1
    let built := ((Channel.build c (.caBundle path)).run.run answer s).1
    (∀ anchors, store = .ok anchors ↔ Provides opened anchors) ∧
      ((∃ anchors, Provides opened anchors) ∨ ∃ e, Blames opened e) ∧
      (∀ e, built = .error (.caBundle path e) ↔ Blames opened e) ∧
      (∀ e, (ProtocolError.caBundle path e).message =
        s!"failed to load CA bundle: {path}: {e.message}") ∧
      (∀ channel, built = .ok channel →
        ∃ anchors, Provides opened anchors ∧ channel = ⟨.anchors anchors, c⟩) ∧
      (Channel.build c (.caBundle path)).run.history answer s = [⟨.fileBytes path, opened⟩] := by
  intro opened store built
  have hstore : store = (bundleIn opened).mapError (.caBundle path) := by
    show ((readBundle path).run.run answer s).1 = _
    rw [readBundle_eq]
    rfl
  have hbuilt : built = ((bundleIn opened).mapError (.caBundle path)).bind fun anchors =>
      channelWith c (.anchors anchors) := by
    show ((Channel.build c (.caBundle path)).run.run answer s).1 = _
    rw [build_caBundle_eq]
    rfl
  have hhistory : (Channel.build c (.caBundle path)).run.history answer s =
      [⟨.fileBytes path, opened⟩] := by
    rw [build_caBundle_eq]
    rfl
  -- Every other part is said of the two ways that the file can turn out.
  simp only [hstore, hbuilt, ← bundleIn_eq_ok_iff, ← bundleIn_eq_error_iff]
  refine ⟨?_, ?_, ?_, fun _ => rfl, ?_, hhistory⟩
  · intro anchors
    cases bundleIn opened with
    | error e =>
        constructor
        · intro hok
          cases hok
        · intro hok
          cases hok
    | ok found =>
        constructor
        · intro hok
          cases hok
          rfl
        · intro hok
          cases hok
          rfl
  · cases bundleIn opened with
    | error e => exact Or.inr ⟨e, rfl⟩
    | ok found => exact Or.inl ⟨found, rfl⟩
  · intro e
    cases bundleIn opened with
    | error e' =>
        constructor
        · intro herror
          cases herror
          rfl
        · intro herror
          cases herror
          rfl
    | ok found =>
        refine iff_of_false ?_ ?_
        · exact channelWith_ne_caBundle c _ path e
        · intro herror
          cases herror
  · intro channel hok
    cases hbundle : bundleIn opened with
    | error e =>
        rw [hbundle] at hok
        cases hok
    | ok found =>
        rw [hbundle] at hok
        exact ⟨found, rfl, channelWith_eq_ok hok⟩

end ProfileAdmin.Tls
