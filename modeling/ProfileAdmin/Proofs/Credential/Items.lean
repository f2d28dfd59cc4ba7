import ProfileAdmin.Proofs.Credential.Loading

/-!
# Proofs.Credential.Items — what files have to say about credentials

1. **Decisions**: when a result is given, and when it is missed, one or the other.
2. **Flawless beginnings**: a file is its items up to the first flaw.
3. **Certificates**: those of a file, in the order of the file. A flaw anywhere spoils them.
4. **Keys**: the first one of a file. A flaw spoils it only if it stands before the key.
-/

namespace ProfileAdmin.Credential

open Client
open Host (FileError)
open Tls (KeyForm PrivateKey)

variable {opened : Except FileError (List UInt8)} {e : PemError}

/-! ## Decisions -/

/-- A result is given for exactly one reason, and missed for exactly another. -/
structure Decides {ε α : Type} (result : Except ε α) (Gives : α → Prop) (Fails : ε → Prop) :
    Prop where
  ok_iff : ∀ a, result = .ok a ↔ Gives a
  error_iff : ∀ e, result = .error e ↔ Fails e

section

variable {ε α : Type} {result : Except ε α} {Gives : α → Prop} {Fails : ε → Prop}

/-- One thing is given at most. -/
theorem Decides.gives_unique (h : Decides result Gives Fails) {a a' : α} (ha : Gives a)
    (ha' : Gives a') : a = a' := by
  have heq := (h.ok_iff a).mpr ha
  rw [(h.ok_iff a').mpr ha'] at heq
  exact (Except.ok.inj heq).symm

theorem Decides.fails_unique (h : Decides result Gives Fails) {e e' : ε} (he : Fails e)
    (he' : Fails e') : e = e' := by
  have heq := (h.error_iff e).mpr he
  rw [(h.error_iff e').mpr he'] at heq
  exact (Except.error.inj heq).symm

/-- What gives something does not fail. -/
theorem Decides.not_both (h : Decides result Gives Fails) {a : α} {e : ε} (ha : Gives a) :
    ¬ Fails e := by
  intro he
  have heq := (h.ok_iff a).mpr ha
  rw [(h.error_iff e).mpr he] at heq
  cases heq

end

/-! ## Flawless beginnings -/

/-- All items are there exactly if none is a flaw. -/
theorem mapM_eq_ok_iff {ε α : Type} {l : List (Except ε α)} {as : List α} :
    l.mapM id = .ok as ↔ l = as.map .ok := by
  induction l generalizing as with
  | nil =>
      constructor
      · intro h
        cases h
        rfl
      · intro h
        rw [List.map_eq_nil_iff.mp h.symm]
        rfl
  | cons x l ih =>
      rw [List.mapM_cons]
      rcases x with e | a
      · refine iff_of_false nofun ?_
        intro h
        rcases as with _ | ⟨a, as⟩
        · cases h
        · cases (List.cons.inj h).1
      · constructor
        · intro h
          rcases hl : l.mapM id with e | rest
          · rw [hl] at h
            cases h
          · rw [hl] at h
            cases h
            exact congrArg (List.cons (.ok a)) (ih.mp hl)
        · intro h
          rcases as with _ | ⟨a', as⟩
          · cases h
          · rcases List.cons.inj h with ⟨ha, hl⟩
            cases ha
            rw [ih.mpr hl]
            rfl

/-- The first flaw is the one that is told. -/
theorem mapM_eq_error_iff {ε α : Type} {l : List (Except ε α)} {e : ε} :
    l.mapM id = .error e ↔ ∃ (before : List α) (after : List (Except ε α)),
      l = before.map .ok ++ .error e :: after := by
  induction l with
  | nil =>
      refine iff_of_false nofun ?_
      rintro ⟨before, after, h⟩
      exact List.append_ne_nil_of_right_ne_nil _ (List.cons_ne_nil _ _) h.symm
  | cons x l ih =>
      rw [List.mapM_cons]
      -- The first item is the flaw, or the flaw is behind it.
      rcases x with e' | a
      · constructor
        · intro h
          cases h
          exact ⟨[], l, rfl⟩
        · rintro ⟨_ | ⟨a, before⟩, after, h⟩
          · cases h
            rfl
          · cases (List.cons.inj h).1
      · constructor
        · intro h
          rcases hl : l.mapM id with e' | rest
          · rw [hl] at h
            cases h
            rcases ih.mp hl with ⟨before, after, rfl⟩
            exact ⟨a :: before, after, rfl⟩
          · rw [hl] at h
            cases h
        · rintro ⟨_ | ⟨a', before⟩, after, h⟩
          · cases (List.cons.inj h).1
          · rw [ih.mpr ⟨before, after, (List.cons.inj h).2⟩]
            rfl

/-! ## Certificates -/

/-- The contents of the certificates among some items. -/
def certificatesOf (items : List Pem.Item) : List (List UInt8) :=
  (items.filter fun i => i.kind = .certificate).map Pem.Item.content

/-- A file without a flaw holds the certificates of a chain, in the order of the chain. -/
def Lists (opened : Except FileError (List UInt8)) (chain : List (List UInt8)) : Prop :=
  ∃ bytes items, opened = .ok bytes ∧ Pem.items bytes = items.map .ok ∧
    chain = certificatesOf items

/-- Why a file gives no certificates. -/
inductive Unlisted : Except FileError (List UInt8) → PemError → Prop where
  | unreadable (e : FileError) : Unlisted (.error e) (.unreadable e)
  | malformed {bytes : List UInt8} {before : List Pem.Item}
      {after : List (Except Pem.Flaw Pem.Item)} {f : Pem.Flaw}
      (first : Pem.items bytes = before.map .ok ++ .error f :: after) :
      Unlisted (.ok bytes) (.malformed f)

/-- The certificates of a file are there if no item is a flaw. -/
theorem certificates_eq (file : List UInt8) :
    Pem.certificates file = ((Pem.items file).mapM id).map certificatesOf := by
  have hcertificates : ∀ items : List Pem.Item,
      (items.filterMap fun i => if i.kind = .certificate then some i.content else none) =
        certificatesOf items := by
    intro items
    induction items with
    | nil => rfl
    | cons i items ih =>
        by_cases hkind : i.kind = .certificate
        · simp [certificatesOf, hkind, ih]
        · simp [certificatesOf, hkind, ih]
  unfold Pem.certificates
  cases (Pem.items file).mapM id with
  | error f => rfl
  | ok items => exact congrArg Except.ok (hcertificates items)

/-- Certificates are given exactly if a file without a flaw lists them. -/
theorem certificatesIn_eq_ok_iff {chain : List (List UInt8)} :
    certificatesIn opened = .ok chain ↔ Lists opened chain := by
  rcases opened with reason | bytes
  · refine iff_of_false nofun ?_
    rintro ⟨bytes, items, hopened, -⟩
    cases hopened
  · rw [certificatesIn, certificates_eq]
    constructor
    · intro h
      rcases hitems : (Pem.items bytes).mapM id with f | items
      · rw [hitems] at h
        cases h
      · rw [hitems] at h
        cases h
        exact ⟨bytes, items, rfl, mapM_eq_ok_iff.mp hitems, rfl⟩
    · rintro ⟨_, items, ⟨⟩, hitems, rfl⟩
      rw [mapM_eq_ok_iff.mpr hitems]
      rfl

/-- None are given exactly if there is a reason. -/
theorem certificatesIn_eq_error_iff : certificatesIn opened = .error e ↔ Unlisted opened e := by
  rcases opened with reason | bytes
  · constructor
    · intro h
      cases h
      exact Unlisted.unreadable reason
    · intro h
      cases h
      rfl
  · rw [certificatesIn, certificates_eq]
    constructor
    · intro h
      rcases hitems : (Pem.items bytes).mapM id with f | items
      · rw [hitems] at h
        cases h
        -- What stands before the first flaw is lost.
        rcases mapM_eq_error_iff.mp hitems with ⟨before, after, hfirst⟩
        exact Unlisted.malformed hfirst
      · rw [hitems] at h
        cases h
    · intro h
      cases h with
      | malformed first =>
          rw [mapM_eq_error_iff.mpr ⟨_, _, first⟩]
          rfl

/-- What an opened file lists decides. -/
theorem certificatesIn_decides (opened : Except FileError (List UInt8)) :
    Decides (certificatesIn opened) (Lists opened) (Unlisted opened) :=
  ⟨fun _ => certificatesIn_eq_ok_iff, fun _ => certificatesIn_eq_error_iff⟩

/-! ## Keys -/

/-- No item is a key. -/
def Keyless (items : List Pem.Item) : Prop :=
  ∀ i ∈ items, keyForm? i.kind = none

/-- Behind items that are no keys there stands a key. -/
def LeadsToKey (items : List (Except Pem.Flaw Pem.Item)) (key : PrivateKey) : Prop :=
  ∃ before item after, items = before.map .ok ++ .ok item :: after ∧ Keyless before ∧
    keyForm? item.kind = some key.form ∧ item.content = key.der

/-- Behind items that are no keys there stands a flaw. -/
def LeadsToFlaw (items : List (Except Pem.Flaw Pem.Item)) (f : Pem.Flaw) : Prop :=
  ∃ before after, items = before.map .ok ++ .error f :: after ∧ Keyless before

/-- The first item is the key, or it is none and the others lead to it. -/
theorem leadsToKey_cons_iff {i : Pem.Item} {items : List (Except Pem.Flaw Pem.Item)}
    {key : PrivateKey} :
    LeadsToKey (.ok i :: items) key ↔
      (keyForm? i.kind = some key.form ∧ i.content = key.der) ∨
        (keyForm? i.kind = none ∧ LeadsToKey items key) := by
  constructor
  · rintro ⟨_ | ⟨i', before⟩, item, after, hitems, hkeyless, hform, hcontent⟩
    · cases hitems
      exact Or.inl ⟨hform, hcontent⟩
    · cases hitems
      rcases List.forall_mem_cons.mp hkeyless with ⟨hnone, hothers⟩
      exact Or.inr ⟨hnone, before, item, after, rfl, hothers, hform, hcontent⟩
  · rintro (⟨hform, hcontent⟩ | ⟨hnone, before, item, after, rfl, hkeyless, hform, hcontent⟩)
    · exact ⟨[], i, items, rfl, List.forall_mem_nil _, hform, hcontent⟩
    · exact ⟨i :: before, item, after, rfl, List.forall_mem_cons.mpr ⟨hnone, hkeyless⟩, hform,
        hcontent⟩

/-- Only an item that is no key leads on to a flaw. -/
theorem leadsToFlaw_cons_iff {i : Pem.Item} {items : List (Except Pem.Flaw Pem.Item)}
    {f : Pem.Flaw} :
    LeadsToFlaw (.ok i :: items) f ↔ keyForm? i.kind = none ∧ LeadsToFlaw items f := by
  constructor
  · rintro ⟨_ | ⟨i', before⟩, after, hitems, hkeyless⟩
    · cases hitems
    · cases hitems
      rcases List.forall_mem_cons.mp hkeyless with ⟨hnone, hothers⟩
      exact ⟨hnone, before, after, rfl, hothers⟩
  · rintro ⟨hnone, before, after, rfl, hkeyless⟩
    exact ⟨i :: before, after, rfl, List.forall_mem_cons.mpr ⟨hnone, hkeyless⟩⟩

/-- There are no flaws and no keys. -/
def LeadsNowhere (items : List (Except Pem.Flaw Pem.Item)) : Prop :=
  ∃ held, items = held.map .ok ∧ Keyless held

/-- No item of a file that leads nowhere is a key. -/
theorem leadsNowhere_cons_iff {i : Pem.Item} {items : List (Except Pem.Flaw Pem.Item)} :
    LeadsNowhere (.ok i :: items) ↔ keyForm? i.kind = none ∧ LeadsNowhere items := by
  constructor
  · rintro ⟨_ | ⟨i', held⟩, hitems, hkeyless⟩
    · cases hitems
    · cases hitems
      rcases List.forall_mem_cons.mp hkeyless with ⟨hnone, hothers⟩
      exact ⟨hnone, held, rfl, hothers⟩
  · rintro ⟨hnone, held, rfl, hkeyless⟩
    exact ⟨i :: held, rfl, List.forall_mem_cons.mpr ⟨hnone, hkeyless⟩⟩

theorem firstKey_cons (i : Pem.Item) (items : List (Except Pem.Flaw Pem.Item)) :
    firstKey (.ok i :: items) =
      match keyForm? i.kind with
      | some form => .ok ⟨form, i.content⟩
      | none => firstKey items :=
  rfl

/-- The search finds the first key, whatever stands behind it. -/
theorem firstKey_eq_ok_iff {items : List (Except Pem.Flaw Pem.Item)} {key : PrivateKey} :
    firstKey items = .ok key ↔ LeadsToKey items key := by
  induction items with
  | nil =>
      refine iff_of_false nofun ?_
      rintro ⟨before, item, after, hitems, -⟩
      exact List.append_ne_nil_of_right_ne_nil _ (List.cons_ne_nil _ _) hitems.symm
  | cons x items ih =>
      rcases x with f | i
      · refine iff_of_false nofun ?_
        rintro ⟨_ | ⟨i, before⟩, item, after, hitems, -⟩
        · cases hitems
        · cases hitems
      -- An item that is a key ends the search. Any other is passed over.
      · rw [firstKey_cons, leadsToKey_cons_iff]
        rcases keyForm? i.kind with _ | form
        · simpa using ih
        · rcases key with ⟨form', der⟩
          simp

/-- The search for a key fails at a flaw before the first key, or without a key. -/
theorem firstKey_eq_error_iff {items : List (Except Pem.Flaw Pem.Item)} :
    firstKey items = .error e ↔
      (∃ f, e = .malformed f ∧ LeadsToFlaw items f) ∨ (e = .noItems ∧ LeadsNowhere items) := by
  -- A flaw ends the search, and so does a key. It goes on behind any other item.
  induction items with
  | nil =>
      have hnowhere : LeadsNowhere [] := ⟨[], rfl, List.forall_mem_nil _⟩
      constructor
      · intro h
        cases h
        exact Or.inr ⟨rfl, hnowhere⟩
      · rintro (⟨f, rfl, before, after, hitems, -⟩ | ⟨rfl, -⟩)
        · exact absurd hitems.symm
            (List.append_ne_nil_of_right_ne_nil _ (List.cons_ne_nil _ _))
        · rfl
  | cons x items ih =>
      rcases x with f | i
      · constructor
        · intro h
          cases h
          exact Or.inl ⟨f, rfl, [], items, rfl, List.forall_mem_nil _⟩
        · rintro (⟨f', rfl, _ | ⟨i, before⟩, after, hitems, -⟩ | ⟨rfl, _ | ⟨i, held⟩, hitems, -⟩)
          · cases hitems
            rfl
          · cases hitems
          · cases hitems
          · cases hitems
      · rw [firstKey_cons, leadsNowhere_cons_iff]
        simp only [leadsToFlaw_cons_iff]
        rcases keyForm? i.kind with _ | form
        · simpa using ih
        · simp

/-- A file has a first key. -/
def KeyOf (opened : Except FileError (List UInt8)) (key : PrivateKey) : Prop :=
  ∃ bytes, opened = .ok bytes ∧ LeadsToKey (Pem.items bytes) key

/-- Why a file gives no key. -/
inductive NoKey : Except FileError (List UInt8) → PemError → Prop where
  | unreadable (e : FileError) : NoKey (.error e) (.unreadable e)
  | malformed {bytes : List UInt8} {f : Pem.Flaw} (flaw : LeadsToFlaw (Pem.items bytes) f) :
      NoKey (.ok bytes) (.malformed f)
  | noItems {bytes : List UInt8} (nowhere : LeadsNowhere (Pem.items bytes)) :
      NoKey (.ok bytes) .noItems

/-- A key is given exactly if the file has a first one. -/
theorem keyIn_eq_ok_iff {key : PrivateKey} : keyIn opened = .ok key ↔ KeyOf opened key := by
  rcases opened with reason | bytes
  · refine iff_of_false nofun ?_
    rintro ⟨bytes, hopened, -⟩
    cases hopened
  · rw [keyIn, firstKey_eq_ok_iff]
    constructor
    · exact fun h => ⟨bytes, rfl, h⟩
    · rintro ⟨_, ⟨⟩, h⟩
      exact h

/-- None is given exactly if there is a reason. -/
theorem keyIn_eq_error_iff : keyIn opened = .error e ↔ NoKey opened e := by
  rcases opened with reason | bytes
  · constructor
    · intro h
      cases h
      exact NoKey.unreadable reason
    · intro h
      cases h
      rfl
  · rw [keyIn, firstKey_eq_error_iff]
    constructor
    · rintro (⟨f, rfl, hflaw⟩ | ⟨rfl, hnowhere⟩)
      · exact NoKey.malformed hflaw
      · exact NoKey.noItems hnowhere
    · intro h
      cases h with
      | malformed flaw => exact Or.inl ⟨_, rfl, flaw⟩
      | noItems nowhere => exact Or.inr ⟨rfl, nowhere⟩

/-- What an opened file has first decides. -/
theorem keyIn_decides (opened : Except FileError (List UInt8)) :
    Decides (keyIn opened) (KeyOf opened) (NoKey opened) :=
  ⟨fun _ => keyIn_eq_ok_iff, fun _ => keyIn_eq_error_iff⟩

end ProfileAdmin.Credential
