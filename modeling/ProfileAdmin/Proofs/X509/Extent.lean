import ProfileAdmin.X509.Certificate

/-!
# Proofs.X509.Extent — where a certificate ends

1. **Local readers** take a beginning of some bytes and do not look at what stands behind it.
2. **Elements**: the readers of elements are local.
3. **Certificates**: bytes that are one certificate and nothing else. Bytes pass for a
   certificate exactly if they begin with one.
-/

namespace ProfileAdmin.X509

variable {α β : Type} {bs rest der : List UInt8} {c : Certificate}

/-! ## Local readers -/

/-- What is read depends on the bytes that are taken, and on nothing behind them. -/
def Local (read : List UInt8 → Option (α × List UInt8)) : Prop :=
  ∀ bs a rest, read bs = some (a, rest) →
    ∃ taken, bs = taken ++ rest ∧ ∀ rest', read (taken ++ rest') = some (a, rest')

theorem local_some (a : α) : Local fun bs => some (a, bs) := by
  intro bs a rest h
  cases h
  exact ⟨[], rfl, fun rest' => rfl⟩

theorem local_none : Local fun _ => (none : Option (α × List UInt8)) := by
  intro bs a rest h
  cases h

/-- Two local readers in a sequence. -/
theorem Local.bind {first : List UInt8 → Option (α × List UInt8)}
    {second : α → List UInt8 → Option (β × List UInt8)} (hfirst : Local first)
    (hsecond : ∀ a, Local (second a)) :
    Local fun bs => (first bs).bind fun r => second r.1 r.2 := by
  intro bs b rest h
  rcases Option.bind_eq_some_iff.mp h with ⟨⟨a, middle⟩, ha, hb⟩
  rcases hfirst bs a middle ha with ⟨taken, rfl, htaken⟩
  rcases hsecond a middle b rest hb with ⟨taken', rfl, htaken'⟩
  refine ⟨taken ++ taken', by rw [List.append_assoc], fun rest' => ?_⟩
  have hboth := htaken' rest'
  simp only [List.append_assoc, htaken, Option.bind_some]
  exact hboth

/-- A reader that takes so many bytes, if there are so many. -/
theorem local_take (n : Nat) (f : List UInt8 → Option α) :
    Local fun bs =>
      if bs.length < n then none else (f (bs.take n)).map fun a => (a, bs.drop n) := by
  intro bs a rest h
  by_cases hshort : bs.length < n
  · simp [hshort] at h
  simp only [if_neg hshort] at h
  rcases Option.map_eq_some_iff.mp h with ⟨a, ha, heq⟩
  cases heq
  have hlength : (bs.take n).length = n := List.length_take_of_le (by omega)
  refine ⟨bs.take n, (List.take_append_drop n bs).symm, fun rest' => ?_⟩
  have hlong : ¬ (bs.take n ++ rest').length < n := by
    rw [List.length_append]
    omega
  simp only [if_neg hlong, List.take_left' hlength, List.drop_left' hlength, ha, Option.map_some]

/-! ## Elements -/

/-- A long tag ends at its first byte below 80. -/
theorem local_longTag? (turns tag : Nat) : Local (longTag? turns tag) := by
  intro bs a rest h
  induction turns generalizing tag bs with
  | zero => simp [longTag?] at h
  | succ turns ih =>
      rcases bs with _ | ⟨b, behind⟩
      · simp [longTag?] at h
      rw [longTag?] at h
      by_cases hlast : b < 0x80
      · rw [if_pos hlast] at h
        cases h
        refine ⟨[b], rfl, fun rest' => ?_⟩
        rw [List.singleton_append, longTag?, if_pos hlast]
      · rw [if_neg hlast] at h
        rcases ih _ _ h with ⟨taken, rfl, htaken⟩
        refine ⟨b :: taken, rfl, fun rest' => ?_⟩
        rw [List.cons_append, longTag?, if_neg hlast]
        exact htaken rest'

/-- A reader is local if it is behind each first byte. -/
theorem local_of_cons {read : List UInt8 → Option (α × List UInt8)} (hnil : read [] = none)
    (hcons : ∀ b, Local fun bs => read (b :: bs)) : Local read := by
  intro bs a rest h
  rcases bs with _ | ⟨b, behind⟩
  · rw [hnil] at h
    cases h
  · rcases hcons b behind a rest h with ⟨taken, rfl, htaken⟩
    exact ⟨b :: taken, rfl, htaken⟩

/-- A length stands in the first byte, or is spelled by as many bytes as the first one tells. -/
theorem local_length? : Local length? := by
  refine local_of_cons rfl fun b => ?_
  simp only [length?]
  by_cases hshort : b.toNat < 0x80
  · simp only [if_pos hshort]
    exact local_some _
  by_cases hopen : b.toNat - 0x80 = 0
  · simp only [if_neg hshort, if_pos hopen]
    exact local_some _
  by_cases hreserved : b.toNat - 0x80 = 0x7F
  · simp only [if_neg hshort, hreserved, true_or, if_true]
    exact local_none
  -- What remains is a length that is spelled, which the reader of so many bytes takes.
  have hspelled := local_take (b.toNat - 0x80) fun spelled =>
    if natOf spelled < lengthBound then some (some (natOf spelled)) else none
  refine cast (congrArg Local (funext fun bs => ?_)) hspelled
  simp only [if_neg hshort, if_neg hopen, hreserved, false_or]
  split
  · rfl
  · split <;> rfl

/-- Behind the first byte of a header there are the tag, if it goes on, and the length. -/
theorem local_header? : Local header? := by
  refine local_of_cons rfl fun b => ?_
  have hmade : ∀ (tag : Nat) (length : Option Nat), Local fun bs =>
      if (length.isNone && !decide (b.toNat / 0x20 % 2 = 1)) = true then none
      else some (Header.mk (b.toNat / 0x40) (b.toNat / 0x20 % 2 = 1) tag length, bs) := by
    intro tag length
    by_cases hopen : (length.isNone && !decide (b.toNat / 0x20 % 2 = 1)) = true
    · simp only [if_pos hopen]
      exact local_none
    · simp only [if_neg hopen]
      exact local_some _
  -- The tag stands in the first byte, or the bytes behind it spell it.
  by_cases hlong : b.toNat % 0x20 = 0x1F
  · simp only [header?, if_pos hlong]
    exact (local_longTag? 5 0).bind fun tag => local_length?.bind (hmade tag)
  · simp only [header?, if_neg hlong]
    exact local_length?.bind (hmade _)

/-- An element is a header and as many bytes as it tells. -/
theorem local_element? : Local element? := by
  have hbody : ∀ header : Header, Local fun bs => header.length.bind fun length =>
      if bs.length < length then none
      else some (Element.mk header.scope header.isConstructed header.tag (bs.take length),
        bs.drop length) := by
    intro header
    cases header.length with
    -- A length that is left open has no element.
    | none => exact local_none
    | some length =>
        have htake := local_take length fun body =>
          some (Element.mk header.scope header.isConstructed header.tag body)
        exact htake
  exact local_header?.bind hbody

theorem local_tagged? (tag : Nat) : Local (tagged? tag) := by
  have hsame : ∀ e : Element, Local fun bs => if e.tag = tag then some (e, bs) else none := by
    intro e
    by_cases htag : e.tag = tag
    · simp only [if_pos htag]
      exact local_some _
    · simp only [if_neg htag]
      exact local_none
  exact local_element?.bind hsame

theorem local_sequence? : Local sequence? :=
  (local_tagged? sequenceTag).bind fun e => local_some e.body

/-! ## Certificates -/

/-- The bytes are one element from the first to the last, and read as a certificate. -/
structure IsCertificate (der : List UInt8) (c : Certificate) : Prop where
  reads : certificate? der = some c
  whole : ∃ e, element? der = some (e, [])

/-- Of a certificate, only the content of its sequence is looked at. -/
theorem certificate?_congr {bs bs' body rest rest' : List UInt8}
    (h : sequence? bs = some (body, rest)) (h' : sequence? bs' = some (body, rest')) :
    certificate? bs = certificate? bs' := by
  unfold certificate?
  rw [h, h']
  rfl

/-- A certificate is a sequence. -/
theorem exists_sequence_of_certificate? (h : certificate? bs = some c) :
    ∃ body rest, sequence? bs = some (body, rest) := by
  rcases hsequence : sequence? bs with _ | ⟨body, rest⟩
  · have hnone : certificate? bs = none := by
      unfold certificate?
      rw [hsequence]
      rfl
    rw [hnone] at h
    cases h
  · exact ⟨body, rest, rfl⟩

/-- A sequence is an element with the tag of sequences. -/
theorem sequence?_eq_some_iff {body : List UInt8} :
    sequence? bs = some (body, rest) ↔
      ∃ e, element? bs = some (e, rest) ∧ e.tag = sequenceTag ∧ e.body = body := by
  unfold sequence? tagged?
  rcases element? bs with _ | ⟨e, rest'⟩
  · simp
  · by_cases htag : e.tag = sequenceTag
    · simp [htag, and_assoc, and_comm]
    · simp [htag, and_assoc]

/-- Whatever stands behind an element, it is the first one. -/
theorem element?_append {e : Element} (h : element? der = some (e, [])) (rest : List UInt8) :
    element? (der ++ rest) = some (e, rest) := by
  rcases local_element? der e [] h with ⟨taken, htaken, hlocal⟩
  have hall : der = taken := by rw [htaken, List.append_nil]
  rw [hall]
  exact hlocal rest

/-- Bytes pass for a certificate exactly if they begin with one. What stands behind it makes no
difference. -/
theorem certificate?_eq_some_iff :
    certificate? bs = some c ↔ ∃ der rest, bs = der ++ rest ∧ IsCertificate der c := by
  constructor
  · intro hreads
    rcases exists_sequence_of_certificate? hreads with ⟨body, rest, hsequence⟩
    rcases local_sequence? bs body rest hsequence with ⟨der, rfl, hlocal⟩
    -- The bytes that the sequence takes are a certificate by themselves.
    have halone : sequence? der = some (body, []) := by
      have h := hlocal []
      rwa [List.append_nil] at h
    have hsame := certificate?_congr halone hsequence
    rcases sequence?_eq_some_iff.mp halone with ⟨e, helement, -, -⟩
    exact ⟨der, rest, rfl, hsame.trans hreads, e, helement⟩
  · rintro ⟨der, rest, rfl, hreads, e, helement⟩
    rcases exists_sequence_of_certificate? hreads with ⟨body, rest', hsequence⟩
    rcases sequence?_eq_some_iff.mp hsequence with ⟨e', helement', htag, hbody⟩
    rw [helement] at helement'
    cases helement'
    -- The same element is found with more bytes behind it.
    have hfollowed : sequence? (der ++ rest) = some (body, rest) :=
      sequence?_eq_some_iff.mpr ⟨e, element?_append helement rest, htag, hbody⟩
    exact (certificate?_congr hfollowed hsequence).trans hreads

/-- The bytes are one certificate and nothing else. -/
def Exact (bs : List UInt8) : Prop :=
  ∃ c, IsCertificate bs c

/-- The bytes are a certificate with something behind it. -/
def Overlong (bs : List UInt8) : Prop :=
  ∃ der rest, bs = der ++ rest ∧ Exact der ∧ rest ≠ []

/-- A certificate with something behind it is not one certificate. -/
theorem Exact.not_overlong (h : Exact bs) : ¬ Overlong bs := by
  rintro ⟨der, rest, rfl, ⟨c, hder⟩, hrest⟩
  rcases h with ⟨c', -, e', hwhole⟩
  rcases hder.whole with ⟨e, helement⟩
  rw [element?_append helement rest] at hwhole
  cases hwhole
  exact hrest rfl

/-- What passes for a certificate is one, or is one with something behind it. -/
theorem exists_certificate?_iff : (∃ c, certificate? bs = some c) ↔ Exact bs ∨ Overlong bs := by
  constructor
  · rintro ⟨c, hreads⟩
    rcases certificate?_eq_some_iff.mp hreads with ⟨der, rest, rfl, hder⟩
    by_cases hrest : rest = []
    · left
      rw [hrest, List.append_nil]
      exact ⟨c, hder⟩
    · right
      exact ⟨der, rest, rfl, ⟨c, hder⟩, hrest⟩
  · rintro (⟨c, hder⟩ | ⟨der, rest, rfl, ⟨c, hder⟩, -⟩)
    · exact ⟨c, hder.reads⟩
    · exact ⟨c, certificate?_eq_some_iff.mpr ⟨der, rest, rfl, hder⟩⟩

end ProfileAdmin.X509
