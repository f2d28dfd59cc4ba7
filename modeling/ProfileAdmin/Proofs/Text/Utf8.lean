import Mathlib.Data.List.Basic
import ProfileAdmin.Text.Utf8

/-!
# Proofs.Text.Utf8 — reading undoes writing

1. **First bytes**: what each of them says, by the range that it lies in.
2. **Characters**: the machine reads the form of a character as this character.
3. **Forms**: what the machine reads as a character is the form of it.
4. **Texts**: a byte string is read as a text exactly if it is the form of the text.
-/

namespace ProfileAdmin.Text.Utf8

variable {b : UInt8} {c : Char} {rest : List UInt8}

/-! ## First bytes -/

/-- What a first byte with others behind it says. The bounds of the next byte rule out forms
that are too long, halves of pairs, and what lies behind the last character. -/
structure Opening (n : Nat) (s : Begun) : Prop where
  two : s.owed = 1 → 0xC2 ≤ n ∧ n < 0xE0 ∧ s.bits = n % 0x20
  three : s.owed = 2 → 0xE0 ≤ n ∧ n < 0xF0 ∧ s.bits = n % 0x10 ∧
    (n = 0xE0 → 0xA0 ≤ s.low.toNat) ∧ (n = 0xED → s.high.toNat ≤ 0x9F)
  four : s.owed = 3 → 0xF0 ≤ n ∧ n ≤ 0xF4 ∧ s.bits = n % 0x08 ∧
    (n = 0xF0 → 0x90 ≤ s.low.toNat) ∧ (n = 0xF4 → s.high.toNat ≤ 0x8F)
  owed_pos : 1 ≤ s.owed
  owed_le : s.owed ≤ 3
  low_le : 0x80 ≤ s.low.toNat
  high_le : s.high.toNat ≤ 0xBF

/-- A byte below 0x80 is a character on its own. -/
theorem first_whole (h : first b = .whole c) : b.toNat < 0x80 ∧ c = Char.ofNat b.toNat := by
  unfold first at h
  dsimp only at h
  split at h
  case isTrue hlt =>
    cases h
    exact ⟨hlt, rfl⟩
  case isFalse =>
    repeat' split at h
    all_goals cases h

theorem first_begun {s : Begun} (h : first b = .begun s) : Opening b.toNat s := by
  unfold first at h
  dsimp only at h
  repeat' split at h
  -- One case is left for each range of first bytes that has others behind it.
  all_goals cases h
  all_goals
    constructor <;> simp
    all_goals omega

/-- A form of two begins with its upper five bits, and any byte may go on with it. -/
theorem first_two (hlow : 0xC2 ≤ b.toNat) (hhigh : b.toNat < 0xE0) :
    first b = .begun ⟨b.toNat % 0x20, 1, 0x80, 0xBF⟩ := by
  unfold first
  dsimp only
  rw [if_neg (by omega), if_neg (by omega), if_pos hhigh]

/-- The next byte of a form of three is within the bounds unless they rule it out. -/
theorem first_three (hlow : 0xE0 ≤ b.toNat) (hhigh : b.toNat < 0xF0) :
    ∃ low high, first b = .begun ⟨b.toNat % 0x10, 2, low, high⟩ ∧
      ∀ next : UInt8, 0x80 ≤ next.toNat → next.toNat ≤ 0xBF →
        (b.toNat = 0xE0 → 0xA0 ≤ next.toNat) → (b.toNat = 0xED → next.toNat ≤ 0x9F) →
          low ≤ next ∧ next ≤ high := by
  unfold first
  dsimp only
  rw [if_neg (by omega), if_neg (by omega), if_neg (by omega)]
  by_cases hleast : b.toNat = 0xE0
  · rw [if_pos hleast]
    refine ⟨_, _, rfl, fun next _ hle hnext _ => ⟨?_, ?_⟩⟩
    · exact UInt8.le_iff_toNat_le.mpr (hnext hleast)
    · exact UInt8.le_iff_toNat_le.mpr hle
  rw [if_neg hleast]
  by_cases hpairs : b.toNat = 0xED
  · rw [if_pos hpairs]
    refine ⟨_, _, rfl, fun next hge _ _ hnext => ⟨?_, ?_⟩⟩
    · exact UInt8.le_iff_toNat_le.mpr hge
    · exact UInt8.le_iff_toNat_le.mpr (hnext hpairs)
  rw [if_neg hpairs, if_pos hhigh]
  refine ⟨_, _, rfl, fun next hge hle _ _ => ⟨?_, ?_⟩⟩
  · exact UInt8.le_iff_toNat_le.mpr hge
  · exact UInt8.le_iff_toNat_le.mpr hle

/-- The same for a form of four. -/
theorem first_four (hlow : 0xF0 ≤ b.toNat) (hhigh : b.toNat ≤ 0xF4) :
    ∃ low high, first b = .begun ⟨b.toNat % 0x08, 3, low, high⟩ ∧
      ∀ next : UInt8, 0x80 ≤ next.toNat → next.toNat ≤ 0xBF →
        (b.toNat = 0xF0 → 0x90 ≤ next.toNat) → (b.toNat = 0xF4 → next.toNat ≤ 0x8F) →
          low ≤ next ∧ next ≤ high := by
  unfold first
  dsimp only
  rw [if_neg (by omega), if_neg (by omega), if_neg (by omega), if_neg (by omega),
    if_neg (by omega), if_neg (by omega)]
  by_cases hleast : b.toNat = 0xF0
  · rw [if_pos hleast]
    refine ⟨_, _, rfl, fun next _ hle hnext _ => ⟨?_, ?_⟩⟩
    · exact UInt8.le_iff_toNat_le.mpr (hnext hleast)
    · exact UInt8.le_iff_toNat_le.mpr hle
  rw [if_neg hleast]
  by_cases hmost : b.toNat = 0xF4
  · rw [if_neg (by omega), if_pos hmost]
    refine ⟨_, _, rfl, fun next hge _ _ hnext => ⟨?_, ?_⟩⟩
    · exact UInt8.le_iff_toNat_le.mpr hge
    · exact UInt8.le_iff_toNat_le.mpr (hnext hmost)
  rw [if_pos (by omega)]
  refine ⟨_, _, rfl, fun next hge hle _ _ => ⟨?_, ?_⟩⟩
  · exact UInt8.le_iff_toNat_le.mpr hge
  · exact UInt8.le_iff_toNat_le.mpr hle

/-! ## Characters -/

/-- The form of a character by the range of its number, with one byte more for each range. -/
theorem encodeChar_eq (c : Char) :
    String.utf8EncodeChar c = if c.toNat ≤ 127 then [UInt8.ofNat c.toNat]
      else if c.toNat ≤ 2047 then
        [UInt8.ofNat (c.toNat / 64 % 32 + 192), UInt8.ofNat (c.toNat % 64 + 128)]
      else if c.toNat ≤ 65535 then
        [UInt8.ofNat (c.toNat / 4096 % 16 + 224), UInt8.ofNat (c.toNat / 64 % 64 + 128),
          UInt8.ofNat (c.toNat % 64 + 128)]
      else [UInt8.ofNat (c.toNat / 262144 % 8 + 240), UInt8.ofNat (c.toNat / 4096 % 64 + 128),
        UInt8.ofNat (c.toNat / 64 % 64 + 128), UInt8.ofNat (c.toNat % 64 + 128)] := rfl

/-- The next byte of a character, which may be the last one owed. -/
theorem pieces_next {s : Begun} (hlow : s.low ≤ b) (hhigh : b ≤ s.high) :
    pieces (some s) (b :: rest) =
      if s.owed ≤ 1 then some (Char.ofNat (s.bits * 0x40 + b.toNat % 0x40)) :: pieces none rest
      else pieces (some ⟨s.bits * 0x40 + b.toNat % 0x40, s.owed - 1, 0x80, 0xBF⟩) rest := by
  rw [pieces, if_pos ⟨hlow, hhigh⟩]

/-- A number that fits in a byte. -/
theorem toNat_byte {n : Nat} (h : n < 256) : (UInt8.ofNat n).toNat = n :=
  UInt8.toNat_ofNat_of_lt' h

/-- A byte that goes on with a character. -/
theorem pieces_tail {bits owed k : Nat} (hk : k < 0x40) :
    pieces (some ⟨bits, owed, 0x80, 0xBF⟩) (UInt8.ofNat (k + 128) :: rest) =
      if owed ≤ 1 then some (Char.ofNat (bits * 0x40 + k)) :: pieces none rest
      else pieces (some ⟨bits * 0x40 + k, owed - 1, 0x80, 0xBF⟩) rest := by
  have hnat : (UInt8.ofNat (k + 128)).toNat = k + 128 := toNat_byte (by omega)
  have hmod : (k + 128) % 0x40 = k := by omega
  rw [pieces_next, hnat, hmod]
  · exact UInt8.le_iff_toNat_le.mpr (by rw [hnat]; simp)
  · exact UInt8.le_iff_toNat_le.mpr (by rw [hnat]; simp; omega)

/-- The four ways to write a number are read back, each with its own number of bytes. -/
theorem pieces_one {n : Nat} (h : n < 0x80) :
    pieces none (UInt8.ofNat n :: rest) = some (Char.ofNat n) :: pieces none rest := by
  have hnat : (UInt8.ofNat n).toNat = n := toNat_byte (by omega)
  have hfirst : first (UInt8.ofNat n) = .whole (Char.ofNat n) := by
    unfold first
    dsimp only
    rw [hnat, if_pos h]
  rw [pieces, hfirst]

theorem pieces_two {n : Nat} (hlow : 0x80 ≤ n) (hhigh : n < 0x800) :
    pieces none (UInt8.ofNat (n / 64 % 32 + 192) :: UInt8.ofNat (n % 64 + 128) :: rest) =
      some (Char.ofNat n) :: pieces none rest := by
  have hnat : (UInt8.ofNat (n / 64 % 32 + 192)).toNat = n / 64 % 32 + 192 :=
    toNat_byte (by omega)
  have hfirst := first_two (b := UInt8.ofNat (n / 64 % 32 + 192)) (by omega) (by omega)
  -- What the marks of the two bytes leave of them adds up to the number again.
  have hbits : (n / 64 % 32 + 192) % 0x20 * 0x40 + n % 64 = n := by omega
  rw [pieces, hfirst]
  dsimp only
  rw [hnat, pieces_tail (Nat.mod_lt _ (by decide)), if_pos (by decide), hbits]

theorem pieces_three {n : Nat} (hlow : 0x800 ≤ n) (hhigh : n < 0x10000)
    (hpairs : n < 0xD800 ∨ 0xDFFF < n) :
    pieces none (UInt8.ofNat (n / 4096 % 16 + 224) :: UInt8.ofNat (n / 64 % 64 + 128) ::
        UInt8.ofNat (n % 64 + 128) :: rest) =
      some (Char.ofNat n) :: pieces none rest := by
  have hnat : (UInt8.ofNat (n / 4096 % 16 + 224)).toNat = n / 4096 % 16 + 224 :=
    toNat_byte (by omega)
  have hnext : (UInt8.ofNat (n / 64 % 64 + 128)).toNat = n / 64 % 64 + 128 :=
    toNat_byte (by omega)
  obtain ⟨low, high, hfirst, hbounds⟩ :=
    first_three (b := UInt8.ofNat (n / 4096 % 16 + 224)) (by omega) (by omega)
  -- The form is the shortest, and of no half of a pair: so the second byte is within the bounds.
  obtain ⟨hle, hge⟩ := hbounds (UInt8.ofNat (n / 64 % 64 + 128))
    (by omega) (by omega) (by omega) (by omega)
  have hbits : ((n / 4096 % 16 + 224) % 0x10 * 0x40 + (n / 64 % 64 + 128) % 0x40) * 0x40 +
      n % 64 = n := by omega
  rw [pieces, hfirst]
  dsimp only
  rw [pieces_next hle hge, if_neg (by simp), pieces_tail (Nat.mod_lt _ (by decide)),
    if_pos (by simp), hnat, hnext, hbits]

theorem pieces_four {n : Nat} (hlow : 0x10000 ≤ n) (hhigh : n < 0x110000) :
    pieces none (UInt8.ofNat (n / 262144 % 8 + 240) :: UInt8.ofNat (n / 4096 % 64 + 128) ::
        UInt8.ofNat (n / 64 % 64 + 128) :: UInt8.ofNat (n % 64 + 128) :: rest) =
      some (Char.ofNat n) :: pieces none rest := by
  have hnat : (UInt8.ofNat (n / 262144 % 8 + 240)).toNat = n / 262144 % 8 + 240 :=
    toNat_byte (by omega)
  have hnext : (UInt8.ofNat (n / 4096 % 64 + 128)).toNat = n / 4096 % 64 + 128 :=
    toNat_byte (by omega)
  obtain ⟨low, high, hfirst, hbounds⟩ :=
    first_four (b := UInt8.ofNat (n / 262144 % 8 + 240)) (by omega) (by omega)
  -- Neither too long nor behind the last character: again the second byte is within the bounds.
  obtain ⟨hle, hge⟩ := hbounds (UInt8.ofNat (n / 4096 % 64 + 128))
    (by omega) (by omega) (by omega) (by omega)
  have hbits : (((n / 262144 % 8 + 240) % 0x08 * 0x40 + (n / 4096 % 64 + 128) % 0x40) * 0x40 +
      n / 64 % 64) * 0x40 + n % 64 = n := by omega
  rw [pieces, hfirst]
  dsimp only
  rw [pieces_next hle hge, if_neg (by simp), pieces_tail (Nat.mod_lt _ (by decide)),
    if_neg (by simp), pieces_tail (Nat.mod_lt _ (by decide)), if_pos (by simp), hnat, hnext, hbits]

/-- The machine reads the form of a character. -/
theorem pieces_encodeChar (c : Char) (rest : List UInt8) :
    pieces none (String.utf8EncodeChar c ++ rest) = some c :: pieces none rest := by
  have hvalid : c.toNat < 0xD800 ∨ 0xDFFF < c.toNat ∧ c.toNat < 0x110000 := c.valid
  have hback : some (Char.ofNat c.toNat) :: pieces none rest = some c :: pieces none rest := by
    rw [Char.ofNat_toNat]
  -- One case for each length of the form.
  rw [encodeChar_eq]
  split
  case isTrue hone => exact (pieces_one (by omega)).trans hback
  split
  case isTrue htwo => exact (pieces_two (by omega) (by omega)).trans hback
  split
  case isTrue hthree => exact (pieces_three (by omega) (by omega) (by omega)).trans hback
  case isFalse hfour => exact (pieces_four (by omega) (by omega)).trans hback

/-- The machine reads the form of a text character by character. -/
theorem pieces_encode (cs : List Char) : pieces none (encode cs) = cs.map some := by
  induction cs with
  | nil => rfl
  | cons c cs ih =>
      rw [encode, List.flatMap_cons, pieces_encodeChar, List.map_cons]
      exact congrArg (List.cons _) ih

/-! ## Forms -/

theorem toNat_ofNat {n : Nat} (h : n.isValidChar) : (Char.ofNat n).toNat = n := by
  unfold Char.ofNat
  rw [dif_pos h]
  rfl

/-- The converse of the four ways, in the same order: what the bits of the bytes give is written
with these bytes. -/
theorem encodeChar_one (h : b.toNat < 0x80) : String.utf8EncodeChar (Char.ofNat b.toNat) = [b] := by
  rw [encodeChar_eq, toNat_ofNat (Or.inl (by omega)), if_pos (by omega), UInt8.ofNat_toNat]

variable (b₁ b₂ b₃ : UInt8)

/-- A byte from its value. -/
theorem ofNat_eq {n : Nat} (h : n = b.toNat) : UInt8.ofNat n = b := by
  rw [h, UInt8.ofNat_toNat]

theorem encodeChar_two (h : 0xC2 ≤ b.toNat) (h' : b.toNat < 0xE0) (h₁ : 0x80 ≤ b₁.toNat)
    (h₁' : b₁.toNat ≤ 0xBF) :
    String.utf8EncodeChar (Char.ofNat (b.toNat % 0x20 * 0x40 + b₁.toNat % 0x40)) = [b, b₁] := by
  rw [encodeChar_eq, toNat_ofNat (Or.inl (by omega)), if_neg (by omega), if_pos (by omega),
    ofNat_eq (b := b) (by omega), ofNat_eq (b := b₁) (by omega)]

theorem encodeChar_three (h : 0xE0 ≤ b.toNat) (h' : b.toNat < 0xF0) (h₁ : 0x80 ≤ b₁.toNat)
    (h₁' : b₁.toNat ≤ 0xBF) (hleast : b.toNat = 0xE0 → 0xA0 ≤ b₁.toNat)
    (hpairs : b.toNat = 0xED → b₁.toNat ≤ 0x9F) (h₂ : 0x80 ≤ b₂.toNat) (h₂' : b₂.toNat ≤ 0xBF) :
    String.utf8EncodeChar (Char.ofNat
      ((b.toNat % 0x10 * 0x40 + b₁.toNat % 0x40) * 0x40 + b₂.toNat % 0x40)) = [b, b₁, b₂] := by
  -- The bound behind 0xED keeps the number below the halves of pairs; other first bytes lie clear
  -- of them.
  have hvalid : ((b.toNat % 0x10 * 0x40 + b₁.toNat % 0x40) * 0x40 +
      b₂.toNat % 0x40).isValidChar := by
    by_cases hb : b.toNat < 0xEE
    · exact Or.inl (by omega)
    · exact Or.inr (by omega)
  rw [encodeChar_eq, toNat_ofNat hvalid, if_neg (by omega), if_neg (by omega), if_pos (by omega),
    ofNat_eq (b := b) (by omega), ofNat_eq (b := b₁) (by omega), ofNat_eq (b := b₂) (by omega)]

theorem encodeChar_four (h : 0xF0 ≤ b.toNat) (h' : b.toNat ≤ 0xF4) (h₁ : 0x80 ≤ b₁.toNat)
    (h₁' : b₁.toNat ≤ 0xBF) (hleast : b.toNat = 0xF0 → 0x90 ≤ b₁.toNat)
    (hmost : b.toNat = 0xF4 → b₁.toNat ≤ 0x8F) (h₂ : 0x80 ≤ b₂.toNat) (h₂' : b₂.toNat ≤ 0xBF)
    (h₃ : 0x80 ≤ b₃.toNat) (h₃' : b₃.toNat ≤ 0xBF) :
    String.utf8EncodeChar (Char.ofNat
      (((b.toNat % 0x08 * 0x40 + b₁.toNat % 0x40) * 0x40 + b₂.toNat % 0x40) * 0x40 +
        b₃.toNat % 0x40)) = [b, b₁, b₂, b₃] := by
  have hvalid : (((b.toNat % 0x08 * 0x40 + b₁.toNat % 0x40) * 0x40 + b₂.toNat % 0x40) * 0x40 +
      b₃.toNat % 0x40).isValidChar := Or.inr (by omega)
  rw [encodeChar_eq, toNat_ofNat hvalid, if_neg (by omega), if_neg (by omega), if_neg (by omega),
    ofNat_eq (b := b) (by omega), ofNat_eq (b := b₁) (by omega), ofNat_eq (b := b₂) (by omega),
    ofNat_eq (b := b₃) (by omega)]

/-- The characters of some pieces, if all of them are characters. -/
theorem mapM_cons_eq_some_iff {p : Option Char} {ps : List (Option Char)} {cs : List Char} :
    (p :: ps).mapM id = some cs ↔ ∃ c cs', p = some c ∧ ps.mapM id = some cs' ∧ cs = c :: cs' := by
  cases p with
  | none => simp
  | some c =>
      cases hps : ps.mapM id with
      | none => simp [hps]
      | some cs' => simp [hps, eq_comm]

theorem mapM_none_cons_ne {ps : List (Option Char)} {cs : List Char} :
    (none :: ps).mapM id ≠ some cs := by
  intro h
  obtain ⟨c, cs', hc, -⟩ := mapM_cons_eq_some_iff.mp h
  cases hc

/-- Where a character has begun, its next byte is there and within the bounds. -/
theorem exists_next {s : Begun} {bs : List UInt8} {cs : List Char}
    (h : (pieces (some s) bs).mapM id = some cs) :
    ∃ b rest, bs = b :: rest ∧ s.low ≤ b ∧ b ≤ s.high := by
  cases bs with
  | nil =>
      rw [pieces] at h
      exact absurd h mapM_none_cons_ne
  | cons b rest =>
      by_cases hwithin : s.low ≤ b ∧ b ≤ s.high
      · exact ⟨b, rest, rfl, hwithin⟩
      · -- A byte out of bounds leaves a piece behind that is no character.
        rw [pieces, if_neg hwithin] at h
        split at h
        case h_1 | h_2 | h_3 => exact absurd h mapM_none_cons_ne

/-- The last byte owed completes a character. -/
theorem exists_last {s : Begun} {bs : List UInt8} {cs : List Char} (howed : s.owed ≤ 1)
    (h : (pieces (some s) bs).mapM id = some cs) :
    ∃ b rest cs', bs = b :: rest ∧ s.low.toNat ≤ b.toNat ∧ b.toNat ≤ s.high.toNat ∧
      (pieces none rest).mapM id = some cs' ∧
      cs = Char.ofNat (s.bits * 0x40 + b.toNat % 0x40) :: cs' := by
  obtain ⟨b, rest, rfl, hlow, hhigh⟩ := exists_next h
  rw [pieces_next hlow hhigh, if_pos howed, mapM_cons_eq_some_iff] at h
  obtain ⟨c, cs', hc, hrest, rfl⟩ := h
  obtain rfl := Option.some.inj hc
  exact ⟨b, rest, cs', rfl, UInt8.le_iff_toNat_le.mp hlow, UInt8.le_iff_toNat_le.mp hhigh, hrest,
    rfl⟩

/-- A byte that is not the last one owed leaves one fewer to come. -/
theorem exists_more {s : Begun} {bs : List UInt8} {cs : List Char} (howed : 1 < s.owed)
    (h : (pieces (some s) bs).mapM id = some cs) :
    ∃ b rest, bs = b :: rest ∧ s.low.toNat ≤ b.toNat ∧ b.toNat ≤ s.high.toNat ∧
      (pieces (some ⟨s.bits * 0x40 + b.toNat % 0x40, s.owed - 1, 0x80, 0xBF⟩) rest).mapM id =
        some cs := by
  obtain ⟨b, rest, rfl, hlow, hhigh⟩ := exists_next h
  rw [pieces_next hlow hhigh, if_neg (by omega)] at h
  exact ⟨b, rest, rfl, UInt8.le_iff_toNat_le.mp hlow, UInt8.le_iff_toNat_le.mp hhigh, h⟩

/-- What is read as some characters begins with the form of the first of them. -/
theorem exists_form {cs : List Char} (h : (pieces none (b :: rest)).mapM id = some cs) :
    ∃ c behind cs', b :: rest = String.utf8EncodeChar c ++ behind ∧
      behind.length < (b :: rest).length ∧ (pieces none behind).mapM id = some cs' ∧
      cs = c :: cs' := by
  rw [pieces] at h
  cases hfirst : first b with
  | whole c =>
      obtain ⟨hlt, rfl⟩ := first_whole hfirst
      rw [hfirst, mapM_cons_eq_some_iff] at h
      obtain ⟨c, cs', hc, hrest, rfl⟩ := h
      cases hc
      exact ⟨_, rest, cs', by rw [encodeChar_one hlt]; rfl, by simp, hrest, rfl⟩
  | refused =>
      rw [hfirst] at h
      exact absurd h mapM_none_cons_ne
  | begun s =>
      rw [hfirst] at h
      have hopening := first_begun hfirst
      have hpos := hopening.owed_pos
      have hle := hopening.owed_le
      have hlow := hopening.low_le
      have hhigh := hopening.high_le
      -- As many bytes follow as are owed, and only the first of them has bounds of its own.
      rcases (by omega : s.owed = 1 ∨ s.owed = 2 ∨ s.owed = 3) with howed | howed | howed
      · obtain ⟨b₁, rest, cs', rfl, hb₁, hb₁', hrest, rfl⟩ := exists_last (by omega) h
        obtain ⟨hge, hlt, hbits⟩ := hopening.two howed
        have hform := encodeChar_two b₁ hge hlt (by omega) (by omega)
        rw [← hbits] at hform
        exact ⟨_, rest, cs', by rw [hform]; rfl, by grind, hrest, rfl⟩
      · obtain ⟨b₁, rest, rfl, hb₁, hb₁', h⟩ := exists_more (by omega) h
        obtain ⟨b₂, rest, cs', rfl, hb₂, hb₂', hrest, rfl⟩ :=
          exists_last (show s.owed - 1 ≤ 1 by omega) h
        obtain ⟨hge, hlt, hbits, hleast, hpairs⟩ := hopening.three howed
        have hform := encodeChar_three b₁ b₂ hge hlt (by omega) (by omega)
          (fun heq => Nat.le_trans (hleast heq) hb₁) (fun heq => Nat.le_trans hb₁' (hpairs heq))
          hb₂ hb₂'
        rw [← hbits] at hform
        exact ⟨_, rest, cs', by rw [hform]; rfl, by grind, hrest, rfl⟩
      · obtain ⟨b₁, rest, rfl, hb₁, hb₁', h⟩ := exists_more (by omega) h
        obtain ⟨b₂, rest, rfl, hb₂, hb₂', h⟩ := exists_more (show 1 < s.owed - 1 by omega) h
        obtain ⟨b₃, rest, cs', rfl, hb₃, hb₃', hrest, rfl⟩ :=
          exists_last (show s.owed - 1 - 1 ≤ 1 by omega) h
        obtain ⟨hge, hlt, hbits, hleast, hmost⟩ := hopening.four howed
        have hform := encodeChar_four b₁ b₂ b₃ hge hlt (by omega) (by omega)
          (fun heq => Nat.le_trans (hleast heq) hb₁) (fun heq => Nat.le_trans hb₁' (hmost heq))
          hb₂ hb₂' hb₃ hb₃'
        rw [← hbits] at hform
        exact ⟨_, rest, cs', by rw [hform]; rfl, by grind, hrest, rfl⟩

/-- What the machine reads as characters is the form of these. The induction is on the number
of bytes; one turn takes a whole character. -/
theorem encode_of_pieces {bs : List UInt8} {cs : List Char}
    (h : (pieces none bs).mapM id = some cs) : encode cs = bs := by
  induction hlength : bs.length using Nat.strongRecOn generalizing bs cs with
  | _ n ih =>
      cases bs with
      | nil =>
          rw [pieces] at h
          cases h
          rfl
      | cons b rest =>
          obtain ⟨c, behind, cs', hform, hshort, hbehind, rfl⟩ := exists_form h
          rw [hform, encode, List.flatMap_cons]
          exact congrArg _ (ih _ (hlength ▸ hshort) hbehind rfl)

/-! ## Texts -/

/-- A byte string is read as some characters exactly if it is the form of these. -/
theorem decode?_eq_some_iff {bs : List UInt8} {cs : List Char} :
    decode? bs = some cs ↔ bs = encode cs := by
  constructor
  · intro h
    exact (encode_of_pieces h).symm
  · rintro rfl
    rw [decode?, pieces_encode]
    induction cs with
    | nil => rfl
    | cons c cs ih =>
        rw [List.map_cons, mapM_cons_eq_some_iff]
        exact ⟨c, cs, rfl, ih, rfl⟩

/-- A byte string spells a text exactly if it is the form of the text. -/
theorem text?_eq_some_iff {bs : List UInt8} {s : String} : text? bs = some s ↔ bs = bytes s := by
  rw [text?, Option.map_eq_some_iff]
  constructor
  · rintro ⟨cs, hcs, rfl⟩
    rw [decode?_eq_some_iff.mp hcs, bytes, String.toList_ofList]
  · rintro rfl
    exact ⟨s.toList, decode?_eq_some_iff.mpr rfl, String.ofList_toList⟩

end ProfileAdmin.Text.Utf8
