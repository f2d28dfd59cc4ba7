import ProfileAdmin.Json.Writer
import ProfileAdmin.Proofs.Json.Grammar
import ProfileAdmin.Proofs.Text.Utf8

/-!
# Proofs.Json.Writing — what the writer spells

1. **Characters** become pieces that denote them: the quote, the backslash and the controls
   as escapes, all others as the bytes that they are.
2. **Texts** denote what they were written for.
3. **Lists and objects** without blanks.
-/

namespace ProfileAdmin.Json

open Text (hexDigit)
open Text.Utf8 (encode)

/-! ## Characters -/

/-- Bytes that stand for themselves. -/
def plainBody (bs : List UInt8) : Body :=
  bs.filterMap fun b => if h : isPlainByte b = true then some (.plain b h) else none

/-- A byte given by the four digits of a sixteen-bit unit. -/
def unitBody (n : Nat) : Body :=
  let a := UInt8.ofNat (hexDigit (n / 16)).toNat
  let b := UInt8.ofNat (hexDigit (n % 16)).toNat
  if h : hexUnit? 0x30 0x30 a b = some n then [.unit 0x30 0x30 a b n h] else []

/-- What is written for a character. -/
def charBody (c : Char) : Body :=
  match c with
  | '"' => [.short 0x22 0x22 rfl]
  | '\\' => [.short 0x5C 0x5C rfl]
  | '\x08' => [.short 0x62 0x08 rfl]
  | '\x0c' => [.short 0x66 0x0C rfl]
  | '\n' => [.short 0x6E 0x0A rfl]
  | '\r' => [.short 0x72 0x0D rfl]
  | '\t' => [.short 0x74 0x09 rfl]
  | c => if c < ' ' then unitBody c.toNat else plainBody (String.utf8EncodeChar c)

/-- A body is written for a character, and denotes it. -/
structure Body.Renders (body : Body) (c : Char) : Prop where
  written : body.written = encode (escapeChar c)
  denoted : body.denotedFrom? none = some (String.utf8EncodeChar c)

instance (body : Body) (c : Char) : Decidable (body.Renders c) :=
  decidable_of_iff (body.written = encode (escapeChar c) ∧
      body.denotedFrom? none = some (String.utf8EncodeChar c))
    ⟨fun h => ⟨h.1, h.2⟩, fun h => ⟨h.1, h.2⟩⟩

/-- Control characters are few enough to be looked at one by one. -/
theorem renders_control : ∀ n : Fin 32, (charBody (Char.ofNat n)).Renders (Char.ofNat n) := by
  decide +kernel

/-- A byte needs an escape only if it is a control, the quote or the backslash. -/
theorem isPlainByte_ofNat {n : Nat} (hbyte : n < 256) (hcontrol : 0x20 ≤ n) (hquote : n ≠ 0x22)
    (hslash : n ≠ 0x5C) : isPlainByte (UInt8.ofNat n) = true := by
  have hvalue : (UInt8.ofNat n).toNat = n := Text.Utf8.toNat_byte hbyte
  have hne : ∀ m : UInt8, n ≠ m.toNat → UInt8.ofNat n ≠ m := by
    rintro m hm rfl
    exact hm hvalue.symm
  simp only [isPlainByte, Bool.and_eq_true, decide_eq_true_eq, bne_iff_ne, UInt8.le_iff_toNat_le,
    hvalue]
  exact ⟨⟨hcontrol, hne 0x22 hquote⟩, hne 0x5C hslash⟩

theorem isPlainByte_of_long {n : Nat} (hlow : 128 ≤ n) (hhigh : n < 256) :
    isPlainByte (UInt8.ofNat n) = true :=
  isPlainByte_ofNat hhigh (by omega) (by omega) (by omega)

/-- No byte of a character needs an escape unless the character does. -/
theorem isPlainByte_encodeChar {c : Char} (hcontrol : 0x20 ≤ c.toNat) (hquote : c.toNat ≠ 0x22)
    (hslash : c.toNat ≠ 0x5C) : ∀ b ∈ String.utf8EncodeChar c, isPlainByte b = true := by
  intro b hb
  rw [Text.Utf8.encodeChar_eq] at hb
  -- A character of one byte is this byte; the bytes of longer forms are all above 0x7F.
  split at hb
  · obtain rfl := List.mem_singleton.mp hb
    exact isPlainByte_ofNat (by omega) hcontrol hquote hslash
  split at hb
  · simp only [List.mem_cons, List.not_mem_nil, or_false] at hb
    rcases hb with rfl | rfl
    · exact isPlainByte_of_long (by omega) (by omega)
    · exact isPlainByte_of_long (by omega) (by omega)
  split at hb
  · simp only [List.mem_cons, List.not_mem_nil, or_false] at hb
    rcases hb with rfl | rfl | rfl
    · exact isPlainByte_of_long (by omega) (by omega)
    · exact isPlainByte_of_long (by omega) (by omega)
    · exact isPlainByte_of_long (by omega) (by omega)
  · simp only [List.mem_cons, List.not_mem_nil, or_false] at hb
    rcases hb with rfl | rfl | rfl | rfl
    · exact isPlainByte_of_long (by omega) (by omega)
    · exact isPlainByte_of_long (by omega) (by omega)
    · exact isPlainByte_of_long (by omega) (by omega)
    · exact isPlainByte_of_long (by omega) (by omega)

/-- Bytes that stand for themselves are written and denoted as they are. -/
theorem written_plainBody {bs : List UInt8} (h : ∀ b ∈ bs, isPlainByte b = true) :
    (plainBody bs).written = bs ∧ (plainBody bs).denotedFrom? none = some bs := by
  induction bs with
  | nil => exact ⟨rfl, rfl⟩
  | cons b bs ih =>
      obtain ⟨hb, hbs⟩ := List.forall_mem_cons.mp h
      obtain ⟨hwritten, hdenoted⟩ := ih hbs
      have hcons : plainBody (b :: bs) = .plain b hb :: plainBody bs := by
        rw [plainBody, List.filterMap_cons, dif_pos hb]
        rfl
      rw [hcons]
      constructor
      · rw [Body.written, List.flatMap_cons]
        exact congrArg (b :: ·) hwritten
      · rw [Body.denotedFrom?, hdenoted]
        rfl

/-- Whatever is written for a character is a body that denotes this character. -/
theorem renders_charBody (c : Char) : (charBody c).Renders c := by
  by_cases hcontrol : c.toNat < 0x20
  · have h := renders_control ⟨c.toNat, hcontrol⟩
    rwa [Char.ofNat_toNat] at h
  by_cases hquote : c.toNat = 0x22
  · obtain rfl : c = '"' := Char.toNat_inj.mp hquote
    decide
  by_cases hslash : c.toNat = 0x5C
  · obtain rfl : c = '\\' := Char.toNat_inj.mp hslash
    decide
  -- All other characters stand for themselves.
  have hplain := isPlainByte_encodeChar (by omega) hquote hslash
  have hspace : ¬ c < ' ' := fun hlt => hcontrol hlt
  have hbody : charBody c = plainBody (String.utf8EncodeChar c) := by
    unfold charBody
    split
    case h_1 => exact absurd rfl hquote
    case h_2 => exact absurd rfl hslash
    case h_8 => rw [if_neg hspace]
    all_goals exact absurd (by decide) hcontrol
  -- The writer comes to the same case, as it asks in the same order.
  have hescape : escapeChar c = [c] := by
    unfold escapeChar
    split
    case h_1 => exact absurd rfl hquote
    case h_2 => exact absurd rfl hslash
    case h_8 => rw [if_neg hspace]
    all_goals exact absurd (by decide) hcontrol
  obtain ⟨hwritten, hdenoted⟩ := written_plainBody hplain
  constructor
  · rw [hbody, hescape, hwritten, encode, List.flatMap_singleton]
  · rw [hbody, hdenoted]

/-! ## Texts -/

/-- What is written for a text. -/
def Body.of (s : String) : Body :=
  s.toList.flatMap charBody

/-- What denotes something by itself denotes the same before other pieces. -/
theorem Body.denotedFrom?_append {lead : Option Nat} {front : Body} {bs : List UInt8}
    (h : front.denotedFrom? lead = some bs) (behind : Body) :
    Body.denotedFrom? lead (front ++ behind) = (behind.denotedFrom? none).map (bs ++ ·) := by
  -- The lead is the half of a pair that the next piece has to complete.
  induction front generalizing lead bs with
  | nil =>
      cases lead with
      | none =>
          obtain rfl := Option.some.inj h
          simp
      | some n => cases h
  | cons piece front ih =>
      -- What a piece denotes stands in front on both sides.
      have hmap : ∀ {p : List UInt8}, (Body.denotedFrom? none front).map (p ++ ·) = some bs →
          (Body.denotedFrom? none (front ++ behind)).map (p ++ ·) =
            (behind.denotedFrom? none).map (bs ++ ·) := by
        intro p hp
        obtain ⟨others, hothers, rfl⟩ := Option.map_eq_some_iff.mp hp
        rw [ih hothers, Option.map_map]
        exact congrArg (Option.map · _) (funext fun _ => (List.append_assoc ..).symm)
      rw [List.cons_append]
      cases lead with
      | none =>
          cases piece with
          | plain b hb => exact hmap (p := [b]) h
          | short letter meant hm => exact hmap (p := [meant]) h
          | unit a b c d n hn =>
              rw [Body.denotedFrom?] at h ⊢
              -- A second half alone denotes nothing, and a first half hands on to the next piece.
              split at h
              · cases h
              rw [if_neg (by assumption)]
              split at h
              · rw [if_pos (by assumption)]
                exact ih h
              · rw [if_neg (by assumption)]
                exact hmap h
      | some n =>
          cases piece with
          | plain b hb => cases h
          | short letter meant hm => cases h
          | unit a b c d m hm =>
              rw [Body.denotedFrom?] at h ⊢
              split at h
              · rw [if_pos (by assumption)]
                exact hmap h
              · cases h

theorem encode_append (cs ds : List Char) : encode (cs ++ ds) = encode cs ++ encode ds :=
  List.flatMap_append

theorem written_of (s : String) : (Body.of s).written = encode (s.toList.flatMap escapeChar) := by
  unfold Body.of
  induction s.toList with
  | nil => rfl
  | cons c cs ih =>
      rw [List.flatMap_cons, List.flatMap_cons, encode_append, ← ih,
        ← (renders_charBody c).written]
      exact List.flatMap_append

/-- The body written for a text denotes the bytes of the text. -/
theorem denoted?_of (s : String) : (Body.of s).denoted? = some (Text.Utf8.bytes s) := by
  unfold Body.of Body.denoted? Text.Utf8.bytes
  induction s.toList with
  | nil => rfl
  | cons c cs ih =>
      rw [List.flatMap_cons, Body.denotedFrom?_append (renders_charBody c).denoted, ih]
      rfl

/-- A text denotes what it was written for. -/
@[simp] theorem text?_of (s : String) : (Body.of s).text? = some s := by
  rw [Body.text?, denoted?_of, Option.bind_some, Text.Utf8.text?_eq_some_iff]

theorem encode_writeText (s : String) : encode (writeText s) = (Body.of s).quoted := by
  have hsplit : writeText s = ['"'] ++ (s.toList.flatMap escapeChar ++ ['"']) := rfl
  rw [hsplit, encode_append, encode_append, ← written_of]
  rfl

/-- The writer's form of a text is a spelling of it. -/
theorem spells_writeText (s : String) : Spells (.text (Body.of s)) (encode (writeText s)) := by
  rw [encode_writeText]
  exact .text _

/-! ## Lists and objects -/

/-- The commas of the writer are those between the entries of a bracket. -/
theorem encode_separated (items : List (List Char)) :
    encode (separated items) = commaed (items.map encode) := by
  induction items with
  | nil => rfl
  | cons item items ih =>
      cases items with
      | nil => simp [separated, commaed]
      | cons next items =>
          have hsplit : separated (item :: next :: items) =
              item ++ (',' :: separated (next :: items)) := rfl
          have hcomma : encode (',' :: separated (next :: items)) =
              0x2C :: encode (separated (next :: items)) := rfl
          rw [hsplit, encode_append, hcomma, ih]
          simp [commaed]

/-- A value without blanks around it. -/
def Slot.tight (tree : Tree) (bytes : List UInt8) : Slot :=
  ⟨[], tree, bytes, []⟩

/-- A member without blanks around its parts. -/
def Member.tight (name : String) (tree : Tree) (bytes : List UInt8) : Member :=
  ⟨[], Body.of name, [], .tight tree bytes⟩

theorem Slot.clear_tight (tree : Tree) (bytes : List UInt8) : (Slot.tight tree bytes).Clear :=
  ⟨blanks_nil, blanks_nil⟩

theorem Member.clear_tight (name : String) (tree : Tree) (bytes : List UInt8) :
    (Member.tight name tree bytes).Clear :=
  ⟨blanks_nil, blanks_nil, Slot.clear_tight tree bytes⟩

theorem Slot.written_tight (tree : Tree) (bytes : List UInt8) :
    (Slot.tight tree bytes).written = bytes := by
  simp [Slot.tight, Slot.written]

theorem Member.written_tight (name : String) (tree : Tree) (value : List Char) :
    (Member.tight name tree (encode value)).written = encode (writeMember name value) := by
  have hsplit : writeMember name value = writeText name ++ ([':'] ++ value) := rfl
  rw [hsplit, encode_append, encode_append, encode_writeText]
  simp only [Member.tight, Member.written, Slot.written_tight, List.nil_append]
  rfl

/-- The items of a list spell it, if each spells its own tree. -/
theorem spells_writeList {α : Type} (items : List α) (tree : α → Tree) (write : α → List Char)
    (h : ∀ a ∈ items, Spells (tree a) (encode (write a))) :
    Spells (.list (items.map tree)) (encode (writeList (items.map write))) := by
  have hsplit : writeList (items.map write) = ['['] ++ (separated (items.map write) ++ [']']) := rfl
  rw [hsplit, encode_append, encode_append, encode_separated]
  cases items with
  | nil => exact .emptyList blanks_nil
  | cons a items =>
      -- The grammar speaks of slots: these have no blanks around their values.
      let slots := (a :: items).map fun b => Slot.tight (tree b) (encode (write b))
      have hlist : Spells (.list (slots.map Slot.tree))
          (0x5B :: (commaed (slots.map Slot.written) ++ [0x5D])) :=
        .list (by simp [slots]) (List.forall_mem_map.mpr fun b _ => Slot.clear_tight _ _)
          (List.forall_mem_map.mpr h)
      change Spells _ (0x5B :: (commaed (((a :: items).map write).map encode) ++ [0x5D]))
      simpa [slots, Function.comp_def, Slot.tight, Slot.written] using hlist

/-- The members of an object spell it, if each value spells its own tree. -/
theorem spells_writeObject (members : List Member) (written : List (List Char))
    (hwritten : members.map Member.written = written.map encode)
    (hclear : ∀ m ∈ members, m.Clear)
    (h : ∀ m ∈ members, Spells m.value.tree m.value.bytes) :
    Spells (.object (members.map Member.pair)) (encode (writeObject written)) := by
  have hsplit : writeObject written = ['\x7b'] ++ (separated written ++ ['\x7d']) := rfl
  rw [hsplit, encode_append, encode_append, encode_separated, ← hwritten]
  cases members with
  | nil => exact .emptyObject blanks_nil
  | cons m members => exact .object (by simp) hclear h

end ProfileAdmin.Json
