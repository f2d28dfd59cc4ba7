import ProfileAdmin.Json.Reader

/-!
# Proofs.Json.Grammar — what a JSON text is

1. **Bodies**: what stands between the quotes of a text, and which text it denotes, if any.
2. **Numbers**, of which only the form matters.
3. **Trees**: a value with the members of its objects in the order of the text.
4. **Spellings**: the byte strings that spell a tree.
5. **First bytes** tell what kind of value it is.
-/

namespace ProfileAdmin.Json

open Text (Utf8.bytes Utf8.text?)
open Text.Utf16 (isLead isTrail joined)

/-! ## Bodies -/

/-- A byte that stands for itself in a text. -/
def isPlainByte (b : UInt8) : Bool :=
  0x20 ≤ b && b != 0x22 && b != 0x5C

/-- What a text is made of. -/
inductive Piece where
  | plain (b : UInt8) (h : isPlainByte b = true)
  /-- A backslash and a letter. -/
  | short (letter meant : UInt8) (h : shortEscape? letter = some meant)
  /-- A sixteen-bit unit in hexadecimal digits. -/
  | unit (a b c d : UInt8) (n : Nat) (h : hexUnit? a b c d = some n)

/-- How a piece is written. -/
def Piece.bytes : Piece → List UInt8
  | .plain b _ => [b]
  | .short letter _ _ => [0x5C, letter]
  | .unit a b c d _ _ => [0x5C, 0x75, a, b, c, d]

/-- What stands between the quotes of a text. -/
abbrev Body := List Piece

/-- The bytes of a body. -/
def Body.written (body : Body) : List UInt8 :=
  body.flatMap Piece.bytes

theorem Body.written_cons (piece : Piece) (body : Body) :
    Body.written (piece :: body) = piece.bytes ++ body.written :=
  List.flatMap_cons

/-- A body in quotes. -/
def Body.quoted (body : Body) : List UInt8 :=
  0x22 :: (body.written ++ [0x22])

/-- The bytes that a body denotes behind the first half of a pair, or elsewhere. The first half
has to stand directly before the second, and this nowhere else. -/
def Body.denotedFrom? : Option Nat → Body → Option (List UInt8)
  | none, [] => some []
  | none, .plain b _ :: body => (Body.denotedFrom? none body).map (b :: ·)
  | none, .short _ meant _ :: body => (Body.denotedFrom? none body).map (meant :: ·)
  | none, .unit _ _ _ _ n _ :: body =>
    if isTrail n then none
    else if isLead n then Body.denotedFrom? (some n) body
    else (Body.denotedFrom? none body).map (String.utf8EncodeChar (Char.ofNat n) ++ ·)
  | some lead, .unit _ _ _ _ n _ :: body =>
    if isTrail n then
      (Body.denotedFrom? none body).map (String.utf8EncodeChar (joined lead n) ++ ·)
    else none
  | some _, _ => none

/-- The bytes that a body denotes. -/
def Body.denoted? (body : Body) : Option (List UInt8) :=
  body.denotedFrom? none

/-- The text that a body denotes, unless some of its halves stand alone, or its bytes are not
those of a text. -/
def Body.text? (body : Body) : Option String :=
  body.denoted?.bind Utf8.text?

/-! ## Numbers -/

/-- Decimal digits. -/
def IsDigits (ds : List UInt8) : Prop :=
  ∀ d ∈ ds, isDigitByte d = true

/-- The digits before the point, without a zero in front of others. -/
inductive IsWhole : List UInt8 → Prop where
  | zero : IsWhole [0x30]
  | digits {d : UInt8} {ds : List UInt8} (first : isDigitByte d = true) (positive : d ≠ 0x30)
      (others : IsDigits ds) : IsWhole (d :: ds)

/-- The point, and the digits behind it. -/
inductive IsFraction : List UInt8 → Prop where
  | absent : IsFraction []
  | digits {ds : List UInt8} (some : ds ≠ []) (all : IsDigits ds) : IsFraction (0x2E :: ds)

/-- A power of ten. -/
inductive IsExponent : List UInt8 → Prop where
  | absent : IsExponent []
  | digits {letter : UInt8} {sign ds : List UInt8} (small : letter = 0x65 ∨ letter = 0x45)
      (signed : sign = [] ∨ sign = [0x2B] ∨ sign = [0x2D]) (some : ds ≠ []) (all : IsDigits ds) :
      IsExponent (letter :: (sign ++ ds))

/-- A number without its sign. -/
def IsMagnitude (bytes : List UInt8) : Prop :=
  ∃ whole fraction exponent, bytes = whole ++ (fraction ++ exponent) ∧ IsWhole whole ∧
    IsFraction fraction ∧ IsExponent exponent

/-- A number. -/
inductive IsNumber : List UInt8 → Prop where
  | positive {bytes : List UInt8} (magnitude : IsMagnitude bytes) : IsNumber bytes
  | negative {bytes : List UInt8} (magnitude : IsMagnitude bytes) : IsNumber (0x2D :: bytes)

/-! ## Trees -/

/-- A JSON value. Members may be repeated, and names need not denote texts. -/
inductive Tree where
  | null
  | flag (b : Bool)
  | number
  | text (body : Body)
  | list (items : List Tree)
  | object (members : List (Body × Tree))

/-! ## Spellings -/

/-- Any number of blanks. -/
def Blanks (bs : List UInt8) : Prop :=
  ∀ b ∈ bs, isBlankByte b = true

theorem blanks_nil : Blanks [] := by
  simp [Blanks]

/-- A value with the blanks around it. -/
structure Slot where
  ahead : List UInt8
  tree : Tree
  bytes : List UInt8
  behind : List UInt8

/-- The bytes of a slot. -/
def Slot.written (x : Slot) : List UInt8 :=
  x.ahead ++ (x.bytes ++ x.behind)

/-- Around the value there are only blanks. -/
structure Slot.Clear (x : Slot) : Prop where
  ahead : Blanks x.ahead
  behind : Blanks x.behind

/-- A name with its value and the blanks around them. -/
structure Member where
  before : List UInt8
  name : Body
  gap : List UInt8
  value : Slot

/-- The bytes of a member. -/
def Member.written (m : Member) : List UInt8 :=
  m.before ++ (m.name.quoted ++ (m.gap ++ 0x3A :: m.value.written))

/-- The name and the value. -/
def Member.pair (m : Member) : Body × Tree :=
  (m.name, m.value.tree)

/-- Around the name and the value there are only blanks. -/
structure Member.Clear (m : Member) : Prop where
  before : Blanks m.before
  gap : Blanks m.gap
  value : m.value.Clear

/-- Byte strings with commas between them. -/
def commaed : List (List UInt8) → List UInt8
  | [] => []
  | item :: others => item ++ others.flatMap (0x2C :: ·)

/-- A byte string spells a tree. -/
inductive Spells : Tree → List UInt8 → Prop where
  | null : Spells .null (0x6E :: nullLetters)
  | true : Spells (.flag true) (0x74 :: trueLetters)
  | false : Spells (.flag false) (0x66 :: falseLetters)
  | number {bytes : List UInt8} (form : IsNumber bytes) : Spells .number bytes
  | text (body : Body) : Spells (.text body) body.quoted
  | emptyList {blanks : List UInt8} (clear : Blanks blanks) :
      Spells (.list []) (0x5B :: (blanks ++ [0x5D]))
  | list {items : List Slot} (some : items ≠ []) (clear : ∀ x ∈ items, x.Clear)
      (spelled : ∀ x ∈ items, Spells x.tree x.bytes) :
      Spells (.list (items.map Slot.tree)) (0x5B :: (commaed (items.map Slot.written) ++ [0x5D]))
  | emptyObject {blanks : List UInt8} (clear : Blanks blanks) :
      Spells (.object []) (0x7B :: (blanks ++ [0x7D]))
  | object {members : List Member} (some : members ≠ []) (clear : ∀ m ∈ members, m.Clear)
      (spelled : ∀ m ∈ members, Spells m.value.tree m.value.bytes) :
      Spells (.object (members.map Member.pair))
        (0x7B :: (commaed (members.map Member.written) ++ [0x7D]))

/-- A JSON text: a value with blanks around it. -/
def IsDocument (tree : Tree) (bytes : List UInt8) : Prop :=
  ∃ x : Slot, x.tree = tree ∧ x.written = bytes ∧ x.Clear ∧ Spells x.tree x.bytes

/-! ## First bytes -/

/-- The bytes with which a tree may begin. -/
def Tree.Opens : Tree → UInt8 → Prop
  | .null, b => b = 0x6E
  | .flag true, b => b = 0x74
  | .flag false, b => b = 0x66
  | .number, b => b = 0x2D ∨ isDigitByte b = true
  | .text _, b => b = 0x22
  | .list _, b => b = 0x5B
  | .object _, b => b = 0x7B

/-- The kinds of values that a reader tells apart. -/
inductive Kind where
  | null
  | flag (b : Bool)
  | number
  | text
  | list
  | object
  deriving DecidableEq

/-- The kind of a tree. -/
def Tree.kind : Tree → Kind
  | .null => .null
  | .flag b => .flag b
  | .number => .number
  | .text _ => .text
  | .list _ => .list
  | .object _ => .object

/-- The kind of a value that begins with a byte. -/
def kindOf (b : UInt8) : Kind :=
  if b = 0x6E then .null
  else if b = 0x74 then .flag true
  else if b = 0x66 then .flag false
  else if b = 0x22 then .text
  else if b = 0x5B then .list
  else if b = 0x7B then .object
  else .number

theorem Tree.Opens.kind_eq {tree : Tree} {b : UInt8} (h : tree.Opens b) : tree.kind = kindOf b := by
  cases tree with
  | null | text body | list items | object members =>
      obtain rfl := h
      rfl
  | flag value => cases value <;> · obtain rfl := h; rfl
  | number =>
      -- The six other kinds begin with bytes that are neither a sign nor a digit.
      have hne : ∀ c : UInt8, c ≠ 0x2D → isDigitByte c = false → b ≠ c := by
        rintro c hsign hdigit rfl
        rcases h with heq | heq
        · exact hsign heq
        · simp [hdigit] at heq
      rw [kindOf, if_neg (hne _ (by decide) (by decide)), if_neg (hne _ (by decide) (by decide)),
        if_neg (hne _ (by decide) (by decide)), if_neg (hne _ (by decide) (by decide)),
        if_neg (hne _ (by decide) (by decide)), if_neg (hne _ (by decide) (by decide))]
      rfl

/-- Values of another kind do not begin with the byte. -/
theorem Tree.Opens.ne {tree : Tree} {b c : UInt8} (h : tree.Opens b)
    (hkind : tree.kind ≠ kindOf c) : b ≠ c := by
  rintro rfl
  exact hkind h.kind_eq

/-- A byte that is neither a blank nor punctuation. -/
structure IsStart (b : UInt8) : Prop where
  notBlank : isBlankByte b = false
  notComma : b ≠ 0x2C
  notListEnd : b ≠ 0x5D
  notObjectEnd : b ≠ 0x7D

/-- A digit begins a value and nothing else. -/
theorem isStart_of_digit {b : UInt8} (h : isDigitByte b = true) : IsStart b := by
  simp only [isDigitByte, Bool.and_eq_true, decide_eq_true_eq, UInt8.le_iff_toNat_le,
    UInt8.reduceToNat] at h
  have hne : ∀ c : UInt8, c.toNat < 0x30 ∨ 0x39 < c.toNat → b ≠ c := by
    rintro c hc rfl
    omega
  constructor
  · simp [isBlankByte, hne]
  · exact hne _ (by decide)
  · exact hne _ (by decide)
  · exact hne _ (by decide)

/-- No value begins with a blank or with punctuation. -/
theorem Tree.Opens.isStart {tree : Tree} {b : UInt8} (h : tree.Opens b) : IsStart b := by
  cases tree with
  | null | text body | list items | object members =>
      obtain rfl := h
      constructor <;> decide
  | flag value =>
      cases value <;>
      · obtain rfl := h
        constructor <;> decide
  | number =>
      rcases h with rfl | hdigit
      · constructor <;> decide
      · exact isStart_of_digit hdigit

/-- A number without its sign begins with a digit. -/
theorem IsMagnitude.exists_cons {bytes : List UInt8} (h : IsMagnitude bytes) :
    ∃ b rest, bytes = b :: rest ∧ isDigitByte b = true := by
  obtain ⟨whole, fraction, exponent, rfl, hwhole, -⟩ := h
  cases hwhole with
  | zero => exact ⟨_, _, rfl, by decide⟩
  | digits first positive others => exact ⟨_, _, rfl, first⟩

/-- What spells a tree begins with a byte with which the tree may begin. -/
theorem Spells.exists_cons {tree : Tree} {bytes : List UInt8} (h : Spells tree bytes) :
    ∃ b rest, bytes = b :: rest ∧ tree.Opens b := by
  cases h with
  | null | true | false | text body | emptyList clear | list some clear spelled
  | emptyObject clear | object some clear spelled => exact ⟨_, _, rfl, rfl⟩
  | number form =>
      cases form with
      | positive magnitude =>
          obtain ⟨b, rest, rfl, hdigit⟩ := magnitude.exists_cons
          exact ⟨b, rest, rfl, Or.inr hdigit⟩
      | negative magnitude => exact ⟨_, _, rfl, Or.inl rfl⟩

/-- What may stand directly behind a value. -/
def Ends (s : List UInt8) : Prop :=
  ∀ b ∈ s.head?, isBlankByte b = true ∨ b = 0x2C ∨ b = 0x5D ∨ b = 0x7D

theorem ends_nil : Ends [] := by
  simp [Ends]

theorem ends_cons {b : UInt8} {s : List UInt8}
    (h : isBlankByte b = true ∨ b = 0x2C ∨ b = 0x5D ∨ b = 0x7D) : Ends (b :: s) := by
  intro c hc
  obtain rfl := Option.some.inj hc
  exact h

/-- Blanks behind a value do not change what may stand there. -/
theorem Ends.blanks {blanks s : List UInt8} (h : Ends s) (hblanks : Blanks blanks) :
    Ends (blanks ++ s) := by
  cases blanks with
  | nil => exact h
  | cons b blanks => exact ends_cons (Or.inl (hblanks b List.mem_cons_self))

end ProfileAdmin.Json
