/-!
# Text.Utf8 — text as bytes

1. **Writing**: every character has one form of one to four bytes.
2. **Reading**: a machine that takes one byte at a time. Between characters it
   owes nothing; inside one it owes a number of further bytes, the next of them
   within bounds that rule out overlong forms, surrogates and values past the
   last character.
3. **Uses of it**: `decode?` reads a text that has to be well formed,
   `soundLength` tells how far it is, `decodeLossy` puts U+FFFD where a piece is not.
-/

namespace ProfileAdmin.Text.Utf8

/-! ## Writing -/

/-- The bytes of a list of characters. -/
def encode (cs : List Char) : List UInt8 :=
  cs.flatMap String.utf8EncodeChar

/-- The bytes of a text. -/
def bytes (s : String) : List UInt8 :=
  encode s.toList

/-! ## Reading -/

/-- A character begun and not finished: the bits read so far, how many bytes are
still owed, and the least and the greatest byte that may come next. -/
structure Begun where
  bits : Nat
  owed : Nat
  low : UInt8
  high : UInt8

/-- What the first byte of a character says. -/
inductive First where
  | whole (c : Char)
  | begun (b : Begun)
  | refused

/-- The first byte decides how many bytes follow. -/
def first (b : UInt8) : First :=
  let n := b.toNat
  if n < 0x80 then .whole (Char.ofNat n)
  else if n < 0xC2 then .refused
  else if n < 0xE0 then .begun ⟨n % 0x20, 1, 0x80, 0xBF⟩
  else if n = 0xE0 then .begun ⟨n % 0x10, 2, 0xA0, 0xBF⟩
  else if n = 0xED then .begun ⟨n % 0x10, 2, 0x80, 0x9F⟩
  else if n < 0xF0 then .begun ⟨n % 0x10, 2, 0x80, 0xBF⟩
  else if n = 0xF0 then .begun ⟨n % 0x08, 3, 0x90, 0xBF⟩
  else if n < 0xF4 then .begun ⟨n % 0x08, 3, 0x80, 0xBF⟩
  else if n = 0xF4 then .begun ⟨n % 0x08, 3, 0x80, 0x8F⟩
  else .refused

/-- The pieces of a byte string from the state `begun`: the characters it holds,
and `none` for each longest piece that begins no character. -/
def pieces : Option Begun → List UInt8 → List (Option Char)
  | none, [] => []
  | some _, [] => [none]
  | none, b :: rest =>
    match first b with
    | .whole c => some c :: pieces none rest
    | .begun s => pieces (some s) rest
    | .refused => none :: pieces none rest
  | some s, b :: rest =>
    if s.low ≤ b ∧ b ≤ s.high then
      let bits := s.bits * 0x40 + b.toNat % 0x40
      if s.owed ≤ 1 then some (Char.ofNat bits) :: pieces none rest
      else pieces (some ⟨bits, s.owed - 1, 0x80, 0xBF⟩) rest
    else
      -- The piece ends before this byte, which is read as a first one.
      match first b with
      | .whole c => none :: some c :: pieces none rest
      | .begun s => none :: pieces (some s) rest
      | .refused => none :: none :: pieces none rest

/-- The characters that a byte string spells, if all of it is well formed. -/
def decode? (bs : List UInt8) : Option (List Char) :=
  (pieces none bs).mapM id

/-- The text that a byte string spells, if all of it is well formed. -/
def text? (bs : List UInt8) : Option String :=
  (decode? bs).map String.ofList

/-- How many bytes stand before the first malformed piece. -/
def soundLength (bs : List UInt8) : Nat :=
  (encode (((pieces none bs).takeWhile Option.isSome).filterMap id)).length

/-- The text of a byte string, with U+FFFD for each malformed piece. -/
def decodeLossy (bs : List UInt8) : String :=
  String.ofList ((pieces none bs).map (·.getD '\uFFFD'))

end ProfileAdmin.Text.Utf8
