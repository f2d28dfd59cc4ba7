/-!
# Text.Blank — white space

The characters that Unicode gives the property `White_Space`, trimming by them,
and lines.
-/

namespace ProfileAdmin.Text

/-- The characters with the Unicode property `White_Space`. -/
def isBlank (c : Char) : Bool :=
  let n := c.toNat
  (0x09 ≤ n && n ≤ 0x0D) || n == 0x20 || n == 0x85 || n == 0xA0 || n == 0x1680 ||
    (0x2000 ≤ n && n ≤ 0x200A) || n == 0x2028 || n == 0x2029 || n == 0x202F ||
    n == 0x205F || n == 0x3000

/-- A list of characters without the white space at its two ends. -/
def trimChars (cs : List Char) : List Char :=
  ((cs.dropWhile isBlank).reverse.dropWhile isBlank).reverse

/-- Cuts a list at every element that satisfies `p`; the cuts themselves are
dropped, so there is one part more than there are cuts. -/
def splitBy {α : Type} (p : α → Bool) : List α → List (List α)
  | [] => [[]]
  | a :: rest =>
    if p a then [] :: splitBy p rest
    else match splitBy p rest with
      | [] => [[a]]
      | part :: parts => (a :: part) :: parts

/-- The lines of a text: cut at each line feed, and without the empty piece after
the last one. -/
def lines (cs : List Char) : List (List Char) :=
  match (splitBy (· == '\n') cs).reverse with
  | [] :: before => before.reverse
  | parts => parts.reverse

end ProfileAdmin.Text
