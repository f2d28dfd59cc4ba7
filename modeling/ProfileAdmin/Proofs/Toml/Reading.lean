import Mathlib.Data.List.Basic
import Mathlib.Data.List.TakeWhile
import ProfileAdmin.Toml.Document

/-!
# Proofs.Toml.Reading — what readers take off a text

1. **Readers**: one takes something off the front and leaves the rest, and another one goes on
   there.
2. **Basic strings**, with all ways in which a character can be written.
3. **Keys** of one part.
4. **Values** that are strings or truth values.
-/

namespace ProfileAdmin.Toml

open Document (Value)

variable {α β : Type} {r : Reader α} {f : α → Reader β} {a : α} {b : β} {p : Char → Bool}
  {c : Char} {cs ds s bs rest : List Char} {name : String}

/-! ## Readers -/

/-- A reader takes a text off the front and leaves what comes behind it. -/
def Takes (r : Reader α) (cs : List Char) (a : α) (rest : List Char) : Prop :=
  r (cs ++ rest) = some (a, rest)

theorem takes_pure (a : α) (rest : List Char) : Takes (pure a) [] a rest :=
  rfl

/-- A reader goes on where the one before it has stopped. -/
theorem Takes.bind (h : Takes r cs a (ds ++ rest)) (h' : Takes (f a) ds b rest) :
    Takes (r >>= f) (cs ++ ds) b rest := by
  have hfirst : r (cs ++ ds ++ rest) = some (a, ds ++ rest) := by
    rw [List.append_assoc]
    exact h
  show (r (cs ++ ds ++ rest)).bind (fun x => f x.1 x.2) = _
  rw [hfirst]
  exact h'

/-- A look ahead takes nothing. -/
theorem Takes.glance (h : Takes r [] a (ds ++ rest)) (h' : Takes (f a) ds b rest) :
    Takes (r >>= f) ds b rest :=
  Takes.bind h h'

/-- What comes last takes nothing. -/
theorem Takes.closing (h : Takes r cs a rest) (h' : Takes (f a) [] b rest) :
    Takes (r >>= f) cs b rest := by
  have hboth : Takes (r >>= f) (cs ++ []) b rest := Takes.bind h h'
  rwa [List.append_nil] at hboth

/-- What is taken is made into something else. -/
theorem Takes.returning {g : α → β} (h : Takes r cs a rest) :
    Takes (r >>= fun a => pure (g a)) cs (g a) rest :=
  h.closing (takes_pure (g a) rest)

theorem takes_peek (rest : List Char) : Takes peek? [] rest.head? rest :=
  rfl

theorem takes_next (c : Char) (rest : List Char) : Takes next [c] c rest :=
  rfl

/-- A character that is expected is taken. -/
theorem takes_expect (c : Char) (rest : List Char) : Takes (expect c) [c] () rest := by
  show (if c = c then pure () else failure : Reader Unit) rest = _
  rw [if_pos rfl]
  rfl

/-- What stands in front can be taken. -/
theorem takes_taken (cs rest : List Char) : Takes (taken? cs) cs true rest := by
  have hfront : cs.isPrefixOf (cs ++ rest) = true :=
    List.isPrefixOf_iff_prefix.mpr (List.prefix_append cs rest)
  show (if cs.isPrefixOf (cs ++ rest) = true then _ else _) = _
  rw [if_pos hfront, List.drop_left]

/-- What does not stand in front leaves the text as it is. -/
theorem takes_missed (h : ¬ cs <+: rest) : Takes (taken? cs) [] false rest := by
  have hother : ¬ cs.isPrefixOf rest = true := mt List.isPrefixOf_iff_prefix.mp h
  show (if cs.isPrefixOf rest = true then some (true, rest.drop cs.length)
    else some (false, rest)) = _
  rw [if_neg hother]

theorem not_prefix_of_head? (h : rest.head? ≠ some c) : ¬ c :: cs <+: rest := by
  rintro ⟨others, rfl⟩
  exact h rfl

/-- A run goes as far as its characters do. -/
theorem takes_run (hcs : ∀ c ∈ cs, p c = true) (hrest : ∀ c ∈ rest.head?, p c = false) :
    Takes (run p) cs cs rest := by
  have hstop : rest.takeWhile p = [] ∧ rest.dropWhile p = rest := by
    cases rest with
    | nil => exact ⟨rfl, rfl⟩
    | cons c rest =>
        have hc : ¬ p c = true := Bool.eq_false_iff.mp (hrest c rfl)
        exact ⟨List.takeWhile_cons_of_neg hc, List.dropWhile_cons_of_neg hc⟩
  show some ((cs ++ rest).takeWhile p, (cs ++ rest).dropWhile p) = _
  rw [List.takeWhile_append_of_pos hcs, List.dropWhile_append_of_pos hcs, hstop.1, hstop.2,
    List.append_nil]

theorem isBlank_cases (h : isBlank c = true) : c = ' ' ∨ c = '\t' := by
  simpa [isBlank] using h

/-- Blanks only. -/
def Blanks (bs : List Char) : Prop :=
  ∀ c ∈ bs, isBlank c = true

/-- Blanks are passed up to the first other character. -/
theorem takes_blanks (hbs : Blanks bs) (hrest : ∀ c ∈ rest.head?, isBlank c = false) :
    Takes blanks bs () rest :=
  (takes_run hbs hrest).returning

/-! ## Basic strings -/

/-- How a character can be written in a basic string: as it is, by an escape of its own, or by its
number. -/
inductive CharText : List Char → Char → Prop where
  | plain {c : Char} (hplain : isPlain c = true) (hquote : c ≠ '"') (hescape : c ≠ '\\') :
      CharText [c] c
  | short {letter c : Char}
      (hpair : (letter, c) ∈ [('b', '\x08'), ('f', '\x0c'), ('n', '\n'), ('r', '\r'), ('t', '\t'),
        ('"', '"'), ('\\', '\\')]) :
      CharText ['\\', letter] c
  | four {digits : List Char} {c : Char} (hlength : digits.length = 4)
      (hvalue : hexValue? digits = some c.toNat) : CharText ('\\' :: 'u' :: digits) c
  | eight {digits : List Char} {c : Char} (hlength : digits.length = 8)
      (hvalue : hexValue? digits = some c.toNat) : CharText ('\\' :: 'U' :: digits) c

/-- How characters can be written between the quotes of a basic string. -/
inductive BodyText : List Char → List Char → Prop where
  | nil : BodyText [] []
  | cons {ds cs s : List Char} {c : Char} (first : CharText ds c) (others : BodyText cs s) :
      BodyText (ds ++ cs) (c :: s)

/-- Most characters are written as they are. -/
theorem BodyText.plain (h : ∀ c ∈ s, (isPlain c && c != '"' && c != '\\') = true) :
    BodyText s s := by
  induction s with
  | nil => exact BodyText.nil
  | cons c s ih =>
      obtain ⟨hfirst, hothers⟩ := List.forall_mem_cons.mp h
      simp only [Bool.and_eq_true, bne_iff_ne] at hfirst
      exact BodyText.cons (CharText.plain hfirst.1.1 hfirst.1.2 hfirst.2) (ih hothers)

/-- Every character can be written: those that cannot stand as they are have an escape or, as
controls are among the first characters, two digits for their number. -/
theorem exists_charText (c : Char) : ∃ ds, CharText ds c := by
  by_cases hquote : c = '"'
  · rw [hquote]
    exact ⟨['\\', '"'], CharText.short (by decide)⟩
  by_cases hescape : c = '\\'
  · rw [hescape]
    exact ⟨['\\', '\\'], CharText.short (by decide)⟩
  by_cases hplain : isPlain c = true
  · exact ⟨[c], CharText.plain hplain hquote hescape⟩
  -- What is not plain is a control.
  have hsmall : c.toNat < 128 := by
    by_contra hlarge
    refine hplain ?_
    have hspace : ' ' ≤ c := by
      show (32 : Nat) ≤ c.toNat
      omega
    have hdelete : c ≠ '\x7f' := by
      rintro rfl
      exact hlarge (by decide)
    simp only [isPlain, hspace, decide_true, Bool.true_and, Bool.or_eq_true, bne_iff_ne]
    exact Or.inr hdelete
  have hdigits : ∀ n < 128,
      hexValue? ['0', '0', Text.hexDigit (n / 16), Text.hexDigit (n % 16)] = some n := by
    decide +kernel
  exact ⟨_, CharText.four rfl (hdigits c.toNat hsmall)⟩

/-- Every text can be written. -/
theorem exists_bodyText (s : List Char) : ∃ cs, BodyText cs s := by
  induction s with
  | nil => exact ⟨[], BodyText.nil⟩
  | cons c s ih =>
      obtain ⟨ds, hfirst⟩ := exists_charText c
      obtain ⟨cs, hothers⟩ := ih
      exact ⟨ds ++ cs, BodyText.cons hfirst hothers⟩

/-- A number of the right length stands for its character. -/
theorem takes_coded {width : Nat} {digits : List Char} (hlength : digits.length = width)
    (hvalue : hexValue? digits = some c.toNat) (rest : List Char) :
    Takes (coded width) digits c rest := by
  have htake : (digits ++ rest).take width = digits := List.take_left' hlength
  have hdrop : (digits ++ rest).drop width = rest := List.drop_left' hlength
  -- The number of a character is never one of a surrogate.
  have hrange : c.toNat < 0xD800 ∨ (0xE000 ≤ c.toNat ∧ c.toNat < 0x110000) := by
    rcases c.valid with hlow | ⟨hlow, hhigh⟩
    · exact Or.inl hlow
    · exact Or.inr ⟨hlow, hhigh⟩
  unfold Takes coded
  dsimp only
  rw [htake, hvalue, hdrop]
  show (if _ then _ else _) = _
  rw [if_pos ⟨hlength, hrange⟩, Char.ofNat_toNat]

/-- Behind the backslash. -/
theorem CharText.takes_escaped {cs : List Char} (h : CharText ('\\' :: cs) c) (rest : List Char) :
    Takes escaped cs c rest := by
  cases h with
  | plain hplain hquote hescape => exact absurd rfl hescape
  | short hpair =>
      simp only [List.mem_cons, List.not_mem_nil, or_false, Prod.mk.injEq] at hpair
      rcases hpair with ⟨rfl, rfl⟩ | ⟨rfl, rfl⟩ | ⟨rfl, rfl⟩ | ⟨rfl, rfl⟩ | ⟨rfl, rfl⟩ |
        ⟨rfl, rfl⟩ | ⟨rfl, rfl⟩
      all_goals rfl
  | four hlength hvalue => exact Takes.bind (takes_next 'u' _) (takes_coded hlength hvalue rest)
  | eight hlength hvalue => exact Takes.bind (takes_next 'U' _) (takes_coded hlength hvalue rest)

/-- A character is written plainly, or behind a backslash. -/
theorem CharText.cases (h : CharText ds c) :
    (ds = [c] ∧ isPlain c = true ∧ c ≠ '"' ∧ c ≠ '\\') ∨ ∃ cs, ds = '\\' :: cs := by
  cases h with
  | plain hplain hquote hescape => exact Or.inl ⟨rfl, hplain, hquote, hescape⟩
  | short => exact Or.inr ⟨_, rfl⟩
  | four => exact Or.inr ⟨_, rfl⟩
  | eight => exact Or.inr ⟨_, rfl⟩

/-- The body of a string is read up to its closing quote. -/
theorem BodyText.takes_basicIn (h : BodyText cs s) {turns : Nat} (hturns : s.length < turns)
    (rest : List Char) : Takes (basicIn turns) (cs ++ ['"']) s rest := by
  -- One turn for each character, however it is written, and one for the quote.
  induction h generalizing turns with
  | nil =>
      obtain ⟨turns, rfl⟩ := Nat.exists_eq_add_one_of_ne_zero (Nat.ne_zero_of_lt hturns)
      rfl
  | @cons ds cs s c first others ih =>
      obtain ⟨turns, rfl⟩ := Nat.exists_eq_add_one_of_ne_zero (Nat.ne_zero_of_lt hturns)
      have hothers : Takes (basicIn turns) (cs ++ ['"']) s rest :=
        ih (Nat.lt_of_succ_lt_succ hturns)
      rw [basicIn]
      rcases first.cases with ⟨rfl, hplain, hquote, hescape⟩ | ⟨digits, rfl⟩
      · show Takes _ ([c] ++ (cs ++ ['"'])) _ _
        refine Takes.bind (takes_next c _) ?_
        rw [if_neg hquote, if_neg hescape, if_pos hplain]
        exact hothers.returning
      · have htext : '\\' :: digits ++ cs ++ ['"'] = ['\\'] ++ (digits ++ (cs ++ ['"'])) := by
          simp only [List.append_assoc, List.cons_append, List.nil_append]
        rw [htext]
        refine Takes.bind (takes_next '\\' _) ?_
        rw [if_neg (by decide), if_pos rfl]
        exact Takes.bind (first.takes_escaped _) hothers.returning

theorem CharText.length_pos (h : CharText ds c) : 0 < ds.length := by
  rcases h.cases with ⟨rfl, -⟩ | ⟨digits, rfl⟩
  · exact Nat.one_pos
  · exact Nat.succ_pos digits.length

/-- No character takes less than one to write. -/
theorem BodyText.length_le (h : BodyText cs s) : s.length ≤ cs.length := by
  induction h with
  | nil => exact Nat.le_refl 0
  | cons first others ih =>
      have hfirst := first.length_pos
      rw [List.length_cons, List.length_append]
      omega

/-- A string is read up to its closing quote, whatever comes behind it. -/
theorem BodyText.takes (h : BodyText cs name.toList) (rest : List Char) :
    Takes basic (cs ++ ['"']) name rest := by
  have hroom : name.toList.length < (cs ++ ['"'] ++ rest).length + 1 := by
    have hlength := h.length_le
    simp only [List.length_append]
    omega
  have hbody := h.takes_basicIn hroom rest
  unfold Takes at hbody
  show (basicIn _ _).bind _ = _
  rw [hbody]
  show some (String.ofList name.toList, rest) = _
  rw [String.ofList_toList]

/-- No quote stands at the front of a body. -/
theorem BodyText.head?_ne (h : BodyText cs s) : cs.head? ≠ some '"' := by
  cases h with
  | nil => exact fun hnone => nomatch hnone
  | cons first others =>
      rcases first.cases with ⟨rfl, -, hquote, -⟩ | ⟨digits, rfl⟩
      · intro hsome
        exact hquote (Option.some.inj hsome)
      · intro hsome
        exact absurd (Option.some.inj hsome) (by decide)

/-! ## Keys -/

/-- How a name can be written: bare, or between quotes of either kind. -/
inductive NameText : List Char → String → Prop where
  | bare {name : String} (hsome : name.toList ≠ []) (hbare : ∀ c ∈ name.toList, isBare c = true) :
      NameText name.toList name
  | basic {cs : List Char} {name : String} (body : BodyText cs name.toList) :
      NameText ('"' :: (cs ++ ['"'])) name
  | literal {name : String} (hplain : ∀ c ∈ name.toList, (isPlain c && c != '\'') = true) :
      NameText ('\'' :: (name.toList ++ ['\''])) name

/-- A name begins with a bare character or a quote. -/
theorem NameText.head (h : NameText cs name) :
    ∃ c ds, cs = c :: ds ∧ (isBare c = true ∨ c = '"' ∨ c = '\'') := by
  cases h with
  | bare hsome hbare =>
      obtain ⟨c, ds, hcs⟩ := List.exists_cons_of_ne_nil hsome
      exact ⟨c, ds, hcs, Or.inl (hbare c (hcs ▸ List.mem_cons_self))⟩
  | basic => exact ⟨_, _, rfl, Or.inr (Or.inl rfl)⟩
  | literal => exact ⟨_, _, rfl, Or.inr (Or.inr rfl)⟩

/-- The front of a name is not one of the characters that have a meaning of their own. -/
theorem NameText.head_ne (h : NameText cs name)
    (hc : (isBare c || c == '"' || c == '\'') = false) (rest : List Char) :
    (cs ++ rest).head? ≠ some c := by
  obtain ⟨first, ds, rfl, hfirst⟩ := h.head
  intro hsome
  have heq : first = c := Option.some.inj hsome
  subst heq
  rcases hfirst with hbare | rfl | rfl
  · rw [hbare] at hc
    exact nomatch hc
  · exact absurd hc (by decide)
  · exact absurd hc (by decide)

/-- A name is read in whichever way it is written. -/
theorem NameText.takes (h : NameText cs name) (hrest : ∀ c ∈ rest.head?, isBare c = false) :
    Takes part cs name rest := by
  have hmissed : ∀ c : Char, (∃ first ds, cs = first :: ds ∧ first ≠ c) →
      Takes (taken? [c]) [] false (cs ++ rest) := by
    rintro c ⟨first, ds, rfl, hne⟩
    exact takes_missed (not_prefix_of_head? fun hsome => hne (Option.some.inj hsome))
  -- A bare name is known by its first character, the others by their quotes.
  cases h with
  | bare hsome hbare =>
      obtain ⟨first, ds, hcs⟩ := List.exists_cons_of_ne_nil hsome
      have hfirst : isBare first = true := hbare first (hcs ▸ List.mem_cons_self)
      have hquote : first ≠ '"' := fun heq => absurd (heq ▸ hfirst) (by decide)
      have happ : first ≠ '\'' := fun heq => absurd (heq ▸ hfirst) (by decide)
      refine Takes.glance (hmissed '"' ⟨first, ds, hcs, hquote⟩) ?_
      refine Takes.glance (hmissed '\'' ⟨first, ds, hcs, happ⟩) ?_
      refine (takes_run hbare hrest).closing ?_
      show Takes (if name.toList.isEmpty = true then failure else _) _ _ _
      rw [if_neg (mt List.isEmpty_iff.mp hsome)]
      exact congrArg (fun name => some (name, rest)) String.ofList_toList
  | basic body =>
      exact Takes.bind (takes_taken ['"'] _) (body.takes rest)
  | literal hplain =>
      refine Takes.glance (hmissed '"' ⟨'\'', _, rfl, by decide⟩) ?_
      refine Takes.bind (takes_taken ['\''] _) ?_
      have hstop : ∀ c ∈ (['\''] ++ rest).head?, (isPlain c && c != '\'') = false := by
        intro c hc
        have heq : '\'' = c := Option.some.inj hc
        subst heq
        decide
      refine Takes.bind (takes_run hplain hstop) ?_
      refine (takes_expect '\'' rest).closing ?_
      exact congrArg (fun name => some (name, rest)) String.ofList_toList

/-- How a name can be written as a key: with blanks around it. -/
inductive KeyText : List Char → String → Prop where
  | name {before cs after : List Char} {name : String} (hbefore : Blanks before)
      (first : NameText cs name) (hafter : Blanks after) :
      KeyText (before ++ (cs ++ after)) name

/-- A key of one part is read up to the sign behind it. -/
theorem KeyText.takes (h : KeyText cs name) (hc : (isBare c || isBlank c || c == '.') = false)
    (rest : List Char) : Takes key cs ⟨[], name⟩ (c :: rest) := by
  obtain ⟨⟨hbare, hblank⟩, hdot⟩ : (isBare c = false ∧ isBlank c = false) ∧ c ≠ '.' := by
    simpa only [Bool.or_eq_false_iff, beq_eq_false_iff_ne] using hc
  cases h with
  | @name before cs after _ hbefore first hafter =>
      have hfront : ∀ b ∈ (cs ++ after ++ c :: rest).head?, isBlank b = false := by
        intro b hb
        by_contra hnot
        rw [List.append_assoc] at hb
        refine first.head_ne (c := b) ?_ _ hb
        rcases isBlank_cases (Bool.of_not_eq_false hnot) with rfl | rfl <;> decide
      -- A bare name ends at a blank or at the sign.
      have hbehind : ∀ b ∈ (after ++ c :: rest).head?, isBare b = false := by
        cases after with
        | nil =>
            intro b hb
            rw [← Option.some.inj hb]
            exact hbare
        | cons b after =>
            intro b' hb
            rw [← Option.some.inj hb]
            rcases isBlank_cases (hafter b List.mem_cons_self) with rfl | rfl <;> decide
      have hsign : ∀ b ∈ (c :: rest).head?, isBlank b = false := by
        intro b hb
        rw [← Option.some.inj hb]
        exact hblank
      refine Takes.bind (takes_blanks hbefore hfront) ?_
      refine Takes.bind (first.takes hbehind) ?_
      refine (takes_blanks hafter hsign).closing ?_
      refine Takes.glance (takes_missed (not_prefix_of_head? ?_)) (takes_pure _ _)
      exact fun hsome => hdot (Option.some.inj hsome)

/-! ## Values -/

/-- How a string or a truth value can be written. -/
inductive ValueText : List Char → Value → Prop where
  | text {cs : List Char} {s : String} (body : BodyText cs s.toList) :
      ValueText ('"' :: (cs ++ ['"'])) (.text s)
  | flag (b : Bool) : ValueText (if b then "true".toList else "false".toList) (.flag b)

/-- A string or a truth value is read as it is written. -/
theorem ValueText.takes_scalar {v : Value} (h : ValueText cs v) (hrest : rest.head? ≠ some '"') :
    Takes scalar cs v rest := by
  cases h with
  | @text cs s body =>
      have hsingle : ¬ ['"', '"', '"'] <+: '"' :: (cs ++ ['"']) ++ rest := by
        rintro ⟨others, heq⟩
        have htail : '"' :: '"' :: others = cs ++ '"' :: rest := by
          simpa using heq
        -- Three quotes would be an empty string and a quote behind it, or a quote inside.
        cases cs with
        | nil =>
            have hbehind : '"' :: others = rest := (List.cons.inj htail).2
            exact hrest (by rw [← hbehind]; rfl)
        | cons c cs =>
            have hfront : '"' = c := (List.cons.inj htail).1
            exact body.head?_ne (by rw [← hfront]; rfl)
      have htext : Takes text? ('"' :: (cs ++ ['"'])) (some s) rest := by
        refine Takes.glance (takes_missed hsingle) ?_
        refine Takes.bind (takes_taken ['"'] _) ?_
        exact (body.takes rest).returning
      exact htext.closing (takes_pure _ rest)
  | flag b =>
      cases b <;> rfl

/-- No list and no table begins like a string or a truth value. -/
theorem ValueText.takes {v : Value} (h : ValueText cs v) (hrest : rest.head? ≠ some '"') :
    Takes value cs v rest := by
  have hhead : ∃ c ds, cs = c :: ds ∧ c ≠ '[' ∧ c ≠ '\x7b' := by
    cases h with
    | text => exact ⟨'"', _, rfl, by decide, by decide⟩
    | flag b => cases b <;> exact ⟨_, _, rfl, by decide, by decide⟩
  obtain ⟨c, ds, rfl, hlist, htable⟩ := hhead
  have hmissed : ∀ mark : Char, c ≠ mark →
      Takes (taken? [mark]) [] false (c :: ds ++ rest) := by
    intro mark hne
    exact takes_missed (not_prefix_of_head? fun hsome => hne (Option.some.inj hsome))
  show Takes (nestedIn scalar (78 + 1)) _ _ _
  refine Takes.glance (hmissed '[' hlist) ?_
  exact Takes.glance (hmissed '\x7b' htable) (h.takes_scalar hrest)

end ProfileAdmin.Toml
