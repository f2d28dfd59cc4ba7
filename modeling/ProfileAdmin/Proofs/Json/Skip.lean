import ProfileAdmin.Json.Skip
import ProfileAdmin.Proofs.Json.Reading

/-!
# Proofs.Json.Skip — every value is passed over

1. **Blanks** before a token make no difference.
2. **Texts and numbers** are passed to their end.
3. **Entries**: what stands between two commas of a bracket.
4. **Values**: the machine that keeps the open brackets passes a value whole, whatever is
   open around it. Two turns for each byte are enough.
-/

namespace ProfileAdmin.Json

variable {α β : Type} {b : UInt8} {blanks s : List UInt8}

/-! ## Blanks -/

/-- A reader that begins with passing blanks. -/
def PassesBlanks (r : Reader α) : Prop :=
  ∀ blanks s, Blanks blanks → outcome r (blanks ++ s) = outcome r s

theorem passesBlanks_peek : PassesBlanks peek := by
  intro blanks s h
  unfold outcome peek
  rw [dropWhile_blanks h]

theorem PassesBlanks.bind {r : Reader α} (h : PassesBlanks r) (f : α → Reader β) :
    PassesBlanks (r >>= f) := by
  intro blanks s hblanks
  rw [outcome_bind, outcome_bind, h blanks s hblanks]

theorem passesBlanks_peekValue : PassesBlanks peekValue :=
  passesBlanks_peek.bind _

/-! ## Texts and numbers -/

/-- A body is passed whole, whether it denotes a text or not: halves of pairs are not looked at. -/
theorem outcome_skipText (body : Body) (s : List UInt8) :
    outcome (skipText false) (body.written ++ 0x22 :: s) = some ((), s) := by
  induction body with
  | nil =>
      rw [outcome]
      change (skipText false (0x22 :: s)).toOption = _
      rw [skipText, if_pos rfl]
      rfl
  | cons piece body ih =>
      rw [outcome] at ih
      rw [Body.written_cons, List.append_assoc, outcome]
      -- One turn of the loop for each piece; the next turn stands where the induction starts.
      cases piece with
      | plain b h =>
          simp only [isPlainByte, Bool.and_eq_true, decide_eq_true_eq, bne_iff_ne] at h
          obtain ⟨⟨hcontrol, hquote⟩, hslash⟩ := h
          rw [Piece.bytes, List.singleton_append, skipText, if_neg hquote, if_neg hslash,
            if_neg (by simpa using hcontrol)]
          exact ih
      | short letter meant h =>
          have hne : letter ≠ 0x75 := by
            rintro rfl
            cases h
          change (skipText false (0x5C :: letter :: _)).toOption = _
          rw [skipText, if_neg (by decide), if_pos rfl]
          unfold skipText
          dsimp only
          rw [if_neg hne, h]
          exact ih
      | unit a b c d n h =>
          change (skipText false (0x5C :: 0x75 :: a :: b :: c :: d :: _)).toOption = _
          rw [skipText, if_neg (by decide), if_pos rfl, skipText, if_pos rfl]
          simp only [h]
          exact ih

/-- No digit comes next. -/
def NoDigit (s : List UInt8) : Prop :=
  ∀ b ∈ s.head?, isDigitByte b = false

/-- All digits are passed that stand in a row. -/
theorem outcome_skipDigits {ds : List UInt8} (hds : IsDigits ds) (hs : NoDigit s) :
    outcome skipDigits (ds ++ s) = some (ds.length, s) := by
  have hsplit : (ds ++ s).takeWhile isDigitByte = ds ∧ (ds ++ s).dropWhile isDigitByte = s := by
    induction ds with
    | nil =>
        cases s with
        | nil => exact ⟨rfl, rfl⟩
        | cons b s =>
            have hb : isDigitByte b = false := hs b rfl
            simp [hb]
    | cons d ds ih =>
        obtain ⟨hd, hrest⟩ := List.forall_mem_cons.mp hds
        obtain ⟨htake, hdrop⟩ := ih hrest
        simp [hd, htake, hdrop]
  rw [outcome_eq_some_iff, skipDigits, hsplit.1, hsplit.2]

/-- Directly behind a number comes nothing that could belong to it. -/
theorem Ends.cases (h : Ends s) :
    NoDigit s ∧ ∀ rest, s ≠ 0x2E :: rest ∧ s ≠ 0x65 :: rest ∧ s ≠ 0x45 :: rest := by
  cases s with
  | nil => exact ⟨by simp [NoDigit], by simp⟩
  | cons b s =>
      have hb := h b rfl
      -- Seven bytes may end a value, and none of them goes on with a number.
      have hbyte : isDigitByte b = false ∧ b ≠ 0x2E ∧ b ≠ 0x65 ∧ b ≠ 0x45 := by
        simp only [isBlankByte, Bool.or_eq_true, beq_iff_eq] at hb
        rcases hb with (((rfl | rfl) | rfl) | rfl) | rfl | rfl | rfl <;> decide
      refine ⟨?_, fun rest => ⟨?_, ?_, ?_⟩⟩
      · intro c hc
        obtain rfl := Option.some.inj hc
        exact hbyte.1
      · exact fun heq => hbyte.2.1 (List.cons.inj heq).1
      · exact fun heq => hbyte.2.2.1 (List.cons.inj heq).1
      · exact fun heq => hbyte.2.2.2 (List.cons.inj heq).1

/-- The digits of an exponent behind its sign, passed over. -/
def skipUnsigned : Reader Unit := fun s =>
  match s with
  | b :: rest =>
    if isDigitByte b then (do let _ ← skipDigits) rest else stopHere .invalidNumber rest
  | [] => stopHere .invalidNumber []

/-- Without a sign, the digits begin at once. -/
theorem skipExponent_of_digit (hd : isDigitByte d = true) (s : List UInt8) :
    skipExponent (d :: s) = skipUnsigned (d :: s) := by
  unfold skipExponent
  split
  case h_1 heq =>
    obtain rfl := (List.cons.inj heq).1
    cases hd
  case h_2 heq =>
    obtain rfl := (List.cons.inj heq).1
    cases hd
  case h_3 => rfl

theorem outcome_skipUnsigned {ds : List UInt8} (hd : isDigitByte d = true) (hds : IsDigits ds)
    (hs : NoDigit s) : outcome skipUnsigned (d :: (ds ++ s)) = some ((), s) := by
  have hdigits : outcome (do let _ ← skipDigits) (ds ++ s) = some ((), s) := by
    rw [outcome_bind, outcome_skipDigits hds hs]
    rfl
  unfold skipUnsigned outcome
  dsimp only
  rw [if_pos hd]
  exact hdigits

/-- An exponent is passed behind its letter, signed or not. -/
theorem outcome_skipExponent {sign ds : List UInt8}
    (signed : sign = [] ∨ sign = [0x2B] ∨ sign = [0x2D]) (hne : ds ≠ []) (hds : IsDigits ds)
    (hs : NoDigit s) : outcome skipExponent (sign ++ ds ++ s) = some ((), s) := by
  obtain ⟨d, ds, rfl⟩ := List.exists_cons_of_ne_nil hne
  obtain ⟨hd, hrest⟩ := List.forall_mem_cons.mp hds
  have hunsigned := outcome_skipUnsigned hd hrest hs
  rcases signed with rfl | rfl | rfl
  · exact (congrArg Except.toOption (skipExponent_of_digit hd (ds ++ s))).trans hunsigned
  · exact hunsigned
  · exact hunsigned

/-- An exponent with its letter, if one comes next, passed over. -/
def skipBehindFraction : Reader Unit := fun s =>
  match s with
  | 0x65 :: rest => skipExponent rest
  | 0x45 :: rest => skipExponent rest
  | _ => .ok ((), s)

theorem skipTail_point (s : List UInt8) :
    skipTail (0x2E :: s) = (do
      if (← skipDigits) = 0 then stopAhead .invalidNumber else skipBehindFraction) s :=
  rfl

/-- Where no point comes next, there is no fraction. -/
theorem skipTail_of_ne (h : ∀ rest, s ≠ 0x2E :: rest) : skipTail s = skipBehindFraction s := by
  unfold skipTail skipBehindFraction
  split
  case h_1 rest => exact absurd rfl (h rest)
  case h_2 | h_3 => rfl
  case h_4 hsmall hlarge =>
    split
    case h_1 => exact (hsmall _ rfl).elim
    case h_2 => exact (hlarge _ rfl).elim
    case h_3 => rfl

/-- Behind the fraction comes an exponent, or nothing that belongs to the number. -/
theorem outcome_skipBehindFraction {exponent : List UInt8} (h : IsExponent exponent)
    (hs : Ends s) :
    NoDigit (exponent ++ s) ∧ (∀ rest, exponent ++ s ≠ 0x2E :: rest) ∧
      outcome skipBehindFraction (exponent ++ s) = some ((), s) := by
  obtain ⟨hdigit, hends⟩ := hs.cases
  cases h with
  | absent =>
      refine ⟨hdigit, fun rest => (hends rest).1, ?_⟩
      unfold skipBehindFraction outcome
      dsimp only
      split
      case h_1 rest heq => exact absurd heq (hends rest).2.1
      case h_2 rest heq => exact absurd heq (hends rest).2.2
      case h_3 => rfl
  | digits small signed some all =>
      have hexponent := outcome_skipExponent signed some all hdigit
      -- Both letters are no digits, so they end the digits of the fraction.
      rcases small with rfl | rfl
      · exact ⟨by simp [NoDigit, isDigitByte], by simp, hexponent⟩
      · exact ⟨by simp [NoDigit, isDigitByte], by simp, hexponent⟩

/-- What follows the digits before the point is passed: the fraction, and then the exponent. -/
theorem outcome_skipTail {fraction exponent : List UInt8} (hfraction : IsFraction fraction)
    (hexponent : IsExponent exponent) (hs : Ends s) :
    outcome skipTail (fraction ++ exponent ++ s) = some ((), s) := by
  obtain ⟨hdigit, hpoint, hbehind⟩ := outcome_skipBehindFraction hexponent hs
  cases hfraction with
  | absent => exact (congrArg Except.toOption (skipTail_of_ne hpoint)).trans hbehind
  | @digits ds some all =>
      -- A point without a digit behind it would stop the reader.
      have hlength : ds.length ≠ 0 := fun hzero => some (List.length_eq_zero_iff.mp hzero)
      have hfraction := congrArg Except.toOption (skipTail_point (ds ++ (exponent ++ s)))
      rw [List.cons_append, List.cons_append, List.append_assoc]
      refine hfraction.trans ?_
      change outcome _ _ = _
      rw [outcome_bind, outcome_skipDigits all hdigit, Option.bind_some]
      dsimp only
      rw [if_neg hlength]
      exact hbehind

/-- A number without its sign is passed whole. -/
theorem outcome_skipNumber {bytes : List UInt8} (h : IsMagnitude bytes) (hs : Ends s) :
    outcome skipNumber (bytes ++ s) = some ((), s) := by
  obtain ⟨whole, fraction, exponent, rfl, hwhole, hfraction, hexponent⟩ := h
  have htail := outcome_skipTail hfraction hexponent hs
  -- The digits before the point end where the tail begins.
  have hdigit : NoDigit (fraction ++ exponent ++ s) := by
    cases hfraction with
    | digits some all => simp [NoDigit, isDigitByte]
    | absent => exact (outcome_skipBehindFraction hexponent hs).1
  rw [List.append_assoc, outcome]
  cases hwhole with
  | zero =>
      unfold skipNumber
      rw [List.singleton_append]
      dsimp only
      rw [if_pos rfl]
      -- Behind a leading nought the reader looks whether another digit comes, and none does.
      split
      case h_1 d rest heq =>
        have hd : isDigitByte d = false := hdigit d (by rw [heq]; rfl)
        rw [hd, if_neg (by simp)]
        exact htail
      case h_2 => exact htail
  | @digits d ds first positive others =>
      unfold skipNumber
      rw [List.cons_append]
      dsimp only
      rw [if_neg positive, if_pos first]
      have hrun := outcome_bind skipDigits (fun _ => skipTail)
        (s := ds ++ (fraction ++ exponent ++ s))
      rw [outcome_skipDigits others hdigit] at hrun
      exact hrun.trans htail

/-! ## Beginnings -/

/-- A number is passed whole at its first byte, with or without a sign. -/
theorem outcome_skipStart_number {bytes : List UInt8} (h : IsNumber bytes) (hs : Ends s) :
    outcome skipStart (bytes ++ s) = some (.plain, s) := by
  cases h with
  | @negative bytes magnitude =>
      have hsign : outcome skipStart (0x2D :: bytes ++ s) =
          (outcome skipNumber (bytes ++ s)).map fun x => (.plain, x.2) := by
        have hbind := outcome_bind skipNumber (fun _ => pure Start.plain) (s := bytes ++ s)
        refine Eq.trans ?_ (hbind.trans ?_)
        · rfl
        · cases outcome skipNumber (bytes ++ s) <;> rfl
      rw [hsign, outcome_skipNumber magnitude hs]
      rfl
  | positive magnitude =>
      have hnumber := outcome_skipNumber magnitude hs
      obtain ⟨b, rest, rfl, hdigit⟩ := magnitude.exists_cons
      have hpeek : outcome peekValue (b :: (rest ++ s)) = some (b, b :: (rest ++ s)) :=
        outcome_peekValue blanks_nil (isStart_of_digit hdigit).notBlank
      have hrange : 0x30 ≤ b.toNat ∧ b.toNat ≤ 0x39 := by
        simpa [isDigitByte, UInt8.le_iff_toNat_le] using hdigit
      unfold skipStart
      rw [outcome_bind, List.cons_append, hpeek, Option.bind_some]
      dsimp only
      -- A digit is none of the first bytes that are looked for before it.
      split <;> try omega
      rw [if_pos hdigit, outcome_bind]
      rw [List.cons_append] at hnumber
      rw [hnumber]
      rfl

/-- What is passed whole at its first byte. -/
theorem outcome_skipStart_plain {tree : Tree} {bytes : List UInt8} (h : Spells tree bytes)
    (hlist : ∀ items, tree ≠ .list items) (hobject : ∀ members, tree ≠ .object members)
    (hs : Ends s) : outcome skipStart (bytes ++ s) = some (.plain, s) := by
  cases h with
  | null => rfl
  | true => rfl
  | false => rfl
  | number form => exact outcome_skipStart_number form hs
  | text body =>
      have hbind := outcome_bind (skipText false) (fun _ => pure Start.plain)
        (s := body.written ++ 0x22 :: s)
      rw [outcome_skipText body s] at hbind
      have hquoted : body.quoted ++ s = 0x22 :: (body.written ++ 0x22 :: s) := by
        simp [Body.quoted]
      rw [hquoted]
      exact hbind
  | emptyList clear => exact absurd rfl (hlist _)
  | list some clear spelled => exact absurd rfl (hlist _)
  | emptyObject clear => exact absurd rfl (hobject _)
  | object some clear spelled => exact absurd rfl (hobject _)

/-- The byte that opens a bracket. -/
def Bracket.opening : Bracket → UInt8
  | .list => 0x5B
  | .object => 0x7B

/-- The byte that closes a bracket. -/
def Bracket.closing : Bracket → UInt8
  | .list => 0x5D
  | .object => 0x7D

theorem Bracket.ends_closing (kind : Bracket) (s : List UInt8) : Ends (kind.closing :: s) := by
  cases kind
  · exact ends_cons (by simp [Bracket.closing])
  · exact ends_cons (by simp [Bracket.closing])

/-- An opening byte leaves its bracket open, and nothing of the inside is passed yet. -/
theorem outcome_skipStart_bracket (kind : Bracket) (s : List UInt8) :
    outcome skipStart (kind.opening :: s) = some (.bracket kind, s) := by
  cases kind <;> rfl

/-- The name of a member is passed with its colon. -/
theorem outcome_skipName {before gap : List UInt8} (name : Body) (hbefore : Blanks before)
    (hgap : Blanks gap) :
    outcome skipName (before ++ (name.quoted ++ (gap ++ 0x3A :: s))) = some ((), s) := by
  have hquoted : name.quoted ++ (gap ++ 0x3A :: s) =
      0x22 :: (name.written ++ 0x22 :: (gap ++ 0x3A :: s)) := by
    simp [Body.quoted]
  unfold skipName
  rw [outcome_bind, hquoted, outcome_peek hbefore (by decide), Option.bind_some]
  dsimp only
  rw [if_pos rfl, outcome_bind, outcome_advance, Option.bind_some, outcome_bind,
    outcome_skipText, Option.bind_some, outcome_colon hgap]

/-- Before the first entry there is no comma. -/
theorem outcome_skipNext_item {kind : Bracket} (hblanks : Blanks blanks) (hb : IsStart b) :
    outcome (skipNext kind false) (blanks ++ b :: s) = some (.item, b :: s) := by
  unfold skipNext
  rw [outcome_bind, outcome_peek hblanks hb.notBlank, Option.bind_some]
  have hopen : ¬ (b = 0x5D ∧ kind = .list ∨ b = 0x7D ∧ kind = .object) := by
    rintro (⟨heq, -⟩ | ⟨heq, -⟩)
    · exact hb.notListEnd heq
    · exact hb.notObjectEnd heq
  simp [hopen]

theorem outcome_skipNext_comma (kind : Bracket) :
    outcome (skipNext kind true) (0x2C :: s) = some (.item, s) := by
  have hpeek : outcome peek (0x2C :: s) = some (some 0x2C, 0x2C :: s) := rfl
  unfold skipNext
  rw [outcome_bind, hpeek]
  rfl

/-- A bracket may close with nothing in it, and behind an entry. -/
theorem outcome_skipNext_closed (kind : Bracket) (behindItem : Bool) (hblanks : Blanks blanks) :
    outcome (skipNext kind behindItem) (blanks ++ kind.closing :: s) = some (.closed, s) := by
  unfold skipNext
  rw [outcome_bind, outcome_peek hblanks (by cases kind <;> decide), Option.bind_some]
  cases kind <;> simp [Bracket.closing]

/-! ## Entries -/

/-- What is left to pass when a value has been passed: the rest of the brackets around it. -/
def resume (turns : Nat) : List Bracket → Reader Unit
  | [] => pure ()
  | kind :: outer => skipIn.inside turns kind outer true

/-- Passes an entry of a bracket and all that follows. -/
def enter (turns : Nat) (kind : Bracket) (outer : List Bracket) : Reader Unit := do
  if kind = .object then skipName
  skipIn turns (kind :: outer)

/-- One turn passes a value, or opens a bracket and goes on inside. -/
theorem skipIn_succ (turns : Nat) (opened : List Bracket) :
    skipIn (turns + 1) opened = (do
      match ← skipStart with
      | .bracket kind => skipIn.inside turns kind opened false
      | .plain => resume turns opened) := by
  cases opened <;> rfl

/-- One turn inside a bracket finds an entry or the end. -/
theorem inside_succ (turns : Nat) (kind : Bracket) (outer : List Bracket) (behindItem : Bool) :
    skipIn.inside (turns + 1) kind outer behindItem = (do
      match ← skipNext kind behindItem with
      | .item => enter turns kind outer
      | .closed => resume turns outer) := by
  cases outer <;> rfl

theorem passesBlanks_skipIn (turns : Nat) (opened : List Bracket) :
    PassesBlanks (skipIn turns opened) := by
  cases turns with
  | zero => exact fun _ _ _ => rfl
  | succ turns =>
      rw [skipIn_succ]
      exact PassesBlanks.bind (passesBlanks_peekValue.bind _) _

theorem passesBlanks_inside (turns : Nat) (kind : Bracket) (outer : List Bracket)
    (behindItem : Bool) : PassesBlanks (skipIn.inside turns kind outer behindItem) := by
  cases turns with
  | zero => exact fun _ _ _ => rfl
  | succ turns =>
      rw [inside_succ]
      exact PassesBlanks.bind (passesBlanks_peek.bind _) _

theorem passesBlanks_enter (turns : Nat) (kind : Bracket) (outer : List Bracket) :
    PassesBlanks (enter turns kind outer) := by
  cases kind with
  | list => exact passesBlanks_skipIn turns _
  | object => exact PassesBlanks.bind (passesBlanks_peek.bind _) _

/-- Turns in which a value is passed, whatever is open around it. -/
def PassedIn (turns : Nat) (bytes : List UInt8) : Prop :=
  ∀ more opened s, Ends s →
    outcome (skipIn (more + turns) opened) (bytes ++ s) = outcome (resume more opened) s

/-- Turns in which an entry of a bracket is passed. -/
def EnteredIn (turns : Nat) (kind : Bracket) (entry : List UInt8) : Prop :=
  ∀ more outer s, Ends s →
    outcome (enter (more + turns) kind outer) (entry ++ s) =
      outcome (resume more (kind :: outer)) s

/-- A value is passed with the blanks around it. -/
theorem Slot.outcome_skipIn {x : Slot} {turns : Nat} (h : PassedIn turns x.bytes)
    (hclear : x.Clear) (more : Nat) (kind : Bracket) (outer : List Bracket) (hs : Ends s) :
    outcome (skipIn (more + turns) (kind :: outer)) (x.written ++ s) =
      outcome (resume more (kind :: outer)) s := by
  have hassoc : x.written ++ s = x.ahead ++ (x.bytes ++ (x.behind ++ s)) := by
    simp [Slot.written]
  calc outcome (skipIn (more + turns) (kind :: outer)) (x.written ++ s)
      = outcome (skipIn (more + turns) (kind :: outer)) (x.bytes ++ (x.behind ++ s)) := by
        rw [hassoc]
        exact passesBlanks_skipIn _ _ _ _ hclear.ahead
    _ = outcome (resume more (kind :: outer)) (x.behind ++ s) :=
        h _ _ _ (hs.blanks hclear.behind)
    _ = outcome (resume more (kind :: outer)) s :=
        passesBlanks_inside _ _ _ _ _ _ hclear.behind

theorem Slot.enteredIn {x : Slot} {turns : Nat} (h : PassedIn turns x.bytes) (hclear : x.Clear) :
    EnteredIn turns .list x.written :=
  fun more outer _ hs => x.outcome_skipIn h hclear more .list outer hs

theorem Member.enteredIn {m : Member} {turns : Nat} (h : PassedIn turns m.value.bytes)
    (hclear : m.Clear) : EnteredIn turns .object m.written := by
  intro more outer s hs
  have hassoc : m.written ++ s =
      m.before ++ (m.name.quoted ++ (m.gap ++ 0x3A :: (m.value.written ++ s))) := by
    simp [Member.written]
  unfold enter
  rw [if_pos rfl, outcome_bind, hassoc, outcome_skipName _ hclear.before hclear.gap]
  exact m.value.outcome_skipIn h hclear.value more .object outer hs

/-- Where the next entry or the end of the bracket comes, an entry may end. -/
theorem ends_entries (kind : Bracket) (entries : List (List UInt8)) (s : List UInt8) :
    Ends (entries.flatMap (0x2C :: ·) ++ kind.closing :: s) := by
  cases entries with
  | nil => exact kind.ends_closing s
  | cons entry entries => exact ends_cons (Or.inr (Or.inl rfl))

/-- There is a comma before each entry. -/
theorem length_le_commas (entries : List (List UInt8)) :
    entries.length ≤ (entries.flatMap (0x2C :: ·)).length := by
  induction entries with
  | nil => exact Nat.le_refl _
  | cons entry entries ih =>
      simp only [List.flatMap_cons, List.length_append, List.length_cons]
      omega

/-- The entries behind the first one, and the end of the bracket. -/
theorem outcome_inside_behind {kind : Bracket} (entries : List (List UInt8))
    (h : ∀ e ∈ entries, ∃ turns ≤ 2 * e.length, EnteredIn turns kind e) :
    ∃ turns ≤ 2 * (entries.flatMap (0x2C :: ·)).length + 1, ∀ more outer s,
      outcome (skipIn.inside (more + turns) kind outer true)
          (entries.flatMap (0x2C :: ·) ++ kind.closing :: s) =
        outcome (resume more outer) s := by
  induction entries with
  | nil =>
      refine ⟨1, by simp, fun more outer s => ?_⟩
      have hnext : outcome (skipNext kind true) (kind.closing :: s) = some (.closed, s) :=
        outcome_skipNext_closed kind true blanks_nil
      rw [inside_succ, outcome_bind, List.flatMap_nil, List.nil_append, hnext]
      rfl
  | cons entry entries ih =>
      obtain ⟨⟨one, hone, hentry⟩, hothers⟩ := List.forall_mem_cons.mp h
      obtain ⟨others, hle, hrun⟩ := ih hothers
      refine ⟨others + one + 1, ?_, fun more outer s => ?_⟩
      · simp only [List.flatMap_cons, List.length_append, List.length_cons]
        omega
      · have hassoc : (entry :: entries).flatMap (0x2C :: ·) ++ kind.closing :: s =
            0x2C :: (entry ++ (entries.flatMap (0x2C :: ·) ++ kind.closing :: s)) := by
          simp
        calc outcome (skipIn.inside (more + (others + one + 1)) kind outer true) _
            = outcome (enter (more + others + one) kind outer)
                (entry ++ (entries.flatMap (0x2C :: ·) ++ kind.closing :: s)) := by
              rw [← Nat.add_assoc, ← Nat.add_assoc, inside_succ, outcome_bind, hassoc,
                outcome_skipNext_comma]
              rfl
          _ = outcome (resume (more + others) (kind :: outer))
                (entries.flatMap (0x2C :: ·) ++ kind.closing :: s) :=
              hentry _ _ _ (ends_entries kind entries s)
          _ = outcome (resume more outer) s := hrun more outer s

/-- The first byte of an entry behind its blanks. -/
def Begins (entry : List UInt8) : Prop :=
  ∃ blanks b core, entry = blanks ++ b :: core ∧ Blanks blanks ∧ IsStart b

theorem Slot.begins {x : Slot} (hclear : x.Clear) (h : Spells x.tree x.bytes) :
    Begins x.written := by
  obtain ⟨b, core, hbytes, hopens⟩ := h.exists_cons
  refine ⟨x.ahead, b, core ++ x.behind, ?_, hclear.ahead, hopens.isStart⟩
  rw [Slot.written, hbytes, List.cons_append]

theorem Member.begins {m : Member} (hclear : m.Clear) : Begins m.written :=
  ⟨m.before, 0x22, _, rfl, hclear.before, by constructor <;> decide⟩

/-! ## Values -/

theorem passedIn_empty (kind : Bracket) (hblanks : Blanks blanks) :
    PassedIn 2 (kind.opening :: (blanks ++ [kind.closing])) := by
  intro more opened s _
  have hassoc : kind.opening :: (blanks ++ [kind.closing]) ++ s =
      kind.opening :: (blanks ++ kind.closing :: s) := by
    simp
  rw [hassoc, skipIn_succ, outcome_bind, outcome_skipStart_bracket, Option.bind_some]
  dsimp only
  rw [inside_succ, outcome_bind, outcome_skipNext_closed kind false hblanks]
  rfl

/-- A bracket takes the turns of its entries, one more for each, and one to open it. -/
theorem passedIn_bracket (kind : Bracket) (entries : List (List UInt8)) (hne : entries ≠ [])
    (hbegins : ∀ e ∈ entries, Begins e)
    (h : ∀ e ∈ entries, ∃ turns ≤ 2 * e.length, EnteredIn turns kind e) :
    ∃ turns ≤ 2 * (kind.opening :: (commaed entries ++ [kind.closing])).length,
      PassedIn turns (kind.opening :: (commaed entries ++ [kind.closing])) := by
  obtain ⟨entry, entries, rfl⟩ := List.exists_cons_of_ne_nil hne
  obtain ⟨⟨one, hone, hentry⟩, hothers⟩ := List.forall_mem_cons.mp h
  obtain ⟨others, hle, hrun⟩ := outcome_inside_behind entries hothers
  obtain ⟨blanks, b, core, hsplit, hblanks, hstart⟩ := hbegins entry List.mem_cons_self
  refine ⟨others + one + 1 + 1, ?_, fun more opened s _ => ?_⟩
  · simp only [commaed, List.length_cons, List.length_append, List.length_nil]
    omega
  · let tail := entries.flatMap (0x2C :: ·) ++ kind.closing :: s
    have hassoc : kind.opening :: (commaed (entry :: entries) ++ [kind.closing]) ++ s =
        kind.opening :: (blanks ++ b :: (core ++ tail)) := by
      simp [commaed, hsplit, tail]
    have hback : blanks ++ b :: (core ++ tail) = entry ++ tail := by
      simp [hsplit]
    -- The turns in their order: the opening byte, the first entry with its blanks, the other
    -- entries.
    calc outcome (skipIn (more + (others + one + 1 + 1)) opened) _
        = outcome (skipIn.inside (more + others + one + 1) kind opened false)
            (blanks ++ b :: (core ++ tail)) := by
          have hturns : more + (others + one + 1 + 1) = more + others + one + 1 + 1 := by omega
          rw [hturns, skipIn_succ, outcome_bind, hassoc, outcome_skipStart_bracket]
          rfl
      _ = outcome (enter (more + others + one) kind opened) (b :: (core ++ tail)) := by
          rw [inside_succ, outcome_bind, outcome_skipNext_item hblanks hstart]
          rfl
      _ = outcome (enter (more + others + one) kind opened) (entry ++ tail) := by
          rw [← hback]
          exact (passesBlanks_enter _ _ _ _ _ hblanks).symm
      _ = outcome (resume (more + others) (kind :: opened)) tail :=
          hentry _ _ _ (ends_entries kind entries s)
      _ = outcome (resume more opened) s := hrun more opened s

/-- Two turns for each byte are enough to pass a value, whatever is open around it. -/
theorem Spells.passedIn {tree : Tree} {bytes : List UInt8} (h : Spells tree bytes) :
    ∃ turns ≤ 2 * bytes.length, PassedIn turns bytes := by
  -- What opens no bracket is passed in its first turn.
  have hplain : ∀ {tree : Tree} {bytes : List UInt8}, Spells tree bytes →
      (∀ items, tree ≠ .list items) → (∀ members, tree ≠ .object members) →
      ∃ turns ≤ 2 * bytes.length, PassedIn turns bytes := by
    intro tree bytes h hlist hobject
    obtain ⟨b, rest, rfl, -⟩ := h.exists_cons
    refine ⟨1, by simp only [List.length_cons]; omega, fun more opened s hs => ?_⟩
    rw [skipIn_succ, outcome_bind, outcome_skipStart_plain h hlist hobject hs]
    rfl
  induction h with
  | null => exact hplain .null (by simp) (by simp)
  | true => exact hplain .true (by simp) (by simp)
  | false => exact hplain .false (by simp) (by simp)
  | number form => exact hplain (.number form) (by simp) (by simp)
  | text body => exact hplain (.text body) (by simp) (by simp)
  | emptyList clear =>
      refine ⟨2, ?_, passedIn_empty .list clear⟩
      simp only [List.length_cons, List.length_append]
      omega
  | emptyObject clear =>
      refine ⟨2, ?_, passedIn_empty .object clear⟩
      simp only [List.length_cons, List.length_append]
      omega
  -- A bracket is passed in the turns of its entries, which the hypotheses give.
  | @list items some clear spelled ih =>
      refine passedIn_bracket .list _ (by simpa using some) ?_ ?_
      · refine List.forall_mem_map.mpr fun x hx => ?_
        exact x.begins (clear x hx) (spelled x hx)
      · refine List.forall_mem_map.mpr fun x hx => ?_
        obtain ⟨turns, hle, hpassed⟩ := ih x hx
        refine ⟨turns, ?_, x.enteredIn hpassed (clear x hx)⟩
        simp only [Slot.written, List.length_append]
        omega
  | @object members some clear spelled ih =>
      refine passedIn_bracket .object _ (by simpa using some) ?_ ?_
      · exact List.forall_mem_map.mpr fun m hm => m.begins (clear m hm)
      · refine List.forall_mem_map.mpr fun m hm => ?_
        obtain ⟨turns, hle, hpassed⟩ := ih m hm
        refine ⟨turns, ?_, m.enteredIn hpassed (clear m hm)⟩
        simp only [Member.written, Slot.written, List.length_append, List.length_cons]
        omega

/-- A value is passed whole, with the blanks before it. -/
theorem outcome_skip {tree : Tree} {bytes : List UInt8} (h : Spells tree bytes)
    (hblanks : Blanks blanks) (hs : Ends s) :
    outcome skip (blanks ++ (bytes ++ s)) = some ((), s) := by
  obtain ⟨turns, hle, hpassed⟩ := h.passedIn
  -- There are turns for all that is left of the text, so there are enough for the value.
  have hturns : 2 * (blanks ++ (bytes ++ s)).length + 2 =
      2 * (blanks ++ (bytes ++ s)).length + 2 - turns + turns := by
    simp only [List.length_append]
    omega
  have hskip : outcome skip (blanks ++ (bytes ++ s)) =
      outcome (skipIn (2 * (blanks ++ (bytes ++ s)).length + 2) []) (blanks ++ (bytes ++ s)) := rfl
  rw [hskip, hturns, passesBlanks_skipIn _ _ _ _ hblanks, hpassed _ _ _ hs]
  rfl

end ProfileAdmin.Json
