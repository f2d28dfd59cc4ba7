import ProfileAdmin.Proofs.Json.Skip

/-!
# Proofs.Json.Brackets — what readers make of a tree

1. **Readings**: a reader makes something of a tree, however the tree is spelled and whatever
   blanks stand before it.
2. **Brackets** are opened and closed around what is inside.
3. **Elements** are read one by one.
4. **Members** are taken up one by one, each by its name.
-/

namespace ProfileAdmin.Json

variable {α β σ : Type} {tree : Tree} {b : UInt8} {blanks s : List UInt8}

/-! ## Readings -/

/-- A reader makes `result` of every spelling of a tree, and leaves what stands behind. -/
def ReadsAs (r : Reader α) (tree : Tree) (result : Option α) : Prop :=
  ∀ bytes blanks s, Spells tree bytes → Blanks blanks → Ends s →
    outcome r (blanks ++ (bytes ++ s)) = result.map (·, s)

/-- A reader that is chosen by the first byte makes of a tree what the chosen one makes of the
text without the blanks. -/
theorem readsAs_peekValue {f : UInt8 → Reader α} {result : Option α}
    (h : ∀ b rest s, tree.Opens b → Spells tree (b :: rest) → Ends s →
      outcome (f b) (b :: (rest ++ s)) = result.map (·, s)) :
    ReadsAs (peekValue >>= f) tree result := by
  intro bytes blanks s hspells hblanks hs
  obtain ⟨b, rest, rfl, hopens⟩ := hspells.exists_cons
  rw [outcome_bind, List.cons_append, outcome_peekValue hblanks hopens.isStart.notBlank]
  exact h b rest s hopens hspells hs

/-- The same where the first byte may be missing. -/
theorem readsAs_peek {f : Option UInt8 → Reader α} {result : Option α}
    (h : ∀ b rest s, tree.Opens b → Spells tree (b :: rest) → Ends s →
      outcome (f (some b)) (b :: (rest ++ s)) = result.map (·, s)) :
    ReadsAs (peek >>= f) tree result := by
  intro bytes blanks s hspells hblanks hs
  obtain ⟨b, rest, rfl, hopens⟩ := hspells.exists_cons
  rw [outcome_bind, List.cons_append, outcome_peek hblanks hopens.isStart.notBlank]
  exact h b rest s hopens hspells hs

/-- What is done with a reading is done with what it gives. -/
theorem ReadsAs.map {r : Reader α} {result : Option α} (h : ReadsAs r tree result) (f : α → β) :
    ReadsAs (f <$> r) tree (result.map f) := by
  intro bytes blanks s hspells hblanks hs
  rw [outcome_map, h bytes blanks s hspells hblanks hs, Option.map_map, Option.map_map]
  rfl

/-- With the blanks behind it, a value still ends where the next token begins. -/
theorem ReadsAs.slot {r : Reader α} {x : Slot} {result : Option α} (h : ReadsAs r x.tree result)
    (hclear : x.Clear) (hspells : Spells x.tree x.bytes) (hs : Ends s) :
    outcome r (x.written ++ s) = result.map (·, x.behind ++ s) := by
  rw [Slot.written, List.append_assoc, List.append_assoc]
  exact h x.bytes x.ahead (x.behind ++ s) hspells hclear.ahead (hs.blanks hclear.behind)

/-! ## Brackets -/

/-- A bracket closes behind blanks. -/
theorem outcome_close (kind : Bracket) (hblanks : Blanks blanks) :
    outcome kind.close (blanks ++ kind.closing :: s) = some ((), s) := by
  cases kind with
  | list =>
      unfold Bracket.close
      rw [outcome_bind, outcome_peek hblanks (by decide)]
      rfl
  | object =>
      unfold Bracket.close
      rw [outcome_bind, outcome_peek hblanks (by decide)]
      rfl

/-- What stands inside a bracket, with a mismatch placed behind the bracket. -/
def placedBehind (kind : Bracket) (inside : Reader α) : Reader α := fun s =>
  match inside s with
  | .error (.loose m rest) => .error (.placed (.mismatch m) (kind.afterClose rest).length)
  | result => result

theorem bracketed_succ (kind : Bracket) (levels : Nat) (inside : Nat → Reader α) :
    bracketed kind (levels + 1) inside = (do
      advance
      let a ← placedBehind kind (inside levels)
      kind.close
      pure a) :=
  rfl

/-- What is blamed when the inside stops makes no difference to what is read. -/
@[simp] theorem outcome_placedBehind (kind : Bracket) (inside : Reader α) :
    outcome (placedBehind kind inside) s = outcome inside s := by
  unfold placedBehind outcome
  dsimp only
  cases inside s with
  | ok x => rfl
  | error stop =>
      cases stop with
      | placed fault position => rfl
      | loose m rest => rfl

/-- If the inside is read up to the closing byte, then the bracket is read with this byte. -/
theorem outcome_bracketed (kind : Bracket) {levels : Nat} {inside : Nat → Reader α}
    {result : Option α} {inner : List UInt8}
    (h : outcome (inside levels) (inner ++ kind.closing :: s) =
      result.map (·, kind.closing :: s)) :
    outcome (bracketed kind (levels + 1) inside) (kind.opening :: (inner ++ kind.closing :: s)) =
      result.map (·, s) := by
  rw [bracketed_succ, outcome_bind, outcome_advance, Option.bind_some, outcome_bind,
    outcome_placedBehind, h]
  cases result with
  | none => rfl
  | some a =>
      have hclose : outcome kind.close (kind.closing :: s) = some ((), s) :=
        outcome_close kind blanks_nil
      rw [Option.map_some, Option.bind_some, outcome_bind, hclose]
      rfl

/-! ## Elements -/

/-- Before the first element there are only blanks. -/
theorem outcome_anotherElement_first (hblanks : Blanks blanks) (hb : IsStart b) :
    outcome (anotherElement true) (blanks ++ b :: s) = some (true, b :: s) := by
  unfold anotherElement
  rw [outcome_bind, outcome_peek hblanks hb.notBlank, Option.bind_some]
  dsimp only
  rw [if_neg hb.notListEnd, if_pos rfl]
  rfl

/-- Before every other element there is a comma. -/
theorem outcome_anotherElement_behind {before : List UInt8} (hbefore : Blanks before)
    (hblanks : Blanks blanks) (hb : IsStart b) :
    outcome (anotherElement false) (before ++ 0x2C :: (blanks ++ b :: s)) =
      some (true, b :: s) := by
  unfold anotherElement
  rw [outcome_bind, outcome_peek hbefore (by decide), Option.bind_some]
  dsimp only
  rw [if_neg (by decide), if_neg (by decide), if_pos rfl, outcome_bind, outcome_advance,
    Option.bind_some, outcome_bind, outcome_peek hblanks hb.notBlank, Option.bind_some]
  dsimp only
  rw [if_neg hb.notListEnd]
  rfl

/-- The closing byte ends the elements. -/
theorem outcome_anotherElement_end (isFirst : Bool) (hblanks : Blanks blanks) :
    outcome (anotherElement isFirst) (blanks ++ 0x5D :: s) = some (false, 0x5D :: s) := by
  unfold anotherElement
  rw [outcome_bind, outcome_peek hblanks (by decide), Option.bind_some]
  rfl

theorem elementsIn_succ (one : Reader α) (turns : Nat) (isFirst : Bool) :
    elementsIn one (turns + 1) isFirst = (do
      if ← anotherElement isFirst then
        let a ← one
        let others ← elementsIn one turns false
        pure (a :: others)
      else pure []) := rfl

/-- One element, and those behind it. -/
theorem outcome_elementsIn_item {one : Reader α} {x : Slot} {result : Option α} {isFirst : Bool}
    {turns : Nat} {before tail : List UInt8} (h : ReadsAs one x.tree result) (hclear : x.Clear)
    (hspells : Spells x.tree x.bytes) (htail : Ends tail)
    (hmore : outcome (anotherElement isFirst) before = some (true, x.bytes ++ (x.behind ++ tail))) :
    outcome (elementsIn one (turns + 1) isFirst) before =
      result.bind fun a => (outcome (elementsIn one turns false) (x.behind ++ tail)).map
        fun others => (a :: others.1, others.2) := by
  have hone : outcome one (x.bytes ++ (x.behind ++ tail)) = result.map (·, x.behind ++ tail) :=
    h x.bytes [] _ hspells blanks_nil (htail.blanks hclear.behind)
  rw [elementsIn_succ, outcome_bind, hmore, Option.bind_some, if_pos rfl, outcome_bind, hone]
  cases result with
  | none => rfl
  | some a =>
      rw [Option.map_some, Option.bind_some, outcome_bind]
      cases outcome (elementsIn one turns false) (x.behind ++ tail) <;> rfl

variable {one : Reader α} {sense : Tree → Option α}

/-- The elements behind the first one, up to the closing bracket. -/
theorem outcome_elementsIn_behind (items : List Slot) (hclear : ∀ x ∈ items, x.Clear)
    (hspelled : ∀ x ∈ items, Spells x.tree x.bytes)
    (h : ∀ x ∈ items, ReadsAs one x.tree (sense x.tree)) {turns : Nat}
    (hturns : items.length < turns) {before : List UInt8} (hbefore : Blanks before) :
    outcome (elementsIn one turns false)
        (before ++ ((items.map Slot.written).flatMap (0x2C :: ·) ++ 0x5D :: s)) =
      ((items.map Slot.tree).mapM sense).map (·, 0x5D :: s) := by
  -- The blanks behind an element are those before the next comma.
  induction items generalizing turns before with
  | nil =>
      obtain ⟨turns, rfl⟩ := Nat.exists_eq_add_one_of_ne_zero (Nat.ne_of_gt hturns)
      have hend : outcome (anotherElement false) (before ++ 0x5D :: s) = some (false, 0x5D :: s) :=
        outcome_anotherElement_end false hbefore
      rw [List.map_nil, List.flatMap_nil, List.nil_append, elementsIn_succ, outcome_bind, hend]
      rfl
  | cons x items ih =>
      obtain ⟨turns, rfl⟩ := Nat.exists_eq_add_one_of_ne_zero (Nat.ne_zero_of_lt hturns)
      obtain ⟨hx, hothers⟩ := List.forall_mem_cons.mp hclear
      obtain ⟨hxspelled, hspelledOthers⟩ := List.forall_mem_cons.mp hspelled
      obtain ⟨hxreads, hreads⟩ := List.forall_mem_cons.mp h
      -- The comma and the blanks before an element are passed when the reader asks for another one.
      have hmore : outcome (anotherElement false)
          (before ++ (((x :: items).map Slot.written).flatMap (0x2C :: ·) ++ 0x5D :: s)) =
            some (true, x.bytes ++
              (x.behind ++ ((items.map Slot.written).flatMap (0x2C :: ·) ++ 0x5D :: s))) := by
        obtain ⟨b, rest, hbytes, hopens⟩ := hxspelled.exists_cons
        simpa [Slot.written, hbytes] using
          outcome_anotherElement_behind hbefore hx.ahead hopens.isStart
      have htail : Ends ((items.map Slot.written).flatMap (0x2C :: ·) ++ 0x5D :: s) :=
        ends_entries .list _ s
      rw [outcome_elementsIn_item hxreads hx hxspelled htail hmore,
        ih hothers hspelledOthers hreads (Nat.lt_of_succ_lt_succ hturns) hx.behind,
        List.map_cons, List.mapM_cons]
      -- An element that has no sense stops the reader, and the list has none then.
      cases sense x.tree with
      | none => rfl
      | some a => cases (items.map Slot.tree).mapM sense <;> rfl

theorem outcome_elements_eq (one : Reader α) (isFirst : Bool) (s : List UInt8) :
    outcome (elements one isFirst) s = outcome (elementsIn one (s.length + 1) isFirst) s := rfl

/-- All elements of a list, up to the closing bracket. -/
theorem outcome_elements (x : Slot) (items : List Slot) (hclear : ∀ y ∈ x :: items, y.Clear)
    (hspelled : ∀ y ∈ x :: items, Spells y.tree y.bytes)
    (h : ∀ y ∈ x :: items, ReadsAs one y.tree (sense y.tree)) :
    outcome (elements one true) (commaed ((x :: items).map Slot.written) ++ 0x5D :: s) =
      (((x :: items).map Slot.tree).mapM sense).map (·, 0x5D :: s) := by
  obtain ⟨hx, hothers⟩ := List.forall_mem_cons.mp hclear
  obtain ⟨hxspelled, hspelledOthers⟩ := List.forall_mem_cons.mp hspelled
  obtain ⟨hxreads, hreads⟩ := List.forall_mem_cons.mp h
  have hmore : outcome (anotherElement true)
      (commaed ((x :: items).map Slot.written) ++ 0x5D :: s) =
        some (true, x.bytes ++
          (x.behind ++ ((items.map Slot.written).flatMap (0x2C :: ·) ++ 0x5D :: s))) := by
    obtain ⟨b, rest, hbytes, hopens⟩ := hxspelled.exists_cons
    simpa [commaed, Slot.written, hbytes] using
      outcome_anotherElement_first hx.ahead hopens.isStart
  -- Every element but the first has its comma, and so there are turns enough.
  have hturns : items.length <
      (commaed ((x :: items).map Slot.written) ++ 0x5D :: s).length := by
    have hcommas := length_le_commas (items.map Slot.written)
    simp only [List.map_cons, commaed, List.length_append, List.length_cons, List.length_map]
      at hcommas ⊢
    omega
  have htail : Ends ((items.map Slot.written).flatMap (0x2C :: ·) ++ 0x5D :: s) :=
    ends_entries .list _ s
  rw [outcome_elements_eq, outcome_elementsIn_item hxreads hx hxspelled htail hmore,
    outcome_elementsIn_behind items hothers hspelledOthers hreads hturns hx.behind,
    List.map_cons, List.mapM_cons]
  cases sense x.tree with
  | none => rfl
  | some a => cases (items.map Slot.tree).mapM sense <;> rfl

/-- A list is read element by element. -/
theorem outcome_bracketed_elements (inside : Nat → Reader α) {levels : Nat} {items : List Tree}
    (h : ∀ tree ∈ items, ReadsAs (inside levels) tree (sense tree)) {rest : List UInt8}
    (hspells : Spells (.list items) (0x5B :: rest)) :
    outcome (bracketed .list (levels + 1) fun inner => elements (inside inner) true)
        (0x5B :: (rest ++ s)) = (items.mapM sense).map (·, s) := by
  -- An empty list has blanks inside; any other one has a first element.
  cases hspells with
  | @emptyList blanks clear =>
      have hempty : outcome (elements (inside levels) true) (blanks ++ 0x5D :: s) =
          ([].mapM sense).map (·, 0x5D :: s) := by
        rw [outcome_elements_eq, elementsIn_succ, outcome_bind,
          outcome_anotherElement_end true clear]
        rfl
      rw [List.append_assoc]
      exact outcome_bracketed .list hempty
  | @list slots some clear spelled =>
      obtain ⟨x, slots, rfl⟩ := List.exists_cons_of_ne_nil some
      rw [List.append_assoc]
      refine outcome_bracketed .list ?_
      exact outcome_elements x slots clear spelled fun y hy => h _ (List.mem_map_of_mem hy)

/-! ## Members -/

/-- What a reader makes of the value of a member, behind its name. -/
def BehindName (r : Reader σ) (tree : Tree) (result : Option σ) : Prop :=
  ∀ bytes gap ahead s, Spells tree bytes → Blanks gap → Blanks ahead → Ends s →
    outcome r (gap ++ 0x3A :: (ahead ++ (bytes ++ s))) = result.map (·, s)

/-- A reader of values reads a member behind its name once the colon is taken. -/
theorem ReadsAs.behindName {r : Reader α} {result : Option α} (h : ReadsAs r tree result) :
    BehindName (do colon; r) tree result := by
  intro bytes gap ahead s hspells hgap hahead hs
  rw [outcome_bind, outcome_colon hgap]
  exact h bytes ahead s hspells hahead hs

/-- An unknown member is passed over. -/
theorem behindName_skip (tree : Tree) (acc : σ) :
    BehindName (do colon; skip; pure acc) tree (some acc) := by
  intro bytes gap ahead s hspells hgap hahead hs
  rw [outcome_bind, outcome_colon hgap, Option.bind_some, outcome_bind,
    outcome_skip hspells hahead hs]
  rfl

/-- Takes up a member under its name, if this denotes a text. -/
def takeNamed (take : String → Tree → σ → Option σ) (acc : σ) (m : Body × Tree) : Option σ :=
  m.1.text?.bind fun name => take name m.2 acc

/-- What stands behind the opening quote of a member, up to what is behind its value. -/
def Member.behindQuote (m : Member) (tail : List UInt8) : List UInt8 :=
  m.name.written ++
    0x22 :: (m.gap ++ 0x3A :: (m.value.ahead ++ (m.value.bytes ++ (m.value.behind ++ tail))))

/-- A member is cut at the opening quote of its name. -/
theorem Member.written_append (m : Member) (tail : List UInt8) :
    m.written ++ tail = m.before ++ 0x22 :: m.behindQuote tail := by
  simp [Member.written, Member.behindQuote, Slot.written, Body.quoted]

/-- The opening quote of the first member. -/
theorem outcome_anotherMember_first {m : Member} (hclear : m.Clear) (tail : List UInt8) :
    outcome (anotherMember true) (m.written ++ tail) = some (true, m.behindQuote tail) := by
  unfold anotherMember
  rw [m.written_append, outcome_bind, outcome_peek hclear.before (by decide)]
  rfl

/-- The opening quote of another member, behind the comma. -/
theorem outcome_anotherMember_behind {m : Member} {before : List UInt8} (hbefore : Blanks before)
    (hclear : m.Clear) (tail : List UInt8) :
    outcome (anotherMember false) (before ++ 0x2C :: (m.written ++ tail)) =
      some (true, m.behindQuote tail) := by
  unfold anotherMember
  rw [outcome_bind, outcome_peek hbefore (by decide), Option.bind_some]
  dsimp only
  rw [if_neg (by decide), if_neg (by decide), if_pos rfl, outcome_bind, outcome_advance,
    Option.bind_some, outcome_bind, m.written_append, outcome_peek hclear.before (by decide)]
  rfl

theorem outcome_anotherMember_end (isFirst : Bool) (hblanks : Blanks blanks) :
    outcome (anotherMember isFirst) (blanks ++ 0x7D :: s) = some (false, 0x7D :: s) := by
  unfold anotherMember
  rw [outcome_bind, outcome_peek hblanks (by decide), Option.bind_some]
  rfl

theorem membersIn_succ (step : String → σ → Reader σ) (turns : Nat) (isFirst : Bool) (acc : σ) :
    membersIn step (turns + 1) isFirst acc = (do
      if ← anotherMember isFirst then
        let name ← text
        let acc ← step name acc
        membersIn step turns false acc
      else pure acc) := rfl

variable {step : String → σ → Reader σ} {take : String → Tree → σ → Option σ}

/-- What a step makes of a member, under each name that this may have. -/
def Steps (step : String → σ → Reader σ) (take : String → Tree → σ → Option σ)
    (m : Body × Tree) : Prop :=
  ∀ name, m.1.text? = some name → ∀ acc, BehindName (step name acc) m.2 (take name m.2 acc)

/-- One member, and those behind it. -/
theorem outcome_membersIn_item {m : Member} (h : Steps step take m.pair) (hclear : m.Clear)
    (hspells : Spells m.value.tree m.value.bytes) {isFirst : Bool} {turns : Nat}
    {before tail : List UInt8} (htail : Ends tail)
    (hmore : outcome (anotherMember isFirst) before = some (true, m.behindQuote tail)) (acc : σ) :
    outcome (membersIn step (turns + 1) isFirst acc) before =
      (takeNamed take acc m.pair).bind fun acc =>
        outcome (membersIn step turns false acc) (m.value.behind ++ tail) := by
  rw [membersIn_succ, outcome_bind, hmore, Option.bind_some, if_pos rfl, outcome_bind,
    Member.behindQuote, outcome_text, takeNamed]
  -- At a name that denotes no text, the reader stops, and so does the fold.
  change _ = (m.name.text?.bind _).bind _
  cases hname : m.name.text? with
  | none => rfl
  | some name =>
      have hstep := h name hname acc _ _ _ _ hspells hclear.gap hclear.value.ahead
        (htail.blanks hclear.value.behind)
      rw [Option.map_some, Option.bind_some, outcome_bind, hstep]
      change _ = (take name m.value.tree acc).bind _
      change ((take name m.value.tree acc).map _).bind _ = _
      cases take name m.value.tree acc <;> rfl

/-- The members behind the first one, up to the closing brace. -/
theorem outcome_membersIn_behind (ms : List Member) (hclear : ∀ m ∈ ms, m.Clear)
    (hspelled : ∀ m ∈ ms, Spells m.value.tree m.value.bytes)
    (h : ∀ m ∈ ms, Steps step take m.pair) {turns : Nat} (hturns : ms.length < turns)
    {before : List UInt8} (hbefore : Blanks before) (acc : σ) :
    outcome (membersIn step turns false acc)
        (before ++ ((ms.map Member.written).flatMap (0x2C :: ·) ++ 0x7D :: s)) =
      ((ms.map Member.pair).foldlM (takeNamed take) acc).map (·, 0x7D :: s) := by
  induction ms generalizing turns before acc with
  | nil =>
      obtain ⟨turns, rfl⟩ := Nat.exists_eq_add_one_of_ne_zero (Nat.ne_of_gt hturns)
      have hend : outcome (anotherMember false) (before ++ 0x7D :: s) = some (false, 0x7D :: s) :=
        outcome_anotherMember_end false hbefore
      rw [List.map_nil, List.flatMap_nil, List.nil_append, membersIn_succ, outcome_bind, hend]
      rfl
  | cons m ms ih =>
      obtain ⟨turns, rfl⟩ := Nat.exists_eq_add_one_of_ne_zero (Nat.ne_zero_of_lt hturns)
      obtain ⟨hm, hothers⟩ := List.forall_mem_cons.mp hclear
      obtain ⟨hmspelled, hspelledOthers⟩ := List.forall_mem_cons.mp hspelled
      obtain ⟨hmsteps, hsteps⟩ := List.forall_mem_cons.mp h
      have htail : Ends ((ms.map Member.written).flatMap (0x2C :: ·) ++ 0x7D :: s) :=
        ends_entries .object _ s
      have hmore : outcome (anotherMember false)
          (before ++ (((m :: ms).map Member.written).flatMap (0x2C :: ·) ++ 0x7D :: s)) =
            some (true,
              m.behindQuote ((ms.map Member.written).flatMap (0x2C :: ·) ++ 0x7D :: s)) := by
        simpa using outcome_anotherMember_behind hbefore hm
          ((ms.map Member.written).flatMap (0x2C :: ·) ++ 0x7D :: s)
      rw [outcome_membersIn_item hmsteps hm hmspelled htail hmore, List.map_cons, List.foldlM_cons]
      -- The members behind it are read with what this one has left.
      cases takeNamed take acc m.pair with
      | none => rfl
      | some acc =>
          exact ih hothers hspelledOthers hsteps (Nat.lt_of_succ_lt_succ hturns) hm.value.behind acc

theorem outcome_members_eq (acc : σ) (s : List UInt8) :
    outcome (members step acc) s = outcome (membersIn step (s.length + 1) true acc) s := rfl

/-- All members of an object, up to the closing brace. -/
theorem outcome_members (m : Member) (ms : List Member) (hclear : ∀ n ∈ m :: ms, n.Clear)
    (hspelled : ∀ n ∈ m :: ms, Spells n.value.tree n.value.bytes)
    (h : ∀ n ∈ m :: ms, Steps step take n.pair) (acc : σ) :
    outcome (members step acc) (commaed ((m :: ms).map Member.written) ++ 0x7D :: s) =
      (((m :: ms).map Member.pair).foldlM (takeNamed take) acc).map (·, 0x7D :: s) := by
  obtain ⟨hm, hothers⟩ := List.forall_mem_cons.mp hclear
  obtain ⟨hmspelled, hspelledOthers⟩ := List.forall_mem_cons.mp hspelled
  obtain ⟨hmsteps, hsteps⟩ := List.forall_mem_cons.mp h
  have htail : Ends ((ms.map Member.written).flatMap (0x2C :: ·) ++ 0x7D :: s) :=
    ends_entries .object _ s
  have hmore : outcome (anotherMember true)
      (commaed ((m :: ms).map Member.written) ++ 0x7D :: s) =
        some (true, m.behindQuote ((ms.map Member.written).flatMap (0x2C :: ·) ++ 0x7D :: s)) := by
    simpa [commaed] using outcome_anotherMember_first hm
      ((ms.map Member.written).flatMap (0x2C :: ·) ++ 0x7D :: s)
  have hturns : ms.length < (commaed ((m :: ms).map Member.written) ++ 0x7D :: s).length := by
    have hcommas := length_le_commas (ms.map Member.written)
    simp only [List.map_cons, commaed, List.length_append, List.length_cons, List.length_map]
      at hcommas ⊢
    omega
  rw [outcome_members_eq, outcome_membersIn_item hmsteps hm hmspelled htail hmore,
    List.map_cons (f := Member.pair), List.foldlM_cons]
  cases takeNamed take acc m.pair with
  | none => rfl
  | some acc =>
      exact outcome_membersIn_behind ms hothers hspelledOthers hsteps hturns hm.value.behind acc

/-- An object is read member by member, in the order of the text. -/
theorem outcome_members_inner {ms : List (Body × Tree)} {rest : List UInt8}
    (hspells : Spells (.object ms) (0x7B :: rest)) :
    ∃ inner, rest = inner ++ [0x7D] ∧
      ∀ {σ : Type} {step : String → σ → Reader σ} {take : String → Tree → σ → Option σ} (acc : σ)
        (s : List UInt8), (∀ m ∈ ms, Steps step take m) →
        outcome (members step acc) (inner ++ 0x7D :: s) =
          (ms.foldlM (takeNamed take) acc).map (·, 0x7D :: s) := by
  cases hspells with
  | @emptyObject blanks clear =>
      refine ⟨blanks, rfl, fun acc s _ => ?_⟩
      rw [outcome_members_eq, membersIn_succ, outcome_bind, outcome_anotherMember_end true clear]
      rfl
  | @object members some clear spelled =>
      obtain ⟨m, members, rfl⟩ := List.exists_cons_of_ne_nil some
      refine ⟨_, rfl, fun acc s h => ?_⟩
      exact outcome_members m members clear spelled (fun n hn => h _ (List.mem_map_of_mem hn)) acc

end ProfileAdmin.Json
