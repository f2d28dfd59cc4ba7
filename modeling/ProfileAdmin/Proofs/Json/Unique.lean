import ProfileAdmin.Document.Value
import ProfileAdmin.Proofs.Json.Skip

/-!
# Proofs.Json.Unique — a text can be read in one way only

1. **Bodies** are told apart by their bytes, piece by piece.
2. **Borders**: where a value ends does not depend on how it is read.
3. **Entries**: what stands between the commas of a bracket is found in one way only.
4. **Trees**: a text spells one tree at most.
5. **Values**: what a tree says, and what a text says however it is read.
-/

namespace ProfileAdmin.Json

open Document (Value)

variable {b : UInt8} {blanks blanks' bytes bytes' s s' : List UInt8} {tree tree' : Tree}

/-! ## Bodies -/

/-- No piece begins with the quote that ends a body. -/
theorem Piece.exists_cons (piece : Piece) : ∃ b rest, piece.bytes = b :: rest ∧ b ≠ 0x22 := by
  cases piece with
  | plain b h =>
      refine ⟨b, [], rfl, ?_⟩
      rintro rfl
      cases h
  | short letter meant h => exact ⟨0x5C, [letter], rfl, by decide⟩
  | unit b₁ b₂ b₃ b₄ n h => exact ⟨0x5C, [0x75, b₁, b₂, b₃, b₄], rfl, by decide⟩

/-- A plain byte is no backslash, and no short escape has the letter of a unit: so the first two
bytes tell what kind of piece it is. -/
theorem Piece.eq_of_append {piece piece' : Piece}
    (h : piece.bytes ++ s = piece'.bytes ++ s') : piece = piece' ∧ s = s' := by
  have hplain : ∀ b, isPlainByte b = true → b ≠ 0x5C := by
    rintro _ hb rfl
    cases hb
  have hshort : ∀ letter meant, shortEscape? letter = some meant → letter ≠ 0x75 := by
    rintro _ meant hletter rfl
    cases hletter
  cases piece with
  | plain b hb =>
      cases piece' with
      | plain b' hb' =>
          obtain ⟨rfl, rfl⟩ := List.cons.inj h
          exact ⟨rfl, rfl⟩
      | short | unit => exact absurd (List.cons.inj h).1 (hplain b hb)
  | short letter meant hm =>
      cases piece' with
      | plain b' hb' => exact absurd (List.cons.inj h).1.symm (hplain b' hb')
      | short letter' meant' hm' =>
          obtain ⟨rfl, rfl⟩ := List.cons.inj (List.cons.inj h).2
          obtain rfl := Option.some.inj (hm.symm.trans hm')
          exact ⟨rfl, rfl⟩
      | unit =>
          have hletter := (List.cons.inj (List.cons.inj h).2).1
          exact absurd hletter (hshort letter meant hm)
  | unit b₁ b₂ b₃ b₄ n hn =>
      cases piece' with
      | plain b' hb' => exact absurd (List.cons.inj h).1.symm (hplain b' hb')
      | short letter' meant' hm' =>
          have hletter := (List.cons.inj (List.cons.inj h).2).1
          exact absurd hletter.symm (hshort letter' meant' hm')
      | unit =>
          simp only [Piece.bytes, List.cons_append, List.nil_append, List.cons.injEq,
            true_and] at h
          obtain ⟨rfl, rfl, rfl, rfl, rfl⟩ := h
          rename_i hn'
          obtain rfl := Option.some.inj (hn.symm.trans hn')
          exact ⟨rfl, rfl⟩

/-- A body ends at the first quote that belongs to none of its pieces. -/
theorem Body.eq_of_append {body body' : Body}
    (h : body.written ++ 0x22 :: s = body'.written ++ 0x22 :: s') : body = body' ∧ s = s' := by
  -- A body that is used up stands before the quote, and no piece does.
  have hquote : ∀ (piece : Piece) (body : Body) (t t' : List UInt8),
      0x22 :: t ≠ Body.written (piece :: body) ++ t' := by
    intro piece body t t' heq
    obtain ⟨b, rest, hbytes, hb⟩ := piece.exists_cons
    rw [Body.written_cons, hbytes] at heq
    exact hb (List.cons.inj heq).1.symm
  induction body generalizing body' with
  | nil =>
      cases body' with
      | nil => exact ⟨rfl, (List.cons.inj h).2⟩
      | cons piece' body' => exact absurd h (hquote piece' body' _ _)
  | cons piece body ih =>
      cases body' with
      | nil => exact absurd h.symm (hquote piece body _ _)
      | cons piece' body' =>
          rw [Body.written_cons, Body.written_cons, List.append_assoc, List.append_assoc] at h
          -- The first pieces are the same, and so both sides go on at the same byte.
          obtain ⟨rfl, hrest⟩ := Piece.eq_of_append h
          obtain ⟨rfl, rfl⟩ := ih hrest
          exact ⟨rfl, rfl⟩

theorem Body.quoted_append (body : Body) (s : List UInt8) :
    body.quoted ++ s = 0x22 :: (body.written ++ 0x22 :: s) := by
  simp [Body.quoted]

/-- A body in quotes shows what is in it and where it ends. -/
theorem Body.eq_of_quoted {body body' : Body} (h : body.quoted ++ s = body'.quoted ++ s') :
    body = body' ∧ s = s' := by
  rw [Body.quoted_append, Body.quoted_append] at h
  exact Body.eq_of_append (List.cons.inj h).2

/-! ## Borders -/

/-- Where a token comes next, and no blank. -/
def Solid (s : List UInt8) : Prop :=
  s.dropWhile isBlankByte = s

theorem solid_cons (hb : isBlankByte b = false) : Solid (b :: s) :=
  List.dropWhile_cons_of_neg (by simp [hb])

/-- Blanks end where a token begins. -/
theorem eq_of_blanks (hblanks : Blanks blanks) (hblanks' : Blanks blanks') (hs : Solid s)
    (hs' : Solid s') (h : blanks ++ s = blanks' ++ s') : s = s' := by
  calc s = (blanks ++ s).dropWhile isBlankByte := by rw [dropWhile_blanks hblanks, hs]
    _ = (blanks' ++ s').dropWhile isBlankByte := by rw [h]
    _ = s' := by rw [dropWhile_blanks hblanks', hs']

/-- A spelling has no blanks of its own in front. -/
theorem Spells.solid (h : Spells tree bytes) (s : List UInt8) : Solid (bytes ++ s) := by
  obtain ⟨b, rest, rfl, hopens⟩ := h.exists_cons
  exact solid_cons hopens.isStart.notBlank

/-- Whoever passes over a value stops at the same place, whatever tree it was taken for. -/
theorem Spells.eq_of_append (h : Spells tree bytes) (h' : Spells tree' bytes') (hs : Ends s)
    (hs' : Ends s') (heq : bytes ++ s = bytes' ++ s') : bytes = bytes' ∧ s = s' := by
  have hskip := outcome_skip h blanks_nil hs
  have hskip' := outcome_skip h' blanks_nil hs'
  rw [heq, hskip'] at hskip
  obtain rfl : s' = s := (Prod.mk.inj (Option.some.inj hskip)).2
  exact ⟨List.append_cancel_right heq, rfl⟩

/-- What may stand behind an entry of a bracket: a comma, or the end of the bracket. -/
structure Border (s : List UInt8) : Prop where
  ends : Ends s
  solid : Solid s

/-- Before borders, a slot has the bytes of its value and ends at one place only. -/
theorem Slot.eq_of_append {x x' : Slot} (hclear : x.Clear) (hclear' : x'.Clear)
    (h : Spells x.tree x.bytes) (h' : Spells x'.tree x'.bytes) (hs : Border s) (hs' : Border s')
    (heq : x.written ++ s = x'.written ++ s') : x.bytes = x'.bytes ∧ s = s' := by
  have hassoc : ∀ (y : Slot) (t : List UInt8),
      y.written ++ t = y.ahead ++ (y.bytes ++ (y.behind ++ t)) := by
    intro y t
    simp [Slot.written]
  rw [hassoc, hassoc] at heq
  -- Blanks in front, then the value, then blanks behind: each ends where the next begins.
  have hvalue := eq_of_blanks hclear.ahead hclear'.ahead (h.solid _) (h'.solid _) heq
  obtain ⟨hbytes, hbehind⟩ := h.eq_of_append h' (hs.ends.blanks hclear.behind)
    (hs'.ends.blanks hclear'.behind) hvalue
  exact ⟨hbytes, eq_of_blanks hclear.behind hclear'.behind hs.solid hs'.solid hbehind⟩

/-- Before borders, a member shows its name and the bytes of its value. -/
theorem Member.eq_of_append {m m' : Member} (hclear : m.Clear) (hclear' : m'.Clear)
    (h : Spells m.value.tree m.value.bytes) (h' : Spells m'.value.tree m'.value.bytes)
    (hs : Border s) (hs' : Border s') (heq : m.written ++ s = m'.written ++ s') :
    m.name = m'.name ∧ m.value.bytes = m'.value.bytes ∧ s = s' := by
  have hassoc : ∀ (n : Member) (t : List UInt8),
      n.written ++ t =
        n.before ++ (n.name.quoted ++ (n.gap ++ 0x3A :: (n.value.written ++ t))) := by
    intro n t
    simp [Member.written]
  have hsolid : ∀ (body : Body) (t : List UInt8), Solid (body.quoted ++ t) :=
    fun body t => solid_cons (by decide)
  rw [hassoc, hassoc] at heq
  -- From left to right: the name in quotes, the colon, the value.
  have hquoted := eq_of_blanks hclear.before hclear'.before (hsolid _ _) (hsolid _ _) heq
  obtain ⟨hname, hgap⟩ := Body.eq_of_quoted hquoted
  have hcolon := eq_of_blanks hclear.gap hclear'.gap (solid_cons (by decide))
    (solid_cons (by decide)) hgap
  have hvalue := Slot.eq_of_append hclear.value hclear'.value h h' hs hs' (List.cons.inj hcolon).2
  exact ⟨hname, hvalue⟩

/-! ## Entries -/

/-- What stands inside a bracket: blanks, or entries with commas between them. -/
inductive Fills : List (List UInt8) → List UInt8 → Prop where
  | blanks {blanks : List UInt8} (clear : Blanks blanks) : Fills [] blanks
  | entries (entry : List UInt8) (others : List (List UInt8)) :
      Fills (entry :: others) (commaed (entry :: others))

section

variable {ε δ : Type} {written : ε → List UInt8} {value : ε → δ} {kind : Bracket}

/-- Two entries before borders are the same, if their bytes are. -/
def Told (written : ε → List UInt8) (value : ε → δ) (e e' : ε) : Prop :=
  ∀ s s', Border s → Border s' → written e ++ s = written e' ++ s' → value e = value e' ∧ s = s'

theorem border_closing (kind : Bracket) : Border (kind.closing :: s) :=
  ⟨kind.ends_closing s, solid_cons (by cases kind <;> decide)⟩

/-- Behind an entry there is the comma of another one or the end of the bracket. -/
theorem border_entries (kind : Bracket) (others : List (List UInt8)) :
    Border (others.flatMap (0x2C :: ·) ++ kind.closing :: s) := by
  refine ⟨ends_entries kind others s, ?_⟩
  cases others with
  | nil => exact solid_cons (by cases kind <;> decide)
  | cons entry others => exact solid_cons (by decide)

/-- Behind the first entry, a comma announces another one. -/
theorem eq_of_others {es es' : List ε} (h : ∀ e ∈ es, ∀ e' ∈ es', Told written value e e')
    (heq : (es.map written).flatMap (0x2C :: ·) ++ [kind.closing] =
      (es'.map written).flatMap (0x2C :: ·) ++ [kind.closing]) :
    es.map value = es'.map value := by
  have hcomma : ∀ t, kind.closing :: [] ≠ (0x2C : UInt8) :: t := by
    intro t
    cases kind <;> simp [Bracket.closing]
  -- Two lists of entries in step: both end with the bracket, or both go on with a comma.
  induction es generalizing es' with
  | nil =>
      cases es' with
      | nil => rfl
      | cons e' es' => exact absurd heq (hcomma _)
  | cons e es ih =>
      cases es' with
      | nil => exact absurd heq.symm (hcomma _)
      | cons e' es' =>
          simp only [List.map_cons, List.flatMap_cons, List.cons_append, List.append_assoc,
            List.cons.injEq, true_and] at heq
          obtain ⟨hvalue, hrest⟩ := h e List.mem_cons_self e' List.mem_cons_self _ _
            (border_entries kind _) (border_entries kind _) heq
          have hothers := ih (fun x hx x' hx' =>
            h x (List.mem_cons_of_mem _ hx) x' (List.mem_cons_of_mem _ hx')) hrest
          rw [List.map_cons, List.map_cons, hvalue, hothers]

/-- No entry stands where there are only blanks before the end of the bracket. -/
theorem Begins.ne_blanks {entry : List UInt8} (h : Begins entry) (kind : Bracket)
    (hblanks : Blanks blanks) (t : List UInt8) : blanks ++ [kind.closing] ≠ entry ++ t := by
  obtain ⟨before, c, core, rfl, hbefore, hstart⟩ := h
  intro heq
  rw [List.append_assoc] at heq
  -- What is behind the blanks would be the end of the bracket and a first byte at once.
  have hsame := eq_of_blanks hblanks hbefore (border_closing kind).solid
    (solid_cons hstart.notBlank) heq
  have hc : kind.closing = c := (List.cons.inj hsame).1
  cases kind with
  | list => exact hstart.notListEnd hc.symm
  | object => exact hstart.notObjectEnd hc.symm

/-- The inside of a bracket is cut into entries in one way only. -/
theorem eq_of_fills {es es' : List ε} {inner : List UInt8} (kind : Bracket)
    (hfills : Fills (es.map written) inner) (hfills' : Fills (es'.map written) inner)
    (hbegins : ∀ e ∈ es, Begins (written e)) (hbegins' : ∀ e ∈ es', Begins (written e))
    (h : ∀ e ∈ es, ∀ e' ∈ es', Told written value e e') : es.map value = es'.map value := by
  -- With nothing but blanks inside, there is no entry on the other side either.
  have hempty : ∀ {e : ε} {others : List ε}, Fills [] inner →
      Fills ((e :: others).map written) inner → ¬ Begins (written e) := by
    intro e others hnone hsome hbegin
    cases hnone with
    | blanks clear =>
        cases hsome with
        | entries => exact hbegin.ne_blanks kind clear _ (List.append_assoc _ _ _)
  cases es with
  | nil =>
      cases es' with
      | nil => rfl
      | cons e' es' => exact absurd (hbegins' e' List.mem_cons_self) (hempty hfills hfills')
  | cons e es =>
      cases es' with
      | nil => exact absurd (hbegins e List.mem_cons_self) (hempty hfills' hfills)
      | cons e' es' =>
          have hinner : ∀ {x : ε} {others : List ε}, Fills ((x :: others).map written) inner →
              inner ++ [kind.closing] =
                written x ++ ((others.map written).flatMap (0x2C :: ·) ++ [kind.closing]) := by
            intro x others hsome
            cases hsome with
            | entries => exact List.append_assoc _ _ _
          have heq := (hinner hfills).symm.trans (hinner hfills')
          obtain ⟨hvalue, hothers⟩ := h e List.mem_cons_self e' List.mem_cons_self _ _
            (border_entries kind _) (border_entries kind _) heq
          have hrest := eq_of_others (fun x hx x' hx' =>
            h x (List.mem_cons_of_mem _ hx) x' (List.mem_cons_of_mem _ hx')) hothers
          rw [List.map_cons, List.map_cons, hvalue, hrest]

end

/-! ## Trees -/

/-- A list by what stands inside its brackets, empty or not. -/
theorem Spells.list_fills {trees : List Tree} (h : Spells (.list trees) bytes) :
    ∃ (items : List Slot) (inner : List UInt8), trees = items.map Slot.tree ∧
      bytes = 0x5B :: (inner ++ [0x5D]) ∧ Fills (items.map Slot.written) inner ∧
      ∀ x ∈ items, x.Clear ∧ Spells x.tree x.bytes := by
  cases h with
  | emptyList clear => exact ⟨[], _, rfl, rfl, .blanks clear, by simp⟩
  | @list items some clear spelled =>
      obtain ⟨x, others, rfl⟩ := List.exists_cons_of_ne_nil some
      exact ⟨x :: others, _, rfl, rfl, .entries _ _, fun y hy => ⟨clear y hy, spelled y hy⟩⟩

/-- An object by what stands inside its braces, empty or not. -/
theorem Spells.object_fills {pairs : List (Body × Tree)} (h : Spells (.object pairs) bytes) :
    ∃ (members : List Member) (inner : List UInt8), pairs = members.map Member.pair ∧
      bytes = 0x7B :: (inner ++ [0x7D]) ∧ Fills (members.map Member.written) inner ∧
      ∀ m ∈ members, m.Clear ∧ Spells m.value.tree m.value.bytes := by
  cases h with
  | emptyObject clear => exact ⟨[], _, rfl, rfl, .blanks clear, by simp⟩
  | @object members some clear spelled =>
      obtain ⟨m, others, rfl⟩ := List.exists_cons_of_ne_nil some
      exact ⟨m :: others, _, rfl, rfl, .entries _ _, fun n hn => ⟨clear n hn, spelled n hn⟩⟩

theorem Spells.text_bytes {body : Body} (h : Spells (.text body) bytes) :
    bytes = body.quoted := by
  cases h with
  | text => rfl

/-- The first byte tells the kind of a tree. -/
theorem Spells.kind_eq (h : Spells tree bytes) (h' : Spells tree' bytes) :
    tree.kind = tree'.kind := by
  obtain ⟨b, rest, rfl, hopens⟩ := h.exists_cons
  obtain ⟨b', rest', heq, hopens'⟩ := h'.exists_cons
  obtain rfl : b = b' := (List.cons.inj heq).1
  exact hopens.kind_eq.trans hopens'.kind_eq.symm

/-- However a tree is spelled, no other is spelled so. -/
def Only (tree : Tree) (bytes : List UInt8) : Prop :=
  ∀ tree', Spells tree' bytes → tree = tree'

/-- A list is known by its items. -/
theorem only_list {items : List Slot} {inner : List UInt8}
    (hfills : Fills (items.map Slot.written) inner)
    (h : ∀ x ∈ items, x.Clear ∧ Spells x.tree x.bytes ∧ Only x.tree x.bytes) :
    Only (.list (items.map Slot.tree)) (0x5B :: (inner ++ [0x5D])) := by
  intro tree' h'
  obtain ⟨b, rest, heq, hopens⟩ := h'.exists_cons
  obtain rfl : 0x5B = b := (List.cons.inj heq).1
  -- What begins with a bracket is a list too.
  cases tree' with
  | list trees' =>
      obtain ⟨items', inner', rfl, hbytes, hfills', hitems'⟩ := h'.list_fills
      obtain rfl : inner = inner' := List.append_cancel_right (List.cons.inj hbytes).2
      -- The items are alike in their bytes, and these spell one tree only.
      have htold : ∀ x ∈ items, ∀ x' ∈ items', Told Slot.written Slot.tree x x' := by
        intro x hx x' hx' s s' hs hs' hsame
        obtain ⟨hclear, hspells, honly⟩ := h x hx
        obtain ⟨hclear', hspells'⟩ := hitems' x' hx'
        obtain ⟨hcore, hrest⟩ := Slot.eq_of_append hclear hclear' hspells hspells' hs hs' hsame
        exact ⟨honly _ (hcore ▸ hspells'), hrest⟩
      rw [eq_of_fills .list hfills hfills' (fun x hx => x.begins (h x hx).1 (h x hx).2.1)
        (fun x hx => x.begins (hitems' x hx).1 (hitems' x hx).2) htold]
  | null | flag v | number | text body | object ms => cases hopens.kind_eq

/-- An object is known by its members. -/
theorem only_object {members : List Member} {inner : List UInt8}
    (hfills : Fills (members.map Member.written) inner)
    (h : ∀ m ∈ members, m.Clear ∧ Spells m.value.tree m.value.bytes ∧
      Only m.value.tree m.value.bytes) :
    Only (.object (members.map Member.pair)) (0x7B :: (inner ++ [0x7D])) := by
  intro tree' h'
  obtain ⟨b, rest, heq, hopens⟩ := h'.exists_cons
  obtain rfl : 0x7B = b := (List.cons.inj heq).1
  cases tree' with
  | object pairs' =>
      obtain ⟨members', inner', rfl, hbytes, hfills', hmembers'⟩ := h'.object_fills
      obtain rfl : inner = inner' := List.append_cancel_right (List.cons.inj hbytes).2
      -- Names are known by their bytes, and values by the bytes that spell them.
      have htold : ∀ m ∈ members, ∀ m' ∈ members', Told Member.written Member.pair m m' := by
        intro m hm m' hm' s s' hs hs' hsame
        obtain ⟨hclear, hspells, honly⟩ := h m hm
        obtain ⟨hclear', hspells'⟩ := hmembers' m' hm'
        obtain ⟨hname, hcore, hrest⟩ :=
          Member.eq_of_append hclear hclear' hspells hspells' hs hs' hsame
        have hvalue := honly _ (hcore ▸ hspells')
        exact ⟨by rw [Member.pair, Member.pair, hname, hvalue], hrest⟩
      rw [eq_of_fills .object hfills hfills' (fun m hm => m.begins (h m hm).1)
        (fun m hm => m.begins (hmembers' m hm).1) htold]
  | null | flag v | number | text body | list items => cases hopens.kind_eq

/-- A byte string spells one tree at most. The induction is on one spelling; what is in a
bracket is found at the same places in the other. -/
theorem Spells.only (h : Spells tree bytes) : Only tree bytes := by
  induction h with
  | null =>
      intro tree' h'
      -- The first byte settles the kind, and these kinds have one form each.
      have hkind := Spells.null.kind_eq h'
      cases tree' <;> first | rfl | cases hkind
  | true =>
      intro tree' h'
      have hkind := Spells.true.kind_eq h'
      cases tree' <;> cases hkind
      rfl
  | false =>
      intro tree' h'
      have hkind := Spells.false.kind_eq h'
      cases tree' <;> cases hkind
      rfl
  | number form =>
      intro tree' h'
      have hkind := (Spells.number form).kind_eq h'
      cases tree' <;> cases hkind
      rfl
  | text body =>
      intro tree' h'
      have hkind := (Spells.text body).kind_eq h'
      cases tree' with
      | text body' =>
          have hquoted : body.quoted ++ [] = body'.quoted ++ [] := congrArg (· ++ []) h'.text_bytes
          rw [(Body.eq_of_quoted hquoted).1]
      | null | flag v | number | list items | object ms => cases hkind
  | emptyList clear =>
      have hfills : Fills (([] : List Slot).map Slot.written) _ := Fills.blanks clear
      exact only_list hfills fun x hx => absurd hx List.not_mem_nil
  | emptyObject clear =>
      have hfills : Fills (([] : List Member).map Member.written) _ := Fills.blanks clear
      exact only_object hfills fun m hm => absurd hm List.not_mem_nil
  | @list items some clear spelled ih =>
      obtain ⟨x, others, rfl⟩ := List.exists_cons_of_ne_nil some
      exact only_list (.entries _ _) fun y hy => ⟨clear y hy, spelled y hy, ih y hy⟩
  | @object members some clear spelled ih =>
      obtain ⟨m, others, rfl⟩ := List.exists_cons_of_ne_nil some
      exact only_object (.entries _ _) fun n hn => ⟨clear n hn, spelled n hn, ih n hn⟩

theorem IsDocument.unique (h : IsDocument tree bytes) (h' : IsDocument tree' bytes) :
    tree = tree' := by
  obtain ⟨x, rfl, rfl, hclear, hspells⟩ := h
  obtain ⟨x', rfl, heq, hclear', hspells'⟩ := h'
  have hborder : Border [] := ⟨ends_nil, rfl⟩
  have hsame : x.written ++ [] = x'.written ++ [] := congrArg (· ++ []) heq.symm
  obtain ⟨hbytes, -⟩ := Slot.eq_of_append hclear hclear' hspells hspells' hborder hborder hsame
  exact hspells.only _ (hbytes ▸ hspells')

/-! ## Values -/

mutual

/-- What a tree says, if all its texts denote one. Of a number a tree keeps the form only. -/
def Tree.value? : Tree → Option Value
  | .null => some .null
  | .flag b => some (.flag b)
  | .number => none
  | .text body => body.text?.map .text
  | .list items => (Tree.values? items).map .list
  | .object members => (Tree.members? members).map .table

/-- What the items of a list say. -/
def Tree.values? : List Tree → Option (List Value)
  | [] => some []
  | item :: items => do return (← item.value?) :: (← Tree.values? items)

/-- What the members of an object say. -/
def Tree.members? : List (Body × Tree) → Option (List (String × Value))
  | [] => some []
  | (name, value) :: members => do
    return (← name.text?, ← value.value?) :: (← Tree.members? members)

end

/-- Whoever reads a byte string as a JSON text reads the same value. -/
structure Says (bytes : List UInt8) (v : Value) : Prop where
  readable : ∃ tree, IsDocument tree bytes
  value_eq : ∀ tree, IsDocument tree bytes → tree.value? = some v

/-- One way of reading is enough, since there is no other. -/
theorem IsDocument.says {v : Value} (h : IsDocument tree bytes) (hv : tree.value? = some v) :
    Says bytes v := by
  refine ⟨⟨tree, h⟩, fun tree' h' => ?_⟩
  obtain rfl := h.unique h'
  exact hv

end ProfileAdmin.Json
