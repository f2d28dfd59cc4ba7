import ProfileAdmin.CommandLine.Invocation
import ProfileAdmin.Proofs.Text.Numeral

/-!
# Proofs.CommandLine.Spelling — command lines that say what is meant

1. **Phrases**: what one word can say of a setting, and how it is spelled.
2. **Spellings** of flags and a command as the words of a command line.
3. **Words**: how a phrase is understood, before a verb and behind it.
4. **Accounts**: what has been gathered holds what the phrases have said, in any order.
5. **Operands** behind two dashes, whatever they begin with.
6. **Flags** that were said in parts, on both sides of a verb.
7. **Verbs**: the command that a name makes of what is said behind it.
8. **Command lines**: what was spelled is what is read.
-/

namespace ProfileAdmin.CommandLine

open Command (Flags)

/-! ## Phrases -/

/-- What one word says of a setting. -/
inductive Phrase where
  | setting (s : Setting) (v : String)
  | switch (w : Switch)
  | parallelism (n : Nat)
  deriving DecidableEq, Repr

namespace Phrase

/-- How a phrase is spelled. -/
def word : Phrase → String
  | .setting .config v => "--config=" ++ v
  | .setting .certificate v => "--cert=" ++ v
  | .setting .key v => "--key=" ++ v
  | .setting .endpoint v => "--hostport=" ++ v
  | .setting .requester v => "--requesterid=" ++ v
  | .setting .bundle v => "--ca-bundle=" ++ v
  | .switch .payloads => "--print-payload"
  | .switch .headers => "--print-headers"
  | .parallelism n => "--parallelism=" ++ toString n

/-- What a phrase is about. -/
def subject : Phrase → Named
  | .setting s _ => .valued (.setting s)
  | .switch w => .switch w
  | .parallelism _ => .valued .parallelism

/-- Paths are not empty, and there is a number of workers that is not zero and that the machine
can count. -/
def Sayable : Phrase → Prop
  | .setting s v => s.isPath = true → v ≠ ""
  | .switch _ => True
  | .parallelism n => 0 < n ∧ n < Gathered.parallelismBound

end Phrase

/-! ## Spellings -/

/-- What there is to say of the settings. -/
def phrases (f : Flags) : List Phrase :=
  Setting.all.filterMap (fun s => (s.get? f).map (.setting s)) ++
    (Switch.all.filter (·.isOn f)).map .switch

/-- A command is spelled as a name, a phrase more behind it or none, and operands. -/
inductive Names : Command → String → List Phrase → List String → Prop where
  | getStatus (iccid : String) : Names (.getStatus iccid) "get-status" [] [iccid]
  | recoverProfile (iccid target : String) :
      Names (.recoverProfile iccid target) "recover-profile" [] [iccid, target]
  | recoverUsual (iccid : String) :
      Names (.recoverProfile iccid "AVAILABLE") "recover-profile" [] [iccid]
  | cancelOrder (iccid target : String) {name : String}
      (known : name = "cancel-order" ∨ name = "cancel-profile") :
      Names (.cancelOrder iccid target) name [] [iccid, target]
  | cancelUsual (iccid : String) {name : String}
      (known : name = "cancel-order" ∨ name = "cancel-profile") :
      Names (.cancelOrder iccid "AVAILABLE") name [] [iccid]
  | downloadOrder (iccid : String) : Names (.downloadOrder iccid) "download-order" [] [iccid]
  | confirmOrder (iccid : String) : Names (.confirmOrder iccid) "confirm-order" [] [iccid]
  | activate (iccid : String) : Names (.activate iccid) "activate-iccid" [] [iccid]
  | bulkActivate (file : String) (n : Nat) :
      Names (.bulkActivate file n) "bulk-activate-iccids" [.parallelism n] [file]
  | bulkUsual (file : String) : Names (.bulkActivate file 8) "bulk-activate-iccids" [] [file]
  | smoketest (iccid : String) : Names (.smoketest iccid) "smoketest" [] [iccid]

/-- Flags and a command are spelled in some words. Every setting that the flags have is said
once, before the name of the command or behind it, in any order. -/
inductive Spells (f : Flags) (c : Command) : List String → Prop where
  | mk {program name : String} {outer given extra inner : List Phrase} {operands : List String}
      (names : Names c name extra operands) (said : (outer ++ given).Perm (phrases f))
      (behind : inner.Perm (given ++ extra)) :
      Spells f c (program :: outer.map Phrase.word ++
        name :: (inner.map Phrase.word ++ "--" :: operands))

/-- The strings that must not be empty are not, and the number of workers is one that can be
said. -/
structure Sound (f : Flags) (c : Command) : Prop where
  paths : ∀ s : Setting, s.isPath = true → s.get? f ≠ some ""
  file : ∀ file n, c = .bulkActivate file n → file ≠ "" ∧ 0 < n ∧ n < Gathered.parallelismBound

/-! ## Words -/

/-- A word of two dashes is a name up to the first equals sign, and behind it a value. -/
theorem ofChars_long {cs : List Char} (hcs : cs ≠ []) :
    Form.ofChars ('-' :: '-' :: cs) =
      .long (String.ofList (cs.takeWhile (· != '=')))
        (match cs.dropWhile (· != '=') with
        | [] => none
        | _ :: value => some (String.ofList value)) := by
  rcases cs with _ | ⟨c, cs⟩
  · exact absurd rfl hcs
  · show (match (c :: cs).dropWhile (· != '=') with
      | [] => Form.long _ none
      | _ :: value => Form.long _ (some (String.ofList value))) = _
    rcases (c :: cs).dropWhile (· != '=') with _ | ⟨d, value⟩
    · rfl
    · rfl

/-- A word of two dashes, a name and an equals sign says a value of the name. -/
theorem ofChars_valued {name : List Char} (hname : '=' ∉ name) (v : List Char) :
    Form.ofChars ('-' :: '-' :: (name ++ '=' :: v)) =
      .long (String.ofList name) (some (String.ofList v)) := by
  have hplain : ∀ c ∈ name, (c != '=') = true := by
    intro c hc
    exact bne_iff_ne.mpr fun heq => hname (heq ▸ hc)
  have htake : (name ++ '=' :: v).takeWhile (· != '=') = name := by
    rw [List.takeWhile_append_of_pos hplain]
    simp
  have hdrop : (name ++ '=' :: v).dropWhile (· != '=') = '=' :: v := by
    rw [List.dropWhile_append_of_pos hplain]
    rfl
  rw [ofChars_long (List.append_ne_nil_of_right_ne_nil _ (List.cons_ne_nil _ _)), htake, hdrop]

/-- How the phrase of a setting is spelled, by the name of the setting. -/
theorem toList_word_setting (s : Setting) (v : String) :
    (Phrase.setting s v).word.toList = '-' :: '-' :: (s.name.toList ++ '=' :: v.toList) := by
  cases s <;> simp [Phrase.word, Setting.name]

theorem toList_word_parallelism (n : Nat) :
    (Phrase.parallelism n).word.toList =
      '-' :: '-' :: ("parallelism".toList ++ '=' :: (toString n).toList) := by
  simp [Phrase.word]

/-- What a phrase gives to the name of its subject. -/
def Phrase.value? : Phrase → Option String
  | .setting _ v => some v
  | .switch _ => none
  | .parallelism n => some (toString n)

/-- The name of a phrase. -/
def Phrase.name : Phrase → String
  | .setting s _ => s.name
  | .switch w => w.name
  | .parallelism _ => "parallelism"

/-- The word of a phrase has the form of its name, with the value if it says one. -/
theorem ofChars_word (p : Phrase) : Form.ofChars p.word.toList = .long p.name p.value? := by
  rcases p with ⟨s, v⟩ | w | n
  · have hname : '=' ∉ s.name.toList := by
      cases s <;> decide
    rw [toList_word_setting, ofChars_valued hname, String.ofList_toList, String.ofList_toList]
    rfl
  · cases w with
    | payloads => rfl
    | headers => rfl
  · rw [toList_word_parallelism, ofChars_valued (by decide), String.ofList_toList,
      String.ofList_toList]
    rfl

/-- Where a phrase can be said: workers only behind the verb that has some. -/
def Phrase.FitsAt (l : Level) (p : Phrase) : Prop :=
  ∀ n, p = .parallelism n → l = .inner .bulkActivate

/-- The name of a phrase is known wherever the phrase can be said. -/
theorem named?_name {l : Level} {p : Phrase} (hfits : p.FitsAt l) :
    l.named? p.name = some p.subject := by
  unfold Level.named? Level.names
  rcases p with ⟨s, v⟩ | w | n
  · rw [List.append_assoc, List.lookup_append]
    cases s <;> rfl
  · rw [List.lookup_append]
    cases w with
    | payloads => rfl
    | headers => rfl
  · rw [hfits n rfl]
    rfl

/-- What a phrase does to what has been gathered. -/
def Gathered.say (g : Gathered) : Phrase → Except Refusal Gathered
  | .setting s v => g.put v (.setting s)
  | .switch w => g.turnOn w
  | .parallelism n => g.put (toString n) .parallelism

/-- A reading within a level in which nothing is pending. -/
def Reading.settled (g : Gathered) : Reading :=
  ⟨g, none, false⟩

/-- A word that names something is taken for what it names. -/
theorem step_long {l : Level} {r : Reading} {word name : String} {value : Option String}
    {n : Named} (hopen : r.isEscaped = false)
    (hform : Form.ofChars word.toList = .long name value) (hnamed : l.named? name = some n) :
    Reading.step l r word = r.name value n := by
  unfold Reading.step
  rw [hopen, if_neg Bool.false_ne_true, hform]
  dsimp only
  rw [hnamed]

/-- Where nothing is pending, a phrase is taken down at once. -/
theorem name_settled (g : Gathered) (p : Phrase) :
    (Reading.settled g).name p.value? p.subject = (g.say p).map .settled := by
  rcases p with ⟨s, v⟩ | w | n
  · show (g.put v (.setting s) >>= fun g => .ok (Reading.settled g)) = (g.put v (.setting s)).map _
    cases g.put v (.setting s) <;> rfl
  · show (g.turnOn w >>= fun g => .ok (Reading.settled g)) = (g.turnOn w).map _
    cases g.turnOn w <;> rfl
  · show (g.put (toString n) .parallelism >>= fun g => .ok (Reading.settled g)) =
      (g.put (toString n) .parallelism).map _
    cases g.put (toString n) .parallelism <;> rfl

/-- The word of a phrase does what the phrase says. -/
theorem step_word {l : Level} {p : Phrase} (hfits : p.FitsAt l) (g : Gathered) :
    Reading.step l (.settled g) p.word = (g.say p).map .settled := by
  rw [step_long rfl (ofChars_word p) (named?_name hfits), name_settled]

/-! ## Accounts -/

/-- What has been gathered is what the phrases have said, and nothing else. -/
structure Accounts (ps : List Phrase) (g : Gathered) : Prop where
  settings : ∀ s v, s.get? g.flags = some v ↔ .setting s v ∈ ps
  switches : ∀ w, w.isOn g.flags = true ↔ .switch w ∈ ps
  parallelism : ∀ n, g.parallelism = some n ↔ .parallelism n ∈ ps
  operands : g.operands = []

theorem accounts_nil : Accounts [] {} := by
  constructor
  · intro s v
    cases s <;> simp [Setting.get?]
  · intro w
    cases w <;> simp [Switch.isOn]
  · intro n
    simp
  · rfl

/-- A setting that is put is the one that is changed. -/
theorem get?_put (s s' : Setting) (v : String) (f : Flags) :
    s'.get? (s.put v f) = if s' = s then some v else s'.get? f := by
  cases s <;> cases s' <;> rfl

/-- It turns nothing on. -/
theorem isOn_put (s : Setting) (v : String) (f : Flags) (w : Switch) :
    w.isOn (s.put v f) = w.isOn f := by
  cases s <;> cases w <;> rfl

/-- A switch that is turned on leaves the settings as they are. -/
theorem get?_turnOn (w : Switch) (f : Flags) (s : Setting) : s.get? (w.turnOn f) = s.get? f := by
  cases w <;> cases s <;> rfl

/-- And the other switches. -/
theorem isOn_turnOn (w w' : Switch) (f : Flags) :
    w'.isOn (w.turnOn f) = (decide (w' = w) || w'.isOn f) := by
  cases w <;> cases w' <;> simp [Switch.isOn, Switch.turnOn]

/-- A number of workers that can be said is read back. -/
theorem parallelismOf?_toString {n : Nat} (hpos : 0 < n) (hbound : n < Gathered.parallelismBound) :
    Gathered.parallelismOf? (toString n) = some n := by
  have hnumeral := Text.numeral?_eq_some_iff.mpr (Text.numeral_toString hbound)
  unfold Gathered.parallelismOf?
  rw [hnumeral]
  exact Option.filter_eq_some_iff.mpr ⟨rfl, decide_eq_true hpos⟩

section

variable {ps : List Phrase} {g : Gathered}

/-- Of something new, nothing has been said. -/
theorem Accounts.unsaid (h : Accounts ps g) {p : Phrase} (hnew : ∀ q ∈ ps, q.subject ≠ p.subject) :
    (∀ s v, p = .setting s v → s.get? g.flags = none) ∧
      (∀ w, p = .switch w → w.isOn g.flags = false) ∧
      (∀ n, p = .parallelism n → g.parallelism = none) := by
  refine ⟨?_, ?_, ?_⟩
  · rintro s v rfl
    refine Option.eq_none_iff_forall_ne_some.mpr ?_
    intro v' hv'
    exact hnew _ ((h.settings s v').mp hv') rfl
  · rintro w rfl
    refine Bool.eq_false_iff.mpr ?_
    intro hon
    exact hnew _ ((h.switches w).mp hon) rfl
  · rintro n rfl
    refine Option.eq_none_iff_forall_ne_some.mpr ?_
    intro n' hn'
    exact hnew _ ((h.parallelism n').mp hn') rfl

/-- A phrase about something new is taken down. -/
theorem Accounts.say (h : Accounts ps g) {p : Phrase} (hsayable : p.Sayable)
    (hnew : ∀ q ∈ ps, q.subject ≠ p.subject) :
    ∃ g', g.say p = .ok g' ∧ Accounts (ps ++ [p]) g' := by
  rcases h.unsaid hnew with ⟨hsetting, hswitch, hparallelism⟩
  -- Each kind of phrase is taken down in a place of its own, and leaves the others as they are.
  rcases p with ⟨s, v⟩ | w | n
  · have hnone := hsetting s v rfl
    have hput : g.put v (.setting s) = .ok { g with flags := s.put v g.flags } := by
      have hnonempty : (s.isPath && v.isEmpty) = false := by
        rcases hpath : s.isPath with _ | _
        · rfl
        · simpa using hsayable hpath
      unfold Gathered.put
      simp only [hnone, hnonempty, Option.isSome_none, Bool.false_eq_true, if_false]
    refine ⟨_, hput, ?_, ?_, ?_, h.operands⟩
    · intro s' v'
      rw [get?_put, List.mem_append, List.mem_singleton]
      by_cases hs : s' = s
      · subst hs
        rw [if_pos rfl, ← h.settings s' v', hnone]
        simp [eq_comm]
      · rw [if_neg hs, h.settings s' v']
        simp [hs]
    · intro w
      rw [isOn_put, h.switches w]
      simp
    · intro n
      rw [h.parallelism n]
      simp
  · have hoff := hswitch w rfl
    have hturn : g.turnOn w = .ok { g with flags := w.turnOn g.flags } := by
      unfold Gathered.turnOn
      rw [if_neg (by simp [hoff])]
    refine ⟨_, hturn, ?_, ?_, ?_, h.operands⟩
    · intro s v
      rw [get?_turnOn, h.settings s v]
      simp
    · intro w'
      rw [isOn_turnOn, Bool.or_eq_true, decide_eq_true_iff, h.switches w', List.mem_append,
        List.mem_singleton, Phrase.switch.injEq]
      exact Or.comm
    · intro n
      rw [h.parallelism n]
      simp
  · have hnone := hparallelism n rfl
    have hput : g.put (toString n) .parallelism = .ok { g with parallelism := some n } := by
      unfold Gathered.put
      simp only [hnone, parallelismOf?_toString hsayable.1 hsayable.2, Option.isSome_none,
        Bool.false_eq_true, if_false]
    refine ⟨_, hput, ?_, ?_, ?_, h.operands⟩
    · intro s v
      rw [h.settings s v]
      simp
    · intro w
      rw [h.switches w]
      simp
    · intro n'
      rw [List.mem_append, List.mem_singleton, ← h.parallelism n', hnone]
      simp [eq_comm]

end

/-- Each phrase is about something else. -/
def Once (ps : List Phrase) : Prop :=
  ps.Pairwise fun p q => p.subject ≠ q.subject

/-- Phrases of which each is about something else are all taken down. -/
theorem Accounts.foldlM_say {before ps : List Phrase} {g : Gathered} (h : Accounts before g)
    (hsayable : ∀ p ∈ ps, p.Sayable) (honce : Once (before ++ ps)) :
    ∃ g', ps.foldlM Gathered.say g = .ok g' ∧ Accounts (before ++ ps) g' := by
  -- What has been said before grows with each phrase.
  induction ps generalizing before g with
  | nil =>
      refine ⟨g, rfl, ?_⟩
      rw [List.append_nil]
      exact h
  | cons p ps ih =>
      rcases List.forall_mem_cons.mp hsayable with ⟨hfirst, hothers⟩
      have hnew : ∀ q ∈ before, q.subject ≠ p.subject := by
        intro q hq
        exact (List.pairwise_append.mp honce).2.2 q hq p List.mem_cons_self
      rcases h.say hfirst hnew with ⟨g₁, hsaid, haccounts⟩
      have hsplit : before ++ p :: ps = before ++ [p] ++ ps := by
        rw [List.append_assoc, List.singleton_append]
      rw [hsplit] at honce ⊢
      rcases ih haccounts hothers honce with ⟨g₂, hrest, haccounts₂⟩
      refine ⟨g₂, ?_, haccounts₂⟩
      rw [List.foldlM_cons, hsaid]
      exact hrest

/-- The words of phrases are read as what the phrases say. -/
theorem foldlM_step_words {l : Level} {ps : List Phrase} (hfits : ∀ p ∈ ps, p.FitsAt l)
    (g : Gathered) :
    (ps.map Phrase.word).foldlM (Reading.step l) (.settled g) =
      (ps.foldlM Gathered.say g).map .settled := by
  induction ps generalizing g with
  | nil => rfl
  | cons p ps ih =>
      rcases List.forall_mem_cons.mp hfits with ⟨hfirst, hothers⟩
      rw [List.map_cons, List.foldlM_cons, List.foldlM_cons, step_word hfirst]
      rcases g.say p with e | g'
      · rfl
      · exact ih hothers g'

/-! ## Operands -/

/-- A reading in which only operands follow, and what it comes to. -/
structure Comes (r : Reading) (g : Gathered) : Prop where
  settle_eq : r.settle = .ok ⟨g, none, true⟩
  operandCount_eq : r.operandCount = g.operands.length
  isEscaped : r.isEscaped = true

/-- Behind two dashes there are only operands. -/
theorem comes_escaped (g : Gathered) : Comes ⟨g, none, true⟩ g :=
  ⟨rfl, rfl, rfl⟩

/-- Behind two dashes, an operand is what it is, whatever it begins with. -/
theorem Comes.step {r : Reading} {g : Gathered} (h : Comes r g) {l : Level} {word : String}
    (hroom : g.operands.length < l.capacity) (hword : l.operandSlot = .file → word ≠ "") :
    ∃ r', Reading.step l r word = .ok r' ∧
      Comes r' { g with operands := g.operands ++ [word] } := by
  -- There is one slot for operands, and for files that must not be empty another.
  have hslot : l.operandSlot = .operand ∨ l.operandSlot = .file := by
    unfold Level.operandSlot
    split
    · exact Or.inr rfl
    · exact Or.inl rfl
  refine ⟨⟨g, some (l.operandSlot, some word), true⟩, ?_, ?_, ?_, rfl⟩
  · unfold Reading.step Reading.operand
    rw [if_pos h.isEscaped, if_pos (by rw [h.operandCount_eq]; exact hroom), h.settle_eq]
    rfl
  · unfold Reading.settle Gathered.put
    rcases hslot with hslot | hslot
    · rw [hslot]
      rfl
    · have hnonempty : word.isEmpty = false := by
        simpa using hword hslot
      rw [hslot]
      simp only [hnonempty, Bool.false_eq_true, if_false]
      rfl
  · unfold Reading.operandCount
    rcases hslot with hslot | hslot
    · rw [hslot]
      simp
    · rw [hslot]
      simp

/-- As many operands as there is room for are all taken. -/
theorem Comes.foldlM {l : Level} {operands : List String} {r : Reading} {g : Gathered}
    (h : Comes r g) (hroom : g.operands.length + operands.length ≤ l.capacity)
    (hwords : l.operandSlot = .file → ∀ word ∈ operands, word ≠ "") :
    ∃ r', operands.foldlM (Reading.step l) r = .ok r' ∧
      Comes r' { g with operands := g.operands ++ operands } := by
  induction operands generalizing r g with
  | nil =>
      refine ⟨r, rfl, ?_⟩
      rw [List.append_nil]
      exact h
  | cons word operands ih =>
      have hfirst : g.operands.length < l.capacity := by
        rw [List.length_cons] at hroom
        omega
      rcases h.step hfirst (fun hfile => hwords hfile word List.mem_cons_self) with
        ⟨r₁, hstep, hcomes⟩
      have hothers : (g.operands ++ [word]).length + operands.length ≤ l.capacity := by
        rw [List.length_append, List.length_singleton]
        rw [List.length_cons] at hroom
        omega
      rcases ih hcomes hothers (fun hfile w hw => hwords hfile w (List.mem_cons_of_mem _ hw)) with
        ⟨r₂, hrest, hcomes₂⟩
      refine ⟨r₂, ?_, ?_⟩
      · rw [List.foldlM_cons, hstep]
        exact hrest
      · dsimp only at hcomes₂
        rw [List.append_assoc, List.singleton_append] at hcomes₂
        exact hcomes₂

/-! ## Flags -/

section

variable {f : Flags} {p : Phrase}

/-- A setting is said with the value that it has. -/
theorem setting_mem_phrases_iff {s : Setting} {v : String} :
    .setting s v ∈ phrases f ↔ s.get? f = some v := by
  have hall : s ∈ Setting.all := by
    cases s <;> decide
  unfold phrases
  rw [List.mem_append, List.mem_filterMap]
  constructor
  · rintro (⟨s', -, hsaid⟩ | hswitch)
    · rcases Option.map_eq_some_iff.mp hsaid with ⟨v', hv', heq⟩
      cases heq
      exact hv'
    · rcases List.mem_map.mp hswitch with ⟨w, -, heq⟩
      cases heq
  · intro hv
    refine Or.inl ⟨s, hall, ?_⟩
    rw [hv]
    rfl

/-- A switch is said if it is on. -/
theorem switch_mem_phrases_iff {w : Switch} : .switch w ∈ phrases f ↔ w.isOn f = true := by
  have hall : w ∈ Switch.all := by
    cases w <;> decide
  unfold phrases
  rw [List.mem_append, List.mem_filterMap, List.mem_map]
  constructor
  · rintro (⟨s, -, hsaid⟩ | ⟨w', hon, heq⟩)
    · rcases Option.map_eq_some_iff.mp hsaid with ⟨v, -, heq⟩
      cases heq
    · cases heq
      exact (List.mem_filter.mp hon).2
  · intro hon
    exact Or.inr ⟨w, List.mem_filter.mpr ⟨hall, hon⟩, rfl⟩

/-- Workers are no matter of the flags. -/
theorem parallelism_not_mem_phrases (n : Nat) : .parallelism n ∉ phrases f := by
  unfold phrases
  rw [List.mem_append, List.mem_filterMap, List.mem_map]
  rintro (⟨s, -, hsaid⟩ | ⟨w, -, heq⟩)
  · rcases Option.map_eq_some_iff.mp hsaid with ⟨v, -, heq⟩
    cases heq
  · cases heq

/-- No setting is said twice. -/
theorem once_phrases (f : Flags) : Once (phrases f) := by
  refine List.pairwise_append.mpr ⟨?_, ?_, ?_⟩
  · have hsettings : Setting.all.Pairwise (· ≠ ·) := by decide
    refine List.Pairwise.filterMap _ ?_ hsettings
    intro s s' hne p hp q hq heq
    rcases Option.map_eq_some_iff.mp hp with ⟨v, -, rfl⟩
    rcases Option.map_eq_some_iff.mp hq with ⟨v', -, rfl⟩
    cases heq
    exact hne rfl
  · have hswitches : Switch.all.Pairwise (· ≠ ·) := by decide
    refine List.pairwise_map.mpr ((hswitches.filter _).imp ?_)
    intro w w' hne heq
    cases heq
    exact hne rfl
  · intro p hp q hq heq
    rcases List.mem_filterMap.mp hp with ⟨s, -, hsaid⟩
    rcases Option.map_eq_some_iff.mp hsaid with ⟨v, -, rfl⟩
    rcases List.mem_map.mp hq with ⟨w, -, rfl⟩
    cases heq

/-- What is said of the settings fits before a verb and behind it. -/
theorem fitsAt_of_mem_phrases (hp : p ∈ phrases f) (l : Level) : p.FitsAt l := by
  rintro n rfl
  exact absurd hp (parallelism_not_mem_phrases n)

theorem Sound.sayable {c : Command} (hsound : Sound f c) (hp : p ∈ phrases f) : p.Sayable := by
  rcases p with ⟨s, v⟩ | w | n
  · rintro hpath rfl
    exact hsound.paths s hpath (setting_mem_phrases_iff.mp hp)
  · exact trivial
  · exact absurd hp (parallelism_not_mem_phrases n)

/-- Flags are known by their settings and switches. -/
theorem flags_ext {g : Flags} (hsettings : ∀ s : Setting, s.get? f = s.get? g)
    (hswitches : ∀ w : Switch, w.isOn f = w.isOn g) : f = g := by
  rcases f with ⟨config, certificate, key, endpoint, requester, bundle, payloads, headers⟩
  rcases g with ⟨config', certificate', key', endpoint', requester', bundle', payloads', headers'⟩
  -- One by one: six settings and two switches.
  cases hsettings .config
  cases hsettings .certificate
  cases hsettings .key
  cases hsettings .endpoint
  cases hsettings .requester
  cases hsettings .bundle
  cases hswitches .payloads
  cases hswitches .headers
  rfl

/-- A setting is the one of the first flags, or else the one of the second. -/
theorem get?_joined (f g : Flags) (s : Setting) :
    s.get? (joined f g) = (s.get? f <|> s.get? g) := by
  cases s <;> rfl

theorem isOn_joined (f g : Flags) (w : Switch) : w.isOn (joined f g) = (w.isOn f || w.isOn g) := by
  cases w <;> rfl

/-- What has been said on both sides of a verb is what there was to say. -/
theorem joined_eq {outer given extra : List Phrase} {g g' : Gathered}
    (hsaid : (outer ++ given).Perm (phrases f)) (hextra : ∀ p ∈ extra, ∃ n, p = .parallelism n)
    (houter : Accounts outer g) (hinner : Accounts (given ++ extra) g') :
    joined g'.flags g.flags = f := by
  have hsplit : ∀ p, p ∈ phrases f ↔ p ∈ outer ∨ p ∈ given := by
    intro p
    rw [← hsaid.mem_iff, List.mem_append]
  have hgiven : ∀ p, p ∈ given ++ extra → (∀ n, p ≠ .parallelism n) → p ∈ given := by
    intro p hp hflag
    rcases List.mem_append.mp hp with hp | hp
    · exact hp
    · rcases hextra p hp with ⟨n, hn⟩
      exact absurd hn (hflag n)
  apply flags_ext
  · intro s
    rw [get?_joined]
    refine Option.ext ?_
    intro v
    rcases hbehind : s.get? g'.flags with _ | v'
    · -- Nothing was said behind the verb, so it was said before it or not at all.
      have hnot : .setting s v ∉ given := by
        intro hmem
        have hv := (hinner.settings s v).mpr (List.mem_append_left _ hmem)
        rw [hbehind] at hv
        cases hv
      show s.get? g.flags = some v ↔ _
      rw [houter.settings s v, ← setting_mem_phrases_iff, hsplit]
      exact (or_iff_left hnot).symm
    -- What was said behind the verb is what the flags have.
    · have hmem := hgiven _ ((hinner.settings s v').mp hbehind) nofun
      have hv' := setting_mem_phrases_iff.mp ((hsplit _).mpr (Or.inr hmem))
      show some v' = some v ↔ _
      rw [hv']
  · intro w
    rw [isOn_joined]
    refine Bool.eq_iff_iff.mpr ?_
    rw [Bool.or_eq_true, houter.switches w, hinner.switches w, ← switch_mem_phrases_iff, hsplit]
    constructor
    · rintro (hmem | hmem)
      · exact Or.inr (hgiven _ hmem nofun)
      · exact Or.inl hmem
    · rintro (hmem | hmem)
      · exact Or.inr hmem
      · exact Or.inl (List.mem_append_left _ hmem)

end

/-! ## Verbs -/

/-- The name of a command is that of a verb, which makes the command of what is said behind it. -/
structure Understood (c : Command) (name : String) (extra : List Phrase) (operands : List String)
    (v : Verb) : Prop where
  named : Verb.ofName? name = some v
  noHelp : name ≠ helpWord
  room : operands.length ≤ v.capacity
  workers : ∀ p ∈ extra, ∃ n, p = .parallelism n ∧ v = .bulkActivate ∧
    ∃ file, c = .bulkActivate file n
  file : (Level.inner v).operandSlot = .file → ∀ word ∈ operands, ∃ n, c = .bulkActivate word n
  once : Once extra
  command : ∀ g : Gathered, g.operands = operands →
    (∀ n, g.parallelism = some n ↔ .parallelism n ∈ extra) → commandOf v g = .ok c

/-- A verb with operands alone. -/
theorem understood_plain {c : Command} {name : String} {operands : List String} {v : Verb}
    (hnamed : Verb.ofName? name = some v) (hhelp : name ≠ helpWord)
    (hroom : operands.length ≤ v.capacity) (hverb : v ≠ .bulkActivate)
    (hcommand : ∀ n, v.command? n operands = some c) : Understood c name [] operands v := by
  refine ⟨hnamed, hhelp, hroom, nofun, ?_, List.Pairwise.nil, ?_⟩
  · intro hfile
    cases v with
    | bulkActivate => exact absurd rfl hverb
    | _ => cases hfile
  · rintro g rfl -
    unfold commandOf
    rw [hcommand]

/-- The verb with workers. -/
theorem understood_bulk {file : String} {n : Nat} {extra : List Phrase} (honce : Once extra)
    (hextra : ∀ p ∈ extra, p = .parallelism n)
    (hworkers : ∀ g : Gathered, (∀ n, g.parallelism = some n ↔ .parallelism n ∈ extra) →
      g.parallelism.getD Verb.usualParallelism = n) :
    Understood (.bulkActivate file n) "bulk-activate-iccids" extra [file] .bulkActivate := by
  refine ⟨by decide, by decide, Nat.le_refl 1, ?_, ?_, honce, ?_⟩
  · intro p hp
    exact ⟨n, hextra p hp, rfl, file, rfl⟩
  · intro _ word hword
    cases List.mem_singleton.mp hword
    exact ⟨n, rfl⟩
  · intro g hoperands hparallelism
    unfold commandOf
    rw [hworkers g hparallelism, hoperands]
    rfl

/-- Every name of a command is understood, whichever way it is spelled. -/
theorem Names.understood {c : Command} {name : String} {extra : List Phrase}
    {operands : List String} (h : Names c name extra operands) :
    ∃ v, Understood c name extra operands v := by
  cases h with
  | getStatus iccid =>
      exact ⟨.getStatus,
        understood_plain (by decide) (by decide) (Nat.le_refl 1) nofun fun _ => rfl⟩
  | recoverProfile iccid target =>
      exact ⟨.recoverProfile,
        understood_plain (by decide) (by decide) (Nat.le_refl 2) nofun fun _ => rfl⟩
  | recoverUsual iccid =>
      exact ⟨.recoverProfile,
        understood_plain (by decide) (by decide) (Nat.le_succ 1) nofun fun _ => rfl⟩
  | cancelOrder iccid target known =>
      refine ⟨.cancelOrder, understood_plain ?_ ?_ (Nat.le_refl 2) nofun fun _ => rfl⟩
      · rcases known with rfl | rfl <;> decide
      · rcases known with rfl | rfl <;> decide
  | cancelUsual iccid known =>
      refine ⟨.cancelOrder, understood_plain ?_ ?_ (Nat.le_succ 1) nofun fun _ => rfl⟩
      · rcases known with rfl | rfl <;> decide
      · rcases known with rfl | rfl <;> decide
  | downloadOrder iccid =>
      exact ⟨.downloadOrder,
        understood_plain (by decide) (by decide) (Nat.le_refl 1) nofun fun _ => rfl⟩
  | confirmOrder iccid =>
      exact ⟨.confirmOrder,
        understood_plain (by decide) (by decide) (Nat.le_refl 1) nofun fun _ => rfl⟩
  | activate iccid =>
      exact ⟨.activate,
        understood_plain (by decide) (by decide) (Nat.le_refl 1) nofun fun _ => rfl⟩
  | bulkActivate file n =>
      refine ⟨.bulkActivate, understood_bulk (List.pairwise_singleton _ _) ?_ ?_⟩
      · intro p hp
        exact List.mem_singleton.mp hp
      · intro g hparallelism
        rw [(hparallelism n).mpr List.mem_cons_self]
        rfl
  -- Without a phrase about workers there are as many as usual.
  | bulkUsual file =>
      refine ⟨.bulkActivate, understood_bulk List.Pairwise.nil nofun ?_⟩
      intro g hparallelism
      have hnone : g.parallelism = none := by
        refine Option.eq_none_iff_forall_ne_some.mpr ?_
        intro n hn
        exact List.not_mem_nil ((hparallelism n).mp hn)
      rw [hnone]
      rfl
  | smoketest iccid =>
      exact ⟨.smoketest,
        understood_plain (by decide) (by decide) (Nat.le_refl 1) nofun fun _ => rfl⟩

/-! ## Command lines -/

/-- A word of two dashes names no verb, and asks for no help on one. -/
theorem ofName?_eq_none {word : String} {name : String} {value : Option String}
    (hform : Form.ofChars word.toList = .long name value) :
    Verb.ofName? word = none ∧ word ≠ helpWord := by
  -- The names of verbs begin with letters.
  have hnames : ∀ v : Verb, ∀ s ∈ v.name :: v.aliases, Form.ofChars s.toList = .plain := by
    intro v
    cases v <;> decide
  constructor
  · refine List.find?_eq_none.mpr ?_
    intro v _ hv
    have hmem : word ∈ v.name :: v.aliases := by
      rcases Bool.or_eq_true_iff.mp hv with heq | halias
      · exact List.mem_cons.mpr (Or.inl (beq_iff_eq.mp heq).symm)
      · exact List.mem_cons_of_mem _ (List.contains_iff_mem.mp halias)
    rw [hnames v word hmem] at hform
    cases hform
  · rintro rfl
    cases hform

/-- A word of two dashes before a verb is one step of the reading. -/
theorem outerWords_cons {g : Gathered} {word name : String} {value : Option String}
    (hform : Form.ofChars word.toList = .long name value) (words : List String) :
    outerWords (.settled g) (word :: words) =
      Reading.step .outer (.settled g) word >>= fun r => outerWords r words := by
  rcases ofName?_eq_none hform with ⟨hverb, hhelp⟩
  rw [outerWords]
  dsimp only [Reading.settled, Reading.awaiting?]
  rw [hverb, if_neg hhelp]
  rfl

/-- The words of phrases before a verb are read as what the phrases say. -/
theorem outerWords_words {ps : List Phrase} (hfits : ∀ p ∈ ps, p.FitsAt .outer) (g : Gathered)
    (words : List String) :
    outerWords (.settled g) (ps.map Phrase.word ++ words) =
      ps.foldlM Gathered.say g >>= fun g => outerWords (.settled g) words := by
  induction ps generalizing g with
  | nil => rfl
  | cons p ps ih =>
      rcases List.forall_mem_cons.mp hfits with ⟨hfirst, hothers⟩
      rw [List.map_cons, List.cons_append, List.foldlM_cons, outerWords_cons (ofChars_word p),
        step_word hfirst]
      -- Both sides fail at the first phrase that cannot be taken down.
      rcases g.say p with e | g'
      · rfl
      · exact ih hothers g'

/-- The first name of a verb ends what is said before it. -/
theorem outerWords_verb {name : String} {v : Verb} (hnamed : Verb.ofName? name = some v)
    (hhelp : name ≠ helpWord) (g : Gathered) (words : List String) :
    outerWords (.settled g) (name :: words) = .ok (.settled g, some (v, words)) := by
  rw [outerWords]
  dsimp only [Reading.settled, Reading.awaiting?]
  rw [hnamed, if_neg hhelp]
  rfl

/-- A level whose words have come to something closes with it. -/
theorem close_eq {r r' : Reading} {environment : Option String} (hsettle : r.settle = .ok r')
    (henvironment : environment ≠ some "") : r.close environment = .ok r'.gathered := by
  unfold Reading.close
  rw [hsettle]
  show (if _ then _ else _) = _
  rw [if_neg (by simp [henvironment])]
  rfl

/-- The phrases behind a verb, two dashes and the operands are read as what they say. -/
theorem innerWords_words {v : Verb} {inner : List Phrase} {operands : List String} {g : Gathered}
    (hfits : ∀ p ∈ inner, p.FitsAt (.inner v)) (hsaid : inner.foldlM Gathered.say {} = .ok g)
    (hnone : g.operands = []) (hroom : operands.length ≤ v.capacity)
    (hwords : (Level.inner v).operandSlot = .file → ∀ word ∈ operands, word ≠ "") :
    ∃ r, innerWords v (inner.map Phrase.word ++ "--" :: operands) = .ok r ∧
      Comes r { g with operands := operands } := by
  have hphrases : (inner.map Phrase.word).foldlM (Reading.step (.inner v)) {} =
      .ok (.settled g) := by
    show (inner.map Phrase.word).foldlM (Reading.step (.inner v)) (.settled {}) = _
    rw [foldlM_step_words hfits, hsaid]
    rfl
  have hdashes : Reading.step (.inner v) (.settled g) "--" = .ok ⟨g, none, true⟩ := by
    unfold Reading.step
    rfl
  have hcapacity : g.operands.length + operands.length ≤ (Level.inner v).capacity := by
    rw [hnone]
    exact (Nat.zero_add operands.length).symm ▸ hroom
  rcases (comes_escaped g).foldlM hcapacity hwords with ⟨r, hoperands, hcomes⟩
  rw [hnone, List.nil_append] at hcomes
  refine ⟨r, ?_, hcomes⟩
  unfold innerWords
  rw [List.foldlM_append, hphrases]
  show ("--" :: operands).foldlM (Reading.step (.inner v)) (.settled g) = _
  rw [List.foldlM_cons, hdashes]
  exact hoperands

/-- What both levels say makes an invocation. -/
theorem ofWords_of_levels {words rest : List String} {environment : Option String} {v : Verb}
    {before behind : Reading} {g g' : Gathered} {c : Command}
    (houter : outerWords {} (words.drop 1) = .ok (before, some (v, rest)))
    (hinner : innerWords v rest = .ok behind) (hsaid : behind.close environment = .ok g')
    (hcommand : commandOf v g' = .ok c) (hbefore : before.close environment = .ok g) :
    Invocation.ofWords words environment =
      .ok ⟨joined (joined g'.flags g.flags) { config := environment }, c⟩ := by
  unfold Invocation.ofWords
  simp only [houter, hinner, hsaid, hcommand, hbefore, bind, Except.bind, pure, Except.pure]

section

variable {f : Flags} {c : Command} {name : String} {outer given extra inner : List Phrase}
  {operands : List String} {v : Verb}

/-- The phrases behind a verb can be said there, each of them about something else. -/
theorem Understood.behind (hv : Understood c name extra operands v) (hsound : Sound f c)
    (hgiven : ∀ p ∈ given, p ∈ phrases f) (honce : Once given)
    (behind : inner.Perm (given ++ extra)) :
    Once inner ∧ ∀ p ∈ inner, p.Sayable ∧ p.FitsAt (.inner v) := by
  constructor
  · -- What the verb adds is about workers, and the flags say nothing of them.
    have hboth : Once (given ++ extra) := by
      refine List.pairwise_append.mpr ⟨honce, hv.once, ?_⟩
      intro p hp q hq heq
      rcases hv.workers q hq with ⟨n, rfl, -⟩
      rcases p with ⟨s, x⟩ | w | n'
      · cases heq
      · cases heq
      · exact parallelism_not_mem_phrases n' (hgiven _ hp)
    exact hboth.perm behind.symm fun h => h.symm
  · intro p hp
    rcases List.mem_append.mp (behind.mem_iff.mp hp) with hp | hp
    · exact ⟨hsound.sayable (hgiven p hp), fitsAt_of_mem_phrases (hgiven p hp) _⟩
    · rcases hv.workers p hp with ⟨n, rfl, rfl, file, hc⟩
      exact ⟨(hsound.file file n hc).2, fun _ _ => rfl⟩

/-- In another order, the same has been said. -/
theorem Accounts.perm {ps qs : List Phrase} {g : Gathered} (h : Accounts ps g)
    (hperm : ps.Perm qs) : Accounts qs g := by
  refine ⟨?_, ?_, ?_, h.operands⟩
  · intro s x
    rw [← hperm.mem_iff]
    exact h.settings s x
  · intro w
    rw [← hperm.mem_iff]
    exact h.switches w
  · intro n
    rw [← hperm.mem_iff]
    exact h.parallelism n

/-- What is spelled is what is read: the command, and the settings that were given on either
side of its name, in whatever order, with whatever the values and operands begin with. The file
of settings is the one that was given, and else the one of the surroundings. -/
theorem ofWords_spelled {words : List String} {environment : Option String} (hsound : Sound f c)
    (hspells : Spells f c words) (henvironment : environment ≠ some "") :
    Invocation.ofWords words environment =
      .ok ⟨{ f with config := f.config <|> environment }, c⟩ := by
  rcases hspells with @⟨program, name, outer, given, extra, inner, operands, names, said, behind⟩
  rcases names.understood with ⟨v, hv⟩
  have houter : ∀ p ∈ outer, p ∈ phrases f := by
    intro p hp
    exact said.mem_iff.mp (List.mem_append_left _ hp)
  have hgiven : ∀ p ∈ given, p ∈ phrases f := by
    intro p hp
    exact said.mem_iff.mp (List.mem_append_right _ hp)
  have honce : Once (outer ++ given) := (once_phrases f).perm said.symm fun h => h.symm
  rcases List.pairwise_append.mp honce with ⟨honceOuter, honceGiven, -⟩
  -- The words before the verb.
  rcases accounts_nil.foldlM_say (fun p hp => hsound.sayable (houter p hp)) honceOuter with
    ⟨g, hsaid, haccounts⟩
  have hbefore : outerWords {} ((program :: outer.map Phrase.word ++
      name :: (inner.map Phrase.word ++ "--" :: operands)).drop 1) =
      .ok (.settled g, some (v, inner.map Phrase.word ++ "--" :: operands)) := by
    show outerWords (.settled {}) (outer.map Phrase.word ++ _) = _
    rw [outerWords_words (fun p hp => fitsAt_of_mem_phrases (houter p hp) _), hsaid]
    exact outerWords_verb hv.named hv.noHelp g _
  -- The words behind it.
  rcases hv.behind hsound hgiven honceGiven behind with ⟨honceInner, hinner⟩
  rcases accounts_nil.foldlM_say (fun p hp => (hinner p hp).1) honceInner with
    ⟨g', hsaid', haccounts'⟩
  have hwords : (Level.inner v).operandSlot = .file → ∀ word ∈ operands, word ≠ "" := by
    intro hfile word hword
    rcases hv.file hfile word hword with ⟨n, hc⟩
    exact (hsound.file word n hc).1
  rcases innerWords_words (fun p hp => (hinner p hp).2) hsaid' haccounts'.operands hv.room hwords
    with ⟨r, hread, hcomes⟩
  have hgathered : Accounts (given ++ extra) g' := haccounts'.perm behind
  have hcommand : commandOf v { g' with operands := operands } = .ok c := by
    refine hv.command _ rfl ?_
    intro n
    rw [hgathered.parallelism n, List.mem_append]
    exact or_iff_right fun hp => parallelism_not_mem_phrases n (hgiven _ hp)
  -- What both have said.
  have hflags : joined g'.flags g.flags = f := by
    refine joined_eq said ?_ haccounts hgathered
    intro p hp
    rcases hv.workers p hp with ⟨n, hn, -⟩
    exact ⟨n, hn⟩
  have henv : joined f { config := environment } =
      { f with config := f.config <|> environment } := by
    unfold joined
    simp
  have hlevels := ofWords_of_levels hbefore hread (close_eq hcomes.settle_eq henvironment) hcommand
    (close_eq rfl henvironment)
  rw [hlevels]
  show Except.ok (Invocation.mk (joined (joined g'.flags g.flags) { config := environment }) c) = _
  rw [hflags, henv]

end

/-- Values and operands that begin with a dash are values and operands. -/
theorem ofWords_spelled_dashes :
    let f : Flags := { certificate := some "-c", endpoint := some "--help", showsHeaders := true }
    let c : Command := .cancelOrder "-89" "AVAILABLE"
    let words := ["es2plus", "--hostport=--help", "cancel-profile", "--print-headers", "--cert=-c",
      "--", "-89"]
    Sound f c ∧ Spells f c words ∧ (none : Option String) ≠ some "" ∧
      Invocation.ofWords words none = .ok ⟨f, c⟩ := by
  intro f c words
  have hsound : Sound f c := by
    refine ⟨?_, nofun⟩
    intro s
    cases s <;> decide
  have hspells : Spells f c words :=
    @Spells.mk f c "es2plus" "cancel-profile" [.setting .endpoint "--help"]
      [.setting .certificate "-c", .switch .headers] []
      [.switch .headers, .setting .certificate "-c"] ["-89"]
      (Names.cancelUsual "-89" (Or.inr rfl)) (by decide) (by decide)
  exact ⟨hsound, hspells, nofun, ofWords_spelled hsound hspells nofun⟩

end ProfileAdmin.CommandLine
