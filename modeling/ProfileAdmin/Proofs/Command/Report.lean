import ProfileAdmin.Proofs.Client.Wording
import ProfileAdmin.Proofs.Command.Output
import ProfileAdmin.Proofs.Command.Verdict

/-!
# Proofs.Command.Report — how many lines a profile gets

1. **Printing**: the lines that can be read in an output. A line break within a text that is written
   as a line makes one line more.
2. **Reports**: every outcome has a line of its own exactly if nothing that it quotes from the
   endpoint breaks the line.
3. **Commands** for one profile, likewise.
4. **One line each**: all of this together, and a token that carries the line of another profile.
-/

namespace ProfileAdmin.Command

open Client
open Host (Deed Effect Program)
open Host.Program
open Profile (Activation Status)
open Text (OneLine breaks breaksIn breaksIn_append breaksIn_cons breaksIn_eq_zero_iff
  breaksIn_singleton breaks_behind oneLine_append)

variable {α σ : Type} {answer : (e : Effect) → σ → e.Answer × σ}

/-! ## Printing -/

/-- The texts that the output took, each as a line. -/
def taken (h : List Deed) : List String :=
  (lines h).filterMap fun (line, reply) => reply.toOption.map fun _ => line

/-- The lines that can be read in the output of a command. -/
def printed (answer : (e : Effect) → σ → e.Answer × σ) (t : Task α) (s : σ) : List (List Char) :=
  Text.lines (Text.ended (taken (t.run.history answer s)))

@[simp] theorem taken_append (h₁ h₂ : List Deed) :
    taken (h₁ ++ h₂) = taken h₁ ++ taken h₂ := by
  unfold taken
  rw [lines_append, List.filterMap_append]

@[simp] theorem taken_printing (line : String) (h : List Deed) :
    taken (printing line (.ok ()) :: h) = line :: taken h := rfl

theorem taken_note (e : Host.Event) (s : σ) : taken ((note e).history answer s) = [] := rfl

/-- A client writes nothing. -/
theorem taken_of_made {c : Client} {allowed : Errand → Prop} {a : Attempt α}
    (hmade : Made c allowed a) (s : σ) : taken (a.run.history answer s) = [] := by
  unfold taken
  rw [wordless_of_made hmade _ _ (returns_history answer a.run s), List.filterMap_nil]

/-- A text makes one line exactly if no line breaks in it. -/
theorem length_printed_singleton {t : Task α} {s : σ} {line : String}
    (hline : taken (t.run.history answer s) = [line]) :
    (printed answer t s).length = 1 ↔ OneLine line := by
  unfold printed OneLine
  rw [hline, Text.length_lines_ended, breaksIn_singleton, List.length_singleton]
  exact Nat.add_eq_left

/-! ## Reports -/

namespace Bulk

/-- The outcome is one that an activation can have, in surroundings of any kind. -/
def Outcome.Obtained (o : Outcome) : Prop :=
  ∃ c h, (activateOne c o.iccid).Returns h o

/-- What the line of an outcome quotes from the endpoint, or from what failed on the way to it. -/
def Outcome.quotes (o : Outcome) : List String :=
  match o.result with
  | .ok a => [a.status.token]
  | .error e => e.quotes

/-- The line begins with the ICCID of the outcome. -/
def Outcome.Heads (o : Outcome) (line : List Char) : Prop :=
  (o.iccid ++ ", ").toList <+: line

/-- What an activation comes to can be obtained. -/
theorem obtained_run (c : Client) (iccid : String) (s : σ) :
    ((activateOne c iccid).run answer s).1.Obtained := by
  have hr := returns_history answer (activateOne c iccid) s
  refine ⟨c, (activateOne c iccid).history answer s, ?_⟩
  rwa [activateOne_returns hr]

/-- The result of an outcome is one of its activation. -/
theorem Outcome.Obtained.occurs {o : Outcome} (h : o.Obtained) {e : Client.Error}
    (he : o.result = .error e) : e.Occurs o.iccid := by
  obtain ⟨c, h, hr⟩ := h
  rw [activateOne_eq] at hr
  obtain ⟨h₁, h₂, result, rfl, hactivate, hrest⟩ := returns_bind_iff.mp hr
  obtain ⟨h₃, h₄, u, rfl, -, hdone⟩ := returns_bind_iff.mp hrest
  obtain ⟨-, heq⟩ := returns_done_iff.mp hdone
  have hresult : o.result = result := congrArg Outcome.result heq
  rw [← hresult, he] at hactivate
  exact activate_foreseen c o.iccid _ e hactivate

/-- Every line break in the line of an outcome is one of a quotation. -/
theorem breaks_line {o : Outcome} (hobtained : o.Obtained) (hiccid : OneLine o.iccid) :
    breaks o.line = breaksIn o.quotes := by
  unfold Outcome.line Outcome.quotes
  cases hresult : o.result with
  | ok a =>
      calc breaks (o.iccid ++ ", " ++ a.status.token)
          = breaks a.status.token := breaks_behind (oneLine_append.mpr ⟨hiccid, by decide⟩)
        _ = breaksIn [a.status.token] := (breaksIn_singleton _).symm
  | error e =>
      calc breaks (o.iccid ++ ", error: " ++ e.message)
          = breaks e.message := breaks_behind (oneLine_append.mpr ⟨hiccid, by decide⟩)
        _ = breaksIn e.quotes := (hobtained.occurs hresult).breaks_message hiccid

/-- The line of an outcome breaks exactly where a quotation does. -/
theorem oneLine_line_iff {o : Outcome} (hobtained : o.Obtained) (hiccid : OneLine o.iccid) :
    OneLine o.line ↔ ∀ text ∈ o.quotes, OneLine text := by
  unfold OneLine
  rw [breaks_line hobtained hiccid, breaksIn_eq_zero_iff]
  rfl

/-- An outcome is told on a line that begins with its ICCID. -/
theorem heads_line (o : Outcome) : o.Heads o.line.toList := by
  unfold Outcome.Heads Outcome.line
  cases o.result with
  | ok a =>
      refine ⟨a.status.token.toList, ?_⟩
      exact String.toList_append.symm
  | error e =>
      -- A failure is told behind the same comma.
      have hsplit : o.iccid ++ ", error: " ++ e.message =
          o.iccid ++ ", " ++ ("error: " ++ e.message) := by
        simp only [String.append_assoc]
        rfl
      refine ⟨("error: " ++ e.message).toList, ?_⟩
      exact String.toList_append.symm.trans (congrArg String.toList hsplit.symm)

/-- A report writes the lines of its outcomes. -/
theorem report_taken (htakes : TakesOutput answer) (outcomes : List Outcome) (s : σ) :
    taken ((report outcomes).run.history answer s) = outcomes.map Outcome.line := by
  have hlines : taken (outcomes.map fun o => printing o.line (.ok ())) =
      outcomes.map Outcome.line := by
    induction outcomes with
    | nil => rfl
    | cons o outcomes ih => rw [List.map_cons, taken_printing, ih, List.map_cons]
  unfold report
  obtain ⟨s', -, hhistory⟩ := printLines_seq htakes outcomes _ s
  rw [hhistory, taken_append, hlines, history_lift_seq, taken_append, taken_note]
  exact List.append_nil _

variable {outcomes : List Outcome}

/-- There is one line for each outcome, and one more for each break in a quotation. -/
theorem length_printed_report (htakes : TakesOutput answer)
    (hclean : ∀ o ∈ outcomes, OneLine o.iccid ∧ o.Obtained) (s : σ) :
    (printed answer (report outcomes) s).length =
      outcomes.length + breaksIn (outcomes.flatMap Outcome.quotes) := by
  unfold printed
  rw [Text.length_lines_ended, report_taken htakes, List.length_map]
  congr 1
  induction outcomes with
  | nil => rfl
  | cons o outcomes ih =>
      obtain ⟨⟨hiccid, hobtained⟩, hothers⟩ := List.forall_mem_cons.mp hclean
      rw [List.map_cons, breaksIn_cons, breaks_line hobtained hiccid, ih hothers,
        List.flatMap_cons, breaksIn_append]

/-- Every outcome has a line of its own exactly if no quotation breaks a line. -/
theorem report_heads_iff (htakes : TakesOutput answer)
    (hclean : ∀ o ∈ outcomes, OneLine o.iccid ∧ o.Obtained) (s : σ) :
    List.Forall₂ Outcome.Heads outcomes (printed answer (report outcomes) s) ↔
      ∀ o ∈ outcomes, ∀ text ∈ o.quotes, OneLine text := by
  constructor
  · -- A break in a quotation would be a line too many.
    intro hheads
    have hlength := hheads.length_eq.symm
    rw [length_printed_report htakes hclean, Nat.add_eq_left, breaksIn_eq_zero_iff] at hlength
    intro o ho text htext
    exact hlength text (List.mem_flatMap.mpr ⟨o, ho, htext⟩)
  · intro hquotes
    -- Without breaks, the lines that are read are those that were written.
    have hone : ∀ line ∈ outcomes.map Outcome.line, OneLine line := by
      intro line hline
      obtain ⟨o, ho, rfl⟩ := List.mem_map.mp hline
      obtain ⟨hiccid, hobtained⟩ := hclean o ho
      exact (oneLine_line_iff hobtained hiccid).mpr (hquotes o ho)
    unfold printed
    rw [report_taken htakes, Text.lines_ended_of_oneLine hone, List.map_map,
      List.forall₂_map_right_iff, List.forall₂_same]
    exact fun o _ => heads_line o

end Bulk

/-! ## Commands -/

variable {c : Client} {iccid : String}

/-- A status that is found is shown on a line. -/
theorem getStatus_taken (htakes : TakesOutput answer) {s : σ} {b : Bool}
    (hok : ((execute c (.getStatus iccid)).run.run answer s).1 = .ok b) :
    ∃ status, ((c.status? iccid).run.run answer s).1 = .ok (some status) ∧
      taken ((execute c (.getStatus iccid)).run.history answer s) =
        ["iccid='" ++ iccid ++ "', state='" ++ status.state ++ "', acToken='" ++ status.token ++
          "'"] := by
  -- The query itself writes nothing.
  have hsilent : taken ((c.status? iccid).run.history answer s) = [] :=
    taken_of_made (Made.errand (.query iccid) rfl) s
  rw [execute, run_attempt_seq] at hok
  rw [execute, history_attempt_seq, taken_append, hsilent, List.nil_append]
  generalize (c.status? iccid).run.run answer s = reached at hok ⊢
  rcases reached with ⟨e | found, s'⟩
  · cases hok
  · cases found with
    | none => cases hok
    | some status =>
        refine ⟨status, rfl, ?_⟩
        dsimp only
        rw [history_printLine_seq htakes]
        rfl

/-- The token of an activation is shown on a line behind the ICCID. -/
theorem activate_taken (htakes : TakesOutput answer) {s : σ} {a : Activation}
    (hok : ((c.activate iccid).run.run answer s).1 = .ok a) :
    taken ((execute c (.activate iccid)).run.history answer s) =
      [iccid ++ ", " ++ a.status.token] := by
  rw [execute, history_attempt_seq, taken_append, taken_of_made (activate_made c iccid),
    List.nil_append]
  generalize (c.activate iccid).run.run answer s = reached at hok ⊢
  rcases reached with ⟨e | v, s'⟩
  · cases hok
  · cases hok
    dsimp only
    rw [history_printLine_seq htakes, taken_printing]
    split
    · rfl
    · rw [history_lift_seq]
      rfl

/-! ## One line each -/

/-- If the output takes every line, a report prints one line for each outcome and one more for each
line break in what the outcomes quote. So there is one line each, which begins with the ICCID,
exactly if there are no such breaks. A status that is found is printed on one line exactly if there
are none in the state and in the token, and an activation exactly if there are none in the token. -/
theorem printed_oneEach_iff (answer : (e : Effect) → σ → e.Answer × σ)
    (htakes : TakesOutput answer) (s : σ) :
    (∀ outcomes : List Bulk.Outcome, (∀ o ∈ outcomes, OneLine o.iccid ∧ o.Obtained) →
      (printed answer (Bulk.report outcomes) s).length =
          outcomes.length + breaksIn (outcomes.flatMap Bulk.Outcome.quotes) ∧
        (List.Forall₂ Bulk.Outcome.Heads outcomes (printed answer (Bulk.report outcomes) s) ↔
          ∀ o ∈ outcomes, ∀ text ∈ o.quotes, OneLine text)) ∧
    ∀ (c : Client) (iccid : String), OneLine iccid →
      (∀ b, ((execute c (.getStatus iccid)).run.run answer s).1 = .ok b →
        ∃ status, ((c.status? iccid).run.run answer s).1 = .ok (some status) ∧
          ((printed answer (execute c (.getStatus iccid)) s).length = 1 ↔
            OneLine status.state ∧ OneLine status.token)) ∧
      ∀ a, ((c.activate iccid).run.run answer s).1 = .ok a →
        ((printed answer (execute c (.activate iccid)) s).length = 1 ↔
          OneLine a.status.token) := by
  refine ⟨fun outcomes hclean => ?_, fun c iccid hiccid => ⟨fun b hok => ?_, fun a hok => ?_⟩⟩
  · exact ⟨Bulk.length_printed_report htakes hclean s, Bulk.report_heads_iff htakes hclean s⟩
  · obtain ⟨status, hfound, htaken⟩ := getStatus_taken htakes hok
    refine ⟨status, hfound, ?_⟩
    -- All around the two quotations is the command's own, and on one line.
    rw [length_printed_singleton htaken, oneLine_append, oneLine_append, oneLine_append,
      oneLine_append, oneLine_append, oneLine_append]
    constructor
    · rintro ⟨⟨⟨⟨-, hstate⟩, -⟩, htoken⟩, -⟩
      exact ⟨hstate, htoken⟩
    · rintro ⟨hstate, htoken⟩
      exact ⟨⟨⟨⟨⟨⟨by decide, hiccid⟩, by decide⟩, hstate⟩, by decide⟩, htoken⟩, by decide⟩
  · rw [length_printed_singleton (activate_taken htakes hok), oneLine_append, oneLine_append]
    constructor
    · rintro ⟨-, htoken⟩
      exact htoken
    · intro htoken
      exact ⟨⟨hiccid, by decide⟩, htoken⟩

/-- Two reports of a profile that is released with a token. -/
def releasing (iccid token : String) : List (Except String (List UInt8)) :=
  List.replicate 2 (reporting ⟨iccid, "", "RELEASED", token, false, ""⟩)

/-- The outcome for a profile, from an endpoint that gives some replies. -/
def Bulk.scripted (iccid : String) (replies : List (Except String (List UInt8))) : Bulk.Outcome :=
  ((activateOne ⟨"ACME", ⟨false, false⟩⟩ iccid).run (alone script still) (replies, ())).1

/-- What an endpoint brings about has a clean outcome, whatever it replies. -/
theorem Bulk.scripted_clean {iccid : String} (hiccid : OneLine iccid)
    (replies : List (Except String (List UInt8))) :
    OneLine (scripted iccid replies).iccid ∧ (scripted iccid replies).Obtained := by
  have hsame : (scripted iccid replies).iccid = iccid := activateOne_returns (returns_history _ _ _)
  exact ⟨hsame.symm ▸ hiccid, obtained_run _ _ _⟩

/-- One profile has a token, and for the other there is no reply. Both are reported, and the first
is activated once more. -/
theorem printed_oneEach_pair :
    TakesOutput (alone script still) ∧
      List.Forall₂ Bulk.Outcome.Heads
        [Bulk.scripted "8965030119040000067" (releasing "8965030119040000067" "1$smdp.example$A"),
          Bulk.scripted "8965030119040000075" []]
        (printed (alone script still) (Bulk.report
          [Bulk.scripted "8965030119040000067" (releasing "8965030119040000067" "1$smdp.example$A"),
            Bulk.scripted "8965030119040000075" []])
          (releasing "8965030119040000067" "1$smdp.example$A", ())) ∧
      (printed (alone script still) (execute ⟨"ACME", ⟨false, false⟩⟩
        (.activate "8965030119040000067"))
          (releasing "8965030119040000067" "1$smdp.example$A", ())).length = 1 := by
  have htakes : TakesOutput (alone script still) := fun line (replies, u) => rfl
  obtain ⟨hreport, hcommand⟩ := printed_oneEach_iff (alone script still) htakes
    (releasing "8965030119040000067" "1$smdp.example$A", ())
  refine ⟨htakes, ?_, ?_⟩
  · refine (hreport _ ?_).2.mpr (by decide +kernel)
    refine List.forall_mem_cons.mpr ⟨Bulk.scripted_clean (by decide +kernel) _, ?_⟩
    exact List.forall_mem_singleton.mpr (Bulk.scripted_clean (by decide +kernel) _)
  · have hgiven : ((Client.activate ⟨"ACME", ⟨false, false⟩⟩ "8965030119040000067").run.run
        (alone script still) (releasing "8965030119040000067" "1$smdp.example$A",
          ())).1.toOption.map (fun a => a.status.token) = some "1$smdp.example$A" := by
      decide +kernel
    cases hrun : ((Client.activate ⟨"ACME", ⟨false, false⟩⟩ "8965030119040000067").run.run
        (alone script still) (releasing "8965030119040000067" "1$smdp.example$A", ())).1 with
    | error e =>
        rw [hrun] at hgiven
        cases hgiven
    | ok a =>
        rw [hrun] at hgiven
        refine ((hcommand _ _ (by decide +kernel)).2 a hrun).mpr ?_
        have htoken : a.status.token = "1$smdp.example$A" := Option.some.inj hgiven
        rw [htoken]
        decide

/-- A token with a line break in it, behind which there is a line about another profile. -/
def forgedToken : String :=
  "1$smdp.example$A\n8965030119040000075, 1$smdp.example$FORGED"

/-- Such a token is printed on two lines. The second one reads like the line of an outcome, but no
other profile was activated. -/
theorem report_forged :
    ∃ o : Bulk.Outcome, OneLine o.iccid ∧ o.Obtained ∧
      ¬ List.Forall₂ Bulk.Outcome.Heads [o] (printed still (Bulk.report [o]) ()) ∧
      ∃ line ∈ printed still (Bulk.report [o]) (), "8965030119040000075, ".toList <+: line := by
  have hline : (Bulk.scripted "8965030119040000067"
      (releasing "8965030119040000067" forgedToken)).line =
        "8965030119040000067, " ++ forgedToken := by
    decide +kernel
  -- The break in the token is one between lines for whoever reads them.
  have hprinted : printed still (Bulk.report [Bulk.scripted "8965030119040000067"
      (releasing "8965030119040000067" forgedToken)]) () =
      ["8965030119040000067, 1$smdp.example$A".toList,
        "8965030119040000075, 1$smdp.example$FORGED".toList] := by
    have htakes : TakesOutput still := fun line u => rfl
    unfold printed
    rw [Bulk.report_taken htakes, List.map_singleton, hline]
    decide +kernel
  obtain ⟨hiccid, hobtained⟩ := Bulk.scripted_clean
    (show OneLine "8965030119040000067" by decide +kernel)
    (releasing "8965030119040000067" forgedToken)
  refine ⟨_, hiccid, hobtained, fun hheads => ?_,
    "8965030119040000075, 1$smdp.example$FORGED".toList, ?_, by decide +kernel⟩
  · rw [hprinted] at hheads
    obtain ⟨-, hothers⟩ := List.forall₂_cons.mp hheads
    cases hothers
  · rw [hprinted]
    exact List.mem_cons_of_mem _ List.mem_cons_self

end ProfileAdmin.Command
