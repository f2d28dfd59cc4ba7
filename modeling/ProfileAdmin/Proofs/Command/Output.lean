import ProfileAdmin.Proofs.Client.Made
import ProfileAdmin.Proofs.Command.Execution

/-!
# Proofs.Command.Output — what a command writes

1. **Lines** of a history, with what came of them.
2. **Silence**: a client writes nothing, so all lines are those of the command around it.
-/

namespace ProfileAdmin.Command

open Client
open Host (Deed Effect Event Program)
open Host.Program

variable {α β : Type} {c : Client} {h : List Deed}

/-! ## Lines -/

/-- The line that a deed writes, if it writes one, and what comes of it. -/
def line? : Deed → Option (String × Except String Unit)
  | ⟨.print line, reply⟩ => some (line, reply)
  | _ => none

/-- The lines that are to be written in a history, with what comes of them. -/
def lines (h : List Deed) : List (String × Except String Unit) :=
  h.filterMap line?

@[simp] theorem lines_nil : lines [] = [] := rfl

@[simp] theorem lines_append (h₁ h₂ : List Deed) : lines (h₁ ++ h₂) = lines h₁ ++ lines h₂ :=
  List.filterMap_append

@[simp] theorem lines_printing (line : String) (reply : Except String Unit) (h : List Deed) :
    lines (printing line reply :: h) = (line, reply) :: lines h := rfl

/-- A line is the end of a command if the output does not take it. -/
theorem returns_line_seq {line : String} {t : Task α} {r : Except Error α}
    (hr : Program.Returns (printLine line >>= fun _ => t).run h r) :
    (∃ reason, h = [printing line (.error reason)] ∧ r = .error (.output reason)) ∨
      ∃ h', h = printing line (.ok ()) :: h' ∧ Program.Returns t.run h' r := by
  rcases returns_seq_iff.mp hr with ⟨e, rfl, hprint⟩ | ⟨h₁, h₂, u, rfl, hprint, hrest⟩
  -- The output has refused the line, or has taken it and the task goes on.
  · obtain ⟨reply, rfl, hreply⟩ := returns_printLine_iff.mp hprint
    cases reply with
    | ok u => cases hreply
    | error reason =>
        cases hreply
        exact Or.inl ⟨reason, rfl, rfl⟩
  · obtain ⟨reply, rfl, hreply⟩ := returns_printLine_iff.mp hprint
    cases reply with
    | error reason => cases hreply
    | ok u => exact Or.inr ⟨h₂, rfl, hrest⟩

/-! ## Silence -/

/-- Nothing is written, whatever the answers are. -/
def Wordless (p : Program α) : Prop :=
  ∀ h a, p.Returns h a → lines h = []

theorem wordless_done (a : α) : Wordless (.done a) := by
  intro h b hr
  obtain ⟨rfl, -⟩ := returns_done_iff.mp hr
  rfl

/-- Two programs that write nothing write nothing together. -/
theorem wordless_bind {p : Program α} {f : α → Program β} (hp : Wordless p)
    (hf : ∀ a, Wordless (f a)) : Wordless (p >>= f) := by
  intro h b hr
  obtain ⟨h₁, h₂, a, rfl, hfirst, hrest⟩ := returns_bind_iff.mp hr
  rw [lines_append, hp h₁ a hfirst, hf a h₂ b hrest, List.append_nil]

/-- Only to print is to write. -/
theorem wordless_ask {e : Effect} (hsilent : ∀ line, e ≠ .print line) : Wordless (ask e) := by
  intro h a hr
  obtain rfl := returns_ask_iff.mp hr
  cases e with
  | print line => exact absurd rfl (hsilent line)
  | draw | exchange | note | fileBytes | clock => rfl

theorem wordless_note (e : Event) : Wordless (note e) :=
  wordless_ask nofun

section

variable {ε : Type} {x : ExceptT ε Program α}

/-- Attempts in a sequence write nothing if none of them does. -/
theorem wordless_seq {f : α → ExceptT ε Program β} (hx : Wordless x.run)
    (hf : ∀ a, Wordless (f a).run) : Wordless (x >>= f).run := by
  rw [ExceptT.run_bind]
  refine wordless_bind hx fun r => ?_
  cases r with
  | error e => exact wordless_done _
  | ok a => exact hf a

theorem wordless_lift {p : Program α} (hp : Wordless p) :
    Wordless (ExceptT.lift p : ExceptT ε Program α).run :=
  wordless_bind hp fun _ => wordless_done _

end

/-- To draw an identifier is to write nothing. -/
theorem newHeader_wordless (c : Client) : Wordless c.newHeader.run := by
  refine wordless_seq (wordless_lift (wordless_ask nofun)) fun drawn => ?_
  change Except String Call.Draw at drawn
  cases drawn with
  | error reason => exact wordless_done _
  | ok d => exact wordless_done _

/-- What is shown is shown to the log. -/
theorem showing_wordless (c : Client) (e : Event) : Wordless (c.showing e) := by
  unfold Client.showing
  split
  · exact wordless_note e
  · exact wordless_done _

/-- A call writes nothing, whatever is replied to it. -/
theorem invoke_wordless (c : Client) (op : Call.Operation) (r : op.Request) :
    Wordless (c.invoke op r).run := by
  rw [invoke_eq]
  refine wordless_seq (wordless_lift (showing_wordless c _)) fun _ => ?_
  refine wordless_seq (wordless_lift (wordless_ask nofun)) fun reply => ?_
  change Except String (List UInt8) at reply
  -- The reply is shown if there is one, and noted if it can be read.
  cases reply with
  | error reason => exact wordless_done _
  | ok body =>
      refine wordless_seq (wordless_lift (showing_wordless c _)) fun _ => ?_
      split
      · exact wordless_done _
      · exact wordless_seq (wordless_lift (wordless_note _)) fun _ => wordless_done _

theorem requireSuccess_wordless (op : Call.Operation) (r : op.Response) :
    Wordless (requireSuccess op r).run := by
  unfold requireSuccess
  dsimp only
  split
  · exact wordless_done _
  · exact wordless_done _

/-- No operation of a client writes anything. -/
theorem errand_wordless (c : Client) (e : Errand) : Wordless (e.attempt c).run := by
  cases e with
  | query iccid =>
      refine wordless_seq (newHeader_wordless c) fun header => ?_
      -- No entry, one entry or more of them.
      refine wordless_seq (invoke_wordless c _ _) fun response => ?_
      split
      · exact wordless_seq (wordless_lift (wordless_note _)) fun _ => wordless_done _
      · split
        · exact wordless_done _
        · exact wordless_done _
      · exact wordless_done _
  | recover iccid target =>
      exact wordless_seq (newHeader_wordless c) fun header => invoke_wordless c _ _
  | cancel iccid target =>
      exact wordless_seq (newHeader_wordless c) fun header => invoke_wordless c _ _
  | download iccid =>
      refine wordless_seq (newHeader_wordless c) fun header => ?_
      exact wordless_seq (invoke_wordless c _ _) (requireSuccess_wordless .downloadOrder)
  | confirm iccid =>
      refine wordless_seq (newHeader_wordless c) fun header => ?_
      exact wordless_seq (invoke_wordless c _ _) (requireSuccess_wordless .confirmOrder)

/-- What is made of errands writes nothing. -/
theorem wordless_of_made {allowed : Errand → Prop} {x : Attempt α} (hmade : Made c allowed x) :
    Wordless x.run := by
  induction hmade with
  | pure a => exact wordless_done _
  | throw e => exact wordless_done _
  | note e => exact wordless_lift (wordless_note e)
  | errand e hallowed => exact errand_wordless c e
  | seq first others ihfirst ihothers => exact wordless_seq ihfirst ihothers

end ProfileAdmin.Command
