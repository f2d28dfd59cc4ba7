import ProfileAdmin.Proofs.Config.Endpoint
import ProfileAdmin.Proofs.Text.Blank

/-!
# Proofs.Config.Validity — which settings are usable

1. **Endpoints** that name a host and a port, and what is wrong with all others.
2. **Complaints**: what is told of settings, which is the first thing that is wrong with them.
   Nothing but the endpoint and the requester is looked at.
-/

namespace ProfileAdmin.Config

open Text (Blank Numeral isBlank numeral?_eq_some_iff trimChars_eq_nil_iff)

variable {s : Settings} {f : Flaw} {cs host port : List Char} {text : String}

/-! ## Endpoints -/

/-- A host, then the last colon, then a port. -/
def NamesPort (cs : List Char) : Prop :=
  ∃ host port n, cs = host ++ ':' :: port ∧ host ≠ [] ∧ ':' ∉ port ∧ Numeral portBound port n

/-- What is wrong with an endpoint that names no port. -/
inductive Misnamed (cs : List Char) : Prop where
  | unparted (none : ':' ∉ cs)
  | hostless (port : List Char) (parted : cs = ':' :: port) (last : ':' ∉ port)
  | portless (host port : List Char) (parted : cs = host ++ ':' :: port) (hosted : host ≠ [])
      (last : ':' ∉ port) (invalid : ¬ ∃ n, Numeral portBound port n)

/-- Either an endpoint names a port, or one of three things is wrong with it. -/
theorem namesPort_or (cs : List Char) : NamesPort cs ∨ Misnamed cs := by
  by_cases hcolon : ':' ∈ cs
  · obtain ⟨host, port, hparted, hlast⟩ := exists_last_colon hcolon
    by_cases hhost : host = []
    · subst hhost
      exact Or.inr (Misnamed.hostless port hparted hlast)
    by_cases hport : ∃ n, Numeral portBound port n
    · obtain ⟨n, hnumeral⟩ := hport
      exact Or.inl ⟨host, port, n, hparted, hhost, hlast, hnumeral⟩
    · exact Or.inr (Misnamed.portless host port hparted hhost hlast hport)
  · exact Or.inr (Misnamed.unparted hcolon)

theorem isNone_numeral? (h : ¬ ∃ n, Numeral portBound port n) :
    (Text.numeral? portBound port).isNone = true := by
  rw [Option.isNone_iff_eq_none, Option.eq_none_iff_forall_ne_some]
  intro n hn
  exact h ⟨n, numeral?_eq_some_iff.mp hn⟩

/-! ## Complaints -/

/-- The first thing that is wrong with settings, and how it is told. The endpoint comes before the
requester, and the host before the port. -/
inductive Complaint (s : Settings) : Flaw → String → Prop where
  | noPort (none : ':' ∉ s.endpoint.toList) :
      Complaint s (.noPort s.endpoint) s!"endpoint '{s.endpoint}' must be host:port"
  | noHost (port : List Char) (parted : s.endpoint.toList = ':' :: port) (last : ':' ∉ port) :
      Complaint s (.noHost s.endpoint) s!"endpoint '{s.endpoint}' has no host"
  | invalidPort (host port : List Char) (parted : s.endpoint.toList = host ++ ':' :: port)
      (hosted : host ≠ []) (last : ':' ∉ port) (invalid : ¬ ∃ n, Numeral portBound port n) :
      Complaint s (.invalidPort s.endpoint) s!"endpoint '{s.endpoint}' has an invalid port"
  | noRequester (named : NamesPort s.endpoint.toList)
      (blank : ∀ c ∈ s.requester.toList, isBlank c = true) :
      Complaint s .noRequester "requester_id must not be empty"

/-- Each flaw is told in words of its own. -/
theorem Complaint.message_eq (h : Complaint s f text) : f.message = text := by
  cases h <;> rfl

/-- An endpoint that names a port leaves the requester to be looked at. -/
theorem NamesPort.flaw?_eq (h : NamesPort s.endpoint.toList) :
    s.flaw? = if (Text.trimChars s.requester.toList).isEmpty then some .noRequester else none := by
  obtain ⟨host, port, n, hparted, hhost, hlast, hnumeral⟩ := h
  have hcut : atLastColon? s.endpoint.toList = some (host, port) :=
    atLastColon?_eq_some_iff.mpr ⟨hparted, hlast⟩
  have hvalue : Text.numeral? portBound port = some n := numeral?_eq_some_iff.mpr hnumeral
  have hhosted : ¬ host.isEmpty = true := mt List.isEmpty_iff.mp hhost
  unfold Settings.flaw?
  rw [hcut]
  dsimp only
  rw [if_neg hhosted, hvalue, if_neg (by simp)]

/-- What there is to complain about is what is found. -/
theorem Complaint.flaw?_eq (h : Complaint s f text) : s.flaw? = some f := by
  cases h with
  | noPort hnone =>
      unfold Settings.flaw?
      rw [atLastColon?_of_not_mem hnone]
  | noHost port hparted hlast =>
      have hcut : atLastColon? s.endpoint.toList = some ([], port) :=
        atLastColon?_eq_some_iff.mpr ⟨hparted, hlast⟩
      unfold Settings.flaw?
      rw [hcut]
      rfl
  -- The port is looked at when there is a host.
  | invalidPort host port hparted hhost hlast hinvalid =>
      have hcut : atLastColon? s.endpoint.toList = some (host, port) :=
        atLastColon?_eq_some_iff.mpr ⟨hparted, hlast⟩
      have hhosted : ¬ host.isEmpty = true := mt List.isEmpty_iff.mp hhost
      unfold Settings.flaw?
      rw [hcut]
      dsimp only
      rw [if_neg hhosted, if_pos (isNone_numeral? hinvalid)]
  | noRequester hnamed hblank =>
      have hempty : Text.trimChars s.requester.toList = [] := trimChars_eq_nil_iff.mpr hblank
      rw [hnamed.flaw?_eq, hempty]
      rfl

/-- Settings have something to complain about, or they name a port and somebody who asks. -/
theorem complaint_or (s : Settings) :
    (∃ f text, Complaint s f text) ∨
      (NamesPort s.endpoint.toList ∧ ∃ c ∈ s.requester.toList, isBlank c = false) := by
  rcases namesPort_or s.endpoint.toList with hnamed | hmisnamed
  · by_cases hblank : ∀ c ∈ s.requester.toList, isBlank c = true
    · exact Or.inl ⟨_, _, Complaint.noRequester hnamed hblank⟩
    · push Not at hblank
      obtain ⟨c, hc, hother⟩ := hblank
      exact Or.inr ⟨hnamed, c, hc, Bool.eq_false_iff.mpr hother⟩
  · -- Whatever is wrong with the endpoint comes first.
    refine Or.inl ?_
    cases hmisnamed with
    | unparted hnone => exact ⟨_, _, Complaint.noPort hnone⟩
    | hostless port hparted hlast => exact ⟨_, _, Complaint.noHost port hparted hlast⟩
    | portless host port hparted hhost hlast hinvalid =>
        exact ⟨_, _, Complaint.invalidPort host port hparted hhost hlast hinvalid⟩

/-- Nothing is found where there is nothing to complain about. -/
theorem flaw?_eq_none_of_named (hnamed : NamesPort s.endpoint.toList)
    (hasks : ∃ c ∈ s.requester.toList, isBlank c = false) : s.flaw? = none := by
  obtain ⟨c, hc, hother⟩ := hasks
  have hfull : Text.trimChars s.requester.toList ≠ [] := by
    intro hempty
    have hblank : isBlank c = true := trimChars_eq_nil_iff.mp hempty c hc
    rw [hother] at hblank
    cases hblank
  rw [hnamed.flaw?_eq, if_neg (mt List.isEmpty_iff.mp hfull)]

/-- Settings are usable exactly if the endpoint consists of a host, a colon and a port behind it,
and the requester is not blank. A host may hold colons itself; a port is a number of sixteen bits
in decimal digits, with any number of noughts and possibly a plus sign in front. Of settings that
are not usable the first flaw is told. It makes no difference what the files are, how the server is
verified, and what is shown. -/
theorem settings_firstFlaw (s : Settings) :
    (s.flaw? = none ↔
      NamesPort s.endpoint.toList ∧ ∃ c ∈ s.requester.toList, isBlank c = false) ∧
    (∀ f, s.flaw? = some f ↔ Complaint s f f.message) ∧
    ∀ certificate key verification debugging,
      Settings.flaw? { s with certificate, key, verification, debugging } = s.flaw? := by
  refine ⟨?_, ?_, ?_⟩
  · constructor
    · intro hnone
      rcases complaint_or s with ⟨f, text, hcomplaint⟩ | husable
      · rw [hcomplaint.flaw?_eq] at hnone
        cases hnone
      · exact husable
    · rintro ⟨hnamed, hasks⟩
      exact flaw?_eq_none_of_named hnamed hasks
  · intro f
    constructor
    · intro hflaw
      rcases complaint_or s with ⟨f', text, hcomplaint⟩ | ⟨hnamed, hasks⟩
      · -- Only one flaw is told, so it is this one, and the wording is its own.
        have hsame : f' = f := Option.some.inj (hcomplaint.flaw?_eq.symm.trans hflaw)
        subst hsame
        rw [hcomplaint.message_eq]
        exact hcomplaint
      · rw [flaw?_eq_none_of_named hnamed hasks] at hflaw
        cases hflaw
    · intro hcomplaint
      exact hcomplaint.flaw?_eq
  · intro certificate key verification debugging
    exact flaw?_congr rfl rfl

example : (settingsAt "[::1]:+008443").flaw? = none := by decide

example : (settingsAt "smdp.example:65536").flaw? = some (.invalidPort "smdp.example:65536") := by
  decide

end ProfileAdmin.Config
