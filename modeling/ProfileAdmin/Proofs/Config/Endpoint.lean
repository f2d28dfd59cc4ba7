import Mathlib.Data.List.TakeWhile
import ProfileAdmin.Config.Settings
import ProfileAdmin.Proofs.Text.Numeral

/-!
# Proofs.Config.Endpoint — the endpoints that settings may name

1. **Parting** at the last colon.
2. **Acceptance**: settings without a flaw name a host and a port, and a requester. The port may
   have a sign.
-/

namespace ProfileAdmin.Config

open Text (Digits Numeral numeral?_eq_some_iff)

variable {cs host port : List Char}

/-! ## Parting -/

/-- A text with a colon has a last one. -/
theorem exists_last_colon (h : ':' ∈ cs) : ∃ host port, cs = host ++ ':' :: port ∧ ':' ∉ port := by
  obtain ⟨port, host, hreverse, hport⟩ := List.eq_append_cons_of_mem (List.mem_reverse.mpr h)
  refine ⟨host.reverse, port.reverse, ?_, fun hmem => hport (List.mem_reverse.mp hmem)⟩
  rw [← List.reverse_inj, hreverse]
  simp

/-- A text is parted at a colon behind which there is none. -/
theorem atLastColon?_append (hport : ':' ∉ port) :
    atLastColon? (host ++ ':' :: port) = some (host, port) := by
  -- The text is read from its end, so the port is what comes first.
  have hother : ∀ c ∈ port.reverse, (c != ':') = true := by
    intro c hc
    refine bne_iff_ne.mpr ?_
    rintro rfl
    exact hport (List.mem_reverse.mp hc)
  have hreverse : (host ++ ':' :: port).reverse = port.reverse ++ ':' :: host.reverse := by simp
  unfold atLastColon?
  rw [hreverse, List.dropWhile_append_of_pos hother, List.takeWhile_append_of_pos hother]
  simp

/-- Without a colon it is not parted. -/
theorem atLastColon?_of_not_mem (h : ':' ∉ cs) : atLastColon? cs = none := by
  have hrest : cs.reverse.dropWhile (· != ':') = [] := by
    refine List.dropWhile_eq_nil_iff.mpr fun c hc => bne_iff_ne.mpr ?_
    rintro rfl
    exact h (List.mem_reverse.mp hc)
  unfold atLastColon?
  rw [hrest]

/-- A text is parted in one way: before and behind its last colon. -/
theorem atLastColon?_eq_some_iff :
    atLastColon? cs = some (host, port) ↔ cs = host ++ ':' :: port ∧ ':' ∉ port := by
  constructor
  · intro hparted
    by_cases hcolon : ':' ∈ cs
    · obtain ⟨host', port', rfl, hport'⟩ := exists_last_colon hcolon
      rw [atLastColon?_append hport'] at hparted
      cases hparted
      exact ⟨rfl, hport'⟩
    · rw [atLastColon?_of_not_mem hcolon] at hparted
      cases hparted
  · rintro ⟨rfl, hport⟩
    exact atLastColon?_append hport

/-! ## Acceptance -/

/-- Only the endpoint and the requester can have flaws. -/
theorem flaw?_congr {s s' : Settings} (hendpoint : s.endpoint = s'.endpoint)
    (hrequester : s.requester = s'.requester) : s.flaw? = s'.flaw? := by
  unfold Settings.flaw?
  rw [hendpoint, hrequester]

/-- If there is a colon, there must be a host, a port and a requester. -/
theorem flaw?_of_parted {s : Settings} (h : atLastColon? s.endpoint.toList = some (host, port)) :
    s.flaw? = none ↔ host ≠ [] ∧ (∃ n, Numeral portBound port n) ∧
      Text.trimChars s.requester.toList ≠ [] := by
  have hnumeral : Text.numeral? portBound port ≠ none ↔ ∃ n, Numeral portBound port n := by
    simp only [← numeral?_eq_some_iff]
    exact Option.ne_none_iff_exists'
  unfold Settings.flaw?
  rw [h, ← hnumeral]
  by_cases hhost : host = []
  · simp [hhost]
  by_cases hport : Text.numeral? portBound port = none
  · simp [hhost, hport]
  simp [hhost, hport]

/-- Settings without a flaw name a host and a port, and somebody who asks. -/
theorem flaw?_eq_none_iff {s : Settings} :
    s.flaw? = none ↔
      (∃ host port n, s.endpoint.toList = host ++ ':' :: port ∧ host ≠ [] ∧
        Numeral portBound port n) ∧ Text.trimChars s.requester.toList ≠ [] := by
  constructor
  · intro hnone
    by_cases hcolon : ':' ∈ s.endpoint.toList
    · obtain ⟨host, port, hendpoint, hport⟩ := exists_last_colon hcolon
      have hparted := atLastColon?_eq_some_iff.mpr ⟨hendpoint, hport⟩
      obtain ⟨hhost, ⟨n, hnumeral⟩, hrequester⟩ := (flaw?_of_parted hparted).mp hnone
      exact ⟨⟨host, port, n, hendpoint, hhost, hnumeral⟩, hrequester⟩
    · unfold Settings.flaw? at hnone
      rw [atLastColon?_of_not_mem hcolon] at hnone
      cases hnone
  · rintro ⟨⟨host, port, n, hendpoint, hhost, hnumeral⟩, hrequester⟩
    -- A numeral has no colon, so this is the last one.
    have hport : ':' ∉ port := hnumeral.not_mem rfl (by decide)
    have hparted := atLastColon?_eq_some_iff.mpr ⟨hendpoint, hport⟩
    exact (flaw?_of_parted hparted).mpr ⟨hhost, ⟨n, hnumeral⟩, hrequester⟩

/-- A host, a colon, and a port in decimal digits. -/
def HostPort (cs : List Char) : Prop :=
  ∃ host port n, cs = host ++ ':' :: port ∧ host ≠ [] ∧ Digits port n ∧ n < portBound

/-- A sign comes first behind the last colon. -/
def SignsPort (cs : List Char) : Prop :=
  ∃ host port, cs = host ++ ':' :: '+' :: port ∧ ':' ∉ port

/-- The sign is the first character behind the last colon. -/
theorem signsPort_iff :
    SignsPort cs ↔ ∃ parts, atLastColon? cs = some parts ∧ parts.2.head? = some '+' := by
  constructor
  · rintro ⟨host, port, rfl, hport⟩
    have hcolon : ':' ∉ '+' :: port := List.not_mem_cons_of_ne_of_not_mem (by decide) hport
    exact ⟨(host, '+' :: port), atLastColon?_append hcolon, rfl⟩
  · rintro ⟨⟨host, port⟩, hparted, hsign⟩
    obtain ⟨rfl, hcolon⟩ := atLastColon?_eq_some_iff.mp hparted
    obtain ⟨rest, rfl⟩ := List.head?_eq_some_iff.mp hsign
    exact ⟨host, rest, rfl, List.not_mem_of_not_mem_cons hcolon⟩

instance (cs : List Char) : Decidable (SignsPort cs) :=
  decidable_of_iff (((atLastColon? cs).any fun parts => parts.2.head? == some '+') = true) <| by
    rw [signsPort_iff, Option.any_eq_true]
    simp only [beq_iff_eq]

/-- Settings without a flaw may write a sign before the port. Otherwise its digits are all that
there is. -/
theorem hostPort_iff_of_flawless {s : Settings} (h : s.flaw? = none) :
    HostPort s.endpoint.toList ↔ ¬ SignsPort s.endpoint.toList := by
  obtain ⟨⟨host, port, n, hendpoint, hhost, hnumeral⟩, -⟩ := flaw?_eq_none_iff.mp h
  have hparted : atLastColon? s.endpoint.toList = some (host, port) :=
    atLastColon?_eq_some_iff.mpr ⟨hendpoint, hnumeral.not_mem rfl (by decide)⟩
  have hsigned : SignsPort s.endpoint.toList ↔ port.head? = some '+' := by
    rw [signsPort_iff, hparted]
    simp
  rw [hsigned]
  constructor
  · -- Digits have no colon, so these are the ones behind the last colon.
    rintro ⟨host', digits, n', hdigits, -, hvalue, -⟩
    have hparted' := atLastColon?_eq_some_iff.mpr ⟨hdigits, hvalue.not_mem (c := ':') rfl⟩
    cases hparted.symm.trans hparted'
    exact hvalue.head?_ne rfl
  · intro hunsigned
    have hdigits : Digits port n := hnumeral.digits hunsigned
    obtain ⟨-, -, -, hbound⟩ := hnumeral
    exact ⟨host, port, n, hendpoint, hhost, hdigits, hbound⟩

/-- The settings of a requester at an endpoint. -/
def settingsAt (endpoint : String) : Settings where
  endpoint := endpoint
  requester := "ACME"
  certificate := "client.crt"
  key := "client.key"

end ProfileAdmin.Config
