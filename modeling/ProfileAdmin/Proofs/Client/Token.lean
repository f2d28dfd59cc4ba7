import ProfileAdmin.Proofs.Client.Course
import ProfileAdmin.Proofs.Client.Endpoint

/-!
# Proofs.Client.Token — steps for a profile that carries a token

1. **Sparing**: nothing is changed while the last report has a token for the profile.
2. **Outlines**: what an activation sends between its first query and its last.
3. **Exception**: a token is looked for in the first report only. One that shows up after
   the download, while the profile is reported as allocated, does not stop the
   confirmation; nothing else makes an activation change a profile with a token.
-/

namespace ProfileAdmin.Client

open Call
open Profile

variable {c : Client} {iccid : String} {status : Status} {xs ys zs : List Exchange}

/-! ## Sparing -/

/-- The last status query, with its reply. -/
def lastQuery? (before : List Exchange) : Option Exchange :=
  (before.filter fun x => x.op = .getProfileStatus).getLast?

/-- Whether a profile is reported with a token. -/
def Exchange.reportsToken (x : Exchange) (iccid : String) : Bool :=
  (x.report?.getD []).any fun s => s.iccid = iccid ∧ s.isActivated

/-- No request changes a profile that was last reported with a token. -/
def SparesTokens (iccid : String) (xs : List Exchange) : Prop :=
  Throughout (fun before x => x.op.isMutating = true →
    ∀ q ∈ lastQuery? before, q.reportsToken iccid = false) xs

instance : Decidable (SparesTokens iccid xs) :=
  inferInstanceAs (Decidable (Throughout _ xs))

/-- A query that comes last is the last query. -/
theorem lastQuery?_concat {x : Exchange} (before : List Exchange) (hop : x.op = .getProfileStatus) :
    lastQuery? (before ++ [x]) = some x := by
  simp [lastQuery?, hop]

/-- A report with one entry reports a token exactly if the entry has one. -/
theorem reportsToken_of_status? {x : Exchange} (hx : x.status? = some status)
    (hsame : status.iccid = iccid) : x.reportsToken iccid = status.isActivated := by
  rw [Exchange.status?_eq_some_iff] at hx
  simp [Exchange.reportsToken, hx, hsame]

/-- Queries change nothing. -/
theorem sparesTokens_append_queries (hz : ∀ z ∈ zs, z.op = .getProfileStatus) :
    SparesTokens iccid (xs ++ zs) ↔ SparesTokens iccid xs := by
  unfold SparesTokens
  rw [throughout_append]
  refine and_iff_left fun i hi hop => ?_
  rw [hz _ (List.getElem_mem hi)] at hop
  cases hop

/-- A request after a query is to be judged by the reply. -/
theorem sparesTokens_append_query (xs : List Exchange) {q x : Exchange}
    (hq : q.status? = some status) (hsame : status.iccid = iccid) (hx : x.op.isMutating = true) :
    SparesTokens iccid (xs ++ [q] ++ [x]) ↔ SparesTokens iccid xs ∧ status.isActivated = false := by
  have hop := Exchange.op_of_status? hq
  have hspared : SparesTokens iccid (xs ++ [q]) ↔ SparesTokens iccid xs :=
    sparesTokens_append_queries (by simp [hop])
  rw [← hspared]
  conv => lhs; unfold SparesTokens
  rw [throughout_append, throughout_singleton]
  refine and_congr_right fun _ => ?_
  simp [lastQuery?_concat xs hop, hx, reportsToken_of_status? hq hsame]

/-! ## Outlines -/

/-- What is sent between the first query and the last: nothing, one order, a download and the
query behind it, or these two and the confirmation. -/
inductive Outline (iccid : String) (first : Status) :
    List Exchange → Except Error (Disposition × List Step) → Prop where
  | none {r : Except Error (Disposition × List Step)} : Outline iccid first [] r
  | one {x : Exchange} {r : Except Error (Disposition × List Step)}
      (bare : first.isActivated = false) (mutating : x.op.isMutating = true) :
      Outline iccid first [x] r
  /-- The loop goes no further, or the query failed. -/
  | two {d q : Exchange} {r : Except Error (Disposition × List Step)}
      (bare : first.isActivated = false) (order : d.op = .downloadOrder)
      (query : q.op = .getProfileStatus)
      (held : ∀ p s, r = .ok p → q.status? = some s → s.state ≠ State.allocated.name) :
      Outline iccid first [d, q] r
  | three {d q k : Exchange} {s : Status} {r : Except Error (Disposition × List Step)}
      (bare : first.isActivated = false) (order : d.op = .downloadOrder)
      (query : q.status? = some s) (same : s.iccid = iccid)
      (reported : s.state = State.allocated.name) (order' : k.op = .confirmOrder) :
      Outline iccid first [d, q, k] r

/-- The ways through the lifecycle have one of the four outlines. -/
theorem Way.outline {first : Status} {r : Except Error (Disposition × List Step)}
    (bare : first.isActivated = false) (h : Way c iccid first ys r) : Outline iccid first ys r := by
  have hmutating : ∀ step : Step, step.operation.isMutating = true := by
    intro step
    cases step <;> rfl
  cases h with
  | rest ends => exact Outline.none
  | confirm reported order | undelivered reported order =>
      rcases order.eq_nil_or_singleton with rfl | ⟨x, rfl, hop, -⟩
      · exact Outline.none
      · exact Outline.one bare (hop ▸ hmutating _)
  | unseen reported order query =>
      obtain ⟨d, rfl, hop, -⟩ := order.eq_singleton_of_ok
      rcases query.eq_nil_or_singleton with rfl | ⟨q, rfl, hquery, -⟩
      · exact Outline.one bare (hop ▸ hmutating _)
      · exact Outline.two bare hop hquery nofun
  | download reported order query reported' ends =>
      obtain ⟨d, rfl, hop, -⟩ := order.eq_singleton_of_ok
      obtain ⟨q, rfl, hquery, -, hq, -⟩ := query.eq_singleton_of_ok
      refine Outline.two bare hop hquery fun p s _ hs => ?_
      obtain rfl : _ = s := Option.some.inj (hq.symm.trans hs)
      exact reported'
  | both reported order query reported' order' =>
      obtain ⟨d, rfl, hop, -⟩ := order.eq_singleton_of_ok
      obtain ⟨q, rfl, hquery, -, hq, hsame⟩ := query.eq_singleton_of_ok
      -- The confirmation is sent or not, but nothing comes behind it.
      cases order' with
      | unsent reason => exact Outline.two bare hop hquery nofun
      | refused declined => exact Outline.three bare hop hq hsame reported' rfl
      | accepted declared => exact Outline.three bare hop hq hsame reported' rfl

/-- A profile that is left alone has the shortest of them. -/
theorem Driven.outline {first : Status} {r : Except Error (Disposition × List Step)}
    (h : Driven c iccid first ys r) : Outline iccid first ys r := by
  cases h with
  | spared token => exact Outline.none
  | driven bare course => exact course.way.outline bare

/-! ## Exception -/

/-- After a download, the profile was reported as allocated and with a token, and yet another
request went out. -/
def TokenAfterDownload : List Exchange → Prop
  | _ :: d :: q :: _ :: _ => d.op = .downloadOrder ∧
    ∃ s, q.status? = some s ∧ s.state = "ALLOCATED" ∧ s.isActivated = true
  | _ => False

/-- What comes after the outline is the last query, if the loop ended well. -/
theorem Outline.sparesTokens_iff {first : Status} {q : Exchange}
    {r : Except Error (Disposition × List Step)} (hq : q.status? = some first)
    (hsame : first.iccid = iccid) (h : Outline iccid first ys r)
    (hz : zs = [] ∨ (∃ p, r = .ok p) ∧ ∃ z, zs = [z] ∧ z.op = .getProfileStatus) :
    SparesTokens iccid ([q] ++ ys ++ zs) ↔ ¬ TokenAfterDownload ([q] ++ ys ++ zs) := by
  -- The last query changes nothing, so only what comes before it can break the rule.
  have hqueries : SparesTokens iccid ([q] ++ ys ++ zs) ↔ SparesTokens iccid ([q] ++ ys) := by
    refine sparesTokens_append_queries fun z hmem => ?_
    rcases hz with rfl | ⟨-, z', rfl, hop⟩
    · cases hmem
    · rwa [List.mem_singleton.mp hmem]
  have hone : ∀ x : Exchange, x.op.isMutating = true → first.isActivated = false →
      SparesTokens iccid ([q] ++ [x]) := by
    intro x hx hbare
    exact (sparesTokens_append_query [] hq hsame hx).mpr ⟨throughout_nil, hbare⟩
  rw [hqueries]
  cases h with
  | none =>
      have hspared : SparesTokens iccid ([] ++ [q]) :=
        (sparesTokens_append_queries (by simp [Exchange.op_of_status? hq])).mpr throughout_nil
      refine iff_of_true (by simpa using hspared) ?_
      rcases hz with rfl | ⟨-, z, rfl, -⟩ <;> simp [TokenAfterDownload]
  | one bare mutating =>
      refine iff_of_true (hone _ mutating bare) ?_
      rcases hz with rfl | ⟨-, z, rfl, -⟩ <;> simp [TokenAfterDownload]
  | @two d q' r bare order query held =>
      have hspared : SparesTokens iccid ([q] ++ [d] ++ [q']) :=
        (sparesTokens_append_queries (by simp [query])).mpr
          (hone d (by simp [order, Operation.isMutating]) bare)
      refine iff_of_true (by simpa using hspared) ?_
      rcases hz with rfl | ⟨⟨p, rfl⟩, z, rfl, -⟩
      · simp [TokenAfterDownload]
      · rintro ⟨-, s, hs, hallocated, -⟩
        exact held p s rfl hs hallocated
  | @three d q' k s r bare order query same reported order' =>
      -- The first report has no token, so the second one decides about the confirmation.
      have hd := hone d (by simp [order, Operation.isMutating]) bare
      have hlist : [q] ++ [d, q', k] = [q] ++ [d] ++ [q'] ++ [k] := rfl
      have hmutating : k.op.isMutating = true := by
        rw [order']
        rfl
      rw [hlist, sparesTokens_append_query ([q] ++ [d]) query same hmutating, and_iff_right hd]
      rcases hz with rfl | ⟨-, z, rfl, -⟩ <;>
        simp [TokenAfterDownload, order, query, reported, State.name]

/-- An activation changes a profile that was last reported with a token exactly if the token
shows up after the download. -/
theorem Run.sparesTokens_iff {r : Except Error Activation} (h : Run c iccid xs r) :
    SparesTokens iccid xs ↔ ¬ TokenAfterDownload xs := by
  cases h with
  | unread query =>
      rcases query.eq_nil_or_singleton with rfl | ⟨q, rfl, hop, -⟩
      · exact iff_of_true throughout_nil (by simp [TokenAfterDownload])
      · have hspared : SparesTokens iccid ([] ++ [q]) :=
          (sparesTokens_append_queries (by simp [hop])).mpr throughout_nil
        exact iff_of_true (by simpa using hspared) (by simp [TokenAfterDownload])
  | broken query driven =>
      obtain ⟨q, rfl, -, -, hq, hsame⟩ := query.eq_singleton_of_ok
      simpa using driven.outline.sparesTokens_iff hq hsame (Or.inl rfl)
  | unseen query driven reread | ended query driven reread =>
      obtain ⟨q, rfl, -, -, hq, hsame⟩ := query.eq_singleton_of_ok
      refine driven.outline.sparesTokens_iff hq hsame ?_
      -- The last query was sent, or there was no draw for it.
      rcases reread.eq_nil_or_singleton with rfl | ⟨z, rfl, hop, -⟩
      · exact Or.inl rfl
      · exact Or.inr ⟨⟨_, rfl⟩, z, rfl, hop⟩

/-- Against any endpoint, an activation changes a profile that was last reported with a token
exactly if the profile is reported as allocated and with a token after the download. -/
theorem activate_sparesTokens_iff {σ : Type} (c : Client) (iccid : String)
    (answer : (e : Host.Effect) → σ → e.Answer × σ) (s : σ) :
    SparesTokens iccid (conversation answer (c.activate iccid) s) ↔
      ¬ TokenAfterDownload (conversation answer (c.activate iccid) s) :=
  (conversation_run answer s).sparesTokens_iff

/-- The token that shows up after the download does not stop the confirmation. -/
theorem activate_token_after_download : ¬ SparesTokens "8965030119040000067"
    (conversation (alone script still)
      (Client.activate ⟨"ACME", ⟨false, false⟩⟩ "8965030119040000067")
      ([reporting ⟨"8965030119040000067", "", "AVAILABLE", "", false, ""⟩, succeeding,
        reporting ⟨"8965030119040000067", "", "ALLOCATED", "1$smdp.example$TOKEN", false, ""⟩],
        ())) := by
  decide +kernel

end ProfileAdmin.Client
