import Sana.Shadow.Proof.Collector
import Sana.Shadow.Proof.Settlement
import Sana.Shadow.Revalidation

/-!
# A stored result digests to what it was sealed with

The outcome that is rebuilt from a row is the outcome that was collected, but for the error of a
violated budget, which is not digested: the settlement raises a flag that the collector never raises,
and the report leaves it out again. A collected row is never written again, so the digests agree in
every state a campaign can get to.
-/

namespace Sana.Shadow.Collector

open Sana.Lib Sana.Evidence

open Manifest (ShadowCase)

-- a statement about the characters of a list is decided along the list, not along all characters
attribute [local instance (10000)] List.decidableBAll List.decidableBEx

variable {b : CollectorBuiltins} {s s' : RunSourceSnapshot} {c : ShadowCase} {o : CollectionOutcome}

theorem Reordered.refl (s : RunSourceSnapshot) : Reordered s s :=
  ⟨rfl, .refl _, .refl _, .refl _, .refl _, .refl _, .refl _, .refl _, .refl _, .refl _, .refl _⟩

/-! ## What is collected -/

theorem eq_of_mem_raised {condition : Bool} {signal x : String} (h : x ∈ raised condition signal) :
    x = signal := by
  unfold raised at h
  split at h
  · exact List.mem_singleton.mp h
  · cases h

/-- The violation of a budget is no signal of the source. -/
theorem notMem_sourceSignals (usage : SettlementUsage) (gold : List GoldAssertion) (gap : Int) :
    "budget_violation" ∉ sourceSignals s (candidateSignals b s c usage gold) gap := by
  have hne : ∀ {condition : Bool} {signal : String}, "budget_violation" ≠ signal →
      "budget_violation" ∉ raised condition signal :=
    fun hne hmem => hne (eq_of_mem_raised hmem)
  simp only [sourceSignals, candidateSignals, List.mem_append, not_or]
  and_intros
  all_goals exact hne (by decide)

/-- A flag that is added to a sorted set and left out again. -/
theorem filter_sortedSet {flags extra : List String} {flag : String} (h : flag ∉ flags)
    (hextra : ∀ x ∈ extra, x = flag) :
    (sortedSet (sortedSet flags ++ extra)).filter (· ≠ flag) = sortedSet flags := by
  have hsorted : ∀ l : List String, (sortedSet l).Pairwise (· ≤ ·) := by
    intro l
    have hpairwise : (sortedSet l).Pairwise fun x y => decide (x ≤ y) = true := by
      refine List.pairwise_mergeSort ?_ ?_ _
      · intro x y z
        simpa only [decide_eq_true_eq] using le_trans
      · intro x y
        simpa only [Bool.or_eq_true, decide_eq_true_eq] using le_total x y
    exact hpairwise.imp fun hxy => of_decide_eq_true hxy
  have hmem : ∀ (l : List String) x, x ∈ sortedSet l ↔ x ∈ l := by
    intro l x
    rw [sortedSet, List.mem_mergeSort, List.mem_dedup]
  have hnodup : ∀ l : List String, (sortedSet l).Nodup := fun l =>
    (List.mergeSort_perm _ _).nodup_iff.mpr l.nodup_dedup
  refine List.Perm.eq_of_pairwise' ((hsorted _).filter _) (hsorted _) ?_
  rw [List.perm_ext_iff_of_nodup ((hnodup _).filter _) (hnodup _)]
  intro x
  rw [List.mem_filter, hmem, List.mem_append, hmem, decide_eq_true_eq]
  constructor
  · rintro ⟨hx | hx, hne⟩
    · exact hx
    · exact absurd (hextra x hx) hne
  · intro hx
    exact ⟨.inl hx, fun heq => h (heq ▸ hx)⟩

/-- What is known of an outcome that was collected. -/
structure Collected (b : CollectorBuiltins) (s : RunSourceSnapshot) (o : CollectionOutcome) :
    Prop where
  digest : sourceSnapshotDigest b s o = .ok o.sourceSnapshotDigest
  flags : ∃ flags, "budget_violation" ∉ flags ∧ o.errorSignalFlags = sortedSet flags
  gold : (o.goldAssertions.map (·.assertionId)).Nodup

theorem nodup_goldResults (claims : List SourceClaim) (evidence : List SourceEvidence)
    (sourceTerminalAt : Time) :
    ((goldResults b c claims evidence sourceTerminalAt).map (·.assertionId)).Nodup := by
  have hids : (c.goldAssertions.map (·.id)).Nodup := by
    have hvalid := c.valid
    simp only [Manifest.CaseFields.postInit, bind_ok_iff, check_eq_ok, decide_eq_true_eq] at hvalid
    obtain ⟨_, -, _, -, _, -, _, -, _, hids, -⟩ := hvalid
    exact hids
  unfold goldResults
  split_ifs
  · exact List.nodup_nil
  · rw [List.map_map]
    exact hids
  · rw [List.map_map]
    exact hids

theorem collected_ok {rate : CostRate} {version : Option String}
    (h : collectRunSnapshot b s c rate version = .ok o) : Collected b s o := by
  simp only [collectRunSnapshot, bind_ok_iff] at h
  obtain ⟨_, -, _, -, usage, -, digest, hdigest, ho⟩ := h
  obtain rfl := pure_ok_iff.mp ho
  exact ⟨hdigest, ⟨_, notMem_sourceSignals usage _ _, rfl⟩, nodup_goldResults _ _ _⟩

/-- The digest of a source is the same in every order of its rows. -/
theorem sourceSnapshotDigest_reordered (h : Reordered s s') (hids : DistinctIds s)
    (o : CollectionOutcome) : sourceSnapshotDigest b s' o = sourceSnapshotDigest b s o := by
  rw [sourceSnapshotDigest, sourceSnapshotDigest, digestPayload_reordered h hids]

/-! ## What is stored -/

/-- The outcome with the error a settlement left, and gold assertion rows as they are read. -/
def CollectionOutcome.filed (o : CollectionOutcome) (violated : Bool)
    (gold : List GoldAssertion) : CollectionOutcome :=
  { o with
    goldAssertions := gold
    errorClass := if violated then some .candidateDefect else o.errorClass
    errorCode := if violated then some "budget_violation" else o.errorCode }

/-- Neither the error nor the order of the gold assertion rows is digested. -/
theorem sourceSnapshotDigest_filed (violated : Bool) {gold : List GoldAssertion}
    (hgold : gold.Perm o.goldAssertions) (hnodup : (o.goldAssertions.map (·.assertionId)).Nodup) :
    sourceSnapshotDigest b s (o.filed violated gold) = sourceSnapshotDigest b s o := by
  have hsorted : gold.mergeSort (fun x y => decide (x.assertionId ≤ y.assertionId)) =
      o.goldAssertions.mergeSort fun x y => decide (x.assertionId ≤ y.assertionId) := by
    refine mergeSort_perm ?_ ?_ ?_ hgold
    · intro x y z
      simpa only [decide_eq_true_eq] using le_trans
    · intro x y
      simpa only [Bool.or_eq_true, decide_eq_true_eq] using le_total _ _
    · intro x hx y hy hxy hyx
      rw [decide_eq_true_eq] at hxy hyx
      exact List.inj_on_of_nodup_map hnodup hx hy (le_antisymm hxy hyx)
  rw [sourceSnapshotDigest, sourceSnapshotDigest, digestPayload, digestPayload,
    CollectionOutcome.filed, hsorted]

/-- The row holds an outcome that was collected from the source of its run. -/
structure Sealed (b : CollectorBuiltins) (source : Uuid → RunSourceSnapshot) (r : RunResult) :
    Prop where
  settled : r.reservationState = .settled
  stored : ∃ id s o, r.searchRunId = some id ∧ Reordered (source id) s ∧ Collected b s o ∧
    r.sourceSnapshotDigest = some o.sourceSnapshotDigest ∧ goldRows r = o.goldAssertions ∧
    ∀ gold, storedOutcome r gold = some (o.filed r.budgetViolation gold)

/-- Gold assertions with distinct names are inserted as they are. -/
theorem insertedGold_of_nodup {gold : List GoldAssertion}
    (h : (gold.map (·.assertionId)).Nodup) : insertedGold gold = gold := by
  refine (distinctBy_sublist _ gold).eq_of_length ?_
  have hcard := List.toFinset_card_of_nodup h
  rw [length_distinctBy, hcard, List.length_map]

/-- What is rebuilt from a collected row is what was collected. -/
theorem storedOutcome_collected {now : Time} {c : Campaign} {r : RunResult}
    (hterminal : r.sourceTerminalAt = some o.sourceTerminalAt)
    (hsettlement : r.settlement = (some o.sourceSnapshotDigest, o.usage))
    (hflags : ∃ flags, "budget_violation" ∉ flags ∧ o.errorSignalFlags = sortedSet flags)
    (gold : List GoldAssertion) :
    storedOutcome (collected now o.row c r).2 gold = some (o.filed r.budgetViolation gold) := by
  obtain ⟨flags, hnone, hflags⟩ := hflags
  -- with the flag of a violated budget or without it, the flags are those that were collected
  have hkept : ((collected now o.row c r).2.errorSignalFlags).filter (· ≠ "budget_violation") =
      o.errorSignalFlags := by
    have hextra : ∀ x ∈ (if r.budgetViolation then ["budget_violation"] else []),
        x = "budget_violation" := by
      split <;> simp
    have hfilter := filter_sortedSet hnone hextra
    rw [hflags, ← hfilter, ← hflags]
    cases hviolated : r.budgetViolation <;>
      simp [collected, hviolated, sortedSet, CollectionOutcome.row]
  have hterminal' : (collected now o.row c r).2.sourceTerminalAt = some o.sourceTerminalAt :=
    hterminal
  have hsettlement' : (collected now o.row c r).2.settlement =
      (some o.sourceSnapshotDigest, o.usage) := hsettlement
  obtain ⟨hdigest, husage⟩ := Prod.ext_iff.mp hsettlement'
  simp only [RunResult.settlement] at hdigest husage
  simp only [storedOutcome, hterminal', hdigest, husage, hkept]
  rfl

/-- A SHA-256 is filed as it is. -/
theorem strip_of_isSha256 {digest : String} (h : isSha256 digest = true) :
    Text.strip digest = digest := by
  simp only [isSha256, Bool.and_eq_true, List.all_eq_true, decide_eq_true_eq] at h
  have hplain : ∀ x ∈ "0123456789abcdef".toList, Text.isSpace x = false := by decide
  rw [Text.strip, Text.stripChars_of_forall fun x hx => hplain x (h.2 x hx), String.ofList_toList]

section Stored

variable {source : Uuid → RunSourceSnapshot} {db db' : Db} {now : Time}

/-- A row is what it was, or holds what is persisted. -/
theorem persistCollection_rows (hsha : isSha256 o.sourceSnapshotDigest = true)
    {lease : CollectorLease} {receipt : CollectionReceipt} (hcollected : Collected b s o)
    (hsource : Reordered (source lease.searchRunId) s)
    (h : persistCollection db now lease o.row = .ok (receipt, db')) {r : RunResult}
    (hr : r ∈ db'.results) : r ∈ db.results ∨ Sealed b source r := by
  unfold persistCollection at h
  obtain ⟨⟨c, r₀⟩, hrows, h⟩ := bind_ok_iff.mp h
  have hrows := lockedRows_ok hrows
  simp only [] at h
  split at h
  · simp only [bind_ok_iff, pure_ok_iff, Prod.mk.injEq] at h
    obtain ⟨_, _, _, _, _, rfl⟩ := h
    exact .inl hr
  simp only [bind_ok_iff, pure_ok_iff, Prod.mk.injEq, check_eq_ok] at h
  obtain ⟨_, -, _, hbound, digest, hdigest, ⟨c₁, r₁⟩, hset, _, -, _, -, _, hput, _, rfl⟩ := h
  have hfiled : digest = o.sourceSnapshotDigest := by
    simp only [sourceDigest, bind_ok_iff, pure_ok_iff] at hdigest
    obtain ⟨_, -, rfl⟩ := hdigest
    exact strip_of_isSha256 hsha
  obtain ⟨hsettled, hsettlement⟩ := settleRows_settlement hset
  have hsettling := settleRows_ok hset
  have hterminal := settling_terminalAt hsettling
  have hframe := hsettling.framed
  have hrun : r₁.searchRunId = r₀.searchRunId := by cases hsettling <;> rfl
  have hid : (collected now o.row c₁ r₁).2.id = r₀.id := hframe.same.id
  rcases (mem_put_results hrows.result_mem hid).mp (commit_ok hput ▸ hr) with rfl | hold
  · right
    rw [Bool.and_eq_true, decide_eq_true_eq, decide_eq_true_eq] at hbound
    obtain ⟨hdigest', husage⟩ := Prod.ext_iff.mp hsettlement
    refine ⟨hsettled, lease.searchRunId, s, o, hrun.trans hbound.2, hsource, hcollected,
      hdigest'.trans (congrArg some hfiled), ?_, fun gold => ?_⟩
    · exact insertedGold_of_nodup hcollected.gold
    · refine storedOutcome_collected hterminal (hsettlement.trans ?_) hcollected.flags gold
      rw [hfiled]
      rfl
  · exact .inl hold.1

/-! ## Over a run -/

section Rows

variable {op : Op} {c c' : Campaign} {r r' : RunResult}

/-- A collected row is not written again. -/
theorem change_frozen (h : Change op now c r c' r') (hst : r.schedulingState = .collected)
    (hsettled : r.reservationState = .settled) : r' = r := by
  have hnotactive : r.reservationState ≠ .active := by
    rw [hsettled]
    decide
  cases h with
  | held h _ => exact absurd hst (not_collected_of_open h.open_before)
  | bound _ hclaimed _ => exact absurd (hst.symm.trans hclaimed) (by decide)
  | attempted hbound _ => exact absurd (hst.symm.trans hbound) (by decide)
  | reserved _ _ _ hleased => exact absurd hst (not_collected_of_leased hleased)
  | refused _ hleased => exact absurd hst (not_collected_of_leased hleased)
  | released hactive _ => exact absurd hactive hnotactive
  | submitted _ hbound _ => exact absurd (hst.symm.trans hbound) (by decide)
  | failed _ hleased _ => exact absurd hst (not_collected_of_leased hleased)
  | settled _ _ h =>
      cases settleRows_ok h with
      | again _ => rfl
      | first _ hactive _ _ => exact absurd hactive hnotactive
  | sealed _ hsubmitted _ _ _ => exact absurd (hst.symm.trans hsubmitted) (by decide)
  | collected _ hsubmitted _ _ _ => exact absurd (hst.symm.trans hsubmitted) (by decide)

/-- Only `persist` collects. -/
theorem change_collects (h : Change op now c r c' r') (hst : r'.schedulingState = .collected) :
    r.schedulingState = .collected ∨ ∃ lease outcome, op = .persist lease outcome := by
  cases h with
  | held h _ => exact absurd hst (not_collected_of_open h.open_after)
  | bound _ _ _ => cases hst
  | attempted _ _ => exact .inl hst
  | reserved _ _ _ _ => exact .inl hst
  | refused _ _ => exact .inl hst
  | released _ _ => exact .inl hst
  | submitted _ _ _ => cases hst
  | failed _ _ _ => cases hst
  | settled _ _ h => exact .inl ((settling_measured (settleRows_ok h)).1 ▸ hst)
  | sealed _ _ _ _ h =>
      rw [(settling_measured (settleRows_ok h)).1] at hst
      cases hst
  | collected hop _ _ _ _ => exact .inr ⟨_, _, hop⟩

/-- A unit that got as far as its submission has a conversation. -/
def HasConversation (r : RunResult) : Prop :=
  r.schedulingState = .conversationBound ∨ r.schedulingState = .submitted ∨
    r.schedulingState = .collected → r.conversationId.isSome

theorem change_hasConversation (h : Change op now c r c' r') (hp : HasConversation r) :
    HasConversation r' := by
  intro hst
  cases h with
  | held h how =>
      rw [h.conversationId]
      cases how with
      | claimed hop =>
          by_contra hnone
          simp [RunResult.claimedBy, hnone] at hst
      | renewed _ => exact hp hst
      | prepared _ => exact hp hst
      | collecting _ => exact hp hst
      | collectingOn _ => exact hp hst
  | bound _ _ _ => rfl
  | attempted _ _ => exact hp hst
  | reserved _ _ _ _ => exact hp hst
  | refused _ _ => exact hp hst
  | released _ _ => exact hp hst
  | submitted _ hbound _ => exact hp (.inl hbound)
  | failed _ _ _ => simp [RunResult.seal] at hst
  | settled _ _ h => cases settleRows_ok h <;> exact hp hst
  | sealed _ hsubmitted _ _ h => cases settleRows_ok h <;> exact hp (.inr (.inl hsubmitted))
  | collected _ hsubmitted _ _ h => cases settleRows_ok h <;> exact hp (.inr (.inl hsubmitted))

end Rows

/-- A collector persists what it collected from the source of the run it is bound to. -/
def Collects (b : CollectorBuiltins) (source : Uuid → RunSourceSnapshot) (_ : World) : Label → Prop
  | .transact _ (.persist lease outcome) => ∃ s c rate version o,
      Reordered (source lease.searchRunId) s ∧
        collectRunSnapshot b s c rate version = .ok o ∧ outcome = o.row
  | _ => True

/-- What is known of the rows. -/
structure StoredInv (b : CollectorBuiltins) (source : Uuid → RunSourceSnapshot) (db : Db) :
    Prop where
  collected : ∀ r ∈ db.results, r.schedulingState = .collected → Sealed b source r
  conversation : ∀ r ∈ db.results, HasConversation r

theorem storedInv_transact {w : World} {op : Op} {out : Outcome} {ports : Orchestration.Ports}
    {app : Orchestration.Tables} (hsha : ∀ payload, isSha256 (b.digest payload) = true)
    (hok : Collects b source w (.transact now op)) (h : op.run ports app db now = .ok out)
    (hp : StoredInv b source db) : StoredInv b source out.db := by
  refine ⟨fun r hr hst => ?_, fun r hr => ?_⟩
  · cases (run_effect h).origin hr with
    | kept hr => exact hp.collected r hr hst
    | planned => cases hst
    | skipped _ _ _ => cases hst
    | @changed c c' r₀ _ hc hr₀ _ _ _ hch =>
        rcases change_collects hch hst with hbefore | ⟨lease, outcome, rfl⟩
        · have hsealed := hp.collected r₀ hr₀ hbefore
          exact change_frozen hch hbefore hsealed.settled ▸ hsealed
        · obtain ⟨s, c, rate, version, o, hsource, hcollect, rfl⟩ := hok
          have hcollected := collected_ok hcollect
          simp only [Op.run, bind_ok_iff, pure_ok_iff] at h
          obtain ⟨⟨receipt, db'⟩, hpersist, rfl⟩ := h
          have hsha' : isSha256 o.sourceSnapshotDigest = true := by
            have hdigest := hcollected.digest
            simp only [sourceSnapshotDigest, bind_ok_iff, pure_ok_iff] at hdigest
            obtain ⟨_, -, hdigest⟩ := hdigest
            exact hdigest ▸ hsha _
          rcases persistCollection_rows hsha' hcollected hsource hpersist hr with hold | hsealed
          · exact hp.collected r hold hst
          · exact hsealed
  · cases (run_effect h).origin hr with
    | kept hr => exact hp.conversation r hr
    | planned => exact fun hst => by simp at hst
    | skipped _ hr₀ _ => exact fun hst => by simp [RunResult.skipped] at hst
    | changed _ hr₀ _ _ _ hch => exact change_hasConversation hch (hp.conversation _ hr₀)

theorem storedInv_reachable {d : Orchestration.Deployment} {w : World}
    (hsha : ∀ payload, isSha256 (b.digest payload) = true)
    (h : ReachableBy d (Collects b source) w) : StoredInv b source w.db := by
  refine Lib.Reachable.invariant (P := fun w => StoredInv b source w.db) ?_ ?_ h
  · rintro w rfl
    exact ⟨fun r hr => by simp [World.init, Db.empty] at hr,
      fun r hr => by simp [World.init, Db.empty] at hr⟩
  · intro w w' hp hmove
    obtain ⟨label, hok, hs⟩ := hmove
    cases hs with
    | service _ => exact hp
    | transact _ hrun => exact storedInv_transact hsha hok hrun hp
    | lost _ _ => exact hp
    | strayed _ _ => exact hp
    | send _ _ _ => exact hp
    | serve _ _ => exact hp

/-- **The report recomputes the digest that was stored**, for every collected result in every state
that can be reached: from the source read again, its rows in any order, and from the outcome that is
built from the row and its gold assertions. -/
theorem stored_digest_recomputed {d : Orchestration.Deployment} {w : World}
    (hsha : ∀ payload, isSha256 (b.digest payload) = true) (hids : ∀ id, DistinctIds (source id))
    (h : ReachableBy d (Collects b source) w) : ∀ r ∈ w.db.results,
      r.schedulingState = .collected → ∃ id digest, r.searchRunId = some id ∧
        r.sourceSnapshotDigest = some digest ∧ ∀ s, Reordered (source id) s →
          ∀ gold : List GoldAssertion, gold.Perm (goldRows r) →
            sourceDigestOf b r gold (.ok s) = some digest := by
  intro r hr hst
  have hinv := storedInv_reachable hsha h
  obtain ⟨id, s, o, hrun, hsource, hcollected, hdigest, hgold, hstored⟩ :=
    (hinv.collected r hr hst).stored
  refine ⟨id, o.sourceSnapshotDigest, hrun, hdigest, fun s' hs' gold hperm => ?_⟩
  obtain ⟨conversationId, hconversation⟩ := Option.isSome_iff_exists.mp
    (hinv.conversation r hr (.inr (.inr hst)))
  have hsame : sourceSnapshotDigest b s' (o.filed r.budgetViolation gold) =
      .ok o.sourceSnapshotDigest := by
    rw [sourceSnapshotDigest_filed r.budgetViolation (hgold ▸ hperm) hcollected.gold,
      sourceSnapshotDigest_reordered hs' (hids id), ← sourceSnapshotDigest_reordered hsource (hids id)]
    exact hcollected.digest
  rw [sourceDigestOf, if_neg (not_not.mpr hst), hconversation, hrun, hstored]
  simp only [bind, Except.bind, hsame]

end Stored

/-- A condition may be weakened. -/
theorem ReachableBy.weaken {d : Orchestration.Deployment} {ok ok' : World → Label → Prop}
    (hok : ∀ w label, ok w label → ok' w label) {w : World} (h : ReachableBy d ok w) :
    ReachableBy d ok' w := by
  induction h with
  | init h => exact .init h
  | tail _ hs ih =>
      obtain ⟨label, hlabel, hs⟩ := hs
      exact .tail ih ⟨label, hok _ _ hlabel, hs⟩

/-! ## A stored result -/

namespace Sample

/-- The run that the first unit of the small campaign is bound to. -/
def runId : Uuid := (Orchestration.sampleEnv 11).ids 2

/-- Every run covered its fact and answered with the two claims. -/
def sourceOf (id : Uuid) : RunSourceSnapshot :=
  { source claims with
    runId := id, answerQuality := .complete, stopReason := some .factsCovered }

def usage : SettlementUsage where
  observedProviderCalls := 0
  promptTokens := 0
  completionTokens := 0
  observedEstimatedCost := 0

/-- What is collected, but for its digest. -/
def measured : CollectionOutcome := preliminary builtins (sourceOf runId) case none usage

theorem digestPayload_measured : digestPayload (sourceOf runId) measured = coveredPayload := by
  have hclaims : sortedById (·.id) claims = claims :=
    List.mergeSort_of_pairwise (by decide +kernel)
  have hsource : (sourceOf runId).claims = claims := rfl
  rw [digestPayload, hsource, hclaims]
  decide +kernel

/-- What is collected. -/
def outcomeOf : CollectionOutcome :=
  { measured with
    sourceSnapshotDigest := "c0b9c059650dca4b2ef18bb804e36db95d51305749587642bf62b729a3d3b21f" }

theorem collectRunSnapshot_sourceOf :
    collectRunSnapshot builtins (sourceOf runId) case rate none = .ok outcomeOf := by
  have hvalid : validateSnapshot builtins (sourceOf runId) = .ok () := by decide +kernel
  have husage : invocationUsage rate [] = .ok usage := by decide +kernel
  have hdigest : builtins.digest coveredPayload = outcomeOf.sourceSnapshotDigest := by
    decide +kernel
  have hcollected : sourceSnapshotDigest builtins (sourceOf runId) measured =
      .ok outcomeOf.sourceSnapshotDigest := by
    rw [sourceSnapshotDigest, digestPayload_measured, hdigest]
    rfl
  rw [collectRunSnapshot, hvalid]
  show (do
    let u ← invocationUsage rate []
    let digest ← sourceSnapshotDigest builtins (sourceOf runId)
      (preliminary builtins (sourceOf runId) case none u)
    return { preliminary builtins (sourceOf runId) case none u with
      sourceSnapshotDigest := digest }) = _
  rw [husage]
  show (do
    let digest ← sourceSnapshotDigest builtins (sourceOf runId) measured
    return { measured with sourceSnapshotDigest := digest }) = _
  rw [hcollected]
  rfl

/-- Nothing is persisted. -/
def Unpersisted (_ : World) : Label → Prop
  | .transact _ (.persist _ _) => False
  | _ => True

instance (w : World) : (label : Label) → Decidable (Unpersisted w label)
  | .transact now op => by
      apply @Op.casesOn (fun op => Decidable (Unpersisted w (.transact now op))) op <;> intros <;>
        unfold Unpersisted <;> infer_instance
  | .service | .lost _ _ | .strayed _ _ | .send _ _ | .serve _ _ _ => isTrue trivial

theorem collects_of_unpersisted {w : World} {label : Label} (h : Unpersisted w label) :
    Collects builtins sourceOf w label := by
  cases label with
  | transact now op =>
      cases op with
      | persist lease outcome => cases h
      | _ => trivial
  | _ => trivial

/-- A campaign of this collector starts, and a unit is submitted, cancelled and claimed. -/
def claimed : List Action := [
  .transact 1 fun _ => some (.add
    { Shadow.Sample.campaign with collectorSchemaVersion := Shadow.collectorSchemaVersion }),
  .transact 2 fun _ => some (.materialize Shadow.Sample.owner Shadow.Sample.campaignId
    Shadow.Sample.cases 2),
  .transact 3 fun _ => some (.mutate (some Shadow.Sample.owner) Shadow.Sample.campaignId (.start 3))]
  ++ Shadow.Sample.submitted 0 ++ [
  .service (.cancel (Orchestration.sampleEnv 30) runId),
  .transact (seconds 5) fun _ => some
    (.claimCollection Shadow.Sample.campaignId "collector" (seconds 60) [])]

/-- A result is collected from the run. -/
def isCollected (r : RunResult) : Bool :=
  r.schedulingState = .collected && r.searchRunId = some runId

/-- With this lease on the run the outcome is persisted. -/
def persists (w : World) (lease : CollectorLease) : Bool :=
  lease.searchRunId = runId && (persistCollection w.db (seconds 6) lease outcomeOf.row).toOption.any
    fun result => result.2.results.any isCollected

theorem distinctIds_sourceOf (id : Uuid) : DistinctIds (sourceOf id) :=
  have h : DistinctIds (source claims) := distinctIds (by decide)
  ⟨h.steps, h.attempts, h.invocations, h.outbox, h.facts, h.queries, h.providerAttempts,
    h.evidence, h.claims, h.citations⟩

theorem isSha256_digest (payload : DigestPayload) : isSha256 (builtins.digest payload) = true := by
  have hknown : ∀ d ∈ digests, isSha256 d.2 = true := by decide +kernel
  have hother : isSha256 (String.ofList (List.replicate 64 '0')) = true := by decide +kernel
  show isSha256 (((digests.find? (·.1 = payload)).map (·.2)).getD _) = true
  cases hfind : digests.find? (·.1 = payload) with
  | none => exact hother
  | some d => exact hknown d (List.mem_of_find?_eq_some hfind)

theorem exists_collected : ∃ w, ReachableBy Shadow.Sample.deployment (Collects builtins sourceOf) w ∧
    ∃ r ∈ w.db.results, r.schedulingState = .collected ∧ r.searchRunId = some runId := by
  obtain ⟨w, hr, hp⟩ := exists_reachable Shadow.Sample.deployment Unpersisted claimed
    (fun w => w.collections.any (persists w)) (by decide +kernel)
  simp only [List.any_eq_true, Option.any_eq_true, persists, Bool.and_eq_true,
    decide_eq_true_eq] at hp
  obtain ⟨lease, hlease, hrun, ⟨receipt, db⟩, hdb, r, hmem, hcollected⟩ := hp
  have hpersist := Orchestration.toOption_eq_some hdb
  have hstep : Step Shadow.Sample.deployment (.transact (seconds 6) (.persist lease outcomeOf.row)) w
      (w.after { db }) := by
    refine .transact hlease ?_
    simp only [Op.run, hpersist]
    rfl
  have hcollects : Collects builtins sourceOf w
      (.transact (seconds 6) (.persist lease outcomeOf.row)) :=
    ⟨sourceOf runId, case, rate, none, outcomeOf, hrun ▸ .refl _, collectRunSnapshot_sourceOf, rfl⟩
  have hreached := ReachableBy.weaken (fun _ _ => collects_of_unpersisted) hr
  simp only [isCollected, Bool.and_eq_true, decide_eq_true_eq] at hcollected
  exact ⟨_, .tail hreached ⟨_, hcollects, hstep⟩, r, hmem, hcollected⟩

end Sample

/-- A unit is collected, and its digest is recomputed from the source, its claims the other way. -/
theorem stored_digest_recomputed_sample : ∃ w : World, ∃ r ∈ w.db.results,
    r.schedulingState = .collected ∧ ∃ digest, r.sourceSnapshotDigest = some digest ∧
      sourceDigestOf Sample.builtins r (goldRows r)
        (.ok { Sample.sourceOf Sample.runId with claims := Sample.claims.reverse }) = some digest := by
  obtain ⟨w, hreached, r, hmem, hst, hrun⟩ := Sample.exists_collected
  obtain ⟨id, digest, hid, hdigest, hsame⟩ := stored_digest_recomputed Sample.isSha256_digest
    Sample.distinctIds_sourceOf hreached r hmem hst
  obtain rfl : id = Sample.runId := Option.some.inj (hid.symm.trans hrun)
  have hreordered : Reordered (Sample.sourceOf Sample.runId)
      { Sample.sourceOf Sample.runId with claims := Sample.claims.reverse } :=
    ⟨rfl, .refl _, .refl _, .refl _, .refl _, .refl _, .refl _, .refl _, .refl _,
      List.reverse_perm Sample.claims, .refl _⟩
  exact ⟨w, r, hmem, hst, digest, hdigest, hsame _ hreordered _ (.refl _)⟩

end Sana.Shadow.Collector
