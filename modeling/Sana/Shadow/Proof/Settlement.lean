import Sana.Shadow.Proof.Ceiling

/-!
# A reservation is settled once

A result is settled by the runner, by the collector and by whoever repeats either of
them. Three things keep the repetition harmless, and one of them does not hold:

* a reservation moves from `NONE` to `ACTIVE` and from there to `SETTLED` or to
  `RELEASED`, and never back (`change_reservation`);
* `settle_run_budget` compares the digest and every column of the usage with what is
  stored, and writes nothing either way (`settleRunBudget_again`);
* `persist` on a collected result compares the digest and some of the measurements, but
  not the usage (`persistCollection_again`). With the stored digest it reports a
  duplicate whatever usage it brings.
-/

namespace Sana.Shadow

open Sana.Lib

/-- One move of a reservation. -/
inductive ReservationState.Moves : ReservationState → ReservationState → Prop
  | stay (s : ReservationState) : Moves s s
  | reserve : Moves .none .active
  | settle : Moves .active .settled
  | release : Moves .active .released

/-- The digest and the usage a result was settled with. -/
def RunResult.settlement (r : RunResult) : Option String × SettlementUsage :=
  (r.sourceSnapshotDigest,
    { observedProviderCalls := r.settledObservedProviderCalls, promptTokens := r.promptTokens
      completionTokens := r.completionTokens, observedEstimatedCost := r.settledObservedCost
      possiblyBilledCallCharge := r.possiblyBilledCallCharge
      possiblyBilledCostCharge := r.possiblyBilledCostCharge })

/-- What can become of the reservation of a row. -/
structure RunResult.Forward (r r' : RunResult) : Prop where
  id : r'.id = r.id
  state : r.reservationState.Moves r'.reservationState
  /-- What it was settled with stays. -/
  settled : r.reservationState = .settled → r'.settlement = r.settlement

/-- The rows after a step: the old ones, moved forward, and new ones without a reservation. -/
structure ReservationsForward (db db' : Db) : Prop where
  old : ∀ r ∈ db.results, ∃ r' ∈ db'.results, r.Forward r'
  new : ∀ r' ∈ db'.results, (∀ r ∈ db.results, r.id ≠ r'.id) → r'.reservationState = .none

/-- The columns of a collected row that `persist` filled in from an outcome, usage apart. -/
structure RunResult.CollectedFrom (r : RunResult) (outcome : CollectionOutcome) : Prop where
  schema : r.collectorSchemaVersion = some outcome.collectorSchemaVersion
  terminalAt : r.sourceTerminalAt = some outcome.sourceTerminalAt
  metrics : r.metrics = some { outcome.metrics with
    goldAssertions := insertedGold outcome.metrics.goldAssertions }
  modelCalls : r.modelCallCount = outcome.metrics.modelCallCount
  gold : verifyGoldAssertions (insertedGold outcome.metrics.goldAssertions)
    outcome.metrics.goldAssertions = .ok ()

/--
A repetition as it should be: with what is stored it returns `again` and writes
nothing, with anything else it raises.
-/
def RepeatsExactly {α : Type} (same : Prop) (db : Db) (again : α) (result : Except Exn (α × Db)) :
    Prop :=
  (same → result = .ok (again, db)) ∧ (¬ same → ∃ e, result = .error e)

/-- The digest of a failure is a hexadecimal SHA-256, as `snapshot_hash` computes it. -/
def HashedFailures (_ : World) : Label → Prop
  | .transact _ (.fail _ _ digest) => isSha256 digest = true
  | _ => True

/-! ## Two rows -/

section TwoRows

variable {c c' : Campaign} {r r' : RunResult} {now : Time} {digest : String}
  {usage : SettlementUsage}

theorem settlementMatches_iff :
    r.settlementMatches digest usage = true ↔ r.settlement = (some digest, usage) := by
  cases usage
  simp only [RunResult.settlementMatches, RunResult.settlement, Bool.and_eq_true,
    decide_eq_true_eq, Prod.mk.injEq, SettlementUsage.mk.injEq]
  tauto

theorem forward_of_eq (hid : r'.id = r.id) (hstate : r'.reservationState = r.reservationState)
    (hsettlement : r'.settlement = r.settlement) : r.Forward r' :=
  ⟨hid, hstate ▸ .stay _, fun _ => hsettlement⟩

theorem forward_of_settled (hid : r'.id = r.id) (hactive : r.reservationState = .active)
    (hsettled : r'.reservationState = .settled) : r.Forward r' := by
  refine ⟨hid, ?_, ?_⟩
  · rw [hactive, hsettled]
    exact .settle
  · intro h
    rw [hactive] at h
    cases h

theorem settling_forward (h : Settling now digest usage c r c' r') : r.Forward r' := by
  cases h with
  | again _ => exact forward_of_eq rfl rfl rfl
  | first _ hactive _ _ => exact forward_of_settled rfl hactive rfl

/-- Whether it was settled before or is settled now, the row has what it was settled with. -/
theorem settleRows_settlement (h : settleRows now digest usage c r = .ok (c', r')) :
    r'.reservationState = .settled ∧ r'.settlement = (some digest, usage) := by
  unfold settleRows at h
  split at h
  · rename_i hsettled
    simp only [bind_ok_iff, pure_ok_iff, check_eq_ok, Prod.mk.injEq] at h
    obtain ⟨_, hmatch, rfl, rfl⟩ := h
    exact ⟨hsettled, settlementMatches_iff.mp hmatch⟩
  · simp only [bind_ok_iff, pure_ok_iff] at h
    obtain ⟨_, _, _, _, _, _, reservation, _, _, _, hset⟩ := h
    obtain rfl := (Prod.ext_iff.mp hset).2
    exact ⟨rfl, rfl⟩

theorem failReservation_forward {failure : RunnerFailure}
    (h : failReservation now failure digest c r = .ok (c', r')) : r.Forward r' := by
  unfold failReservation at h
  split at h
  · rename_i hactive
    split at h
    · cases h
      exact forward_of_settled rfl hactive rfl
    · cases h
      refine ⟨rfl, ?_, ?_⟩
      · rw [hactive]
        exact .release
      · intro hsettled
        rw [hactive] at hsettled
        cases hsettled
  · cases h
    exact forward_of_eq rfl rfl rfl
  · cases h
  · cases h

/-- **A transaction moves the reservation of its row forward.** -/
theorem change_forward {op : Op} (h : Change op now c r c' r') : r.Forward r' := by
  cases h with
  | held h how =>
      refine ⟨h.id, h.reservationState ▸ .stay _, fun _ => ?_⟩
      cases how <;> rfl
  | bound _ _ _ => exact forward_of_eq rfl rfl rfl
  | attempted _ _ => exact forward_of_eq rfl rfl rfl
  | reserved _ hnone _ _ =>
      refine ⟨rfl, hnone ▸ .reserve, fun hsettled => ?_⟩
      rw [hnone] at hsettled
      cases hsettled
  | refused _ _ => exact forward_of_eq rfl rfl rfl
  | released hactive _ =>
      refine ⟨rfl, hactive ▸ .release, fun hsettled => ?_⟩
      rw [hactive] at hsettled
      cases hsettled
  | submitted _ _ _ => exact forward_of_eq rfl rfl rfl
  | failed _ _ h =>
      have hfail := failReservation_forward h
      exact ⟨hfail.id, hfail.state, hfail.settled⟩
  | settled _ _ h => exact settling_forward (settleRows_ok h)
  | sealed _ _ _ _ h =>
      have hset := settling_forward (settleRows_ok h)
      exact ⟨hset.id, hset.state, hset.settled⟩
  | collected _ _ _ _ h =>
      have hset := settling_forward (settleRows_ok h)
      exact ⟨hset.id, hset.state, hset.settled⟩

/-- A result is settled under a SHA-256. -/
def RunResult.FiledUnderSha (r : RunResult) : Prop :=
  r.reservationState = .settled → ∃ digest, r.sourceSnapshotDigest = some digest ∧
    isSha256 digest = true

theorem settleRows_filed (hsha : isSha256 digest = true)
    (h : settleRows now digest usage c r = .ok (c', r')) :
    ∃ digest, r'.sourceSnapshotDigest = some digest ∧ isSha256 digest = true :=
  ⟨digest, congrArg Prod.fst (settleRows_settlement h).2, hsha⟩

theorem failReservation_filed {failure : RunnerFailure} (hsha : isSha256 digest = true)
    (h : failReservation now failure digest c r = .ok (c', r')) : r'.FiledUnderSha := by
  intro hsettled
  unfold failReservation at h
  split at h
  · split at h
    · cases h
      exact ⟨digest, rfl, hsha⟩
    · cases h
      cases hsettled
  · rename_i hnone
    cases h
    rw [hnone] at hsettled
    cases hsettled
  · cases h
  · cases h

theorem change_filed {op : Op}
    (hhash : ∀ lease failure digest, op = .fail lease failure digest → isSha256 digest = true)
    (h : Change op now c r c' r') (hp : r.FiledUnderSha) : r'.FiledUnderSha := by
  intro hsettled
  -- a row that was settled before keeps its digest, so only a first settlement is looked at
  by_cases hbefore : r.reservationState = .settled
  · have hsame := congrArg Prod.fst ((change_forward h).settled hbefore)
    obtain ⟨digest, hdigest, hsha⟩ := hp hbefore
    exact ⟨digest, hsame.trans hdigest, hsha⟩
  cases h with
  | held h _ => exact absurd (h.reservationState ▸ hsettled) hbefore
  | bound _ _ _ => exact absurd hsettled hbefore
  | attempted _ _ => exact absurd hsettled hbefore
  | reserved _ _ _ _ => cases hsettled
  | refused _ _ => exact absurd hsettled hbefore
  | released _ _ => cases hsettled
  | submitted _ _ _ => exact absurd hsettled hbefore
  | failed hop _ h =>
      have hfiled := failReservation_filed (hhash _ _ _ hop) h
      exact hfiled hsettled
  | settled _ hsha h => exact settleRows_filed hsha h
  | sealed _ _ _ hsha h => exact settleRows_filed hsha h
  | collected _ _ _ hsha h =>
      have hfiled := settleRows_filed hsha h
      exact hfiled

/-- A collected result was filled in from some outcome. -/
def RunResult.HasOutcome (r : RunResult) : Prop :=
  r.schedulingState = .collected → ∃ outcome, r.CollectedFrom outcome

theorem settling_measured (h : Settling now digest usage c r c' r') :
    r'.schedulingState = r.schedulingState ∧
      ∀ outcome, r.CollectedFrom outcome → r'.CollectedFrom outcome := by
  cases h with
  | again _ => exact ⟨rfl, fun _ h => h⟩
  | first _ _ _ _ =>
      exact ⟨rfl, fun _ h => ⟨h.schema, h.terminalAt, h.metrics, h.modelCalls, h.gold⟩⟩

theorem settling_terminalAt (h : Settling now digest usage c r c' r') :
    r'.sourceTerminalAt = r.sourceTerminalAt := by
  cases h <;> rfl

theorem not_collected_of_open (h : r.isOpen = true) : r.schedulingState ≠ .collected := by
  intro hst
  simp [RunResult.isOpen, RunResult.isLeased, hst] at h

theorem not_collected_of_leased (h : r.isLeased = true) : r.schedulingState ≠ .collected :=
  not_collected_of_open (isOpen_of_leased h)

theorem change_hasOutcome {op : Op} (h : Change op now c r c' r') (hp : r.HasOutcome) :
    r'.HasOutcome := by
  intro hst
  cases h with
  | held h _ => exact absurd hst (not_collected_of_open h.open_after)
  | bound _ _ _ => cases hst
  | attempted hbound _ =>
      have hst : r.schedulingState = .collected := hst
      rw [hbound] at hst
      cases hst
  | reserved _ _ _ hleased => exact absurd hst (not_collected_of_leased hleased)
  | refused _ hleased => exact absurd hst (not_collected_of_leased hleased)
  | released _ _ =>
      obtain ⟨outcome, h⟩ := hp hst
      exact ⟨outcome, h.schema, h.terminalAt, h.metrics, h.modelCalls, h.gold⟩
  | submitted _ _ _ => cases hst
  | failed _ _ _ => cases hst
  | settled _ _ h =>
      obtain ⟨hsame, hkeep⟩ := settling_measured (settleRows_ok h)
      obtain ⟨outcome, ho⟩ := hp (hsame ▸ hst)
      exact ⟨outcome, hkeep outcome ho⟩
  | sealed _ _ _ _ h =>
      rw [(settling_measured (settleRows_ok h)).1] at hst
      cases hst
  | @collected _ _ _ _ outcome _ _ _ hgold _ h =>
      refine ⟨outcome, rfl, ?_, rfl, rfl, hgold⟩
      exact settling_terminalAt (settleRows_ok h)

end TwoRows

/-! ## Effects -/

section Effects

variable {ports : Orchestration.Ports} {op : Op} {now : Time} {db db' : Db} {w : World}

/-- Every row that a transaction leaves in place moved forward. -/
theorem effect_old (he : Effect ports op now db db') {r : RunResult} (hr : r ∈ db.results) :
    ∃ r' ∈ db'.results, r.Forward r' := by
  cases he with
  | idle hdb => exact ⟨r, hdb ▸ hr, forward_of_eq rfl rfl rfl⟩
  | added hdb =>
      rw [hdb]
      exact ⟨r, hr, forward_of_eq rfl rfl rfl⟩
  | materialized _ _ _ _ hdb =>
      rw [hdb]
      exact ⟨r, List.mem_append_left _ hr, forward_of_eq rfl rfl rfl⟩
  | moved _ _ _ hdb =>
      rw [hdb]
      exact ⟨r, hr, forward_of_eq rfl rfl rfl⟩
  | skipped _ _ hdb =>
      rw [hdb]
      refine ⟨_, List.mem_map_of_mem hr, ?_⟩
      split <;> exact forward_of_eq rfl rfl rfl
  | @rows _ _ r₀ r₁ hc hr₀ _ _ _ hch hdb =>
      have hid := (change_forward hch).id
      rw [hdb]
      by_cases h : r.id = r₀.id
      · obtain rfl := eq_of_key_eq db.valid.pk_results hr hr₀ h
        exact ⟨r₁, (mem_put_results hr hid).mpr (.inl rfl), change_forward hch⟩
      · exact ⟨r, (mem_put_results hr₀ hid).mpr (.inr ⟨hr, h⟩), forward_of_eq rfl rfl rfl⟩

theorem effect_forward (he : Effect ports op now db db') : ReservationsForward db db' := by
  refine ⟨fun r hr => effect_old he hr, ?_⟩
  intro y hy hnew
  cases he.origin hy with
  | kept hy => exact absurd rfl (hnew y hy)
  | planned => rfl
  | @skipped r _ hr _ => exact absurd rfl (hnew r hr)
  | changed _ hr _ _ _ hch => exact absurd (change_forward hch).id.symm (hnew _ hr)

/-- What is known of the rows. -/
structure SettlementInv (db : Db) : Prop where
  filed : ∀ r ∈ db.results, r.FiledUnderSha
  outcome : ∀ r ∈ db.results, r.HasOutcome

theorem settlementInv_empty : SettlementInv Db.empty :=
  ⟨fun r hr => by simp [Db.empty] at hr, fun r hr => by simp [Db.empty] at hr⟩

theorem settlementInv_effect (hok : HashedFailures w (.transact now op))
    (he : Effect ports op now w.db db') (hp : SettlementInv w.db) : SettlementInv db' := by
  refine ⟨?_, ?_⟩
  · intro y hy
    cases he.origin hy with
    | kept hy => exact hp.filed y hy
    | planned => intro h; cases h
    | @skipped r _ hr _ => exact fun h => hp.filed r hr h
    | changed _ hr _ _ _ hch =>
        refine change_filed ?_ hch (hp.filed _ hr)
        intro lease failure digest hop
        subst hop
        exact hok
  · intro y hy
    cases he.origin hy with
    | kept hy => exact hp.outcome y hy
    | planned => intro h; cases h
    | skipped _ _ _ => intro h; cases h
    | changed _ hr _ _ _ hch => exact change_hasOutcome hch (hp.outcome _ hr)

theorem settlementInv_reachable {d : Orchestration.Deployment}
    (h : ReachableBy d HashedFailures w) : SettlementInv w.db := by
  refine tables_invariant (P := SettlementInv) settlementInv_empty ?_ h
  intro w now op db' hok he hp
  exact settlementInv_effect hok he hp

/-- A step moves the reservations forward. -/
theorem step_forward {d : Orchestration.Deployment} {label : Label} {w' : World}
    (h : Step d label w w') : ReservationsForward w.db w'.db := by
  have hsame : ReservationsForward w.db w.db :=
    ⟨fun r hr => ⟨r, hr, forward_of_eq rfl rfl rfl⟩, fun r hr hnew => absurd rfl (hnew r hr)⟩
  cases h with
  | service _ => exact hsame
  | transact _ hrun => exact effect_forward (run_effect hrun)
  | lost _ _ => exact hsame
  | strayed _ _ => exact hsame
  | send _ _ _ => exact hsame
  | serve _ _ => exact hsame

end Effects

/-! ## Repetitions -/

section Repeat

variable {db : Db} {c : Campaign} {r : RunResult} {now : Time}

/-- The rows of a result are found. -/
theorem lockedRows_found (hr : r ∈ db.results) (e e' : Exn) :
    ∃ c ∈ db.campaigns, db.lockedRows r.campaignId r.id e e' = .ok (c, r) := by
  obtain ⟨c, hc, hcid⟩ := db.valid.fk_results r hr
  have hfind : db.results.find? (fun x => x.campaignId = r.campaignId && x.id = r.id) = some r := by
    obtain ⟨x, hx⟩ := Option.isSome_iff_exists.mp (List.find?_isSome.mpr
      ⟨r, hr, by simp⟩ : (db.results.find? fun x => x.campaignId = r.campaignId && x.id = r.id).isSome)
    have hid : x.id = r.id := by
      have := List.find?_some hx
      simp only [Bool.and_eq_true, decide_eq_true_eq] at this
      exact this.2
    rw [hx, eq_of_key_eq db.valid.pk_results (List.mem_of_find?_eq_some hx) hr hid]
  refine ⟨c, hc, ?_⟩
  have hcamp : db.lockedCampaign r.campaignId e = .ok c := by
    rw [Tables.lockedCampaign, ← hcid, lookup_of_mem db.valid.pk_campaigns hc]
  rw [Tables.lockedRows, hcamp]
  simp only [bind, Except.bind, hfind]
  rfl

/-- Writing back what was read changes nothing. -/
theorem commit_put_self (hc : c ∈ db.campaigns) (hr : r ∈ db.results) :
    (db.toTables.put c r).commit = .ok db := by
  have hput : db.toTables.put c r = db.toTables := by
    unfold Tables.put Tables.putResult Tables.putCampaign
    rw [update_self db.valid.pk_campaigns hc, update_self db.valid.pk_results hr]
  rw [hput, Tables.commit, dif_pos db.valid]

theorem check_true {ε : Type} (e : ε) : check true e = .ok () := rfl

theorem check_false {ε : Type} (e : ε) : check false e = .error e := rfl

theorem settleRows_again (hsettled : r.reservationState = .settled) (digest : String)
    (usage : SettlementUsage) :
    settleRows now digest usage c r =
      (check (r.settlementMatches digest usage)
        (.invariant "A result budget was already settled from different source data"
          "settlement_conflict")).map fun _ => (c, r) := by
  rw [settleRows, if_pos hsettled]
  cases r.settlementMatches digest usage <;> rfl

/-- **Settling again.** What is stored is compared with all of what is brought. -/
theorem settleRunBudget_again (hr : r ∈ db.results) (hsettled : r.reservationState = .settled)
    (hfiled : r.FiledUnderSha) (digest : String) (usage : SettlementUsage) :
    RepeatsExactly (r.settlement = (some (Text.strip digest), usage)) db
      (⟨r.id, true, r.budgetViolation⟩ : BudgetSettlementReceipt)
      (settleRunBudget db now r.campaignId r.id digest usage) := by
  obtain ⟨c, hc, hrows⟩ := lockedRows_found hr
    (.invariant "Shadow campaign does not exist" "campaign_not_found")
    (.invariant "Shadow campaign result does not exist" "campaign_result_not_found")
  have hrows : db.lockedRecords r.campaignId r.id = .ok (c, r) := hrows
  refine ⟨fun hsame => ?_, fun hdiff => ?_⟩
  · have hmatch := settlementMatches_iff.mpr hsame
    obtain ⟨filed, hfiled, hsha⟩ := hfiled hsettled
    have hstored : r.sourceSnapshotDigest = some (Text.strip digest) := congrArg Prod.fst hsame
    rw [hfiled, Option.some.injEq] at hstored
    rw [hstored] at hsha
    have hdigest : sourceDigest digest = .ok (Text.strip digest) := by
      rw [sourceDigest, hsha]
      rfl
    rw [settleRunBudget, hdigest, hrows]
    simp only [bind, Except.bind, settleRows_again hsettled, hmatch, check_true, Except.map,
      commit_put_self hc hr, hsettled]
    rfl
  · have hmatch : r.settlementMatches (Text.strip digest) usage = false := by
      rw [← Bool.not_eq_true, settlementMatches_iff]
      exact hdiff
    cases hdigest : sourceDigest digest with
    | error e =>
        refine ⟨e, ?_⟩
        rw [settleRunBudget, hdigest]
        rfl
    | ok filed =>
        obtain rfl : Text.strip digest = filed := by
          simp only [sourceDigest, bind_ok_iff, pure_ok_iff] at hdigest
          obtain ⟨_, _, h⟩ := hdigest
          exact h
        refine ⟨.invariant "A result budget was already settled from different source data"
          "settlement_conflict", ?_⟩
        rw [settleRunBudget, hdigest, hrows]
        simp only [bind, Except.bind, settleRows_again hsettled, hmatch, check_false, Except.map]

/-- Of what a repeated collection brings beside the measurements, the digest decides. -/
theorem matchesOutcome_again {outcome : CollectionOutcome} (hfrom : r.CollectedFrom outcome)
    (digest : String) (usage : SettlementUsage) :
    r.matchesOutcome { outcome with sourceSnapshotDigest := digest, usage := usage }
      = decide (r.sourceSnapshotDigest = some digest) := by
  simp [RunResult.matchesOutcome, hfrom.schema, hfrom.terminalAt, hfrom.metrics, hfrom.modelCalls]

/-- **Collecting again.** The usage is not looked at. -/
theorem persistCollection_again (hr : r ∈ db.results) (hst : r.schedulingState = .collected)
    {outcome : CollectionOutcome} (hfrom : r.CollectedFrom outcome) {lease : CollectorLease}
    (hcampaign : lease.campaignId = r.campaignId) (hid : lease.id = r.id) (digest : String)
    (usage : SettlementUsage) :
    persistCollection db now lease
        { outcome with sourceSnapshotDigest := digest, usage := usage }
      = if r.sourceSnapshotDigest = some digest then
          .ok (⟨r.id, digest, true, r.budgetViolation⟩, db)
        else .error (.invariant "Collected Result conflicts with the source snapshot"
          "collection_conflict") := by
  obtain ⟨c, hc, hrows⟩ := lockedRows_found hr
    (.invariant "Campaign is missing" "campaign_not_found")
    (.invariant "Campaign Result is missing" "campaign_result_not_found")
  have hrows : db.lockedCollection lease.campaignId lease.id = .ok (c, r) := by
    rw [hcampaign, hid]
    exact hrows
  have hgold : verifyGoldAssertions ((r.metrics.map (·.goldAssertions)).getD [])
      outcome.metrics.goldAssertions = .ok () := by
    rw [hfrom.metrics]
    exact hfrom.gold
  rw [persistCollection, hrows]
  simp only [bind, Except.bind, if_pos hst, matchesOutcome_again hfrom, hgold]
  by_cases h : r.sourceSnapshotDigest = some digest
  · rw [if_pos h, decide_eq_true h, check_true]
    rfl
  · rw [if_neg h, decide_eq_false h, check_false]

/-- A repeated collection is exact where it does not pair the stored digest with another usage. -/
theorem persistCollection_exact_iff (hr : r ∈ db.results) (hst : r.schedulingState = .collected)
    {outcome : CollectionOutcome} (hfrom : r.CollectedFrom outcome) {lease : CollectorLease}
    (hcampaign : lease.campaignId = r.campaignId) (hid : lease.id = r.id) (digest : String)
    (usage : SettlementUsage) :
    RepeatsExactly (r.settlement = (some digest, usage)) db
        (⟨r.id, digest, true, r.budgetViolation⟩ : CollectionReceipt)
        (persistCollection db now lease
          { outcome with sourceSnapshotDigest := digest, usage := usage })
      ↔ (r.sourceSnapshotDigest = some digest → r.settlement.2 = usage) := by
  rw [persistCollection_again hr hst hfrom hcampaign hid]
  constructor
  · rintro ⟨-, hdiff⟩ hdigest
    by_contra husage
    -- the usage differs, so it had to raise, but the digest is the stored one
    obtain ⟨e, he⟩ := hdiff fun hsame => husage (congrArg Prod.snd hsame)
    rw [if_pos hdigest] at he
    cases he
  · intro hcond
    refine ⟨fun hsame => ?_, fun hdiff => ?_⟩
    · exact if_pos (congrArg Prod.fst hsame)
    · have hdigest : r.sourceSnapshotDigest ≠ some digest := by
        intro hdigest
        exact hdiff (Prod.ext hdigest (hcond hdigest))
      exact ⟨_, if_neg hdigest⟩

end Repeat

/--
**Settlement, and how far it is idempotent.** In every reachable state a step moves every
reservation forward only and keeps what was settled; a repeated settlement is a duplicate
that writes nothing if the digest and the usage are the stored ones, and raises
otherwise; and a repeated collection is so exactly where it does not bring the stored
digest with a usage that differs.
-/
theorem settlement_exactly_once {d : Orchestration.Deployment} {w : World}
    (h : ReachableBy d HashedFailures w) :
    (∀ label w', Step d label w w' → ReservationsForward w.db w'.db) ∧
    (∀ r ∈ w.db.results, r.reservationState = .settled → ∀ now digest usage,
      RepeatsExactly (r.settlement = (some (Text.strip digest), usage)) w.db
        (⟨r.id, true, r.budgetViolation⟩ : BudgetSettlementReceipt)
        (settleRunBudget w.db now r.campaignId r.id digest usage)) ∧
    (∀ r ∈ w.db.results, r.schedulingState = .collected →
      (∃ outcome, r.CollectedFrom outcome) ∧
      ∀ outcome, r.CollectedFrom outcome → ∀ (now : Time) (lease : CollectorLease),
        lease.campaignId = r.campaignId → lease.id = r.id → ∀ digest usage,
        (RepeatsExactly (r.settlement = (some digest, usage)) w.db
            (⟨r.id, digest, true, r.budgetViolation⟩ : CollectionReceipt)
            (persistCollection w.db now lease
              { outcome with sourceSnapshotDigest := digest, usage := usage })
          ↔ (r.sourceSnapshotDigest = some digest → r.settlement.2 = usage))) := by
  have hinv := settlementInv_reachable h
  refine ⟨fun _ _ hs => step_forward hs, ?_, ?_⟩
  · intro r hr hsettled now digest usage
    exact settleRunBudget_again hr hsettled (hinv.filed r hr) digest usage
  · intro r hr hst
    refine ⟨hinv.outcome r hr hst, ?_⟩
    intro outcome hfrom now lease hcampaign hid digest usage
    exact persistCollection_exact_iff hr hst hfrom hcampaign hid digest usage

instance (w : World) : (label : Label) → Decidable (HashedFailures w label)
  | .transact now op => by
      apply @Op.casesOn (fun op => Decidable (HashedFailures w (.transact now op))) op <;> intros <;>
        unfold HashedFailures <;> infer_instance
  | .service | .lost _ _ | .strayed _ _ | .send _ _ | .serve _ _ _ => isTrue trivial

namespace Sample

/-- A unit is submitted, its run is cancelled and the unit is collected. -/
def collectedOnce : List Action :=
  started ++ submitted 0 ++
    [.service (.cancel (Orchestration.sampleEnv 30) ((Orchestration.sampleEnv 11).ids 2))] ++
    collection 10000000

/-- What the unit is collected from. -/
def collectedOutcome : CollectionOutcome := outcome 10000000

/-- The same at another cost. -/
def otherUsage : SettlementUsage := (outcome 20000000).usage

/-- A collector's lease, the unit it names, and what the unit was settled with. -/
def isCollected (r : RunResult) (l : CollectorLease) : Bool :=
  l.campaignId = r.campaignId && l.id = r.id && r.schedulingState = .collected
    && r.reservationState = .settled
    && r.settlement = (some digest, collectedOutcome.usage)
    && r.collectorSchemaVersion = some collectedOutcome.collectorSchemaVersion
    && r.sourceTerminalAt = some collectedOutcome.sourceTerminalAt
    && r.metrics = some collectedOutcome.metrics
    && r.modelCallCount = collectedOutcome.metrics.modelCallCount

theorem collectedOnce_reachable : ∃ w, ReachableBy deployment HashedFailures w ∧
    ∃ r ∈ w.db.results, ∃ l ∈ w.collections, l.campaignId = r.campaignId ∧ l.id = r.id ∧
      r.schedulingState = .collected ∧ r.reservationState = .settled ∧
      r.settlement = (some digest, collectedOutcome.usage) ∧ r.CollectedFrom collectedOutcome := by
  obtain ⟨w, hr, hp⟩ := exists_reachable deployment HashedFailures collectedOnce
    (fun w => w.db.results.any fun r => w.collections.any fun l => isCollected r l)
    (by decide +kernel)
  simp only [List.any_eq_true, isCollected, Bool.and_eq_true, decide_eq_true_eq] at hp
  obtain ⟨r, hmem, l, hl, ⟨⟨⟨⟨⟨⟨⟨hc, hid⟩, hst⟩, hsettled⟩, hset⟩, hschema⟩, hat⟩, hm⟩, hcalls⟩ := hp
  exact ⟨w, hr, r, hmem, l, hl, hc, hid, hst, hsettled, hset, hschema, hat, hm, hcalls, rfl⟩

end Sample

/-- The unit is collected again, with the digest and the usage of the first time. -/
theorem settlement_exactly_once_sample : ∃ w, ReachableBy Sample.deployment HashedFailures w ∧
    ∃ r ∈ w.db.results, ∃ l ∈ w.collections, l.id = r.id ∧ r.schedulingState = .collected ∧
      persistCollection w.db (seconds 7) l Sample.collectedOutcome
        = .ok (⟨r.id, Sample.digest, true, r.budgetViolation⟩, w.db) ∧
      settleRunBudget w.db (seconds 7) r.campaignId r.id Sample.digest
          Sample.collectedOutcome.usage
        = .ok (⟨r.id, true, r.budgetViolation⟩, w.db) := by
  obtain ⟨w, h, r, hr, l, hl, hc, hid, hst, hsettled, hset, hfrom⟩ := Sample.collectedOnce_reachable
  obtain ⟨-, hsettle, hpersist⟩ := settlement_exactly_once h
  refine ⟨w, h, r, hr, l, hl, hid, hst, ?_, ?_⟩
  · have hexact := ((hpersist r hr hst).2 Sample.collectedOutcome hfrom (seconds 7) l hc hid
      Sample.digest Sample.collectedOutcome.usage).mpr fun _ => congrArg Prod.snd hset
    exact hexact.1 hset
  · have hstrip : Text.strip Sample.digest = Sample.digest := by decide +kernel
    exact (hsettle r hr hsettled (seconds 7) Sample.digest Sample.collectedOutcome.usage).1
      (hstrip ▸ hset)

/--
A collected unit is collected again from the same snapshot, at twice the cost it was
settled with. The repetition is reported as a duplicate and does not raise.
-/
theorem repeated_collection_ignores_usage :
    ∃ w, ReachableBy Sample.deployment HashedFailures w ∧
    ∃ r ∈ w.db.results, ∃ l ∈ w.collections, l.id = r.id ∧ r.schedulingState = .collected ∧
      r.settlement = (some Sample.digest, Sample.collectedOutcome.usage) ∧
      Sample.otherUsage ≠ Sample.collectedOutcome.usage ∧
      persistCollection w.db (seconds 7) l
          { Sample.collectedOutcome with usage := Sample.otherUsage }
        = .ok (⟨r.id, Sample.digest, true, r.budgetViolation⟩, w.db) := by
  obtain ⟨w, h, r, hr, l, hl, hc, hid, hst, _, hset, hfrom⟩ := Sample.collectedOnce_reachable
  refine ⟨w, h, r, hr, l, hl, hid, hst, hset, by decide, ?_⟩
  have hagain : persistCollection w.db (seconds 7) l
      { Sample.collectedOutcome with usage := Sample.otherUsage } = _ :=
    persistCollection_again hr hst hfrom hc hid Sample.digest Sample.otherUsage
  have hdigest : r.sourceSnapshotDigest = some Sample.digest := congrArg Prod.fst hset
  rw [if_pos hdigest] at hagain
  exact hagain

end Sana.Shadow
