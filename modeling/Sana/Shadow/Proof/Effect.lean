import Sana.Shadow.System

/-!
# What a transaction does

Every transaction on the campaign tables does one of six things: nothing, add a
campaign, write its plan, move its lifecycle on, skip what is pending, or rewrite one
campaign row together with one of its results. `Change` says what the last can do to
the two rows, with the guards that were passed on the way; it is the only place
where the operations are taken apart.
-/

namespace Sana.Shadow

open Sana.Lib

/-! ## Rows -/

/-- What a result is for never changes. -/
structure RunResult.Same (r r' : RunResult) : Prop where
  id : r'.id = r.id
  unit : r'.unit = r.unit
  conversationKey : r'.conversationIdempotencyKey = r.conversationIdempotencyKey
  messageKey : r'.messageIdempotencyKey = r.messageIdempotencyKey
  requestHash : r'.submissionRequestHash = r.submissionRequestHash

theorem RunResult.Same.campaignId {r r' : RunResult} (h : r.Same r') :
    r'.campaignId = r.campaignId := congrArg RunUnit.campaignId h.unit

/-- The result is not sealed. -/
def RunResult.isOpen (r : RunResult) : Bool :=
  r.schedulingState = .pending || r.isLeased || r.schedulingState = .submitted

/-- An open result whose bindings and budget columns stay as they are. -/
structure RunResult.Kept (r r' : RunResult) : Prop extends r.Same r' where
  conversationId : r'.conversationId = r.conversationId
  searchRunId : r'.searchRunId = r.searchRunId
  submissionAttemptCount : r'.submissionAttemptCount = r.submissionAttemptCount
  reservationState : r'.reservationState = r.reservationState
  reservedProviderCalls : r'.reservedProviderCalls = r.reservedProviderCalls
  reservedEstimatedCost : r'.reservedEstimatedCost = r.reservedEstimatedCost
  settledObservedProviderCalls : r'.settledObservedProviderCalls = r.settledObservedProviderCalls
  settledObservedCost : r'.settledObservedCost = r.settledObservedCost
  promptTokens : r'.promptTokens = r.promptTokens
  completionTokens : r'.completionTokens = r.completionTokens
  possiblyBilledCallCharge : r'.possiblyBilledCallCharge = r.possiblyBilledCallCharge
  possiblyBilledCostCharge : r'.possiblyBilledCostCharge = r.possiblyBilledCostCharge
  degraded : r'.degraded = r.degraded
  open_before : r.isOpen = true
  open_after : r'.isOpen = true

/-- The lifecycle of a campaign moved on; its budget did not. -/
structure Campaign.Moved (c c' : Campaign) : Prop where
  id : c'.id = c.id
  owner : c'.createdByUserId = c.createdByUserId
  limits : c'.limits = c.limits
  concurrency : c'.maxConcurrency = c.maxConcurrency
  counts : c'.counts = c.counts
  ledger : c'.ledger = c.ledger
  ne_created : c'.status ≠ .created
  running : c'.status = .running → c.status = .created ∨ c.status = .paused
  paused : c'.status = .paused → c.status = .stopping ∧ c.stopIntent = .pause
  stopping : c'.status = .stopping → c'.stopIntent = .pause → c.status = .running
  /-- A campaign that has ended is still given its report, and nothing else. -/
  unbound : c.isTerminal = true → c.finalReport = none

/-! ## Operations -/

/-- The rows a transaction is about, where the caller names them. -/
def Op.target : Op → Option (Uuid × Uuid)
  | .settle campaignId resultId _ _ => some (campaignId, resultId)
  | .renew lease _ | .reserve lease | .release lease | .prepareConversation lease
  | .bindConversation lease _ | .prepareSubmission lease | .bindSubmission lease _
  | .fail lease _ _ => some (lease.campaignId, lease.id)
  | .renewCollection lease _ | .persist lease _ | .failCollection lease _ _ _ =>
      some (lease.campaignId, lease.id)
  | _ => none

/-- What a transaction settles a result of a campaign with, if it settles one. -/
def Op.usage (c : Campaign) : Op → Option SettlementUsage
  | .settle _ _ _ usage => some usage
  | .persist _ outcome => some outcome.usage
  | .failCollection lease _ invocations _ =>
      (invocationUsage c.costRate (invocations.filter (·.runId = lease.searchRunId))).toOption
  | _ => none

/-- The row a collector's failure is settled on. -/
def RunResult.sealCollection (r : RunResult) (failure : RunnerFailure) (completedAt : Time)
    (modelCallCount : Nat) : RunResult :=
  { r.seal failure with
    sourceTerminalAt := some completedAt
    collectorLeaseOwner := none, collectorLeaseExpiresAt := none, modelCallCount }

/-- The row of a result that a worker has claimed. -/
def RunResult.claimedBy (r : RunResult) (worker : String) (now : Time) (duration : Duration) :
    RunResult :=
  { r with
    schedulingState := if r.conversationId.isSome then .conversationBound else .claimed
    leaseOwner := some worker, leaseExpiresAt := some (now + duration), version := r.version + 1 }

/-- How a lease or an attempt to create the conversation rewrites a result. -/
inductive Hold (op : Op) (now : Time) (r : RunResult) : RunResult → Prop
  | claimed {campaignId : Uuid} {worker : String} {duration : Duration} {locked : List Uuid}
      (hop : op = .claim campaignId worker duration locked) :
      Hold op now r (r.claimedBy worker now duration)
  | renewed {lease : RunLease} {duration : Duration} (hop : op = .renew lease duration) :
      Hold op now r { r with
        leaseExpiresAt := some (max now lease.leaseExpiresAt + duration)
        version := lease.version + 1 }
  | prepared {lease : RunLease} (hop : op = .prepareConversation lease) :
      Hold op now r { r with
        conversationAttemptCount := r.conversationAttemptCount + 1, version := r.version + 1 }
  | collecting {campaignId : Uuid} {worker : String} {duration : Duration} {locked : List Uuid}
      (hop : op = .claimCollection campaignId worker duration locked) :
      Hold op now r { r with
        collectorLeaseOwner := some worker, collectorLeaseExpiresAt := some (now + duration)
        collectorAttemptCount := r.collectorAttemptCount + 1, version := r.version + 1 }
  | collectingOn {lease : CollectorLease} {duration : Duration}
      (hop : op = .renewCollection lease duration) :
      Hold op now r { r with
        collectorLeaseExpiresAt := some (now + duration), version := r.version + 1 }

/-- The row is held under the lease a worker presents. -/
structure RunResult.HeldBy (r : RunResult) (l : RunLease) (now : Time) : Prop where
  leased : r.isLeased = true
  running : r.leaseExpiresAt.any (now < ·) = true
  fence : r.version = l.persistedVersion

/-- The row is held under the lease a collector presents. -/
structure RunResult.CollectedBy (r : RunResult) (l : CollectorLease) (now : Time) : Prop where
  submitted : r.schedulingState = .submitted
  running : r.collectorLeaseExpiresAt.any (now < ·) = true
  fence : r.version = l.persistedVersion

/-- What a transaction has checked before it rewrites a result. -/
def Op.Guarded (db : Db) (now : Time) (c : Campaign) (r : RunResult) : Op → Prop
  | .claim _ _ _ _ => (c.status = .running ∨ c.status = .stopping)
      ∧ (db.resultsOf c.id).countP (·.isActiveUnit now) < c.maxConcurrency
      ∧ r.isClaimable c.status now = true
  | .claimCollection _ _ _ _ =>
      (c.status = .running ∨ c.status = .stopping ∨ c.status = .paused)
        ∧ r.schedulingState = .submitted
  | .renew lease _ | .reserve lease | .release lease | .prepareConversation lease
  | .bindConversation lease _ | .prepareSubmission lease | .bindSubmission lease _
  | .fail lease _ _ => r.HeldBy lease now
  | .renewCollection lease _ | .persist lease _ | .failCollection lease _ _ _ =>
      r.CollectedBy lease now
  | _ => True

/-- What a transaction can do to a campaign and one of its results. -/
inductive Change (op : Op) (now : Time) : Campaign → RunResult → Campaign → RunResult → Prop
  /-- A lease or an attempt to create the conversation. -/
  | held {c : Campaign} {r r' : RunResult} (h : r.Kept r') (how : Hold op now r r') :
      Change op now c r c r'
  /-- The conversation is bound. -/
  | bound {c : Campaign} {r : RunResult} {lease : RunLease} {conversationId : Uuid}
      (hop : op = .bindConversation lease conversationId) (hst : r.schedulingState = .claimed)
      (hnone : r.conversationId = none) :
      Change op now c r c { r with
        conversationId := some conversationId, schedulingState := .conversationBound
        version := r.version + 1 }
  /-- An attempt to submit, under an active reservation. -/
  | attempted {c : Campaign} {r : RunResult} (hst : r.schedulingState = .conversationBound)
      (hactive : r.reservationState = .active) :
      Change op now c r c { r with
        submissionAttemptCount := r.submissionAttemptCount + 1, version := r.version + 1 }
  | reserved {c : Campaign} {r : RunResult} {request : ReservationRequest}
      (hrun : c.status = .running) (hnone : r.reservationState = .none)
      (hallowed : c.limits.admitRequest c.ledger request = .allowed)
      (hleased : r.isLeased = true) :
      Change op now c r (reserved now request c r).1 (reserved now request c r).2
  | refused {c : Campaign} {r : RunResult} {intent : StopIntent} {reason : String}
      (hintent : intent ≠ .pause) (hleased : r.isLeased = true) :
      Change op now c r (refused intent reason c r).1 (refused intent reason c r).2
  /-- The reservation is given back, before anything was submitted. -/
  | released {c : Campaign} {r : RunResult} (hactive : r.reservationState = .active)
      (hcount : r.submissionAttemptCount = 0) :
      Change op now c r
        { c with ledger := c.ledger.unreserve r, version := c.version + 1 }
        { r with
          reservationState := .released, reservationReleasedAt := some now
          version := r.version + 1 }
  /-- The run is bound. -/
  | submitted {c : Campaign} {r : RunResult} {lease : RunLease}
      {receipt : CandidateSubmissionReceipt} (hop : op = .bindSubmission lease receipt)
      (hst : r.schedulingState = .conversationBound) (hnone : r.searchRunId = none) :
      Change op now c r
        { c with
          counts := { c.counts with submitted := c.counts.submitted + 1 }
          version := c.version + 1 }
        { r with
          searchRunId := some receipt.searchRunId, schedulingState := .submitted
          leaseOwner := none, leaseExpiresAt := none, version := r.version + 1 }
  /-- The unit is sealed as failed before it was submitted. -/
  | failed {c c₁ : Campaign} {r r₁ : RunResult} {lease : RunLease} {failure : RunnerFailure}
      {digest : String} (hop : op = .fail lease failure digest)
      (hleased : r.isLeased = true)
      (h : failReservation now failure digest c r = .ok (c₁, r₁)) :
      Change op now c r c₁.countFailed
        { r₁.seal failure with leaseOwner := none, leaseExpiresAt := none }
  | settled {c c₁ : Campaign} {r r₁ : RunResult} {usage : SettlementUsage} {digest : String}
      (hu : op.usage c = some usage) (hsha : isSha256 digest = true)
      (h : settleRows now digest usage c r = .ok (c₁, r₁)) : Change op now c r c₁ r₁
  /-- The unit is sealed as failed after it was submitted. -/
  | sealed {c c₁ : Campaign} {r r₁ : RunResult} {usage : SettlementUsage} {digest : String}
      {completedAt : Time} {failure : RunnerFailure} {calls : Nat}
      (hu : op.usage c = some usage) (hst : r.schedulingState = .submitted)
      (hactive : r.reservationState = .active) (hsha : isSha256 digest = true)
      (h : settleRows now digest usage c.countFailed
        (r.sealCollection failure completedAt calls) = .ok (c₁, r₁)) :
      Change op now c r c₁ r₁
  /-- The unit is collected. -/
  | collected {c c₁ : Campaign} {r r₁ : RunResult} {lease : CollectorLease}
      {outcome : CollectionOutcome} {digest : String}
      (hop : op = .persist lease outcome) (hst : r.schedulingState = .submitted)
      (hgold : verifyGoldAssertions (insertedGold outcome.metrics.goldAssertions)
        outcome.metrics.goldAssertions = .ok ())
      (hsha : isSha256 digest = true)
      (h : settleRows now digest outcome.usage c
        { r with sourceTerminalAt := some outcome.sourceTerminalAt } = .ok (c₁, r₁)) :
      Change op now c r (collected now outcome c₁ r₁).1 (collected now outcome c₁ r₁).2

/-- A new campaign, as it is added. -/
def Campaign.fresh (c : Campaign) : Campaign :=
  { c with
    status := .created, gateStatus := .pending, stopIntent := .none, stopReason := none
    counts := {}, ledger := {}, startedAt := none, reviewDeadlineAt := none
    completedAt := none, finalReport := none, reviews := [], version := 0 }

/-- A pending result of a campaign, skipped. -/
def RunResult.skipped (r : RunResult) (reason : String) : RunResult :=
  { r with
    schedulingState := .skipped, stableSkipReason := some reason, version := r.version + 1 }

/-- A result that `skip_pending` seals. -/
def RunResult.isPendingOf (campaignId : Uuid) (r : RunResult) : Bool :=
  r.campaignId = campaignId && r.schedulingState = .pending

/-- What a transaction can do. -/
inductive Effect (ports : Orchestration.Ports) (op : Op) (now : Time) (db db' : Db) : Prop
  | idle (h : db' = db)
  | added {c : Campaign}
      (h : db'.toTables = { db.toTables with campaigns := db.campaigns ++ [c.fresh] })
      (hop : op.target = none)
  | materialized {c : Campaign} {cases : List PlannedCase} {repetitions : Nat}
      (hc : c ∈ db.campaigns) (hst : c.status = .created) (hplanned : c.counts.planned = 0)
      (hnone : db.resultsOf c.id = [])
      (h : db'.toTables = { db.toTables.putCampaign { c with
          counts := { c.counts with
            planned := (materializeRunPlans ports.uuid5 c.id cases repetitions).length }
          version := c.version + 1 } with
        results := db.results ++ materializeRunPlans ports.uuid5 c.id cases repetitions })
      (hop : op.target = none)
  | moved {c c' : Campaign} (hc : c ∈ db.campaigns) (hm : c.Moved c')
      (hreport : c'.finalReport = c.finalReport ∨ ∃ b current, op = .bindReport b current)
      (h : db'.toTables = db.toTables.putCampaign c') (hop : op.target = none)
  | skipped {c : Campaign} {reason : String} (hc : c ∈ db.campaigns) (hst : c.status = .stopping)
      (h : db'.toTables = { db.toTables.putCampaign { c with
          counts := { c.counts with
            skipped := c.counts.skipped + db.results.countP (RunResult.isPendingOf c.id) }
          version := c.version + 1 } with
        results := db.results.map fun r =>
          if r.isPendingOf c.id then r.skipped reason else r })
      (hop : op.target = none)
  | rows {c c' : Campaign} {r r' : RunResult} (hc : c ∈ db.campaigns) (hr : r ∈ db.results)
      (hcr : r.campaignId = c.id) (htarget : ∀ x ∈ op.target, x = (c.id, r.id))
      (hguard : op.Guarded db now c r) (hch : Change op now c r c' r')
      (h : db'.toTables = db.toTables.put c' r')

/-! ## Small facts -/

theorem commit_ok {t : Tables} {db : Db} (h : t.commit = .ok db) : db.toTables = t := by
  unfold Tables.commit at h
  split at h
  · cases h
    rfl
  · cases h

theorem lockedCampaign_ok {t : Tables} {id : Uuid} {missing : Exn} {c : Campaign}
    (h : t.lockedCampaign id missing = .ok c) : c ∈ t.campaigns ∧ c.id = id := by
  unfold Tables.lockedCampaign at h
  split at h
  · rename_i found hfound
    cases h
    exact lookup_eq_some hfound
  · cases h

/-- The two rows an operation works on. -/
structure Rows (t : Tables) (campaignId resultId : Uuid) (c : Campaign) (r : RunResult) :
    Prop where
  campaign_mem : c ∈ t.campaigns
  campaign_id : c.id = campaignId
  result_mem : r ∈ t.results
  result_campaign : r.campaignId = campaignId
  result_id : r.id = resultId

theorem find_ok {t : Tables} {campaignId resultId : Uuid} {r : RunResult}
    (h : (t.results.find? fun r => r.campaignId = campaignId && r.id = resultId) = some r) :
    r ∈ t.results ∧ r.campaignId = campaignId ∧ r.id = resultId := by
  have hp := List.find?_some h
  simp only [Bool.and_eq_true, decide_eq_true_eq] at hp
  exact ⟨List.mem_of_find?_eq_some h, hp⟩

theorem lockedRows_ok {t : Tables} {campaignId resultId : Uuid} {e e' : Exn} {c : Campaign}
    {r : RunResult} (h : t.lockedRows campaignId resultId e e' = .ok (c, r)) :
    Rows t campaignId resultId c r := by
  unfold Tables.lockedRows at h
  obtain ⟨c₀, hc, h⟩ := bind_ok_iff.mp h
  obtain ⟨hmem, hid⟩ := lockedCampaign_ok hc
  split at h
  · rename_i found hfound
    cases h
    obtain ⟨hr, hrc, hrid⟩ := find_ok hfound
    exact ⟨hmem, hid, hr, hrc, hrid⟩
  · cases h

theorem firstScheduled_eq (rows : List RunResult) :
    firstScheduled rows = rows.foldl (fun best r => best.elim (some r) fun b =>
      if r.scheduleOrdinal < b.scheduleOrdinal then some r else some b) none := by
  unfold firstScheduled
  congr 1
  funext best r
  cases best <;> rfl

theorem mem_of_firstScheduled {rows : List RunResult} {r : RunResult}
    (h : firstScheduled rows = some r) : r ∈ rows := by
  -- the fold keeps its start value or one of the rows
  have key : ∀ (rows : List RunResult) (best : Option RunResult),
      rows.foldl (fun best r => best.elim (some r) fun b =>
        if r.scheduleOrdinal < b.scheduleOrdinal then some r else some b) best = some r →
          best = some r ∨ r ∈ rows := by
    intro rows
    induction rows with
    | nil => exact fun best hb => .inl hb
    | cons a rows ih =>
        intro best hb
        rcases ih _ hb with hbest | hmem
        · cases best with
          | none =>
              simp only [Option.elim_none] at hbest
              cases hbest
              exact .inr List.mem_cons_self
          | some b =>
              simp only [Option.elim_some] at hbest
              split at hbest
              · cases hbest
                exact .inr List.mem_cons_self
              · exact .inl hbest
        · exact .inr (List.mem_cons_of_mem _ hmem)
  rcases key rows none (firstScheduled_eq rows ▸ h) with hnone | hmem
  · cases hnone
  · exact hmem

/-- Writing a campaign back as it was read changes nothing. -/
theorem putResult_eq_put {db : Db} {c : Campaign} (hc : c ∈ db.campaigns) (r : RunResult) :
    db.toTables.putResult r = db.toTables.put c r := by
  have hself : db.toTables.putCampaign c = db.toTables := by
    unfold Tables.putCampaign
    rw [update_self db.valid.pk_campaigns hc]
  rw [Tables.put, hself]

theorem isOpen_of_leased {r : RunResult} (h : r.isLeased = true) : r.isOpen = true := by
  simp [RunResult.isOpen, h]

/-- A planned result: nothing has happened to it yet. -/
theorem mem_materializeRunPlans {uuid5 : Uuid → String → Uuid} {campaignId : Uuid}
    {cases : List PlannedCase} {repetitions : Nat} {r : RunResult}
    (h : r ∈ materializeRunPlans uuid5 campaignId cases repetitions) :
    ∃ (id : Uuid) (caseId : String) (repetition scheduleOrdinal : Nat) (hash : String)
      (selected : Bool), r = {
        id, campaignId, caseId, repetition, scheduleOrdinal, manualReviewSelected := selected
        conversationIdempotencyKey := conversationKey campaignId caseId repetition
        messageIdempotencyKey := messageKey campaignId caseId repetition
        submissionRequestHash := hash } := by
  simp only [materializeRunPlans, List.mem_map] at h
  obtain ⟨x, _, rfl⟩ := h
  exact ⟨_, _, _, _, _, _, rfl⟩

/-! ## The lifecycle -/

section Lifecycle

variable {c c' : Campaign}

theorem transition_ok {target : CampaignStatus} (h : c.transition target = .ok c') :
    target ∈ c.status.targets ∧ c' = { c with status := target, version := c.version + 1 } := by
  unfold Campaign.transition at h
  obtain ⟨_, hmem, h⟩ := bind_ok_iff.mp h
  rw [pure_ok_iff] at h
  exact ⟨by simpa using hmem, h.symm⟩

theorem running_of_targets {s : CampaignStatus} (h : .running ∈ s.targets) :
    s = .created ∨ s = .paused := by
  revert h
  cases s <;> decide

theorem stopping_of_targets {s : CampaignStatus} (h : .stopping ∈ s.targets) : s = .running := by
  revert h
  cases s <;> decide

theorem paused_of_targets {s : CampaignStatus} (h : .paused ∈ s.targets) : s = .stopping := by
  revert h
  cases s <;> decide

theorem unbound_of_targets {s : CampaignStatus} (h : s ∈ c.status.targets)
    (hterm : c.isTerminal = true) : c.finalReport = none := by
  simp only [Campaign.isTerminal, Bool.or_eq_true, decide_eq_true_eq] at hterm
  rcases hterm with hterm | hterm <;> simp [hterm, CampaignStatus.targets] at h

/-- A campaign that ends or waits for its review. -/
theorem moved_of_ending (hid : c'.id = c.id) (howner : c'.createdByUserId = c.createdByUserId)
    (hlimits : c'.limits = c.limits) (hconc : c'.maxConcurrency = c.maxConcurrency)
    (hcounts : c'.counts = c.counts) (hledger : c'.ledger = c.ledger)
    (hst : c'.status = .awaitingReview ∨ c'.status = .completed ∨ c'.status = .aborted)
    (hunbound : c.isTerminal = true → c.finalReport = none) : c.Moved c' := by
  refine ⟨hid, howner, hlimits, hconc, hcounts, hledger, ?_, ?_, ?_, ?_, hunbound⟩
  all_goals
    rcases hst with hst | hst | hst <;> simp [hst]

theorem start_moved {now : Time} (h : c.start now = .ok c') : c.Moved c' := by
  simp only [Campaign.start, bind_ok_iff, pure_ok_iff] at h
  obtain ⟨_, _, _, _, c₁, htr, rfl⟩ := h
  obtain ⟨hmem, rfl⟩ := transition_ok htr
  exact ⟨rfl, rfl, rfl, rfl, rfl, rfl, by simp, fun _ => running_of_targets hmem, by simp, by simp,
    unbound_of_targets hmem⟩

theorem resume_moved {now : Time} (h : c.resume now = .ok c') : c.Moved c' := by
  simp only [Campaign.resume, bind_ok_iff, pure_ok_iff] at h
  obtain ⟨_, _, c₁, htr, rfl⟩ := h
  obtain ⟨hmem, rfl⟩ := transition_ok htr
  exact ⟨rfl, rfl, rfl, rfl, rfl, rfl, by simp, fun _ => running_of_targets hmem, by simp, by simp,
    unbound_of_targets hmem⟩

theorem requestStop_moved {intent : StopIntent} {reason : String}
    (h : c.requestStop intent reason = .ok c') : c.Moved c' := by
  simp only [Campaign.requestStop, bind_ok_iff, pure_ok_iff] at h
  obtain ⟨_, _, _, _, c₁, htr, rfl⟩ := h
  obtain ⟨hmem, rfl⟩ := transition_ok htr
  exact ⟨rfl, rfl, rfl, rfl, rfl, rfl, by simp, by simp, by simp,
    fun _ _ => stopping_of_targets hmem, unbound_of_targets hmem⟩

theorem escalateStop_moved {intent : StopIntent} {reason : String}
    (h : c.escalateStop intent reason = .ok c') : c.Moved c' := by
  simp only [Campaign.escalateStop, bind_ok_iff, pure_ok_iff, check_eq_ok] at h
  obtain ⟨_, hst, _, hintent, _, _, rfl⟩ := h
  simp only [decide_eq_true_eq] at hst
  simp only [Bool.and_eq_true, decide_eq_true_eq] at hintent
  refine ⟨rfl, rfl, rfl, rfl, rfl, rfl, ?_, ?_, ?_, ?_, ?_⟩
  · simp [hst]
  · simp [hst]
  · simp [hst]
  · -- the intent is not a pause any more
    intro _ hpause
    exact absurd hpause hintent.2
  · simp [Campaign.isTerminal, hst]

theorem settleStop_moved {now : Time} (h : c.settleStop now = .ok c') : c.Moved c' := by
  unfold Campaign.settleStop at h
  obtain ⟨_, _, h⟩ := bind_ok_iff.mp h
  split at h
  · rename_i hpause
    obtain ⟨hmem, rfl⟩ := transition_ok h
    exact ⟨rfl, rfl, rfl, rfl, rfl, rfl, by simp, by simp,
      fun _ => ⟨paused_of_targets hmem, hpause⟩, by simp, unbound_of_targets hmem⟩
  · obtain ⟨c₁, htr, h⟩ := bind_ok_iff.mp h
    obtain ⟨hmem, rfl⟩ := transition_ok htr
    rw [pure_ok_iff] at h
    subst h
    exact moved_of_ending rfl rfl rfl rfl rfl rfl (.inr (.inr rfl)) (unbound_of_targets hmem)

theorem awaitReview_moved {now deadline : Time} (h : c.awaitReview now deadline = .ok c') :
    c.Moved c' := by
  simp only [Campaign.awaitReview, bind_ok_iff, pure_ok_iff] at h
  obtain ⟨_, _, _, _, c₁, htr, rfl⟩ := h
  obtain ⟨hmem, rfl⟩ := transition_ok htr
  exact moved_of_ending rfl rfl rfl rfl rfl rfl (.inl rfl) (unbound_of_targets hmem)

theorem complete_moved {decision : GateStatus} {now : Time}
    (h : c.complete decision now = .ok c') : c.Moved c' := by
  simp only [Campaign.complete, bind_ok_iff, pure_ok_iff] at h
  obtain ⟨_, _, _, _, c₁, htr, rfl⟩ := h
  obtain ⟨hmem, rfl⟩ := transition_ok htr
  exact moved_of_ending rfl rfl rfl rfl rfl rfl (.inr (.inl rfl)) (unbound_of_targets hmem)

theorem abort_moved {reason : String} {now : Time} (h : c.abort reason now = .ok c') :
    c.Moved c' := by
  simp only [Campaign.abort, bind_ok_iff, pure_ok_iff] at h
  obtain ⟨_, _, _, _, c₁, htr, rfl⟩ := h
  obtain ⟨hmem, rfl⟩ := transition_ok htr
  exact moved_of_ending rfl rfl rfl rfl rfl rfl (.inr (.inr rfl)) (unbound_of_targets hmem)

theorem mutation_moved {m : Mutation} (h : m.apply c = .ok c') : c.Moved c' := by
  cases m with
  | start now => exact start_moved h
  | resume now => exact resume_moved h
  | requestStop intent reason => exact requestStop_moved h
  | escalateStop intent reason => exact escalateStop_moved h
  | settleStop now => exact settleStop_moved h
  | awaitReview now deadline => exact awaitReview_moved h
  | complete decision now => exact complete_moved h
  | abort reason now => exact abort_moved h

theorem transition_finalReport {target : CampaignStatus} (h : c.transition target = .ok c') :
    c'.finalReport = c.finalReport := by
  obtain ⟨_, rfl⟩ := transition_ok h
  rfl

/-- No change of the lifecycle touches the report. -/
theorem mutation_finalReport {m : Mutation} (h : m.apply c = .ok c') :
    c'.finalReport = c.finalReport := by
  cases m <;> simp only [Mutation.apply, Campaign.start, Campaign.resume, Campaign.requestStop,
    Campaign.escalateStop, Campaign.settleStop, Campaign.awaitReview, Campaign.complete,
    Campaign.abort, bind_ok_iff, pure_ok_iff] at h
  case settleStop now =>
    obtain ⟨_, _, h⟩ := h
    split at h
    · exact transition_finalReport h
    · simp only [bind_ok_iff, pure_ok_iff] at h
      obtain ⟨c₁, htr, rfl⟩ := h
      exact (transition_finalReport htr : c₁.finalReport = _)
  case escalateStop =>
    obtain ⟨_, _, _, _, _, _, rfl⟩ := h
    rfl
  case resume now =>
    obtain ⟨_, _, c₁, htr, rfl⟩ := h
    exact (transition_finalReport htr : c₁.finalReport = _)
  all_goals
    obtain ⟨_, _, _, _, c₁, htr, rfl⟩ := h
    exact (transition_finalReport htr : c₁.finalReport = _)

theorem terminalStatus_ok {s : CampaignStatus} (h : c.terminalStatus = .ok s) :
    s = .completed ∨ s = .aborted := by
  unfold Campaign.terminalStatus at h
  obtain ⟨_, _, h⟩ := bind_ok_iff.mp h
  obtain ⟨_, _, h⟩ := bind_ok_iff.mp h
  split at h
  · exact .inr (pure_ok_iff.mp h).symm
  · exact .inl (pure_ok_iff.mp h).symm

end Lifecycle

/-! ## One lemma an operation -/

section Ops

variable {ports : Orchestration.Ports} {app : Orchestration.Tables} {db db' : Db} {now : Time}

theorem addCampaign_effect {c : Campaign} (h : addCampaign db c = .ok db') :
    Effect ports (.add c) now db db' :=
  .added (c := c) (commit_ok h) rfl

theorem materialize_effect {userId campaignId : Uuid} {cases : List PlannedCase}
    {repetitions : Nat}
    (h : materialize ports.uuid5 db userId campaignId cases repetitions = .ok db') :
    Effect ports (.materialize userId campaignId cases repetitions) now db db' := by
  unfold materialize at h
  split at h
  swap
  · exact .idle (pure_ok_iff.mp h).symm
  rename_i c hfound
  obtain ⟨hc, rfl⟩ := lookup_eq_some hfound
  split at h
  · exact .idle (pure_ok_iff.mp h).symm
  simp only [] at h
  split at h
  · exact .idle (pure_ok_iff.mp h).symm
  simp only [bind_ok_iff, check_eq_ok, decide_eq_true_eq, Bool.and_eq_true] at h
  obtain ⟨_, hst, _, ⟨hplanned, hnone⟩, _, _, h⟩ := h
  exact .materialized hc hst hplanned (List.length_eq_zero_iff.mp hnone) (commit_ok h) rfl

theorem mutateLifecycle_effect {owner : Option Uuid} {campaignId : Uuid}
    {mutation : Mutation}
    (h : mutateLifecycle db owner campaignId (fun c => mutation.apply c) = .ok db') :
    Effect ports (.mutate owner campaignId mutation) now db db' := by
  unfold mutateLifecycle at h
  split at h
  swap
  · exact .idle (pure_ok_iff.mp h).symm
  rename_i c hfound
  split at h
  · exact .idle (pure_ok_iff.mp h).symm
  simp only [bind_ok_iff] at h
  obtain ⟨_, _, c', hm, h⟩ := h
  exact .moved (lookup_eq_some hfound).1 (mutation_moved hm) (.inl (mutation_finalReport hm))
    (commit_ok h) rfl

theorem existingReceipt_ok {c : Campaign} {b : FinalReportBinding} {bound : Bool}
    (h : c.existingReceipt b = .ok bound) : bound = c.finalReport.isSome := by
  unfold Campaign.existingReceipt at h
  split at h
  · rename_i hnone
    cases h
    rw [hnone]
    rfl
  · rename_i report hsome
    simp only [bind_ok_iff, pure_ok_iff] at h
    obtain ⟨_, _, rfl⟩ := h
    rw [hsome]
    rfl

/-- A report that was not bound before is bound under the guards of `bind`. -/
theorem bindReport_ok {b : FinalReportBinding} {current : String}
    (h : bindReport db now b current = .ok db') :
    ∃ c ∈ db.campaigns, c.id = b.campaignId ∧
      (c.finalReport.isSome = true ∧ db' = db ∨
        ∃ status, c.finalReport = none ∧ b.gateStatus ≠ .pending ∧
          current = b.report.decisionInputHash ∧ c.terminalStatus = .ok status ∧
          db'.toTables = db.toTables.putCampaign (c.finalized status b now)) := by
  simp only [bindReport, FinalReportBinding.validate, bind_ok_iff, check_eq_ok,
    decide_eq_true_eq] at h
  obtain ⟨_, ⟨_, hgate, _⟩, c, hc, _, _, bound, hbound, h⟩ := h
  obtain ⟨hmem, hid⟩ := lockedCampaign_ok hc
  refine ⟨c, hmem, hid, ?_⟩
  have hb := existingReceipt_ok hbound
  split at h
  · rename_i htrue
    exact .inl ⟨hb ▸ htrue, (pure_ok_iff.mp h).symm⟩
  · rename_i hfalse
    simp only [bind_ok_iff, check_eq_ok, decide_eq_true_eq] at h
    obtain ⟨_, _, _, hcur, _, _, status, hst, h⟩ := h
    rw [hb, Bool.not_eq_true, Option.isSome_eq_false_iff, Option.isNone_iff_eq_none] at hfalse
    exact .inr ⟨status, hfalse, hgate, hcur, hst, commit_ok h⟩

theorem bindReport_effect {b : FinalReportBinding} {current : String}
    (h : bindReport db now b current = .ok db') :
    Effect ports (.bindReport b current) now db db' := by
  obtain ⟨c, hc, -, ⟨-, rfl⟩ | ⟨status, hnone, -, -, hst, hdb⟩⟩ := bindReport_ok h
  · exact .idle rfl
  · refine .moved hc ?_ (.inr ⟨b, current, rfl⟩) hdb rfl
    refine moved_of_ending rfl rfl rfl rfl rfl rfl ?_ fun _ => hnone
    rcases terminalStatus_ok hst with rfl | rfl
    · exact .inr (.inl rfl)
    · exact .inr (.inr rfl)

/-- A review that is not a replay is added while the campaign waits for it. -/
theorem addReview_ok {uuid5 : Uuid → String → Uuid} {s : ReviewSubmission}
    (h : addReview uuid5 db now s = .ok db') :
    db' = db ∨ ∃ c ∈ db.campaigns, c.status = .awaitingReview ∧ ∃ v : Review,
      db'.toTables = db.toTables.putCampaign { c with
        reviews := c.reviews ++ [v], version := c.version + 1 } := by
  simp only [addReview, bind_ok_iff, Prod.exists] at h
  obtain ⟨s, _, c, r, hrows, _, _, _, _, _, _, _, _, h⟩ := h
  split at h
  · simp only [bind_ok_iff, pure_ok_iff] at h
    obtain ⟨_, _, rfl⟩ := h
    exact .inl rfl
  · simp only [bind_ok_iff, check_eq_ok, Bool.and_eq_true, decide_eq_true_eq] at h
    obtain ⟨_, ⟨hst, _⟩, h⟩ := h
    exact .inr ⟨c, (lockedRows_ok hrows).campaign_mem, hst, _, commit_ok h⟩

theorem addReview_effect {s : ReviewSubmission}
    (h : addReview ports.uuid5 db now s = .ok db') : Effect ports (.review s) now db db' := by
  rcases addReview_ok h with rfl | ⟨c, hc, hst, v, hdb⟩
  · exact .idle rfl
  · refine .moved hc ?_ (.inl ?_) hdb rfl
    swap
    · rfl
    refine moved_of_ending rfl rfl rfl rfl rfl rfl (.inl hst) fun hterm => ?_
    simp [Campaign.isTerminal, hst] at hterm

theorem skipPending_effect {campaignId : Uuid} {reason : String}
    (h : skipPending db campaignId reason = .ok db') :
    Effect ports (.skip campaignId reason) now db db' := by
  simp only [skipPending, bind_ok_iff, check_eq_ok, decide_eq_true_eq] at h
  obtain ⟨_, _, c, hc, _, hst, h⟩ := h
  obtain ⟨hmem, rfl⟩ := lockedCampaign_ok hc
  split at h
  · exact .idle (pure_ok_iff.mp h).symm
  · exact .skipped hmem hst (commit_ok h) rfl

/-- A transaction that only rewrites a result. -/
theorem effect_of_putResult {op : Op} {c : Campaign} {r r' : RunResult} {db' : Db}
    (hc : c ∈ db.campaigns) (hr : r ∈ db.results) (hcr : r.campaignId = c.id)
    (htarget : ∀ x ∈ op.target, x = (c.id, r.id)) (hguard : op.Guarded db now c r)
    (hch : Change op now c r c r')
    (h : (db.toTables.putResult r').commit = .ok db') : Effect ports op now db db' :=
  .rows hc hr hcr htarget hguard hch ((commit_ok h).trans (putResult_eq_put hc r'))

/-- The rows of a transaction that was handed a lease are the lease's. -/
theorem Rows.target {t : Tables} {campaignId resultId : Uuid} {c : Campaign} {r : RunResult}
    (h : Rows t campaignId resultId c r) :
    ∀ x ∈ some (campaignId, resultId), x = (c.id, r.id) := by
  intro x hx
  cases hx
  rw [h.campaign_id, h.result_id]

theorem Rows.campaign {t : Tables} {campaignId resultId : Uuid} {c : Campaign} {r : RunResult}
    (h : Rows t campaignId resultId c r) : r.campaignId = c.id :=
  h.result_campaign.trans h.campaign_id.symm

theorem claimable_open {r : RunResult} {status : CampaignStatus} (h : r.isClaimable status now) :
    r.isOpen = true := by
  unfold RunResult.isClaimable at h
  unfold RunResult.isOpen
  split at h
  · simp only [Bool.and_eq_true] at h
    simp [h.1.1]
  · simp only [Bool.or_eq_true, Bool.and_eq_true] at h
    rcases h with h | h
    · simp [h]
    · simp [h.1]

/-- What a claim that hands out a lease has found, and what it leaves. -/
structure ClaimedRow (db db' : Db) (now : Time) (campaignId : Uuid) (worker : String)
    (duration : Duration) (locked : List Uuid) (lease : RunLease) (c : Campaign) (r : RunResult) :
    Prop where
  campaign_mem : c ∈ db.campaigns
  campaign_id : c.id = campaignId
  status : c.status = .running ∨ c.status = .stopping
  free : (db.resultsOf c.id).countP (·.isActiveUnit now) < c.maxConcurrency
  result_mem : r ∈ db.results
  result_campaign : r.campaignId = c.id
  claimable : r.isClaimable c.status now = true
  unlocked : r.id ∉ locked
  lease_eq : lease = (r.claimedBy worker now duration).lease worker (now + duration)
  made : lease.make = .ok lease
  tables : db'.toTables = db.toTables.putResult (r.claimedBy worker now duration)

theorem make_ok {l l' : RunLease} (h : l.make = .ok l') : l' = l := by
  simp only [RunLease.make, bind_ok_iff, pure_ok_iff] at h
  obtain ⟨_, _, _, _, _, _, _, _, _, _, rfl⟩ := h
  rfl

theorem claimNextResult_ok {campaignId : Uuid} {worker : String} {duration : Duration}
    {locked : List Uuid} {lease : Option RunLease}
    (h : claimNextResult db now campaignId worker duration locked = .ok (lease, db')) :
    (lease = none ∧ db' = db) ∨ ∃ l c r, lease = some l ∧
      ClaimedRow db db' now campaignId worker duration locked l c r := by
  unfold claimNextResult at h
  split at h
  swap
  · simp only [pure_ok_iff, Prod.mk.injEq] at h
    exact .inl ⟨h.1.symm, h.2.symm⟩
  rename_i c hfound
  split at h
  · simp only [pure_ok_iff, Prod.mk.injEq] at h
    exact .inl ⟨h.1.symm, h.2.symm⟩
  rename_i hstatus
  simp only [] at h
  split at h
  · simp only [pure_ok_iff, Prod.mk.injEq] at h
    exact .inl ⟨h.1.symm, h.2.symm⟩
  rename_i hfree
  split at h
  · simp only [pure_ok_iff, Prod.mk.injEq] at h
    exact .inl ⟨h.1.symm, h.2.symm⟩
  rename_i r hr
  simp only [bind_ok_iff, pure_ok_iff, Prod.mk.injEq] at h
  obtain ⟨db₁, hput, l, hl, hlease, rfl⟩ := h
  obtain ⟨hc, hcid⟩ := lookup_eq_some hfound
  have hmem := mem_of_firstScheduled hr
  simp only [Tables.resultsOf, List.mem_filter, decide_eq_true_eq, Bool.and_eq_true] at hmem
  obtain ⟨⟨hrm, hrc⟩, hclaim, hlocked⟩ := hmem
  obtain rfl := make_ok hl
  refine .inr ⟨_, c, r, hlease.symm, hc, hcid, by tauto, ?_, hrm, hrc.trans hcid.symm, hclaim,
    hlocked, rfl, hl, commit_ok hput⟩
  rw [hcid]
  exact not_le.mp hfree

theorem claimNextResult_effect {campaignId : Uuid} {worker : String} {duration : Duration}
    {locked : List Uuid} {lease : Option RunLease}
    (h : claimNextResult db now campaignId worker duration locked = .ok (lease, db')) :
    Effect ports (.claim campaignId worker duration locked) now db db' := by
  obtain ⟨-, rfl⟩ | ⟨l, c, r, -, hcl⟩ := claimNextResult_ok h
  · exact .idle rfl
  refine .rows hcl.campaign_mem hcl.result_mem hcl.result_campaign (by simp [Op.target])
    ⟨hcl.status, hcl.free, hcl.claimable⟩ (.held ?_ (.claimed rfl))
    (hcl.tables.trans (putResult_eq_put hcl.campaign_mem _))
  refine ⟨⟨rfl, rfl, rfl, rfl, rfl⟩, rfl, rfl, rfl, rfl, rfl, rfl, rfl, rfl, rfl, rfl, rfl, rfl, rfl,
    claimable_open hcl.claimable, ?_⟩
  -- a claimed row is leased, whichever of the two states it is in
  refine isOpen_of_leased ?_
  unfold RunResult.isLeased RunResult.claimedBy
  simp only []
  split_ifs <;> simp

/-- A passed check of the lease. -/
theorem assertActiveLease_ok {r : RunResult} {l : RunLease}
    (h : r.assertActiveLease l now = .ok ()) : r.HeldBy l now := by
  simp only [RunResult.assertActiveLease, check_eq_ok, Bool.and_eq_true, decide_eq_true_eq] at h
  exact ⟨h.1.1.1.1, h.1.2, h.2⟩

/-- A passed check of the collector's lease. -/
theorem assertCollectorLease_ok {r : RunResult} {l : CollectorLease}
    (h : r.assertCollectorLease l now = .ok ()) : r.CollectedBy l now := by
  simp only [RunResult.assertCollectorLease, check_eq_ok, Bool.and_eq_true,
    decide_eq_true_eq] at h
  exact ⟨h.1.1.1, h.1.2, h.2⟩

theorem renew_eq {l l' : RunLease} {expiresAt : Time} (h : l.renew now expiresAt = .ok l') :
    l' = { l with leaseExpiresAt := expiresAt, version := l.version + 1 } := by
  simp only [RunLease.renew, bind_ok_iff, pure_ok_iff] at h
  obtain ⟨_, _, _, _, rfl⟩ := h
  rfl

theorem renewResultLease_effect {lease lease' : RunLease} {duration : Duration}
    (h : renewResultLease db now lease duration = .ok (lease', db')) :
    Effect ports (.renew lease duration) now db db' := by
  unfold renewResultLease at h
  obtain ⟨l, hl, h⟩ := bind_ok_iff.mp h
  split at h
  · cases h
  rename_i r hfound
  obtain ⟨hr, hrc, hrid⟩ := find_ok hfound
  simp only [bind_ok_iff, check_eq_ok, pure_ok_iff, Prod.mk.injEq, Bool.and_eq_true] at h
  obtain ⟨_, ⟨⟨⟨hleased, _⟩, hfence⟩, hrunning⟩, db₁, hput, _, rfl⟩ := h
  obtain ⟨c, hc, hcid⟩ := db.valid.fk_results r hr
  obtain rfl := renew_eq hl
  refine effect_of_putResult hc hr hcid.symm ?_ ⟨hleased, hrunning, of_decide_eq_true hfence⟩
    (.held ?_ (.renewed rfl)) hput
  · intro x hx
    cases hx
    rw [hcid, hrc, hrid]
  · exact ⟨⟨rfl, rfl, rfl, rfl, rfl⟩, rfl, rfl, rfl, rfl, rfl, rfl, rfl, rfl, rfl, rfl, rfl, rfl, rfl,
      isOpen_of_leased hleased, isOpen_of_leased hleased⟩

/-- A refused reservation never asks for a pause. -/
theorem admit_denied {limits : Limits} {ledger : Ledger} {request : ReservationRequest}
    {intent : StopIntent} {reason : String}
    (h : limits.admitRequest ledger request = .denied intent reason) : intent ≠ .pause := by
  simp only [Limits.admitRequest] at h
  split_ifs at h <;> cases h <;> decide

theorem reserveRunBudget_effect {lease lease' : RunLease} {receipt : BudgetReservationReceipt}
    (h : reserveRunBudget db now lease = .ok (receipt, lease', db')) :
    Effect ports (.reserve lease) now db db' := by
  unfold reserveRunBudget at h
  obtain ⟨⟨c, r⟩, hrows, h⟩ := bind_ok_iff.mp h
  have hrows := lockedRows_ok hrows
  obtain ⟨_, hlease, h⟩ := bind_ok_iff.mp h
  have hheld := assertActiveLease_ok hlease
  simp only [] at h
  split at h
  · simp only [pure_ok_iff, Prod.mk.injEq] at h
    exact .idle h.2.2.symm
  rename_i hrun
  simp only [bind_ok_iff, check_eq_ok, decide_eq_true_eq] at h
  obtain ⟨_, _, _, hnone, request, _, h⟩ := h
  split at h
  · rename_i intent reason hdenied
    split at h
    · simp only [pure_ok_iff, Prod.mk.injEq] at h
      exact .idle h.2.2.symm
    · simp only [bind_ok_iff, pure_ok_iff, Prod.mk.injEq] at h
      obtain ⟨db₁, hput, _, _, _, _, rfl⟩ := h
      exact .rows hrows.campaign_mem hrows.result_mem hrows.campaign hrows.target
        hheld (.refused (admit_denied hdenied) hheld.leased) (commit_ok hput)
  · rename_i hallowed
    simp only [bind_ok_iff, pure_ok_iff, Prod.mk.injEq] at h
    obtain ⟨db₁, hput, _, _, _, _, rfl⟩ := h
    exact .rows hrows.campaign_mem hrows.result_mem hrows.campaign hrows.target
      hheld (.reserved (not_not.mp hrun) hnone hallowed hheld.leased) (commit_ok hput)

theorem releaseRunBudget_effect {lease lease' : RunLease}
    (h : releaseRunBudget db now lease = .ok (lease', db')) :
    Effect ports (.release lease) now db db' := by
  unfold releaseRunBudget at h
  obtain ⟨⟨c, r⟩, hrows, h⟩ := bind_ok_iff.mp h
  have hrows := lockedRows_ok hrows
  obtain ⟨_, hlease, h⟩ := bind_ok_iff.mp h
  simp only [] at h
  split at h
  · simp only [pure_ok_iff, Prod.mk.injEq] at h
    exact .idle h.2.symm
  simp only [bind_ok_iff, check_eq_ok, decide_eq_true_eq, pure_ok_iff, Prod.mk.injEq,
    Bool.and_eq_true] at h
  obtain ⟨_, hactive, _, hcount, _, _, db₁, hput, _, _, _, rfl⟩ := h
  exact .rows hrows.campaign_mem hrows.result_mem hrows.campaign hrows.target
    (assertActiveLease_ok hlease) (.released hactive hcount.1.1) (commit_ok hput)

theorem sourceDigest_ok {digest filed : String} (h : sourceDigest digest = .ok filed) :
    isSha256 filed = true := by
  simp only [sourceDigest, bind_ok_iff, pure_ok_iff, check_eq_ok] at h
  obtain ⟨_, hsha, rfl⟩ := h
  exact hsha

theorem settleRunBudget_effect {campaignId resultId : Uuid} {digest : String}
    {usage : SettlementUsage} {receipt : BudgetSettlementReceipt}
    (h : settleRunBudget db now campaignId resultId digest usage = .ok (receipt, db')) :
    Effect ports (.settle campaignId resultId digest usage) now db db' := by
  unfold settleRunBudget at h
  obtain ⟨_, hdigest, h⟩ := bind_ok_iff.mp h
  obtain ⟨⟨c, r⟩, hrows, h⟩ := bind_ok_iff.mp h
  have hrows := lockedRows_ok hrows
  obtain ⟨⟨c₁, r₁⟩, hset, h⟩ := bind_ok_iff.mp h
  simp only [bind_ok_iff, pure_ok_iff, Prod.mk.injEq] at h
  obtain ⟨_, hput, _, rfl⟩ := h
  exact .rows hrows.campaign_mem hrows.result_mem hrows.campaign hrows.target
    trivial (.settled rfl (sourceDigest_ok hdigest) hset) (commit_ok hput)

theorem prepareConversationAttempt_effect {lease lease' : RunLease}
    (h : prepareConversationAttempt db now lease = .ok (lease', db')) :
    Effect ports (.prepareConversation lease) now db db' := by
  unfold prepareConversationAttempt at h
  obtain ⟨⟨c, r⟩, hrows, h⟩ := bind_ok_iff.mp h
  have hrows := lockedRows_ok hrows
  simp only [bind_ok_iff, check_eq_ok, decide_eq_true_eq, pure_ok_iff, Prod.mk.injEq,
    Bool.and_eq_true] at h
  obtain ⟨_, hlease, _, _, _, _, _, _, db₁, hput, _, _, _, rfl⟩ := h
  have hheld := assertActiveLease_ok hlease
  refine effect_of_putResult hrows.campaign_mem hrows.result_mem hrows.campaign hrows.target
    hheld (.held ?_ (.prepared rfl)) hput
  exact ⟨⟨rfl, rfl, rfl, rfl, rfl⟩, rfl, rfl, rfl, rfl, rfl, rfl, rfl, rfl, rfl, rfl, rfl, rfl, rfl,
    isOpen_of_leased hheld.leased, isOpen_of_leased hheld.leased⟩

theorem bindConversation_effect {lease lease' : RunLease} {conversationId : Uuid}
    (h : bindConversation ports db app now lease conversationId = .ok (lease', db')) :
    Effect ports (.bindConversation lease conversationId) now db db' := by
  unfold bindConversation at h
  obtain ⟨⟨c, r⟩, hrows, h⟩ := bind_ok_iff.mp h
  have hrows := lockedRows_ok hrows
  obtain ⟨_, hlease, h⟩ := bind_ok_iff.mp h
  obtain ⟨_, _, h⟩ := bind_ok_iff.mp h
  simp only [] at h
  split at h
  · simp only [bind_ok_iff, pure_ok_iff, Prod.mk.injEq] at h
    obtain ⟨_, _, _, hdb⟩ := h
    exact .idle hdb.symm
  rename_i hsome
  simp only [bind_ok_iff, check_eq_ok, decide_eq_true_eq, pure_ok_iff, Prod.mk.injEq] at h
  obtain ⟨_, hst, _, _, _, _, db₁, hput, _, _, _, rfl⟩ := h
  exact effect_of_putResult hrows.campaign_mem hrows.result_mem hrows.campaign hrows.target
    (assertActiveLease_ok hlease) (.bound rfl hst (by simpa using hsome)) hput

theorem prepareSubmissionAttempt_effect {lease lease' : RunLease}
    (h : prepareSubmissionAttempt db now lease = .ok (lease', db')) :
    Effect ports (.prepareSubmission lease) now db db' := by
  unfold prepareSubmissionAttempt at h
  obtain ⟨⟨c, r⟩, hrows, h⟩ := bind_ok_iff.mp h
  have hrows := lockedRows_ok hrows
  simp only [bind_ok_iff, check_eq_ok, decide_eq_true_eq, pure_ok_iff, Prod.mk.injEq,
    Bool.and_eq_true] at h
  obtain ⟨_, hlease, _, hout, _, hst, db₁, hput, _, _, _, rfl⟩ := h
  simp only [assertOutboundAllowed, RunResult.assertActiveReservation, bind_ok_iff, check_eq_ok,
    decide_eq_true_eq] at hout
  obtain ⟨_, _, hactive⟩ := hout
  exact effect_of_putResult hrows.campaign_mem hrows.result_mem hrows.campaign hrows.target
    (assertActiveLease_ok hlease) (.attempted hst.1.1 hactive) hput

theorem bindSubmission_effect {lease : RunLease} {receipt : CandidateSubmissionReceipt}
    (h : bindSubmission ports db app now lease receipt = .ok db') :
    Effect ports (.bindSubmission lease receipt) now db db' := by
  unfold bindSubmission at h
  obtain ⟨⟨c, r⟩, hrows, h⟩ := bind_ok_iff.mp h
  have hrows := lockedRows_ok hrows
  simp only [] at h
  split at h
  · simp only [bind_ok_iff, pure_ok_iff] at h
    obtain ⟨_, _, _, _, hdb⟩ := h
    exact .idle hdb.symm
  rename_i hsome
  simp only [bind_ok_iff, check_eq_ok, decide_eq_true_eq, Bool.and_eq_true] at h
  obtain ⟨_, hlease, _, _, _, hst, _, _, _, _, _, _, hput⟩ := h
  exact .rows hrows.campaign_mem hrows.result_mem hrows.campaign hrows.target
    (assertActiveLease_ok hlease) (.submitted rfl hst.1 (by simpa using hsome)) (commit_ok hput)

theorem markFailure_effect {lease : RunLease} {failure : RunnerFailure} {digest : String}
    (h : markFailure db now lease failure digest = .ok db') :
    Effect ports (.fail lease failure digest) now db db' := by
  unfold markFailure at h
  obtain ⟨⟨c, r⟩, hrows, h⟩ := bind_ok_iff.mp h
  have hrows := lockedRows_ok hrows
  simp only [] at h
  split at h
  · exact .idle (pure_ok_iff.mp h).symm
  simp only [bind_ok_iff, check_eq_ok, Bool.and_eq_true] at h
  obtain ⟨_, ⟨⟨⟨hleased, _⟩, hrunning⟩, hfence⟩, _, _, ⟨c₁, r₁⟩, hres, hput⟩ := h
  exact .rows hrows.campaign_mem hrows.result_mem hrows.campaign hrows.target
    ⟨hleased, hrunning, of_decide_eq_true hfence⟩ (.failed rfl hleased hres) (commit_ok hput)

theorem markCollectorFailure_effect {lease : CollectorLease} {failure : RunnerFailure}
    {invocations : List ModelInvocation} {digest : String}
    (h : markCollectorFailure db app now lease failure invocations digest = .ok db') :
    Effect ports (.failCollection lease failure invocations digest) now db db' := by
  unfold markCollectorFailure at h
  obtain ⟨⟨c, r⟩, hrows, h⟩ := bind_ok_iff.mp h
  have hrows := lockedRows_ok hrows
  simp only [] at h
  split at h
  · exact .idle (pure_ok_iff.mp h).symm
  obtain ⟨_, hlease, h⟩ := bind_ok_iff.mp h
  simp only [check_eq_ok, decide_eq_true_eq, Bool.and_eq_true] at hlease
  split at h
  swap
  · cases h
  simp only [bind_ok_iff] at h
  obtain ⟨usage, husage, _, hdigest, ⟨c₁, r₁⟩, hset, hput⟩ := h
  have hu : (Op.failCollection lease failure invocations digest).usage c = some usage := by
    simp [Op.usage, husage, Except.toOption]
  exact .rows hrows.campaign_mem hrows.result_mem hrows.campaign hrows.target
    ⟨hlease.1.1.1.1.1, hlease.1.1.2, hlease.1.2⟩
    (.sealed hu hlease.1.1.1.1.1 hlease.2 (sourceDigest_ok hdigest) hset) (commit_ok hput)

theorem claimCollection_effect {campaignId : Uuid} {worker : String} {duration : Duration}
    {locked : List Uuid} {lease : Option CollectorLease}
    (h : claimCollection db app now campaignId worker duration locked = .ok (lease, db')) :
    Effect ports (.claimCollection campaignId worker duration locked) now db db' := by
  unfold claimCollection at h
  split at h
  swap
  · exact .idle (Prod.ext_iff.mp (pure_ok_iff.mp h)).2.symm
  rename_i c hfound
  split at h
  · exact .idle (Prod.ext_iff.mp (pure_ok_iff.mp h)).2.symm
  rename_i hstatus
  simp only [] at h
  split at h
  · exact .idle (Prod.ext_iff.mp (pure_ok_iff.mp h)).2.symm
  split at h
  · exact .idle (Prod.ext_iff.mp (pure_ok_iff.mp h)).2.symm
  rename_i r hr
  obtain ⟨db₁, hput, h⟩ := bind_ok_iff.mp h
  have hdb : db₁ = db' := by
    split at h
    swap
    · cases h
    split at h
    swap
    · cases h
    simp only [pure_ok_iff, Prod.mk.injEq] at h
    exact h.2
  subst hdb
  obtain ⟨hc, hcid⟩ := lookup_eq_some hfound
  have hmem := mem_of_firstScheduled hr
  simp only [Tables.resultsOf, List.mem_filter, decide_eq_true_eq, Bool.and_eq_true] at hmem
  obtain ⟨⟨hrm, hrc⟩, ⟨⟨⟨hst, _⟩, _⟩, _⟩, _⟩ := hmem
  have hopen : r.isOpen = true := by simp [RunResult.isOpen, hst]
  refine effect_of_putResult hc hrm (hrc.trans hcid.symm) (by simp [Op.target])
    ⟨by tauto, hst⟩ (.held ?_ (.collecting rfl)) hput
  exact ⟨⟨rfl, rfl, rfl, rfl, rfl⟩, rfl, rfl, rfl, rfl, rfl, rfl, rfl, rfl, rfl, rfl, rfl, rfl, rfl,
    hopen, hopen⟩

theorem renewCollection_effect {lease lease' : CollectorLease} {duration : Duration}
    (h : renewCollection db now lease duration = .ok (lease', db')) :
    Effect ports (.renewCollection lease duration) now db db' := by
  unfold renewCollection at h
  obtain ⟨⟨c, r⟩, hrows, h⟩ := bind_ok_iff.mp h
  have hrows := lockedRows_ok hrows
  simp only [bind_ok_iff, pure_ok_iff, Prod.mk.injEq] at h
  obtain ⟨_, hlease, _, _, db₁, hput, _, rfl⟩ := h
  have hheld := assertCollectorLease_ok hlease
  have hopen : r.isOpen = true := by simp [RunResult.isOpen, hheld.submitted]
  refine effect_of_putResult hrows.campaign_mem hrows.result_mem hrows.campaign hrows.target
    hheld (.held ?_ (.collectingOn rfl)) hput
  exact ⟨⟨rfl, rfl, rfl, rfl, rfl⟩, rfl, rfl, rfl, rfl, rfl, rfl, rfl, rfl, rfl, rfl, rfl, rfl, rfl,
    hopen, hopen⟩

theorem persistCollection_effect {lease : CollectorLease} {outcome : CollectionOutcome}
    {receipt : CollectionReceipt}
    (h : persistCollection db now lease outcome = .ok (receipt, db')) :
    Effect ports (.persist lease outcome) now db db' := by
  unfold persistCollection at h
  obtain ⟨⟨c, r⟩, hrows, h⟩ := bind_ok_iff.mp h
  have hrows := lockedRows_ok hrows
  simp only [] at h
  split at h
  · simp only [bind_ok_iff, pure_ok_iff, Prod.mk.injEq] at h
    obtain ⟨_, _, _, _, _, hdb⟩ := h
    exact .idle hdb.symm
  simp only [bind_ok_iff, pure_ok_iff, Prod.mk.injEq] at h
  obtain ⟨_, hlease, _, _, digest, hdigest, ⟨c₁, r₁⟩, hset, _, hgold, _, _, _, hput, _, rfl⟩ := h
  have hheld := assertCollectorLease_ok hlease
  exact .rows hrows.campaign_mem hrows.result_mem hrows.campaign hrows.target
    hheld (.collected rfl hheld.submitted hgold (sourceDigest_ok hdigest) hset) (commit_ok hput)

/-- **What a transaction does.** -/
theorem run_effect {op : Op} {out : Outcome} (h : op.run ports app db now = .ok out) :
    Effect ports op now db out.db := by
  cases op <;> simp only [Op.run, bind_ok_iff, pure_ok_iff, Prod.exists] at h
  case add c =>
    obtain ⟨_, h, rfl⟩ := h
    exact addCampaign_effect h
  case materialize userId campaignId cases repetitions =>
    obtain ⟨_, h, rfl⟩ := h
    exact materialize_effect h
  case mutate owner campaignId mutation =>
    obtain ⟨_, h, rfl⟩ := h
    exact mutateLifecycle_effect h
  case review s =>
    obtain ⟨_, h, rfl⟩ := h
    exact addReview_effect h
  case bindReport b current =>
    obtain ⟨_, h, rfl⟩ := h
    exact bindReport_effect h
  case claim campaignId worker duration locked =>
    obtain ⟨_, _, h, rfl⟩ := h
    exact claimNextResult_effect h
  case renew lease duration =>
    obtain ⟨_, _, h, rfl⟩ := h
    exact renewResultLease_effect h
  case reserve lease =>
    obtain ⟨_, _, _, h, rfl⟩ := h
    exact reserveRunBudget_effect h
  case release lease =>
    obtain ⟨_, _, h, rfl⟩ := h
    exact releaseRunBudget_effect h
  case settle campaignId resultId digest usage =>
    obtain ⟨_, _, h, rfl⟩ := h
    exact settleRunBudget_effect h
  case prepareConversation lease =>
    obtain ⟨_, _, h, rfl⟩ := h
    exact prepareConversationAttempt_effect h
  case bindConversation lease conversationId =>
    obtain ⟨_, _, h, rfl⟩ := h
    exact bindConversation_effect h
  case prepareSubmission lease =>
    obtain ⟨_, _, h, rfl⟩ := h
    exact prepareSubmissionAttempt_effect h
  case bindSubmission lease receipt =>
    obtain ⟨_, h, rfl⟩ := h
    exact bindSubmission_effect h
  case fail lease failure digest =>
    obtain ⟨_, h, rfl⟩ := h
    exact markFailure_effect h
  case skip campaignId reason =>
    obtain ⟨_, h, rfl⟩ := h
    exact skipPending_effect h
  case claimCollection campaignId worker duration locked =>
    obtain ⟨_, _, h, rfl⟩ := h
    exact claimCollection_effect h
  case renewCollection lease duration =>
    obtain ⟨_, _, h, rfl⟩ := h
    exact renewCollection_effect h
  case persist lease outcome =>
    obtain ⟨_, _, h, rfl⟩ := h
    exact persistCollection_effect h
  case failCollection lease failure invocations digest =>
    obtain ⟨_, h, rfl⟩ := h
    exact markCollectorFailure_effect h

end Ops

/-! ## Reading the tables afterwards -/

/-- Who the rows are and what they are for does not change. -/
structure Framed (c : Campaign) (r : RunResult) (c' : Campaign) (r' : RunResult) : Prop where
  id : c'.id = c.id
  owner : c'.createdByUserId = c.createdByUserId
  limits : c'.limits = c.limits
  concurrency : c'.maxConcurrency = c.maxConcurrency
  report : c'.finalReport = c.finalReport
  same : r.Same r'

theorem RunResult.Same.refl (r : RunResult) : r.Same r := ⟨rfl, rfl, rfl, rfl, rfl⟩

theorem RunResult.Same.trans {a b c : RunResult} (h : a.Same b) (h' : b.Same c) : a.Same c :=
  ⟨h'.id.trans h.id, h'.unit.trans h.unit, h'.conversationKey.trans h.conversationKey,
    h'.messageKey.trans h.messageKey, h'.requestHash.trans h.requestHash⟩

theorem Framed.trans {c₁ c₂ c₃ : Campaign} {r₁ r₂ r₃ : RunResult} (h : Framed c₁ r₁ c₂ r₂)
    (h' : Framed c₂ r₂ c₃ r₃) : Framed c₁ r₁ c₃ r₃ :=
  ⟨h'.id.trans h.id, h'.owner.trans h.owner, h'.limits.trans h.limits,
    h'.concurrency.trans h.concurrency, h'.report.trans h.report, h.same.trans h'.same⟩

/-- Settling either finds the result settled already, or settles an active reservation. -/
inductive Settling (now : Time) (digest : String) (usage : SettlementUsage) (c : Campaign)
    (r : RunResult) : Campaign → RunResult → Prop
  | again (h : r.reservationState = .settled) : Settling now digest usage c r c r
  | first (reservation : ReservationRequest) (hactive : r.reservationState = .active)
      (hcalls : reservation.providerCalls = r.reservedProviderCalls)
      (hcost : reservation.estimatedCost = r.reservedEstimatedCost) :
      Settling now digest usage c r (settled now digest reservation usage c r).1
        (settled now digest reservation usage c r).2

theorem reservationRequest_make_ok {calls cost : Nat} {request : ReservationRequest}
    (h : ReservationRequest.make calls cost = .ok request) :
    request.providerCalls = calls ∧ request.estimatedCost = cost := by
  unfold ReservationRequest.make at h
  split at h
  · cases h
    exact ⟨rfl, rfl⟩
  · cases h

theorem settleRows_ok {now : Time} {digest : String} {usage : SettlementUsage} {c c' : Campaign}
    {r r' : RunResult} (h : settleRows now digest usage c r = .ok (c', r')) :
    Settling now digest usage c r c' r' := by
  unfold settleRows at h
  split at h
  · rename_i hsettled
    simp only [bind_ok_iff, pure_ok_iff, Prod.mk.injEq] at h
    obtain ⟨_, _, rfl, rfl⟩ := h
    exact .again hsettled
  · simp only [bind_ok_iff, pure_ok_iff, check_eq_ok, decide_eq_true_eq] at h
    obtain ⟨_, hactive, _, _, _, _, reservation, hres, _, _, hset⟩ := h
    obtain ⟨hcalls, hcost⟩ := reservationRequest_make_ok hres
    have h : Settling now digest usage c r (settled now digest reservation usage c r).1
        (settled now digest reservation usage c r).2 := .first reservation hactive hcalls hcost
    rwa [hset] at h

/-- A breach touches the status of the campaign only. -/
theorem stopOnBreach_frame (c : Campaign) (reservation : ReservationRequest)
    (usage : SettlementUsage) :
    (c.stopOnBreach reservation usage).id = c.id
      ∧ (c.stopOnBreach reservation usage).createdByUserId = c.createdByUserId
      ∧ (c.stopOnBreach reservation usage).limits = c.limits
      ∧ (c.stopOnBreach reservation usage).counts = c.counts
      ∧ (c.stopOnBreach reservation usage).ledger = c.ledger
      ∧ (c.stopOnBreach reservation usage).maxConcurrency = c.maxConcurrency
      ∧ (c.stopOnBreach reservation usage).finalReport = c.finalReport := by
  unfold Campaign.stopOnBreach
  split
  · split <;> exact ⟨rfl, rfl, rfl, rfl, rfl, rfl, rfl⟩
  · exact ⟨rfl, rfl, rfl, rfl, rfl, rfl, rfl⟩

theorem Settling.framed {now : Time} {digest : String} {usage : SettlementUsage}
    {c c' : Campaign} {r r' : RunResult} (h : Settling now digest usage c r c' r') :
    Framed c r c' r' := by
  cases h with
  | again _ => exact ⟨rfl, rfl, rfl, rfl, rfl, .refl r⟩
  | first reservation _ _ _ =>
      obtain ⟨hid, howner, hlimits, _, _, hconc, hreport⟩ := stopOnBreach_frame
        { c with ledger := c.ledger.settle r usage } reservation usage
      exact ⟨hid, howner, hlimits, hconc, hreport, rfl, rfl, rfl, rfl, rfl⟩

theorem failReservation_framed {now : Time} {failure : RunnerFailure} {digest : String}
    {c c' : Campaign} {r r' : RunResult}
    (h : failReservation now failure digest c r = .ok (c', r')) : Framed c r c' r' := by
  unfold failReservation at h
  split at h
  · split at h <;> cases h <;> exact ⟨rfl, rfl, rfl, rfl, rfl, rfl, rfl, rfl, rfl, rfl⟩
  · cases h
    exact ⟨rfl, rfl, rfl, rfl, rfl, .refl r⟩
  · cases h
  · cases h

theorem Change.framed {op : Op} {now : Time} {c c' : Campaign} {r r' : RunResult}
    (h : Change op now c r c' r') :
    Framed c r c' r' := by
  cases h with
  | held h _ => exact ⟨rfl, rfl, rfl, rfl, rfl, h.toSame⟩
  | bound _ _ _ => exact ⟨rfl, rfl, rfl, rfl, rfl, rfl, rfl, rfl, rfl, rfl⟩
  | attempted _ _ => exact ⟨rfl, rfl, rfl, rfl, rfl, rfl, rfl, rfl, rfl, rfl⟩
  | reserved _ _ _ => exact ⟨rfl, rfl, rfl, rfl, rfl, rfl, rfl, rfl, rfl, rfl⟩
  | refused _ => exact ⟨rfl, rfl, rfl, rfl, rfl, rfl, rfl, rfl, rfl, rfl⟩
  | released _ _ => exact ⟨rfl, rfl, rfl, rfl, rfl, rfl, rfl, rfl, rfl, rfl⟩
  | submitted _ _ _ => exact ⟨rfl, rfl, rfl, rfl, rfl, rfl, rfl, rfl, rfl, rfl⟩
  | failed _ _ h => exact (failReservation_framed h).trans ⟨rfl, rfl, rfl, rfl, rfl, rfl, rfl, rfl, rfl, rfl⟩
  | settled _ _ h => exact (settleRows_ok h).framed
  | sealed _ _ _ _ h =>
      have hset := (settleRows_ok h).framed
      exact ⟨hset.id, hset.owner, hset.limits, hset.concurrency, hset.report, hset.same.id,
        hset.same.unit, hset.same.conversationKey, hset.same.messageKey, hset.same.requestHash⟩
  | collected _ _ _ _ h =>
      have hset := (settleRows_ok h).framed
      exact ⟨hset.id, hset.owner, hset.limits, hset.concurrency, hset.report, hset.same.id,
        hset.same.unit, hset.same.conversationKey, hset.same.messageKey, hset.same.requestHash⟩

section After

variable {db : Db} {c c' x : Campaign} {r r' y : RunResult}

theorem mem_putCampaign (hc : c ∈ db.campaigns) (hid : c'.id = c.id) :
    x ∈ (db.toTables.putCampaign c').campaigns ↔ x = c' ∨ (x ∈ db.campaigns ∧ x.id ≠ c.id) := by
  have hupd : (db.toTables.putCampaign c').campaigns
      = update (·.id) c.id (fun _ => c') db.campaigns := by
    rw [Tables.putCampaign, hid]
  rw [hupd]
  exact mem_update_iff db.valid.pk_campaigns hc

theorem mem_put_campaigns (hc : c ∈ db.campaigns) (hid : c'.id = c.id) :
    x ∈ (db.toTables.put c' r').campaigns ↔ x = c' ∨ (x ∈ db.campaigns ∧ x.id ≠ c.id) :=
  mem_putCampaign hc hid

theorem put_results (c' : Campaign) (hid : r'.id = r.id) :
    (db.toTables.put c' r').results = update (·.id) r.id (fun _ => r') db.results := by
  rw [← hid]
  rfl

theorem mem_put_results (hr : r ∈ db.results) (hid : r'.id = r.id) :
    y ∈ (db.toTables.put c' r').results ↔ y = r' ∨ (y ∈ db.results ∧ y.id ≠ r.id) := by
  rw [put_results c' hid]
  exact mem_update_iff db.valid.pk_results hr

/-- The results of a campaign after one of some campaign was rewritten. -/
theorem resultsOf_put (hr : r ∈ db.results) (hsame : r.Same r') (id : Uuid) :
    (db.toTables.put c' r').resultsOf id
      = update (·.id) r.id (fun _ => r') (db.toTables.resultsOf id) := by
  unfold Tables.resultsOf
  rw [put_results c' hsame.id]
  refine filter_update fun o ho hid => ?_
  rw [eq_of_key_eq db.valid.pk_results ho hr hid, hsame.campaignId]

theorem resultsOf_nodup (db : Db) (id : Uuid) : ((db.toTables.resultsOf id).map (·.id)).Nodup :=
  db.valid.pk_results.sublist (List.filter_sublist.map _)

/-- Another campaign's results are not touched. -/
theorem resultsOf_put_of_ne (hr : r ∈ db.results) (hsame : r.Same r') {id : Uuid}
    (hne : r.campaignId ≠ id) :
    (db.toTables.put c' r').resultsOf id = db.toTables.resultsOf id := by
  rw [resultsOf_put hr hsame]
  refine update_of_forall_ne fun o ho hid => ?_
  simp only [Tables.resultsOf, List.mem_filter, decide_eq_true_eq] at ho
  rw [eq_of_key_eq db.valid.pk_results ho.1 hr hid] at ho
  exact hne ho.2

/-- Nothing is filed under a campaign that was just added. -/
theorem resultsOf_fresh {db' : Db}
    (h : db'.toTables = { db.toTables with campaigns := db.campaigns ++ [c.fresh] }) :
    db.toTables.resultsOf c.fresh.id = [] := by
  have hnd := db'.valid.pk_campaigns
  rw [h, List.map_append, List.nodup_append] at hnd
  refine List.filter_eq_nil_iff.mpr fun r hr heq => ?_
  obtain ⟨o, ho, hid⟩ := db.valid.fk_results r hr
  have hnew := hnd.2.2 o.id (List.mem_map_of_mem ho) c.fresh.id (by simp)
  exact hnew (hid.trans (by simpa using heq))

end After

/-- Where a result row comes from after a transaction. -/
inductive Origin (op : Op) (now : Time) (db : Db) : RunResult → Prop
  /-- It was there. -/
  | kept {r : RunResult} (hr : r ∈ db.results) : Origin op now db r
  | planned (id campaignId : Uuid) (caseId : String) (repetition scheduleOrdinal : Nat)
      (hash : String) (selected : Bool) : Origin op now db {
        id, campaignId, caseId, repetition, scheduleOrdinal, manualReviewSelected := selected
        conversationIdempotencyKey := conversationKey campaignId caseId repetition
        messageIdempotencyKey := messageKey campaignId caseId repetition
        submissionRequestHash := hash }
  | skipped {r : RunResult} (reason : String) (hr : r ∈ db.results)
      (hst : r.schedulingState = .pending) : Origin op now db (r.skipped reason)
  | changed {c c' : Campaign} {r r' : RunResult} (hc : c ∈ db.campaigns) (hr : r ∈ db.results)
      (hcr : r.campaignId = c.id) (htarget : ∀ x ∈ op.target, x = (c.id, r.id))
      (hguard : op.Guarded db now c r) (hch : Change op now c r c' r') : Origin op now db r'

theorem Effect.origin {ports : Orchestration.Ports} {op : Op} {now : Time} {db db' : Db}
    (he : Effect ports op now db db') {r' : RunResult} (hr' : r' ∈ db'.results) :
    Origin op now db r' := by
  cases he with
  | idle hdb => exact .kept (hdb ▸ hr')
  | added hdb =>
      rw [hdb] at hr'
      exact .kept hr'
  | materialized _ _ _ _ hdb =>
      rw [hdb] at hr'
      rcases List.mem_append.mp hr' with hr' | hr'
      · exact .kept hr'
      · obtain ⟨id, caseId, repetition, ordinal, hash, selected, rfl⟩ := mem_materializeRunPlans hr'
        exact .planned ..
  | moved _ _ _ hdb =>
      rw [hdb] at hr'
      exact .kept hr'
  | skipped _ _ hdb =>
      rw [hdb] at hr'
      obtain ⟨r, hr, rfl⟩ := List.mem_map.mp hr'
      split
      · rename_i hpending
        simp only [RunResult.isPendingOf, Bool.and_eq_true, decide_eq_true_eq] at hpending
        exact .skipped _ hr hpending.2
      · exact .kept hr
  | rows hc hr hcr htarget hguard hch hdb =>
      rw [hdb] at hr'
      rcases (mem_put_results hr hch.framed.same.id).mp hr' with rfl | ⟨hr', _⟩
      · exact .changed hc hr hcr htarget hguard hch
      · exact .kept hr'

/-! ## Invariants of the tables -/

/--
**The tables' invariant rule.** Only a committed transaction writes the campaign
tables, so what holds of the empty tables and is kept by every effect holds always.
-/
theorem tables_invariant {d : Orchestration.Deployment} {ok : World → Label → Prop}
    {P : Db → Prop} (hinit : P Db.empty)
    (hstep : ∀ (w : World) (now : Time) (op : Op) (db' : Db), ok w (.transact now op) →
      Effect d.ports op now w.db db' → P w.db → P db') {w : World} (h : ReachableBy d ok w) :
    P w.db := by
  refine Lib.Reachable.invariant (P := fun w => P w.db) ?_ ?_ h
  · intro w hw
    subst hw
    exact hinit
  · intro w w' hp hmove
    obtain ⟨label, hok, hs⟩ := hmove
    cases hs with
    | service _ => exact hp
    | transact _ hrun => exact hstep w _ _ _ hok (run_effect hrun) hp
    | lost _ _ => exact hp
    | strayed _ _ => exact hp
    | send _ _ _ => exact hp
    | serve _ _ => exact hp

end Sana.Shadow
