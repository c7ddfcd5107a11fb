import Sana.Shadow.Proof.Ledger

/-!
# Draining a campaign that stops

The runner waits, while a campaign is stopping, for as long as `has_inflight_work` says
so; what it waits for is picked up by `claim_next_result`, once the leases of the workers
that had it have run out. The first counts every unit that is claimed, with or without a
conversation. The second only takes those that recorded an attempt to send something.
-/

namespace Sana.Shadow

open Sana.Lib

/-! ## What the rows look like -/

/-- What a lease on the row has to carry is there. -/
structure RunResult.Leasable (r : RunResult) : Prop where
  conversationKey : Text.isBlank r.conversationIdempotencyKey = false
  messageKey : Text.isBlank r.messageIdempotencyKey = false
  requestHash : isSha256 r.submissionRequestHash = true

/-- A unit that is held, or holds budget, is one the runner waits for. -/
structure RunResult.Inflight (r : RunResult) : Prop where
  leasable : r.isLeased = true → r.Leasable
  reserved : r.reservationState = .active → r.isLeased = true ∨ r.schedulingState = .submitted

section Rows

variable {op : Op} {now : Time} {db : Db} {c c' : Campaign} {r r' : RunResult}

theorem RunResult.Leasable.of_same (h : r.Leasable) (hs : r.Same r') : r'.Leasable := by
  refine ⟨?_, ?_, ?_⟩
  · rw [hs.conversationKey]
    exact h.conversationKey
  · rw [hs.messageKey]
    exact h.messageKey
  · rw [hs.requestHash]
    exact h.requestHash

/-- A lease that was handed out had everything. -/
theorem ClaimedRow.leasable {db' : Db} {campaignId : Uuid} {worker : String} {duration : Duration}
    {locked : List Uuid} {lease : RunLease}
    (h : ClaimedRow db db' now campaignId worker duration locked lease c r) : r.Leasable := by
  have hmade := h.made
  simp only [RunLease.make, bind_ok_iff, pure_ok_iff, check_eq_ok, Bool.not_eq_true'] at hmade
  obtain ⟨_, _, _, _, _, hconv, _, hmsg, _, hhash, _⟩ := hmade
  rw [h.lease_eq] at hconv hmsg hhash
  exact ⟨hconv, hmsg, hhash⟩

theorem Settling.not_active {digest : String} {usage : SettlementUsage}
    (h : Settling now digest usage c r c' r') : r'.reservationState ≠ .active := by
  cases h with
  | again h => simp [h]
  | first _ _ _ _ => simp [settled]

/-- Beside a claim, nothing leases a unit that was not leased. -/
theorem Change.leased (h : Change op now c r c' r')
    (hop : ∀ campaignId worker duration locked, op ≠ .claim campaignId worker duration locked)
    (hl : r'.isLeased = true) : r.isLeased = true := by
  cases h with
  | held _ how =>
      cases how with
      | claimed h => exact absurd h (hop _ _ _ _)
      | renewed _ => exact hl
      | prepared _ => exact hl
      | collecting _ => exact hl
      | collectingOn _ => exact hl
  | bound _ hst _ => simp [RunResult.isLeased, hst]
  | attempted _ _ => exact hl
  | reserved _ _ _ _ => exact hl
  | refused _ _ => exact hl
  | released _ _ => exact hl
  | submitted _ _ _ => cases hl
  | failed _ _ _ => cases hl
  | settled _ _ h =>
      rw [RunResult.isLeased, settling_schedulingState (settleRows_ok h)] at hl
      exact hl
  | sealed _ _ _ _ h =>
      rw [RunResult.isLeased, settling_schedulingState (settleRows_ok h)] at hl
      cases hl
  | collected _ _ _ _ _ => cases hl

/-- Budget is only ever held by a unit that is leased or submitted. -/
theorem Change.reserved_open (h : Change op now c r c' r')
    (hr : r.reservationState = .active → r.isLeased = true ∨ r.schedulingState = .submitted)
    (ha : r'.reservationState = .active) : r'.isLeased = true ∨ r'.schedulingState = .submitted := by
  cases h with
  | held _ how =>
      cases how with
      | claimed _ =>
          refine .inl ?_
          simp only [RunResult.isLeased, RunResult.claimedBy]
          split <;> rfl
      | renewed _ => exact hr ha
      | prepared _ => exact hr ha
      | collecting _ => exact hr ha
      | collectingOn _ => exact hr ha
  | bound _ _ _ => exact .inl rfl
  | attempted _ _ => exact hr ha
  | reserved _ _ _ hleased => exact .inl hleased
  | refused _ _ => exact hr ha
  | released _ _ => cases ha
  | submitted _ _ _ => exact .inr rfl
  | failed _ _ h =>
      -- the failure has settled or released what was held
      unfold failReservation at h
      split at h
      · split at h <;> cases h <;> cases ha
      · cases h
        simp_all [RunResult.seal]
      · cases h
      · cases h
  | settled _ _ h => exact absurd ha (settleRows_ok h).not_active
  | sealed _ _ _ _ h => exact absurd ha (settleRows_ok h).not_active
  | collected _ _ _ _ h => exact absurd ha (settleRows_ok h).not_active

end Rows

/-! ## Every reachable row -/

section Reachable

variable {d : Orchestration.Deployment} {w : World}

/-- A unit is leased by a claim first, and that has seen what a lease carries. -/
theorem leasable_transact {ports : Orchestration.Ports} {app : Orchestration.Tables} {db : Db}
    {op : Op} {now : Time} {out : Outcome} (hrun : op.run ports app db now = .ok out)
    (hp : ∀ r ∈ db.results, r.isLeased = true → r.Leasable) :
    ∀ r' ∈ out.db.results, r'.isLeased = true → r'.Leasable := by
  intro r' hr' hl
  by_cases hop : ∃ campaignId worker duration locked, op = .claim campaignId worker duration locked
  · obtain ⟨campaignId, worker, duration, locked, rfl⟩ := hop
    simp only [Op.run, bind_ok_iff, pure_ok_iff, Prod.exists] at hrun
    obtain ⟨lease, db', hrun, rfl⟩ := hrun
    obtain ⟨rfl, rfl⟩ | ⟨l, c, r, rfl, hcl⟩ := claimNextResult_ok hrun
    · exact hp r' hr' hl
    · have hr' : r' ∈ db'.results := hr'
      rw [hcl.tables, putResult_eq_put hcl.campaign_mem] at hr'
      have hsame : r.Same (r.claimedBy worker now duration) := ⟨rfl, rfl, rfl, rfl, rfl⟩
      rcases (mem_put_results hcl.result_mem hsame.id).mp hr' with rfl | ⟨hr', _⟩
      · exact hcl.leasable.of_same hsame
      · exact hp r' hr' hl
  · cases (run_effect hrun).origin hr' with
    | kept hr => exact hp _ hr hl
    | planned => cases hl
    | skipped _ _ _ => cases hl
    | changed _ hr _ _ _ hch =>
        have hwas := hch.leased (fun _ _ _ _ h => hop ⟨_, _, _, _, h⟩) hl
        exact (hp _ hr hwas).of_same hch.framed.same

theorem inflight_reachable (hr : Reachable d w) : ∀ r ∈ w.db.results, r.Inflight := by
  refine Lib.Reachable.invariant (P := fun w : World => ∀ r ∈ w.db.results, r.Inflight) ?_ ?_ hr
  · rintro w rfl r hr
    cases hr
  · rintro w w' hp ⟨label, -, hs⟩
    cases hs with
    | service _ => exact hp
    | lost _ _ => exact hp
    | strayed _ _ => exact hp
    | send _ _ _ => exact hp
    | serve _ _ => exact hp
    | transact _ hrun =>
        intro r' hr'
        have hleasable := leasable_transact hrun (fun r hr => (hp r hr).leasable) r' hr'
        cases (run_effect hrun).origin hr' with
        | kept hr => exact hp _ hr
        | planned => exact ⟨hleasable, fun ha => by cases ha⟩
        | skipped _ hr hst =>
            refine ⟨hleasable, fun ha => ?_⟩
            have := (hp _ hr).reserved ha
            simp [RunResult.isLeased, hst] at this
        | changed _ hr _ _ _ hch => exact ⟨hleasable, hch.reserved_open (hp _ hr).reserved⟩

end Reachable

/-! ## A claim that finds something -/

section Claim

variable {db : Db} {now : Time} {c : Campaign} {r : RunResult}

theorem firstScheduled_isSome {rows : List RunResult} (h : rows ≠ []) :
    ∃ r, firstScheduled rows = some r := by
  -- once the fold has a row it keeps one
  have key : ∀ (rows : List RunResult) (b : RunResult), ∃ r,
      rows.foldl (fun best r => best.elim (some r) fun b =>
        if r.scheduleOrdinal < b.scheduleOrdinal then some r else some b) (some b) = some r := by
    intro rows
    induction rows with
    | nil => exact fun b => ⟨b, rfl⟩
    | cons a rows ih =>
        intro b
        simp only [List.foldl_cons, Option.elim_some]
        split
        · exact ih a
        · exact ih b
  cases rows with
  | nil => exact absurd rfl h
  | cons a rows =>
      rw [firstScheduled_eq]
      exact key rows a

/-- A row rewritten without touching what the keys of the table are about. -/
theorem valid_putResult {r' : RunResult} (hr : r ∈ db.results) (hs : r.Same r')
    (hconv : r'.conversationId = r.conversationId) (hrun : r'.searchRunId = r.searchRunId)
    (hck : r'.constraints = true) : (db.toTables.putResult r').Valid := by
  have hupd : (db.toTables.putResult r').results = update (·.id) r.id (fun _ => r') db.results := by
    rw [Tables.putResult, hs.id]
  have heq : ∀ {β : Type} {g : RunResult → β}, g r' = g r →
      (db.toTables.putResult r').results.map g = db.results.map g := by
    intro β g hg
    rw [hupd]
    refine map_update_of_eq fun o ho hid => ?_
    rw [eq_of_key_eq db.valid.pk_results ho hr hid]
    exact hg
  have hfil : ∀ {g : RunResult → Option Uuid}, g r' = g r →
      (db.toTables.putResult r').results.filterMap g = db.results.filterMap g := by
    intro g hg
    have hmap : ∀ l : List RunResult, l.filterMap g = (l.map g).filterMap id := by
      intro l
      rw [List.filterMap_map]
      rfl
    rw [hmap, heq hg, ← hmap]
  have hv := db.valid
  refine ⟨hv.pk_campaigns, ?_, ?_, ?_, ?_, ?_, hv.campaign_checks, ?_⟩
  · rw [heq hs.id]
    exact hv.pk_results
  · rw [heq]
    · exact hv.uq_results_unit
    · have hunit := hs.unit
      simp only [RunResult.unit, RunUnit.mk.injEq] at hunit
      simp [hunit]
  · rw [hfil hconv]
    exact hv.uq_results_conversation
  · rw [hfil hrun]
    exact hv.uq_results_searchRun
  · intro o ho
    rw [hupd] at ho
    rcases (mem_update_iff hv.pk_results hr).mp ho with rfl | ⟨ho, _⟩
    · rw [hs.campaignId]
      exact hv.fk_results r hr
    · exact hv.fk_results o ho
  · intro o ho
    rw [hupd] at ho
    rcases (mem_update_iff hv.pk_results hr).mp ho with rfl | ⟨ho, _⟩
    · exact hck
    · exact hv.result_checks o ho

/-- A claimed row meets the checks again. -/
theorem claimedBy_constraints {worker : String} {duration : Duration} (hck : r.constraints = true)
    (hleased : r.isLeased = true) : (r.claimedBy worker now duration).constraints = true := by
  unfold RunResult.isLeased at hleased
  simp only [Bool.or_eq_true, decide_eq_true_eq] at hleased
  simp only [RunResult.constraints, Bool.and_eq_true] at hck ⊢
  obtain ⟨⟨⟨⟨hstate, hlease⟩, hres⟩, hrep⟩, hord⟩ := hck
  refine ⟨⟨⟨⟨?_, ?_⟩, hres⟩, hrep⟩, hord⟩
  · unfold RunResult.stateBindings RunResult.claimedBy at *
    cases hconv : r.conversationId <;> rcases hleased with h | h <;> simp_all
  · unfold RunResult.leaseBindings RunResult.claimedBy RunResult.isLeased at *
    cases hconv : r.conversationId <;> rcases hleased with h | h <;> simp_all

theorem make_claimedBy (now : Time) (duration : Duration) {worker : String}
    (hworker : Text.isBlank worker = false) (h : r.Leasable) :
    ((r.claimedBy worker now duration).lease worker (now + duration)).make
      = .ok ((r.claimedBy worker now duration).lease worker (now + duration)) := by
  simp only [RunLease.make, bind_ok_iff, pure_ok_iff, check_eq_ok, Bool.not_eq_true',
    Bool.and_eq_true, Bool.or_eq_true, decide_eq_true_eq]
  refine ⟨(), ?_, (), ⟨hworker, ?_⟩, (), h.conversationKey, (), h.messageKey, (), h.requestHash,
    trivial⟩
  · simp only [RunResult.lease, RunResult.claimedBy]
    split
    · exact .inr rfl
    · exact .inl rfl
  · exact Nat.succ_le_succ (Nat.zero_le _)

/-- A stopping campaign that has room hands out a lease on what can be claimed. -/
theorem claimNextResult_some (duration : Duration) {worker : String} (hc : c ∈ db.campaigns)
    (hst : c.status = .stopping)
    (hfree : (db.resultsOf c.id).countP (·.isActiveUnit now) < c.maxConcurrency)
    (hworker : Text.isBlank worker = false) (hr : r ∈ db.resultsOf c.id)
    (hclaim : r.isClaimable .stopping now = true)
    (hleasable : ∀ r ∈ db.resultsOf c.id, r.isLeased = true → r.Leasable) :
    ∃ lease db', claimNextResult db now c.id worker duration [] = .ok (some lease, db') := by
  have hsome : r ∈ (db.resultsOf c.id).filter fun r => r.isClaimable .stopping now && r.id ∉ [] :=
    List.mem_filter.mpr ⟨hr, by simp [hclaim]⟩
  obtain ⟨o, ho⟩ := firstScheduled_isSome (List.ne_nil_of_mem hsome)
  have hmem := List.mem_filter.mp (mem_of_firstScheduled ho)
  have hdb := (List.mem_filter.mp hmem.1).1
  have hleased : o.isLeased = true := by
    have hcl := (Bool.and_eq_true _ _).mp hmem.2
    simp only [RunResult.isClaimable, Bool.and_eq_true, if_true] at hcl
    exact hcl.1.1.1
  have hvalid : (db.toTables.putResult (o.claimedBy worker now duration)).Valid :=
    valid_putResult hdb ⟨rfl, rfl, rfl, rfl, rfl⟩ rfl rfl
      (claimedBy_constraints (db.valid.result_checks o hdb) hleased)
  have hcommit : (db.toTables.putResult (o.claimedBy worker now duration)).commit
      = .ok ⟨_, hvalid⟩ := dif_pos hvalid
  have hmake := make_claimedBy now duration hworker (hleasable o hmem.1 hleased)
  refine ⟨(o.claimedBy worker now duration).lease worker (now + duration), ⟨_, hvalid⟩, ?_⟩
  unfold claimNextResult
  simp only [lookup_of_mem db.valid.pk_campaigns hc]
  rw [if_neg (by simp [hst]), if_neg (not_le.mpr hfree), hst, ho]
  exact bind_ok_iff.mpr ⟨_, hcommit, bind_ok_iff.mpr ⟨_, hmake, rfl⟩⟩

/-- The runner can read the state of a campaign that it owns. -/
theorem readOwnedState_eq (hc : c ∈ db.campaigns) :
    readOwnedState db c.createdByUserId c.id = .ok (some (c.runState (db.resultsOf c.id))) := by
  have hck := db.valid.campaign_checks c hc
  simp only [Campaign.constraints, Bool.and_eq_true, decide_eq_true_eq] at hck
  obtain ⟨⟨⟨⟨⟨⟨⟨⟨hruns, _⟩, _⟩, _⟩, _⟩, _⟩, _⟩, _⟩, _⟩ := hck
  unfold readOwnedState
  simp only [lookup_of_mem db.valid.pk_campaigns hc]
  rw [if_neg (not_not.mpr rfl)]
  refine bind_ok_iff.mpr ⟨_, ?_, rfl⟩
  exact bind_ok_iff.mpr ⟨(), check_eq_ok.mpr (decide_eq_true hruns), rfl⟩

/-- What the runner waits for, row by row. -/
theorem hasInflightWork_eq_false {rows : List RunResult} :
    (c.runState rows).hasInflightWork = false ↔ ∀ r ∈ rows, r.isLeased = false
      ∧ r.schedulingState ≠ .submitted ∧ r.reservationState ≠ .active := by
  simp only [CampaignRunState.hasInflightWork, Campaign.runState, Bool.or_eq_false_iff, ne_eq,
    decide_not, Bool.not_eq_false', decide_eq_true_eq, Nat.add_eq_zero_iff, List.countP_eq_zero,
    RunResult.isLeased, decide_eq_false_iff_not]
  constructor
  · rintro ⟨⟨⟨hclaimed, hbound⟩, hsub⟩, hactive⟩ r hr
    exact ⟨⟨hclaimed r hr, hbound r hr⟩, hsub r hr, hactive r hr⟩
  · intro h
    exact ⟨⟨⟨fun r hr => (h r hr).1.1, fun r hr => (h r hr).1.2⟩, fun r hr => (h r hr).2.1⟩,
      fun r hr => (h r hr).2.2⟩

end Claim

/-! ## The result -/

/-- No worker holds a lease that runs, and no unit waits to be collected. -/
def Quiet (db : Db) (c : Campaign) (now : Time) : Prop :=
  ∀ r ∈ db.resultsOf c.id, r.schedulingState ≠ .submitted
    ∧ (r.isLeased = true → r.leaseExpiresAt.any (now < ·) = false)

instance (db : Db) (c : Campaign) (now : Time) : Decidable (Quiet db c now) := by
  unfold Quiet
  infer_instance

/--
The campaign can settle, as far as the runner sees, or a claim gets a lease on a unit
that is in flight.
-/
def Drains (db : Db) (c : Campaign) (now : Time) (worker : String) (duration : Duration) : Prop :=
  (∃ state, readOwnedState db c.createdByUserId c.id = .ok (some state)
    ∧ state.hasInflightWork = false) ∨
  ∃ lease db', claimNextResult db now c.id worker duration [] = .ok (some lease, db')
    ∧ ∃ r ∈ db.resultsOf c.id, r.id = lease.id ∧ r.isLeased = true

/-- The unit has tried to create its conversation or to submit its prompt. -/
def RunResult.attempted (r : RunResult) : Bool :=
  0 < r.conversationAttemptCount || 0 < r.submissionAttemptCount

/-- What a stopping campaign hands out was claimed before, and attempted. -/
theorem claimable_stopping {r : RunResult} {now : Time} (h : r.isClaimable .stopping now = true) :
    r.isLeased = true ∧ r.attempted = true := by
  simp only [RunResult.isClaimable, if_true, Bool.and_eq_true] at h
  exact ⟨h.1.1, h.2⟩

section Quiet

variable {db : Db} {c : Campaign} {now : Time}

theorem Quiet.free (h : Quiet db c now) (hc : c ∈ db.campaigns) :
    (db.resultsOf c.id).countP (·.isActiveUnit now) < c.maxConcurrency := by
  have hck := db.valid.campaign_checks c hc
  simp only [Campaign.constraints, Bool.and_eq_true, decide_eq_true_eq] at hck
  obtain ⟨⟨⟨⟨⟨⟨⟨⟨_, hconc⟩, _⟩, _⟩, _⟩, _⟩, _⟩, _⟩, _⟩ := hck
  have hzero : (db.resultsOf c.id).countP (·.isActiveUnit now) = 0 := by
    refine List.countP_eq_zero.mpr fun r hr => ?_
    obtain ⟨hsub, hexp⟩ := h r hr
    simp only [RunResult.isActiveUnit, hsub, decide_false, Bool.false_and, Bool.false_or,
      Bool.and_eq_true, not_and]
    intro hl
    simp [hexp hl]
  omega

/-- A claimed unit has a lease, and that has run out. -/
theorem Quiet.claimable (h : Quiet db c now) {r : RunResult} (hr : r ∈ db.resultsOf c.id)
    (hl : r.isLeased = true) (hatt : r.attempted = true) : r.isClaimable .stopping now = true := by
  have hck := db.valid.result_checks r (List.mem_filter.mp hr).1
  simp only [RunResult.constraints, RunResult.leaseBindings, hl, if_true, Bool.and_eq_true] at hck
  obtain ⟨e, he⟩ := Option.isSome_iff_exists.mp hck.1.1.1.2.1.2
  have hexp := (h r hr).2 hl
  simp only [he, Option.any_some, decide_eq_false_iff_not, not_lt] at hexp
  simp only [RunResult.isClaimable, if_true, Bool.and_eq_true, he, Option.any_some, decide_eq_true_eq]
  exact ⟨⟨hl, hexp⟩, hatt⟩

end Quiet

/-- Where a unit is claimed, draining means that a claimed unit has made an attempt. -/
theorem Drains.attempted {db : Db} {c : Campaign} {now : Time} {worker : String}
    {duration : Duration} (h : Drains db c now worker duration) (hc : c ∈ db.campaigns)
    (hst : c.status = .stopping) (hsome : ∃ r ∈ db.resultsOf c.id, r.isLeased = true) :
    ∃ r ∈ db.resultsOf c.id, r.isLeased = true ∧ r.attempted = true := by
  obtain ⟨r, hr, hl⟩ := hsome
  rcases h with ⟨state, hread, hidle⟩ | ⟨lease, db', hclaim, -⟩
  · rw [readOwnedState_eq hc] at hread
    cases hread
    have hnot := (hasInflightWork_eq_false.mp hidle r hr).1
    rw [hl] at hnot
    cases hnot
  · obtain ⟨hnone, -⟩ | ⟨l, x, o, -, hcl⟩ := claimNextResult_ok hclaim
    · cases hnone
    · obtain rfl := eq_of_key_eq db.valid.pk_campaigns hcl.campaign_mem hc hcl.campaign_id
      have hcan := hcl.claimable
      rw [hst] at hcan
      exact ⟨o, List.mem_filter.mpr ⟨hcl.result_mem, decide_eq_true hcl.result_campaign⟩,
        claimable_stopping hcan⟩

/--
**A stopping campaign drains exactly when its units are done with, or one of those that
are still claimed has recorded an attempt.**
-/
theorem stopping_drains_iff {d : Orchestration.Deployment} {w : World} (hr : Reachable d w)
    {c : Campaign} (hc : c ∈ w.db.campaigns) (hst : c.status = .stopping) {now : Time}
    (hquiet : Quiet w.db c now) {worker : String} (hworker : Text.isBlank worker = false)
    (duration : Duration) : Drains w.db c now worker duration ↔
      ((∃ r ∈ w.db.resultsOf c.id, r.isLeased = true) →
        ∃ r ∈ w.db.resultsOf c.id, r.isLeased = true ∧ r.attempted = true) := by
  have hrows := inflight_reachable hr
  have hmem : ∀ r ∈ w.db.resultsOf c.id, r ∈ w.db.results := fun r h => (List.mem_filter.mp h).1
  constructor
  · exact fun h => h.attempted hc hst
  · intro hcond
    by_cases hsome : ∃ r ∈ w.db.resultsOf c.id, r.isLeased = true
    · obtain ⟨r, hr, hl, hatt⟩ := hcond hsome
      obtain ⟨lease, db', hclaim⟩ := claimNextResult_some duration hc hst (hquiet.free hc)
        hworker hr (hquiet.claimable hr hl hatt) fun r h => (hrows r (hmem r h)).leasable
      refine .inr ⟨lease, db', hclaim, ?_⟩
      obtain ⟨hnone, -⟩ | ⟨l, x, o, hl, hcl⟩ := claimNextResult_ok hclaim
      · cases hnone
      · cases hl
        obtain rfl := eq_of_key_eq w.db.valid.pk_campaigns hcl.campaign_mem hc hcl.campaign_id
        have hcan := hcl.claimable
        rw [hst] at hcan
        refine ⟨o, List.mem_filter.mpr ⟨hcl.result_mem, decide_eq_true hcl.result_campaign⟩, ?_,
          (claimable_stopping hcan).1⟩
        rw [hcl.lease_eq]
        rfl
    · -- with nothing claimed and nothing submitted no budget is held either
      have hno : ∀ r ∈ w.db.resultsOf c.id, r.isLeased = false := fun r hr =>
        Bool.eq_false_iff.mpr fun hl => hsome ⟨r, hr, hl⟩
      refine .inl ⟨_, readOwnedState_eq hc, hasInflightWork_eq_false.mpr fun r hr => ?_⟩
      refine ⟨hno r hr, (hquiet r hr).1, fun hactive => ?_⟩
      rcases (hrows r (hmem r hr)).reserved hactive with hl | hsub
      · rw [hno r hr] at hl
        cases hl
      · exact (hquiet r hr).1 hsub

/-! ## A worker that crashes -/

namespace Sample

/-- The owner pauses the small campaign. -/
def pausing : Action :=
  .transact (seconds 50) fun _ =>
    some (.mutate (some owner) campaignId (.requestStop .pause "maintenance"))

/-- A worker claims a unit and crashes; the campaign is then told to stop. -/
def crashed : List Action := started ++ (bound 0).take 1 ++ [pausing]

/-- The worker crashes a little later, after it has said that it will create the conversation. -/
def crashedLater : List Action := started ++ (bound 0).take 3 ++ [pausing]

end Sample

/-- A unit that recorded an attempt is handed to the next worker. -/
theorem stopping_drains_sample : ∃ w, Reachable Sample.deployment w ∧ ∃ c ∈ w.db.campaigns,
    c.status = .stopping ∧ Quiet w.db c (seconds 100) ∧
      Drains w.db c (seconds 100) "other" (seconds 60) := by
  obtain ⟨w, hr, hp⟩ := exists_reachable Sample.deployment (fun _ _ => True) Sample.crashedLater
    (fun w => w.db.campaigns.any fun c => c.status = .stopping && Quiet w.db c (seconds 100)
      && (w.db.resultsOf c.id).any fun r => r.isLeased && r.attempted)
    (by decide +kernel)
  simp only [List.any_eq_true, Bool.and_eq_true, decide_eq_true_eq] at hp
  obtain ⟨c, hc, ⟨hst, hquiet⟩, hatt⟩ := hp
  exact ⟨w, hr, c, hc, hst, hquiet,
    (stopping_drains_iff hr hc hst hquiet (by decide) (seconds 60)).mpr fun _ => hatt⟩

/-- A unit whose worker crashed before it attempted anything keeps the campaign from settling. -/
theorem stopping_campaign_stalls : ∃ w, Reachable Sample.deployment w ∧ ∃ c ∈ w.db.campaigns,
    c.status = .stopping ∧ Quiet w.db c (seconds 100) ∧
      ∀ duration, ¬ Drains w.db c (seconds 100) "other" duration := by
  obtain ⟨w, hr, hp⟩ := exists_reachable Sample.deployment (fun _ _ => True) Sample.crashed
    (fun w => w.db.campaigns.any fun c => c.status = .stopping && Quiet w.db c (seconds 100)
      && (w.db.resultsOf c.id).any (·.isLeased) && (w.db.resultsOf c.id).all (!·.attempted))
    (by decide +kernel)
  simp only [List.any_eq_true, List.all_eq_true, Bool.and_eq_true, Bool.not_eq_true',
    decide_eq_true_eq] at hp
  obtain ⟨c, hc, ⟨⟨hst, hquiet⟩, hsome⟩, hnone⟩ := hp
  refine ⟨w, hr, c, hc, hst, hquiet, fun duration hdrains => ?_⟩
  obtain ⟨r, hmem, -, hatt⟩ := hdrains.attempted hc hst hsome
  rw [hnone r hmem] at hatt
  cases hatt

end Sana.Shadow
