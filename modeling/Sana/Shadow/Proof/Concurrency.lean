import Sana.Shadow.Proof.Ledger
import Sana.Shadow.Proof.Lease

/-!
# The concurrency of a campaign

A unit counts against the concurrency of its campaign while it is submitted, or while
its lease runs. Time alone takes a unit off that count, so a claim may hand its place to
another unit; from then on the first one must not come back. A transaction acts on the
database clock as it read it before it got its locks, so a renewal, or the binding of a
response, can act on a reading from before the lease ran out although the claim that
took the place has committed in the meantime.
-/

namespace Sana.Shadow

open Sana.Lib

/-! ## Campaigns on a clock -/

/-- A world, the database clock, and what the latest claim of each campaign read off it. -/
structure Clocked where
  world : World
  clock : Time := 0
  claimedAt : Uuid → Option Time := fun _ => none

/-- The readings after a transaction: one that hands out a scheduling lease is noted. -/
def Op.noted (op : Op) (now : Time) (out : Outcome) (claimedAt : Uuid → Option Time) :
    Uuid → Option Time :=
  match op with
  | .claim campaignId _ _ _ =>
      if out.leases.isEmpty then claimedAt
      else fun id => if id = campaignId then some ((claimedAt id).elim now (max now)) else claimedAt id
  | _ => claimedAt

/-- One step. A transaction has read the clock at some time up to now. -/
inductive ClockedStep (d : Orchestration.Deployment) (ok : Clocked → Op → Prop) :
    Clocked → Clocked → Prop
  | wait {s : Clocked} {clock : Time} (h : s.clock ≤ clock) : ClockedStep d ok s { s with clock }
  | transact {s : Clocked} {now : Time} {op : Op} {out : Outcome} (hnow : now ≤ s.clock)
      (hok : ok s op) (hheld : op.Held s.world)
      (hrun : op.run d.ports s.world.app.db.toTables s.world.db now = .ok out) :
      ClockedStep d ok s { s with
        world := s.world.after out, claimedAt := op.noted now out s.claimedAt }
  /-- What leaves the campaign tables alone. -/
  | beside {s : Clocked} {label : Label} {w : World} (hdb : w.db = s.world.db)
      (h : Step d label s.world w) : ClockedStep d ok s { s with world := w }

/-- The states on a clock, by steps whose transactions all meet a condition. -/
abbrev ClockedReachable (d : Orchestration.Deployment) (ok : Clocked → Op → Prop) : Clocked → Prop :=
  Lib.Reachable (fun s => s.world = .init ∧ s.claimedAt = fun _ => none) (ClockedStep d ok)

/--
A renewal, or a submission that is bound, finds a lease that had not run out when the
latest claim of its campaign read the clock.
-/
def Timely (s : Clocked) : Op → Prop
  | .renew lease _ | .bindSubmission lease _ => ∀ r ∈ s.world.db.results, r.id = lease.id →
      ∀ t ∈ s.claimedAt lease.campaignId, ∀ e ∈ r.leaseExpiresAt, t < e
  | _ => True

/-! ## What counts -/

section Active

variable {op : Op} {now : Time} {c c' : Campaign} {r r' : RunResult}

/-- Time only takes units off the count. -/
theorem isActiveUnit_mono {t t' : Time} (h : t ≤ t') (ha : r.isActiveUnit t' = true) :
    r.isActiveUnit t = true := by
  simp only [RunResult.isActiveUnit, Bool.or_eq_true, Bool.and_eq_true, Option.any_eq_true] at ha ⊢
  rcases ha with ha | ⟨hl, e, he, hlt⟩
  · exact .inl ha
  · refine .inr ⟨hl, e, he, ?_⟩
    simp only [decide_eq_true_eq] at hlt ⊢
    exact lt_of_le_of_lt h hlt

/-- A unit under a lease that runs counts. -/
theorem active_of_held {lease : RunLease} (h : r.HeldBy lease now) : r.isActiveUnit now = true := by
  simp [RunResult.isActiveUnit, h.leased, h.running]

/-- Rows with the same lease and no new claim on a place. -/
theorem active_of_same_lease {t : Time} (ha : r'.isActiveUnit t = true)
    (hleased : r'.isLeased = true → r.isLeased = true)
    (hexp : r'.leaseExpiresAt = r.leaseExpiresAt)
    (hsub : r'.schedulingState = .submitted → r'.reservationState = .active →
      r.schedulingState = .submitted ∧ r.reservationState = .active) : r.isActiveUnit t = true := by
  simp only [RunResult.isActiveUnit, Bool.or_eq_true, Bool.and_eq_true, decide_eq_true_eq] at ha ⊢
  rcases ha with ⟨h₁, h₂⟩ | ⟨h₁, h₂⟩
  · exact .inl (hsub h₁ h₂)
  · exact .inr ⟨hleased h₁, hexp ▸ h₂⟩

/-- A sealed unit does not count. -/
theorem not_active_of_sealed {t : Time} (h : r.schedulingState = .failed ∨
    r.schedulingState = .collected ∨ r.schedulingState = .skipped ∨ r.schedulingState = .pending) :
    r.isActiveUnit t = false := by
  rcases h with h | h | h | h <;> simp [RunResult.isActiveUnit, RunResult.isLeased, h]

theorem Settling.active {digest : String} {usage : SettlementUsage} {t : Time}
    (h : Settling now digest usage c r c' r') (ha : r'.isActiveUnit t = true) :
    r.isActiveUnit t = true := by
  cases h with
  | again _ => exact ha
  | first _ _ _ _ => exact active_of_same_lease ha id rfl fun _ h => by cases h

/-- Beside claims, renewals and submissions that are bound, nothing makes a unit count. -/
theorem Change.active {t : Time} (h : Change op now c r c' r') (ha : r'.isActiveUnit t = true) :
    r.isActiveUnit t = true ∨
      (∃ campaignId worker duration locked, op = .claim campaignId worker duration locked) ∨
      (∃ lease duration, op = .renew lease duration) ∨
      ∃ lease receipt, op = .bindSubmission lease receipt := by
  cases h with
  | held hkept how =>
      cases how with
      | claimed hop => exact .inr (.inl ⟨_, _, _, _, hop⟩)
      | renewed hop => exact .inr (.inr (.inl ⟨_, _, hop⟩))
      | prepared _ => exact .inl ha
      | collecting _ => exact .inl ha
      | collectingOn _ => exact .inl ha
  | bound _ hst _ =>
      refine .inl (active_of_same_lease ha (fun _ => ?_) rfl fun h => by cases h)
      simp [RunResult.isLeased, hst]
  | attempted _ _ => exact .inl ha
  | reserved _ _ _ hleased =>
      refine .inl (active_of_same_lease ha id rfl fun (h : r.schedulingState = .submitted) => ?_)
      simp [RunResult.isLeased, h] at hleased
  | refused _ _ => exact .inl ha
  | released _ _ => exact .inl (active_of_same_lease ha id rfl fun _ h => by cases h)
  | submitted hop _ _ => exact .inr (.inr (.inr ⟨_, _, hop⟩))
  | failed _ _ _ =>
      rw [not_active_of_sealed (.inl rfl)] at ha
      cases ha
  | settled _ _ h => exact .inl ((settleRows_ok h).active ha)
  | sealed _ _ _ _ h =>
      have hb := (settleRows_ok h).active ha
      rw [not_active_of_sealed (.inl rfl)] at hb
      cases hb
  | collected _ _ _ _ _ =>
      rw [not_active_of_sealed (.inr (.inl rfl))] at ha
      cases ha

end Active

/-! ## The invariant -/

section Cap

variable {ports : Orchestration.Ports} {op : Op} {now : Time} {db db' : Db}
  {claimedAt : Uuid → Option Time} {c c' : Campaign} {r r' : RunResult}

/--
No campaign is over its concurrency at the time its latest claim read, and none that was
never claimed from has a unit that counts.
-/
structure Cap (claimedAt : Uuid → Option Time) (db : Db) : Prop where
  cap : ∀ c ∈ db.campaigns, ∀ t ∈ claimedAt c.id,
    (db.resultsOf c.id).countP (·.isActiveUnit t) ≤ c.maxConcurrency
  idle : ∀ r ∈ db.results, claimedAt r.campaignId = none → ∀ t, r.isActiveUnit t = false

/-- The row counts, at the time that matters, only if it did before. -/
def RunResult.Withdrawn (claimedAt : Uuid → Option Time) (r r' : RunResult) : Prop :=
  ∀ t, (∀ t₀ ∈ claimedAt r.campaignId, t = t₀) → r'.isActiveUnit t = true → r.isActiveUnit t = true

theorem Cap.added (h : Cap claimedAt db)
    (hdb : db'.toTables = { db.toTables with campaigns := db.campaigns ++ [c.fresh] }) :
    Cap claimedAt db' := by
  have hnil := resultsOf_fresh hdb
  constructor
  · intro x hx t ht
    rw [hdb] at hx ⊢
    rcases List.mem_append.mp hx with hx | hx
    · exact h.cap x hx t ht
    · obtain rfl := List.mem_singleton.mp hx
      have hempty : Tables.resultsOf { db.toTables with campaigns := db.campaigns ++ [c.fresh] }
          c.fresh.id = [] := hnil
      rw [hempty]
      exact Nat.zero_le _
  · intro r hr
    rw [hdb] at hr
    exact h.idle r hr

theorem Cap.moved (h : Cap claimedAt db) (hc : c ∈ db.campaigns) (hid : c'.id = c.id)
    (hconc : c'.maxConcurrency = c.maxConcurrency)
    (hdb : db'.toTables = db.toTables.putCampaign c') : Cap claimedAt db' := by
  constructor
  · intro x hx t ht
    rw [hdb] at hx ⊢
    rcases (mem_putCampaign hc hid).mp hx with rfl | ⟨hx, _⟩
    · have hcap := h.cap c hc t (hid ▸ ht)
      rw [hconc, hid]
      exact hcap
    · exact h.cap x hx t ht
  · intro r hr
    rw [hdb] at hr
    exact h.idle r hr

/-- Rows that are appended and do not count. -/
theorem countP_resultsOf_append (id : Uuid) {t : Time} {old new : List RunResult}
    (hnew : ∀ r ∈ new, r.isActiveUnit t = false) :
    ((old ++ new).filter (·.campaignId = id)).countP (·.isActiveUnit t)
      = (old.filter (·.campaignId = id)).countP (·.isActiveUnit t) := by
  have hz : (new.filter (·.campaignId = id)).countP (·.isActiveUnit t) = 0 := by
    refine List.countP_eq_zero.mpr fun r hr => ?_
    simp [hnew r (List.mem_of_mem_filter hr)]
  rw [List.filter_append, List.countP_append, hz, Nat.add_zero]

theorem Cap.materialized (h : Cap claimedAt db) {plans : List RunResult} (hc : c ∈ db.campaigns)
    (hid : c'.id = c.id) (hconc : c'.maxConcurrency = c.maxConcurrency)
    (hplans : ∀ r ∈ plans, r.schedulingState = .pending)
    (hdb : db'.toTables = { db.toTables.putCampaign c' with results := db.results ++ plans }) :
    Cap claimedAt db' := by
  have hfree : ∀ r ∈ plans, ∀ t, r.isActiveUnit t = false := fun r hr t =>
    not_active_of_sealed (.inr (.inr (.inr (hplans r hr))))
  constructor
  · intro x hx t ht
    rw [hdb] at hx
    have hcount : (db'.resultsOf x.id).countP (·.isActiveUnit t)
        = (db.resultsOf x.id).countP (·.isActiveUnit t) := by
      rw [Tables.resultsOf, hdb]
      exact countP_resultsOf_append x.id fun r hr => hfree r hr t
    rw [hcount]
    rcases (mem_putCampaign hc hid).mp hx with rfl | ⟨hx, _⟩
    · have hcap := h.cap c hc t (hid ▸ ht)
      rw [hconc, hid]
      exact hcap
    · exact h.cap x hx t ht
  · intro r hr hnone t
    rw [hdb] at hr
    rcases List.mem_append.mp hr with hr | hr
    · exact h.idle r hr hnone t
    · exact hfree r hr t

theorem skipped_active {id : Uuid} {reason : String} {t : Time}
    (ha : (if r.isPendingOf id then r.skipped reason else r).isActiveUnit t = true) :
    r.isActiveUnit t = true := by
  split at ha
  · rw [not_active_of_sealed (.inr (.inr (.inl rfl)))] at ha
    cases ha
  · exact ha

theorem Cap.skipped (h : Cap claimedAt db) {reason : String} (hc : c ∈ db.campaigns)
    (hid : c'.id = c.id) (hconc : c'.maxConcurrency = c.maxConcurrency)
    (hdb : db'.toTables = { db.toTables.putCampaign c' with
      results := db.results.map fun r => if r.isPendingOf c.id then r.skipped reason else r }) :
    Cap claimedAt db' := by
  constructor
  · intro x hx t ht
    rw [hdb] at hx
    have hcount : (db'.resultsOf x.id).countP (·.isActiveUnit t)
        ≤ (db.resultsOf x.id).countP (·.isActiveUnit t) := by
      rw [Tables.resultsOf, hdb, resultsOf_skipped, List.countP_map]
      exact List.countP_mono_left fun r _ ha => skipped_active ha
    refine Nat.le_trans hcount ?_
    rcases (mem_putCampaign hc hid).mp hx with rfl | ⟨hx, _⟩
    · have hcap := h.cap c hc t (hid ▸ ht)
      rw [hconc, hid]
      exact hcap
    · exact h.cap x hx t ht
  · intro r hr hnone t
    rw [hdb] at hr
    obtain ⟨o, ho, rfl⟩ := List.mem_map.mp hr
    rw [skipped_campaignId] at hnone
    refine Bool.eq_false_iff.mpr fun ha => ?_
    have := skipped_active ha
    rw [h.idle o ho hnone t] at this
    cases this

theorem Cap.rows (h : Cap claimedAt db) (hc : c ∈ db.campaigns) (hr : r ∈ db.results)
    (hcr : r.campaignId = c.id) (hf : Framed c r c' r') (hw : r.Withdrawn claimedAt r')
    (hdb : db'.toTables = db.toTables.put c' r') : Cap claimedAt db' := by
  constructor
  · intro x hx t ht
    rw [hdb] at hx ⊢
    rcases (mem_put_campaigns hc hf.id).mp hx with rfl | ⟨hx, hne⟩
    · have hcap := h.cap c hc t (hf.id ▸ ht)
      rw [hf.concurrency, hf.id, resultsOf_put hr hf.same]
      refine Nat.le_trans (countP_update_le ?_ fun _ _ _ ha => ha) hcap
      intro o ho hoid ha
      obtain rfl := eq_of_key_eq (resultsOf_nodup db c.id) ho
        (List.mem_filter.mpr ⟨hr, decide_eq_true hcr⟩) hoid
      refine hw t (fun t₀ ht₀ => ?_) ha
      rw [hf.id, ← hcr] at ht
      exact Option.mem_unique ht ht₀
    · rw [resultsOf_put_of_ne hr hf.same (hcr.trans_ne (Ne.symm hne))]
      exact h.cap x hx t ht
  · intro o ho hnone t
    rw [hdb] at ho
    rcases (mem_put_results hr hf.same.id).mp ho with rfl | ⟨ho, _⟩
    · rw [hf.same.campaignId] at hnone
      refine Bool.eq_false_iff.mpr fun ha => ?_
      have := hw t (fun t₀ ht₀ => by rw [hnone] at ht₀; cases ht₀) ha
      rw [h.idle r hr hnone t] at this
      cases this
    · exact h.idle o ho hnone t

theorem Cap.effect (h : Cap claimedAt db) (he : Effect ports op now db db')
    (hw : ∀ c r c' r', r ∈ db.results → r.campaignId = c.id → op.Guarded db now c r →
      (∀ x ∈ op.target, x = (c.id, r.id)) → Change op now c r c' r' → r.Withdrawn claimedAt r') :
    Cap claimedAt db' := by
  cases he with
  | idle hdb => exact hdb ▸ h
  | added hdb => exact h.added hdb
  | materialized hc _ _ _ hdb =>
      refine h.materialized hc ?_ ?_ (fun r hr => ?_) hdb
      · rfl
      · rfl
      · obtain ⟨id, caseId, repetition, ordinal, hash, selected, rfl⟩ := mem_materializeRunPlans hr
        rfl
  | moved hc hm _ hdb => exact h.moved hc hm.id hm.concurrency hdb
  | skipped hc _ hdb =>
      refine h.skipped hc ?_ ?_ hdb
      · rfl
      · rfl
  | rows hc hr hcr htarget hguard hch hdb =>
      exact h.rows hc hr hcr hch.framed (hw _ _ _ _ hr hcr hguard htarget hch) hdb

/-- The reading that is noted when a claim takes a place. -/
theorem Cap.claimed {worker : String} {duration : Duration} {locked : List Uuid} {lease : RunLease}
    {campaignId : Uuid} (h : Cap claimedAt db)
    (hcl : ClaimedRow db db' now campaignId worker duration locked lease c r) :
    Cap (fun id => if id = campaignId then some ((claimedAt id).elim now (max now)) else claimedAt id)
      db' := by
  have hsame : r.Same (r.claimedBy worker now duration) := ⟨rfl, rfl, rfl, rfl, rfl⟩
  have hdb := hcl.tables
  rw [putResult_eq_put hcl.campaign_mem] at hdb
  constructor
  · intro x hx t ht
    rw [hdb] at hx ⊢
    have hx : x ∈ db.campaigns := by
      rcases (mem_put_campaigns hcl.campaign_mem rfl).mp hx with rfl | hx
      · exact hcl.campaign_mem
      · exact hx.1
    by_cases hid : x.id = campaignId
    · obtain rfl := eq_of_key_eq db.valid.pk_campaigns hx hcl.campaign_mem
        (hid.trans hcl.campaign_id.symm)
      rw [if_pos hid, Option.mem_some_iff] at ht
      have hle : now ≤ t := by
        subst ht
        cases claimedAt x.id with
        | none => exact le_refl _
        | some t₀ => exact le_max_left _ _
      -- what counts at the noted time counted when the claim looked, beside the unit it took
      have hfree := hcl.free
      rw [resultsOf_put hcl.result_mem hsame]
      have hcount := countP_update_le_succ (f := fun _ => r.claimedBy worker now duration) (k := r.id)
        (resultsOf_nodup db x.id) fun o _ _ ho => isActiveUnit_mono (r := o) hle ho
      omega
    · rw [if_neg hid] at ht
      rw [resultsOf_put_of_ne hcl.result_mem hsame]
      · exact h.cap x hx t ht
      · rw [hcl.result_campaign, hcl.campaign_id]
        exact Ne.symm hid
  · intro o ho hnone t
    rw [hdb] at ho
    have hne : o.campaignId ≠ campaignId := by
      intro heq
      rw [if_pos heq] at hnone
      cases hnone
    rw [if_neg hne] at hnone
    rcases (mem_put_results hcl.result_mem hsame.id).mp ho with rfl | ⟨ho, _⟩
    · exact absurd (hcl.result_campaign.trans hcl.campaign_id) hne
    · exact h.idle o ho hnone t

/-- A unit whose lease ran at the time that matters counted then. -/
theorem Cap.withdrawn {lease : RunLease} (h : Cap claimedAt db) (hr : r ∈ db.results)
    (hheld : r.HeldBy lease now)
    (htimely : ∀ t ∈ claimedAt r.campaignId, ∀ e ∈ r.leaseExpiresAt, t < e) :
    r.Withdrawn claimedAt r' := by
  intro t ht _
  cases hat : claimedAt r.campaignId with
  | none =>
      have hidle := h.idle r hr hat now
      rw [active_of_held hheld] at hidle
      cases hidle
  | some t₀ =>
      obtain rfl := ht t₀ hat
      obtain ⟨e, he, -⟩ := (Option.any_eq_true _ _).mp hheld.running
      have hlt := htimely t hat e he
      simp [RunResult.isActiveUnit, hheld.leased, he, hlt]

end Cap

/-! ## Runs -/

section Runs

variable {d : Orchestration.Deployment} {s : Clocked} {now : Time} {op : Op} {out : Outcome}

/-- One transaction. -/
theorem Cap.transact {app : Orchestration.Tables} (h : Cap s.claimedAt s.world.db)
    (hok : Timely s op) (hrun : op.run d.ports app s.world.db now = .ok out) :
    Cap (op.noted now out s.claimedAt) out.db := by
  have hother (hold : op.noted now out s.claimedAt = s.claimedAt)
      (hclaim : ∀ campaignId worker duration locked, op ≠ .claim campaignId worker duration locked) :
      Cap (op.noted now out s.claimedAt) out.db := by
    rw [hold]
    refine h.effect (run_effect hrun) fun c r c' r' hr hcr hguard htarget hch => ?_
    by_cases hlate : (∃ lease duration, op = .renew lease duration) ∨
        ∃ lease receipt, op = .bindSubmission lease receipt
    · rcases hlate with ⟨lease, duration, rfl⟩ | ⟨lease, receipt, rfl⟩
      all_goals
        have hids := htarget (lease.campaignId, lease.id) rfl
        simp only [Prod.mk.injEq] at hids
        refine h.withdrawn hr hguard fun t ht => hok r hr hids.2.symm t ?_
        rw [hids.1, ← hcr]
        exact ht
    · intro t _ ha
      rcases hch.active ha with ha | ⟨_, _, _, _, hop⟩ | hop | hop
      · exact ha
      · exact absurd hop (hclaim _ _ _ _)
      · exact absurd (.inl hop) hlate
      · exact absurd (.inr hop) hlate
  cases op
  case claim campaignId worker duration locked =>
    simp only [Op.run, bind_ok_iff, pure_ok_iff, Prod.exists] at hrun
    obtain ⟨lease, db', hrun, rfl⟩ := hrun
    obtain ⟨rfl, rfl⟩ | ⟨l, c, r, rfl, hcl⟩ := claimNextResult_ok hrun
    · exact h
    · exact h.claimed hcl
  all_goals exact hother rfl fun _ _ _ _ hop => by cases hop

/-- What a transaction notes is what it read off the clock, at most. -/
theorem Op.noted_le (op : Op) (out : Outcome) (hnow : now ≤ s.clock)
    (h : ∀ id, ∀ t ∈ s.claimedAt id, t ≤ s.clock) (id : Uuid) :
    ∀ t ∈ op.noted now out s.claimedAt id, t ≤ s.clock := by
  intro t ht
  cases op
  case claim campaignId worker duration locked =>
    simp only [Op.noted] at ht
    split at ht
    · exact h id t ht
    · beta_reduce at ht
      split at ht
      · obtain rfl := Option.mem_some_iff.mp ht
        cases hat : s.claimedAt id with
        | none => exact hnow
        | some t₀ => exact max_le hnow (h id t₀ hat)
      · exact h id t ht
  all_goals exact h id t ht

/-- Along every run whose renewals and submissions come in time. -/
theorem cap_reachable (hr : ClockedReachable d Timely s) :
    Cap s.claimedAt s.world.db ∧ ∀ id, ∀ t ∈ s.claimedAt id, t ≤ s.clock := by
  refine Lib.Reachable.invariant (P := fun s : Clocked => Cap s.claimedAt s.world.db ∧
    ∀ id, ∀ t ∈ s.claimedAt id, t ≤ s.clock) ?_ ?_ hr
  · rintro s ⟨hw, hat⟩
    rw [hw, hat]
    refine ⟨⟨fun c hc => ?_, fun r hr => ?_⟩, fun id t ht => ?_⟩
    · cases hc
    · cases hr
    · cases ht
  · rintro s s' ⟨hcap, hle⟩ hs
    cases hs with
    | wait h => exact ⟨hcap, fun id t ht => le_trans (hle id t ht) h⟩
    | transact hnow hok _ hrun => exact ⟨hcap.transact hok hrun, Op.noted_le _ _ hnow hle⟩
    | beside hdb _ =>
        refine ⟨?_, hle⟩
        rw [hdb]
        exact hcap

end Runs

/--
**A campaign never has more active units than its concurrency**, along every run in which
a lease that is renewed, or under which a submission is bound, had not run out when the
latest claim of the campaign read the clock.
-/
theorem active_units_le_max_concurrency {d : Orchestration.Deployment} {s : Clocked}
    (hr : ClockedReachable d Timely s) : ∀ c ∈ s.world.db.campaigns,
      (s.world.db.resultsOf c.id).countP (·.isActiveUnit s.clock) ≤ c.maxConcurrency := by
  obtain ⟨hcap, hle⟩ := cap_reachable hr
  intro c hc
  cases hat : s.claimedAt c.id with
  | none =>
      rw [List.countP_eq_zero.mpr]
      · exact Nat.zero_le _
      · intro r hr
        have hmem := List.mem_filter.mp hr
        have hcr : r.campaignId = c.id := of_decide_eq_true hmem.2
        simp [hcap.idle r hmem.1 (hcr ▸ hat)]
  | some t =>
      refine Nat.le_trans (List.countP_mono_left fun r _ ha => ?_) (hcap.cap c hc t hat)
      exact isActiveUnit_mono (hle c.id t hat) ha

/-! ## A renewal that comes late -/

instance (s : Clocked) (op : Op) : Decidable (Timely s op) := by
  apply @Op.casesOn (fun op => Decidable (Timely s op)) op <;> intros <;>
    unfold Timely <;> infer_instance

/-- What to do next on the clock. -/
inductive ClockedAction
  | wait (clock : Time)
  | transact (now : Time) (choose : World → Option Op)
  | beside (action : Action)

section Run

variable (d : Orchestration.Deployment) (ok : Clocked → Op → Prop) [∀ s op, Decidable (ok s op)]

/-- Perform one step on the clock, if it meets the condition and can be taken. -/
def clockedExec (s : Clocked) : ClockedAction → Option Clocked
  | .wait clock => if s.clock ≤ clock then some { s with clock } else none
  | .transact now choose =>
      (choose s.world).bind fun op =>
        if now ≤ s.clock ∧ ok s op ∧ op.Held s.world then
          (op.run d.ports s.world.app.db.toTables s.world.db now).toOption.map fun out => { s with
            world := s.world.after out, claimedAt := op.noted now out s.claimedAt }
        else none
  | .beside (.transact _ _) => none
  | .beside action => (exec d (fun _ _ => True) s.world action).map fun world => { s with world }

theorem exec_beside {w w' : World} {a : Action} (h : exec d (fun _ _ => True) w a = some w')
    (ha : ∀ now choose, a ≠ .transact now choose) : w'.db = w.db := by
  -- only a transaction of the campaign writes its database
  cases a with
  | service action =>
      rw [exec, if_pos trivial] at h
      obtain ⟨_, -, rfl⟩ := Option.map_eq_some_iff.mp h
      rfl
  | transact now choose => exact absurd rfl (ha now choose)
  | send lease prompt =>
      obtain ⟨_, -, h⟩ := Option.bind_eq_some_iff.mp h
      obtain ⟨_, -, h⟩ := Option.bind_eq_some_iff.mp h
      obtain ⟨-, h⟩ := Option.ite_none_right_eq_some.mp h
      obtain ⟨_, -, rfl⟩ := Option.map_eq_some_iff.mp h
      rfl
  | serve env routing sent =>
      obtain ⟨_, -, h⟩ := Option.bind_eq_some_iff.mp h
      obtain ⟨-, h⟩ := Option.ite_none_right_eq_some.mp h
      obtain ⟨_, -, rfl⟩ := Option.map_eq_some_iff.mp h
      rfl

theorem clockedExec_step {s s' : Clocked} {a : ClockedAction} (h : clockedExec d ok s a = some s') :
    ClockedStep d ok s s' := by
  cases a with
  | wait clock =>
      simp only [clockedExec, Option.ite_none_right_eq_some, Option.some.injEq] at h
      obtain ⟨hle, rfl⟩ := h
      exact .wait hle
  | transact now choose =>
      obtain ⟨op, _, h⟩ := Option.bind_eq_some_iff.mp h
      simp only [Option.ite_none_right_eq_some] at h
      obtain ⟨⟨hnow, hok, hheld⟩, h⟩ := h
      obtain ⟨out, hout, rfl⟩ := Option.map_eq_some_iff.mp h
      exact .transact hnow hok hheld (Orchestration.toOption_eq_some hout)
  | beside a =>
      have hbeside (ha : ∀ now choose, a ≠ .transact now choose)
          (h : (exec d (fun _ _ => True) s.world a).map (fun world => { s with world }) = some s') :
          ClockedStep d ok s s' := by
        obtain ⟨w, hw, rfl⟩ := Option.map_eq_some_iff.mp h
        obtain ⟨label, -, hstep⟩ := exec_moves d _ hw
        exact .beside (exec_beside d hw ha) hstep
      cases a with
      | transact now choose => cases h
      | _ => exact hbeside (fun _ _ heq => by cases heq) h

theorem exists_clockedReachable (actions : List ClockedAction) (p : Clocked → Bool)
    (h : (actions.foldlM (clockedExec d ok) { world := .init }).any p = true) :
    ∃ s, ClockedReachable d ok s ∧ p s = true := by
  obtain ⟨s, hs, hp⟩ := (Option.any_eq_true _ _).mp h
  refine ⟨s, ?_, hp⟩
  refine Lib.Reachable.of_exec ?_ (.init ⟨rfl, rfl⟩) hs
  intro _ _ _ hstep
  exact clockedExec_step d ok hstep

end Run

namespace Sample

/-- A claim of the small campaign. -/
def claimBy (worker : String) (locked : World → List Uuid) (w : World) : Option Op :=
  some (.claim campaignId worker (seconds 60) (locked w))

/-- The small campaign is started and two of its units are claimed, half a minute apart. -/
def twoClaimed : List ClockedAction := [
  .wait (seconds 1),
  .transact 1 fun _ => some (.add campaign),
  .transact 2 fun _ => some (.materialize owner campaignId cases 2),
  .transact 3 fun _ => some (.mutate (some owner) campaignId (.start 3)),
  .transact (seconds 1) (claimBy "worker" fun _ => []),
  .wait (seconds 31),
  .transact (seconds 31) (claimBy "second" fun _ => [])]

/--
A unit's worker sends its prompt and renews its lease; another unit is claimed, and then the run
of the first one is bound under the renewed lease.
-/
def renewedThenBound : List ClockedAction := [
  .wait (seconds 1),
  .transact 1 fun _ => some (.add campaign),
  .transact 2 fun _ => some (.materialize owner campaignId cases 2),
  .transact 3 fun _ => some (.mutate (some owner) campaignId (.start 3)),
  .transact (seconds 1) (claimBy "worker" fun _ => []),
  .transact (seconds 1) fun w => last w .reserve,
  .transact (seconds 1) fun w => last w .prepareConversation,
  .beside (.send 2 "prompt"),
  .beside (.serve (Orchestration.sampleEnv 10) ⟨.fast, [], "search-v12"⟩ 0),
  .transact (seconds 1) fun w => match replied w with
    | some (.conversation id) => last w (.bindConversation · id)
    | _ => none,
  .transact (seconds 1) fun w => last w .prepareSubmission,
  .beside (.send 4 "prompt"),
  .beside (.serve (Orchestration.sampleEnv 11) ⟨.fast, [], "search-v12"⟩ 1),
  .wait (seconds 31),
  .transact (seconds 31) fun w => last w (.renew · (seconds 60)),
  .transact (seconds 31) (claimBy "second" fun _ => []),
  .wait (seconds 62),
  .transact (seconds 32) fun w => match replied w with
    | some (.message receipt) => w.leases[5]?.map (.bindSubmission · receipt)
    | _ => none]

/--
The first worker reads the clock and locks its row just before its lease runs out. A
third worker then finds a free place and passes over the locked row; and the first
worker extends its lease.
-/
def lateRenewal : List ClockedAction := twoClaimed ++ [
  .wait (seconds 62),
  .transact (seconds 62) (claimBy "third" fun w => w.leases.head?.toList.map (·.id)),
  .transact (seconds 60) fun w => w.leases.head?.map (.renew · (seconds 60))]

end Sample

/-- Two units at a time is what the small campaign allows, and it has two, one of them submitted. -/
theorem active_units_le_max_concurrency_sample : ∃ s : Clocked,
    (∃ c ∈ s.world.db.campaigns,
      (s.world.db.resultsOf c.id).countP (·.isActiveUnit s.clock) = 2 ∧
      (s.world.db.resultsOf c.id).countP (·.schedulingState = .submitted) = 1) ∧
    ∀ c ∈ s.world.db.campaigns,
      (s.world.db.resultsOf c.id).countP (·.isActiveUnit s.clock) ≤ c.maxConcurrency := by
  obtain ⟨s, hr, hp⟩ := exists_clockedReachable Sample.deployment Timely Sample.renewedThenBound
    (fun s => s.world.db.campaigns.any fun c =>
      (s.world.db.resultsOf c.id).countP (·.isActiveUnit s.clock) = 2 &&
        (s.world.db.resultsOf c.id).countP (·.schedulingState = .submitted) = 1)
    (by decide +kernel)
  simp only [List.any_eq_true, Bool.and_eq_true, decide_eq_true_eq] at hp
  exact ⟨s, hp, active_units_le_max_concurrency hr⟩

/-- A renewal brings a third unit back to a campaign that allows two. -/
theorem late_renewal_exceeds_max_concurrency : ∃ s : Clocked,
    ClockedReachable Sample.deployment (fun _ _ => True) s ∧ ∃ c ∈ s.world.db.campaigns,
      c.maxConcurrency < (s.world.db.resultsOf c.id).countP (·.isActiveUnit s.clock) := by
  obtain ⟨s, hr, hp⟩ := exists_clockedReachable Sample.deployment (fun _ _ => True)
    Sample.lateRenewal (fun s => s.world.db.campaigns.any fun c =>
      c.maxConcurrency < (s.world.db.resultsOf c.id).countP (·.isActiveUnit s.clock))
    (by decide +kernel)
  simp only [List.any_eq_true, decide_eq_true_eq] at hp
  exact ⟨s, hr, hp⟩

end Sana.Shadow
