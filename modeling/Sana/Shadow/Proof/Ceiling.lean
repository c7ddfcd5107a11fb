import Sana.Shadow.Proof.Effect

/-!
# The ceiling

Admission keeps a running campaign within its limits, and a settlement that exceeds
them stops a running campaign for good. A settlement that lands while the campaign is
pausing or paused only books the cost: the campaign stays on the path back to RUNNING.
So the invariant is about every status from which a campaign can still run, and it
holds in every run whose settlements during a pause fit into what is left.
-/

namespace Sana.Shadow

open Sana.Lib

/-- Observed, possibly billed and reserved usage is within the limits. -/
def Campaign.WithinLimits (c : Campaign) : Prop :=
  c.ledger.totalCalls ≤ c.limits.providerCallAdmissionCeiling
    ∧ c.ledger.totalCost ≤ c.limits.estimatedCostStopThreshold

/-- The campaign is paused, or stopping in order to pause. -/
def Campaign.Pausing (c : Campaign) : Prop :=
  c.status = .paused ∨ (c.status = .stopping ∧ c.stopIntent = .pause)

/-- The campaign is running or can come to run. -/
def Campaign.MayRun (c : Campaign) : Prop :=
  c.status = .created ∨ c.status = .running ∨ c.Pausing

/-- A result's usage fits into the limits once its own reservation is gone. -/
def Campaign.Fits (c : Campaign) (r : RunResult) (usage : SettlementUsage) : Prop :=
  c.ledger.totalCalls - r.reservedProviderCalls
      + (usage.observedProviderCalls + usage.possiblyBilledCallCharge)
      ≤ c.limits.providerCallAdmissionCeiling
    ∧ c.ledger.totalCost - r.reservedEstimatedCost
      + (usage.observedEstimatedCost + usage.possiblyBilledCostCharge)
      ≤ c.limits.estimatedCostStopThreshold

/-- What is settled while a campaign is pausing or paused fits into its limits. -/
def FittingPauses (w : World) : Label → Prop
  | .transact _ op =>
      ∀ c ∈ w.db.campaigns, ∀ r ∈ w.db.results, op.target = some (c.id, r.id) →
        r.reservationState = .active → c.Pausing →
          ∀ usage ∈ op.usage c, c.Fits r usage
  | _ => True

/-! ## Two rows -/

/-- A campaign that has not started has reserved nothing. -/
def Idle (c : Campaign) (r : RunResult) : Prop :=
  c.status = .created → r.reservationState = .none

section TwoRows

variable {c c' : Campaign} {r r' : RunResult} {now : Time}

/-- What leaves the ledger makes room. -/
theorem withinLimits_of_le (hl : c'.limits = c.limits)
    (hcalls : c'.ledger.totalCalls ≤ c.ledger.totalCalls)
    (hcost : c'.ledger.totalCost ≤ c.ledger.totalCost) (h : c.WithinLimits) : c'.WithinLimits := by
  unfold Campaign.WithinLimits at h ⊢
  rw [hl]
  exact ⟨hcalls.trans h.1, hcost.trans h.2⟩

theorem unreserve_le (l : Ledger) (r : RunResult) :
    (l.unreserve r).totalCalls ≤ l.totalCalls ∧ (l.unreserve r).totalCost ≤ l.totalCost := by
  simp only [Ledger.unreserve, Ledger.totalCalls, Ledger.totalCost]
  omega

theorem withinLimits_of_admitted {request : ReservationRequest}
    (h : c.limits.admitRequest c.ledger request = .allowed) :
    (reserved now request c r).1.WithinLimits := by
  simp only [Limits.admitRequest] at h
  split_ifs at h with h₁ h₂ h₃
  simp only [Campaign.WithinLimits, reserved]
  simp only [Ledger.totalCalls, Ledger.totalCost] at h₂ h₃ ⊢
  omega

/-- The ledger after a settlement is within the limits if the usage fitted. -/
theorem withinLimits_of_fits {usage : SettlementUsage} (h : c.Fits r usage) :
    ({ c with ledger := c.ledger.settle r usage } : Campaign).WithinLimits := by
  simp only [Campaign.Fits, Campaign.WithinLimits, Ledger.settle, Ledger.totalCalls,
    Ledger.totalCost] at h ⊢
  omega

/-- No breach was found, so the ledger is within the limits. -/
theorem withinLimits_of_breach_none {reservation : ReservationRequest} {usage : SettlementUsage}
    (h : c.limits.breach c.ledger reservation usage = none) : c.WithinLimits := by
  simp only [Limits.breach] at h
  split_ifs at h with h₁ h₂ h₃ h₄ h₅
  simp only [Campaign.WithinLimits]
  omega

theorem breach_ne_pause {limits : Limits} {ledger : Ledger} {reservation : ReservationRequest}
    {usage : SettlementUsage} {intent : StopIntent} {reason : String}
    (h : limits.breach ledger reservation usage = some (intent, reason)) : intent ≠ .pause := by
  simp only [Limits.breach] at h
  split_ifs at h <;> cases h <;> decide

/-- A settlement keeps the campaign within its limits or takes it off the way to running. -/
theorem settled_withinLimits {digest : String} {reservation : ReservationRequest}
    {usage : SettlementUsage} (hcreated : c.status ≠ .created)
    (hfits : c.Pausing → c.Fits r usage)
    (hmay : (settled now digest reservation usage c r).1.MayRun) :
    (settled now digest reservation usage c r).1.WithinLimits := by
  obtain ⟨_, _, hlimits, _, hledger, _⟩ := stopOnBreach_frame
    { c with ledger := c.ledger.settle r usage } reservation usage
  -- whatever the status becomes, the figures are those of the plain settlement
  suffices h : ({ c with ledger := c.ledger.settle r usage } : Campaign).WithinLimits by
    refine withinLimits_of_le hlimits ?_ ?_ h
    · exact le_of_eq (congrArg Ledger.totalCalls hledger)
    · exact le_of_eq (congrArg Ledger.totalCost hledger)
  have hstatus : ∀ c₁ : Campaign, c₁ = ({ c with ledger := c.ledger.settle r usage } : Campaign) →
      (c₁.stopOnBreach reservation usage).MayRun → c₁.WithinLimits := by
    intro c₁ hc₁ hmay
    unfold Campaign.stopOnBreach at hmay
    split at hmay
    · rename_i intent reason hbreach
      split at hmay
      · -- a breach while running: the campaign stops with an intent that is no pause
        simp only [Campaign.MayRun, Campaign.Pausing, reduceCtorEq, false_or, true_and] at hmay
        exact absurd hmay (breach_ne_pause hbreach)
      · rename_i hrun
        rcases hmay with hmay | hmay | hmay
        · rw [hc₁] at hmay
          exact absurd hmay hcreated
        · exact absurd hmay hrun
        · rw [hc₁] at hmay ⊢
          exact withinLimits_of_fits (hfits hmay)
    · rename_i hnone
      exact withinLimits_of_breach_none hnone
  exact hstatus _ rfl hmay

theorem settling_withinLimits {digest : String} {usage : SettlementUsage}
    (h : Settling now digest usage c r c' r') (hidle : Idle c r)
    (hfits : r.reservationState = .active → c.Pausing → c.Fits r usage)
    (hp : c.MayRun → c.WithinLimits) (hmay : c'.MayRun) : c'.WithinLimits := by
  cases h with
  | again _ => exact hp hmay
  | first reservation hactive _ _ =>
      refine settled_withinLimits ?_ (hfits hactive) hmay
      intro hcreated
      have hnone := hidle hcreated
      rw [hactive] at hnone
      cases hnone

theorem failReservation_le {failure : RunnerFailure} {digest : String}
    (h : failReservation now failure digest c r = .ok (c', r')) :
    c'.ledger.totalCalls ≤ c.ledger.totalCalls ∧ c'.ledger.totalCost ≤ c.ledger.totalCost
      ∧ c'.status = c.status ∧ c'.stopIntent = c.stopIntent
      ∧ (r.reservationState = .none → r'.reservationState = .none) := by
  unfold failReservation at h
  split at h
  · rename_i hactive
    have hle := unreserve_le c.ledger r
    split at h
    · cases h
      refine ⟨?_, ?_, rfl, rfl, by simp [hactive]⟩
      all_goals
        simp only [Ledger.unreserve, Ledger.totalCalls, Ledger.totalCost]
        omega
    · cases h
      exact ⟨hle.1, hle.2, rfl, rfl, by simp [hactive]⟩
  · cases h
    exact ⟨le_rfl, le_rfl, rfl, rfl, id⟩
  · cases h
  · cases h

theorem mayRun_congr (hst : c'.status = c.status) (hint : c'.stopIntent = c.stopIntent)
    (h : c'.MayRun) : c.MayRun := by
  unfold Campaign.MayRun Campaign.Pausing at h ⊢
  rwa [hst, hint] at h

/-- **A change of two rows keeps the limits**, if what it settles fits. -/
theorem change_withinLimits {op : Op} (h : Change op now c r c' r') (hidle : Idle c r)
    (hfits : r.reservationState = .active → c.Pausing → ∀ usage ∈ op.usage c, c.Fits r usage)
    (hp : c.MayRun → c.WithinLimits) (hmay : c'.MayRun) : c'.WithinLimits := by
  cases h with
  | held _ _ => exact hp hmay
  | bound _ _ _ => exact hp hmay
  | attempted _ _ => exact hp hmay
  | reserved _ _ hallowed => exact withinLimits_of_admitted hallowed
  | refused hintent =>
      simp only [refused, Campaign.MayRun, Campaign.Pausing, reduceCtorEq, false_or,
        true_and] at hmay
      exact absurd hmay hintent
  | released _ _ =>
      have hle := unreserve_le c.ledger r
      exact withinLimits_of_le (c := c) rfl hle.1 hle.2 (hp hmay)
  | submitted _ _ _ => exact hp hmay
  | failed _ _ h =>
      obtain ⟨hcalls, hcost, hst, hint, _⟩ := failReservation_le h
      refine withinLimits_of_le (failReservation_framed h).limits hcalls hcost (hp ?_)
      exact mayRun_congr hst hint hmay
  | settled hu _ h =>
      exact settling_withinLimits (settleRows_ok h) hidle
        (fun hactive hpause => hfits hactive hpause _ hu) hp hmay
  | sealed hu _ _ _ h =>
      exact settling_withinLimits (settleRows_ok h) hidle
        (fun hactive hpause => hfits hactive hpause _ hu) hp hmay
  | collected hop _ _ _ h =>
      subst hop
      have hset := settling_withinLimits (settleRows_ok h) hidle
        (fun hactive hpause => hfits hactive hpause _ rfl) hp hmay
      exact hset

/-- No change takes a campaign back to its creation, or reserves before its start. -/
theorem change_idle {op : Op} (h : Change op now c r c' r') (hcreated : c'.status = .created) :
    c.status = .created ∧ (r.reservationState = .none → r'.reservationState = .none) := by
  have hsettling : ∀ {now : Time} {digest : String} {usage : SettlementUsage} {c₀ c₁ : Campaign}
      {r₀ r₁ : RunResult}, Settling now digest usage c₀ r₀ c₁ r₁ → c₁.status = .created →
      c₀.status = .created ∧ (r₀.reservationState = .none → r₁.reservationState = .none) := by
    intro now digest usage c₀ c₁ r₀ r₁ hs hst
    cases hs with
    | again _ => exact ⟨hst, id⟩
    | first reservation hactive _ _ =>
        refine ⟨?_, by simp [hactive]⟩
        simp only [settled, Campaign.stopOnBreach] at hst
        split at hst
        · split at hst
          · cases hst
          · exact hst
        · exact hst
  cases h with
  | held h _ => exact ⟨hcreated, fun hn => h.reservationState.trans hn⟩
  | bound _ _ _ => exact ⟨hcreated, id⟩
  | attempted _ _ => exact ⟨hcreated, id⟩
  | reserved hrun _ _ =>
      have hst : c.status = .created := hcreated
      rw [hrun] at hst
      cases hst
  | refused _ => cases hcreated
  | released hactive _ => exact ⟨hcreated, by simp [hactive]⟩
  | submitted _ _ _ => exact ⟨hcreated, id⟩
  | failed _ _ h =>
      obtain ⟨_, _, hst, _, hnone⟩ := failReservation_le h
      exact ⟨hst.symm.trans hcreated, hnone⟩
  | settled _ _ h => exact hsettling (settleRows_ok h) hcreated
  | sealed _ _ _ _ h =>
      have hset := hsettling (settleRows_ok h) hcreated
      exact hset
  | collected _ _ _ _ h =>
      have hset := hsettling (settleRows_ok h) hcreated
      exact hset

end TwoRows

/-! ## Runs -/

/-- **The ceiling invariant.** -/
structure CeilingInv (db : Db) : Prop where
  within : ∀ c ∈ db.campaigns, c.MayRun → c.WithinLimits
  idle : ∀ c ∈ db.campaigns, ∀ r ∈ db.results, r.campaignId = c.id → Idle c r

theorem ceilingInv_empty : CeilingInv Db.empty :=
  ⟨by simp [Db.empty], by simp [Db.empty]⟩

/-- Moving on, a campaign only comes to run from where it might. -/
theorem mayRun_of_moved {c c' : Campaign} (h : c.Moved c') (hmay : c'.MayRun) : c.MayRun := by
  rcases hmay with hst | hst | hst | ⟨hst, hint⟩
  · exact absurd hst h.ne_created
  · rcases h.running hst with hc | hc
    · exact .inl hc
    · exact .inr (.inr (.inl hc))
  · exact .inr (.inr (.inr (h.paused hst)))
  · exact .inr (.inl (h.stopping hst hint))

section Effects

variable {ports : Orchestration.Ports} {db db' : Db}

/-- A campaign row rewritten without its budget. -/
theorem ceilingInv_putCampaign {c c' : Campaign} (hp : CeilingInv db) (hc : c ∈ db.campaigns)
    (hcamp : db'.campaigns = (db.toTables.putCampaign c').campaigns) (hid : c'.id = c.id)
    (hl : c'.limits = c.limits) (hled : c'.ledger = c.ledger) (hmay : c'.MayRun → c.MayRun)
    (hcreated : c'.status = .created → c.status = .created)
    (hres : ∀ r' ∈ db'.results, (∃ r ∈ db.results, r'.campaignId = r.campaignId
      ∧ (r.reservationState = .none → r'.reservationState = .none))
      ∨ r'.reservationState = .none) : CeilingInv db' := by
  constructor
  · intro x hx hm
    rw [hcamp] at hx
    rcases (mem_putCampaign hc hid).mp hx with rfl | ⟨hx, _⟩
    · exact withinLimits_of_le hl (le_of_eq (by rw [hled])) (le_of_eq (by rw [hled]))
        (hp.within c hc (hmay hm))
    · exact hp.within x hx hm
  · intro x hx r' hr' hcr hst
    rw [hcamp] at hx
    rcases hres r' hr' with ⟨r, hr, hrc, hkeep⟩ | hnone
    · rw [hrc] at hcr
      rcases (mem_putCampaign hc hid).mp hx with rfl | ⟨hx, _⟩
      · exact hkeep (hp.idle c hc r hr (hcr.trans hid) (hcreated hst))
      · exact hkeep (hp.idle x hx r hr hcr hst)
    · exact hnone

theorem ceilingInv_added {c : Campaign} (hp : CeilingInv db)
    (hdb : db'.toTables = { db.toTables with campaigns := db.campaigns ++ [c.fresh] }) :
    CeilingInv db' := by
  have hnil := resultsOf_fresh hdb
  have hchecks := db'.valid.campaign_checks
  rw [hdb] at hchecks
  constructor
  · intro x hx hm
    rw [hdb] at hx
    rcases List.mem_append.mp hx with hx | hx
    · exact hp.within x hx hm
    · -- a new campaign has spent nothing, and its limits are positive
      have hck := hchecks x (List.mem_append_right _ hx)
      rw [List.mem_singleton] at hx
      subst hx
      simp only [Campaign.constraints, Bool.and_eq_true, decide_eq_true_eq] at hck
      obtain ⟨⟨⟨⟨⟨⟨_, hcalls⟩, _⟩, hcost⟩, _⟩, _⟩, _⟩ := hck
      exact ⟨le_of_lt hcalls, le_of_lt hcost⟩
  · intro x hx r hr hcr
    rw [hdb] at hx hr
    rcases List.mem_append.mp hx with hx | hx
    · exact hp.idle x hx r hr hcr
    · rw [List.mem_singleton] at hx
      subst hx
      have hmem : r ∈ db.toTables.resultsOf c.fresh.id := by
        simp only [Tables.resultsOf, List.mem_filter, decide_eq_true_eq]
        exact ⟨hr, hcr⟩
      rw [hnil] at hmem
      simp at hmem

theorem ceilingInv_rows {op : Op} {c c' : Campaign} {r r' : RunResult} (hp : CeilingInv db)
    (hc : c ∈ db.campaigns) (hr : r ∈ db.results) (hcr : r.campaignId = c.id)
    (hch : Change op now c r c' r')
    (hfits : r.reservationState = .active → c.Pausing → ∀ usage ∈ op.usage c, c.Fits r usage)
    (hdb : db'.toTables = db.toTables.put c' r') : CeilingInv db' := by
  have hf := hch.framed
  constructor
  · intro x hx hm
    rw [hdb] at hx
    rcases (mem_put_campaigns hc hf.id).mp hx with rfl | ⟨hx, _⟩
    · exact change_withinLimits hch (hp.idle c hc r hr hcr) hfits (hp.within c hc) hm
    · exact hp.within x hx hm
  · intro x hx y hy hxy hst
    rw [hdb] at hx hy
    rcases (mem_put_campaigns hc hf.id).mp hx with rfl | ⟨hx, hne⟩
    · obtain ⟨hcreated, hkeep⟩ := change_idle hch hst
      rcases (mem_put_results hr hf.same.id).mp hy with rfl | ⟨hy, _⟩
      · exact hkeep (hp.idle c hc r hr hcr hcreated)
      · exact hp.idle c hc y hy (hxy.trans hf.id) hcreated
    · rcases (mem_put_results hr hf.same.id).mp hy with rfl | ⟨hy, _⟩
      · -- the rewritten result belongs to another campaign
        rw [hf.same.campaignId, hcr] at hxy
        exact absurd hxy.symm hne
      · exact hp.idle x hx y hy hxy hst

theorem ceilingInv_effect {op : Op} {w : World} {now : Time}
    (hok : FittingPauses w (.transact now op)) (he : Effect ports op now w.db db')
    (hp : CeilingInv w.db) : CeilingInv db' := by
  cases he with
  | idle hdb => exact hdb ▸ hp
  | added hdb => exact ceilingInv_added hp hdb
  | materialized hc _ _ _ hdb =>
      have hcamp := congrArg Tables.campaigns hdb
      refine ceilingInv_putCampaign hp hc hcamp (by rfl) (by rfl) (by rfl) id id ?_
      intro r' hr'
      rw [hdb] at hr'
      rcases List.mem_append.mp hr' with hr' | hr'
      · exact .inl ⟨r', hr', rfl, id⟩
      · obtain ⟨id, caseId, repetition, ordinal, hash, selected, rfl⟩ := mem_materializeRunPlans hr'
        exact .inr rfl
  | moved hc hm _ hdb =>
      refine ceilingInv_putCampaign hp hc (congrArg Tables.campaigns hdb) hm.id hm.limits
        hm.ledger (mayRun_of_moved hm) (fun hst => absurd hst hm.ne_created) ?_
      intro r' hr'
      rw [hdb] at hr'
      exact .inl ⟨r', hr', rfl, id⟩
  | skipped hc _ hdb =>
      have hcamp := congrArg Tables.campaigns hdb
      refine ceilingInv_putCampaign hp hc hcamp (by rfl) (by rfl) (by rfl) id id ?_
      intro r' hr'
      rw [hdb] at hr'
      obtain ⟨o, ho, rfl⟩ := List.mem_map.mp hr'
      refine .inl ⟨o, ho, ?_, ?_⟩
      · split <;> rfl
      · split <;> exact id
  | rows hc hr hcr htarget _ hch hdb =>
      refine ceilingInv_rows hp hc hr hcr hch ?_ hdb
      intro hactive hpause usage hu
      refine hok _ hc _ hr ?_ hactive hpause usage hu
      -- a transaction that settles names its rows
      cases htgt : op.target with
      | some x => rw [htarget x htgt]
      | none => cases op <;> simp [Op.target] at htgt <;> simp [Op.usage] at hu

end Effects

/--
**The ceiling holds while pauses fit.** In every run in which what is settled during a
pause fits into the limits, a running campaign has observed, possibly billed and
reserved no more calls than its admission ceiling and no more cost than its stop
threshold.
-/
theorem ceiling_while_pauses_fit {d : Orchestration.Deployment} {w : World}
    (h : ReachableBy d FittingPauses w) {c : Campaign} (hc : c ∈ w.db.campaigns)
    (hrun : c.status = .running) :
    c.ledger.totalCalls ≤ c.limits.providerCallAdmissionCeiling
      ∧ c.ledger.totalCost ≤ c.limits.estimatedCostStopThreshold := by
  have hinv : CeilingInv w.db := by
    refine tables_invariant (P := CeilingInv) ceilingInv_empty ?_ h
    intro w now op db' hok he hp
    exact ceilingInv_effect hok he hp
  exact hinv.within c hc (.inr (.inl hrun))

instance (c : Campaign) : Decidable c.Pausing := inferInstanceAs (Decidable (_ ∨ _))

instance (c : Campaign) (r : RunResult) (usage : SettlementUsage) : Decidable (c.Fits r usage) :=
  inferInstanceAs (Decidable (_ ∧ _))

instance (w : World) (label : Label) : Decidable (FittingPauses w label) := by
  cases label with
  | transact now op => unfold FittingPauses; infer_instance
  | _ => exact isTrue trivial

namespace Sample

/-- One call at a given cost. -/
def outcome (cost : Nat) : CollectionOutcome where
  sourceSnapshotDigest := digest
  collectorSchemaVersion := "collector"
  sourceTerminalAt := seconds 3
  metrics := {
    actualMode := "FAST", runStatus := "CANCELLED", answerQuality := "NONE", latencyMs := 1
    factTotal := 1, factCovered := 0, traceabilityViolationCount := 0, goldAssertionTotal := 0
    queryPollutionCount := 0, modelCallCount := 1 }
  usage := { observedProviderCalls := 1, promptTokens := 1, completionTokens := 1
             observedEstimatedCost := cost }
  degraded := false
  errorClass := none
  errorCode := none
  failedPhase := none
  errorSignalFlags := []

/-- A unit whose run is over is collected. -/
def collection (cost : Nat) : List Action := [
  .transact (seconds 5) fun _ => some (.claimCollection campaignId "collector" (seconds 60) []),
  .transact (seconds 6) fun w => w.collections.getLast?.map (.persist · (outcome cost))]

/-- Two units are submitted; the campaign is paused, drained and resumed. -/
def pausedAndResumed (cost : Nat) : List Action :=
  started ++ submitted 0 ++ submitted 1 ++ [
    .transact (seconds 3) fun _ => some (.mutate (some owner) campaignId
      (.requestStop .pause "operator_interrupt")),
    .service (.cancel (Orchestration.sampleEnv 30) ((Orchestration.sampleEnv 11).ids 2)),
    .service (.cancel (Orchestration.sampleEnv 31) ((Orchestration.sampleEnv 13).ids 2))]
  ++ collection cost ++ collection cost ++ [
    .transact (seconds 7) fun _ => some (.mutate none campaignId (.settleStop (seconds 7))),
    .transact (seconds 8) fun _ => some (.mutate (some owner) campaignId (.resume (seconds 8)))]

/-- Two runs at 0.001 USD each. -/
def fittingRun : {actions : List Action // (perform deployment FittingPauses actions).any (fun w =>
    w.db.campaigns.any fun c => c.status = .running && c.counts.collected = 2) = true} :=
  ⟨pausedAndResumed 10000000, by decide +kernel⟩

/-- Two runs at 0.006 USD each. -/
def exceedingRun : {actions : List Action // (perform deployment (fun _ _ => True) actions).any
    (fun w => w.db.campaigns.any fun c => c.status = .running
      && c.limits.estimatedCostStopThreshold < c.ledger.totalCost) = true} :=
  ⟨pausedAndResumed 60000000, by decide +kernel⟩

end Sample

/-- Two runs at 0.001 USD each, collected while the campaign pauses: it runs on within limits. -/
theorem ceiling_while_pauses_fit_sample :
    ∃ w, ReachableBy Sample.deployment FittingPauses w ∧ ∃ c ∈ w.db.campaigns,
      c.status = .running ∧ c.counts.collected = 2 ∧
      (c.ledger.totalCalls ≤ c.limits.providerCallAdmissionCeiling
        ∧ c.ledger.totalCost ≤ c.limits.estimatedCostStopThreshold) := by
  obtain ⟨w, hr, hp⟩ := exists_reachable Sample.deployment FittingPauses
    Sample.fittingRun.1
    (fun w => w.db.campaigns.any fun c => c.status = .running && c.counts.collected = 2)
    Sample.fittingRun.2
  simp only [List.any_eq_true, Bool.and_eq_true, decide_eq_true_eq] at hp
  obtain ⟨c, hc, hrun, hcol⟩ := hp
  exact ⟨w, hr, c, hc, hrun, hcol, ceiling_while_pauses_fit hr hc hrun⟩

/--
Two runs that reserved 0.002 USD each and cost 0.006 USD each are collected while the
campaign pauses. It is resumed and runs with 0.012 USD observed and a threshold of
0.01 USD.
-/
theorem ceiling_exceeded : ∃ w, Reachable Sample.deployment w ∧
    ∃ c ∈ w.db.campaigns, c.status = .running
      ∧ c.limits.estimatedCostStopThreshold < c.ledger.totalCost := by
  obtain ⟨w, hr, hp⟩ := exists_reachable Sample.deployment (fun _ _ => True)
    Sample.exceedingRun.1
    (fun w => w.db.campaigns.any fun c => c.status = .running
      && c.limits.estimatedCostStopThreshold < c.ledger.totalCost) Sample.exceedingRun.2
  simp only [List.any_eq_true, Bool.and_eq_true, decide_eq_true_eq] at hp
  exact ⟨w, hr, hp⟩

end Sana.Shadow
