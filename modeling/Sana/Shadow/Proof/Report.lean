import Sana.Shadow.Proof.Effect
import Sana.Shadow.Proof.Lifecycle

/-!
# Binding the final report

The report path writes the status of a campaign itself. It looks at the stop intent and
at little else, so whether the change is one the lifecycle knows, and whether the row it
leaves can be loaded again, is decided by the row it finds.
-/

namespace Sana.Shadow

open Sana.Lib

section Binding

variable {db db' : Db} {now : Time} {b : FinalReportBinding} {current : String} {c c' : Campaign}

/-- The status changed as the lifecycle allows, if at all, and the row can be loaded again. -/
structure Campaign.Agrees (c c' : Campaign) : Prop where
  edge : c'.status ≠ c.status → c'.status ∈ c.status.targets
  loads : ∃ l, c'.rehydrate = .ok l

/--
The rows a first report may be bound to: a campaign that was aborted; one that is to be
aborted and is not running; one that has started and is to be completed. It has not
ended before it started.
-/
def Campaign.mayFinalize (c : Campaign) (now : Time) : Bool :=
  (c.startedAt.all (· ≤ c.completedAt.getD now)) && (c.status = .aborted
    || if c.stopIntent = .none then
        c.startedAt.isSome && c.status ∈ [.running, .stopping, .awaitingReview]
      else c.status ∈ [.created, .stopping, .awaitingReview])

/-- A report that is bound already is left alone; else the row has to be one of those. -/
def Campaign.mayBind (c : Campaign) (now : Time) : Prop :=
  if c.finalReport.isSome then ∃ l, c.rehydrate = .ok l else c.mayFinalize now = true

theorem rehydrate_iff : (∃ l, c.rehydrate = .ok l) ↔ c.lifecycle.Valid := by
  rw [← CampaignLifecycle.validateLoadedState_iff]
  unfold Campaign.rehydrate
  constructor
  · rintro ⟨l, h⟩
    obtain ⟨_, h, _⟩ := bind_ok_iff.mp h
    exact h
  · intro h
    exact ⟨_, bind_ok_iff.mpr ⟨(), h, rfl⟩⟩

theorem terminalStatus_eq {s : CampaignStatus} (h : c.terminalStatus = .ok s) :
    c.status ≠ .paused ∧ c.stopIntent ≠ .pause ∧ c.status ≠ .completed ∧
      s = if c.status = .aborted ∨ c.stopIntent ≠ .none then .aborted else .completed := by
  simp only [Campaign.terminalStatus, bind_ok_iff, check_eq_ok, Bool.not_eq_true',
    Bool.or_eq_false_iff, decide_eq_false_iff_not, decide_eq_true_eq] at h
  obtain ⟨_, ⟨hpaused, hpause⟩, _, hcompleted, h⟩ := h
  refine ⟨hpaused, hpause, hcompleted, ?_⟩
  split at h <;> rename_i hif <;> rw [pure_ok_iff] at h
  · rw [if_pos hif, h]
  · rw [if_neg hif, h]

theorem counters_of_constraints (h : c.constraints = true) :
    1 ≤ c.maxRuns ∧ 0 ≤ c.counts.planned ∧ c.counts.planned ≤ c.maxRuns := by
  simp only [Campaign.constraints, List.all_cons, List.all_nil, Bool.and_eq_true,
    decide_eq_true_eq] at h
  omega

/-- A finalized row loads if a completed campaign has a start and none ends before it. -/
theorem finalized_loads_iff (hc : c.constraints = true) (hgate : b.gateStatus ≠ .pending)
    {s : CampaignStatus} (hs : s = .completed ∨ s = .aborted) :
    (∃ l, (c.finalized s b now).rehydrate = .ok l) ↔
      (s = .completed → c.startedAt.isSome = true) ∧
        (c.startedAt.all (· ≤ c.completedAt.getD now)) = true := by
  rw [rehydrate_iff]
  have hne : s ≠ .created ∧ s ≠ .stopping ∧ s ≠ .awaitingReview := by
    rcases hs with rfl | rfl <;> decide
  constructor
  · intro h
    refine ⟨fun hcomp => ?_, ?_⟩
    · exact h.started hne.1 (by simp [Campaign.lifecycle, Campaign.finalized, hcomp])
    · rw [Option.all_eq_true]
      intro start hstart
      exact decide_eq_true (h.forwards start hstart _ rfl)
  · rintro ⟨hstart, hforward⟩
    rw [Option.all_eq_true] at hforward
    refine ⟨counters_of_constraints hc, fun h => absurd h hne.1, ?_, fun h => absurd h hne.2.1,
      fun h => absurd h hne.2.2, ?_, fun _ => hgate, ?_⟩
    · intro _ hab
      exact hstart (hs.resolve_right hab)
    · rcases hs with rfl | rfl <;> rfl
    · intro start hmem e he
      cases he
      exact of_decide_eq_true (hforward start hmem)

/-- **A first report agrees with the lifecycle on the rows that may be finalized, and on no other.** -/
theorem finalized_agrees_iff (hc : c.constraints = true) (hgate : b.gateStatus ≠ .pending)
    {s : CampaignStatus} (hs : c.terminalStatus = .ok s) :
    c.Agrees (c.finalized s b now) ↔ c.mayFinalize now = true := by
  have hload : (∃ l, (c.finalized s b now).rehydrate = .ok l) ↔ _ :=
    finalized_loads_iff hc hgate (terminalStatus_ok hs)
  obtain ⟨hpaused, hpause, hcompleted, heq⟩ := terminalStatus_eq hs
  have hagree : c.Agrees (c.finalized s b now) ↔
      (s ≠ c.status → s ∈ c.status.targets) ∧ (s = .completed → c.startedAt.isSome = true) ∧
        (c.startedAt.all (· ≤ c.completedAt.getD now)) = true := by
    rw [← hload]
    exact ⟨fun h => ⟨h.edge, h.loads⟩, fun h => ⟨h.1, h.2⟩⟩
  rw [hagree, Campaign.mayFinalize, Bool.and_eq_true]
  -- what is left is which of the two ends the row's status and intent lead to
  by_cases hab : c.status = .aborted
  · rw [if_pos (.inl hab)] at heq
    simp [heq, hab]
  by_cases hintent : c.stopIntent = .none
  · rw [if_neg (by simp [hab, hintent])] at heq
    cases hst : c.status <;>
      simp_all [CampaignStatus.targets]
    all_goals
      exact and_comm
  · rw [if_pos (.inr hintent)] at heq
    cases hst : c.status <;> simp_all [CampaignStatus.targets]

end Binding

/-! ## The result -/

/--
**A bound report respects the lifecycle where the row it finds allows it, and nowhere else.**
-/
theorem bound_report_agrees {db db' : Db} {now : Time} {b : FinalReportBinding} {current : String}
    (h : bindReport db now b current = .ok db') :
    ∃ c ∈ db.campaigns, c.id = b.campaignId ∧ ∃ c' ∈ db'.campaigns, c'.id = b.campaignId ∧
      (c.Agrees c' ↔ c.mayBind now) := by
  obtain ⟨c, hc, hid, ⟨hsome, rfl⟩ | ⟨s, hnone, hgate, -, hs, hdb⟩⟩ := bindReport_ok h
  · -- the very report is bound: nothing is written
    refine ⟨c, hc, hid, c, hc, hid, ?_⟩
    rw [Campaign.mayBind, if_pos hsome]
    exact ⟨fun h => h.loads, fun h => ⟨fun hne => absurd rfl hne, h⟩⟩
  · refine ⟨c, hc, hid, c.finalized s b now, ?_, hid, ?_⟩
    · rw [hdb]
      refine (mem_putCampaign hc ?_).mpr (.inl rfl)
      rfl
    · rw [Campaign.mayBind, hnone]
      exact finalized_agrees_iff (db.valid.campaign_checks c hc) hgate hs

/-! ## A report before the start -/

namespace Sample

/-- The campaign of a candidate that was built from modified sources. -/
def dirtyCampaign : Campaign := { campaign with candidateSourceClean := false }

/-- The report on the campaign as it was just created: the gate has failed. -/
def earlyBinding : FinalReportBinding where
  campaignId := campaignId
  ownerUserId := owner
  expectedCampaignStatus := .created
  expectedCampaignVersion := 0
  gateStatus := .fail
  finalizationReason := "fatal_safety"
  report := ⟨digest, digest, digest, digest⟩

/-- A report on a campaign that has run. -/
def lateBinding : FinalReportBinding :=
  { earlyBinding with expectedCampaignStatus := .running, expectedCampaignVersion := 2 }

/-- The tables after a list of steps, and after a report is bound there. -/
def bindAfter (actions : List Action) (now : Time) (b : FinalReportBinding) : Option (Db × Db) :=
  (perform deployment (fun _ _ => True) actions).bind fun w =>
    (bindReport w.db now b digest).toOption.map fun db' => (w.db, db')

end Sample

/-- A report on a running campaign leaves a row that can be loaded. -/
theorem bound_report_agrees_sample : ∃ db db' : Db,
    bindReport db (seconds 9) Sample.lateBinding Sample.digest = .ok db' ∧
      ∃ c ∈ db.campaigns, c.id = Sample.campaignId ∧ ∃ c' ∈ db'.campaigns,
        c'.id = Sample.campaignId ∧ (c.Agrees c' ↔ c.mayBind (seconds 9)) := by
  have hsome : (Sample.bindAfter Sample.started (seconds 9) Sample.lateBinding).isSome = true := by
    decide +kernel
  obtain ⟨⟨db, db'⟩, h⟩ := Option.isSome_iff_exists.mp hsome
  obtain ⟨w, _, h⟩ := Option.bind_eq_some_iff.mp h
  obtain ⟨_, hbind, heq⟩ := Option.map_eq_some_iff.mp h
  cases heq
  have hok := Orchestration.toOption_eq_some hbind
  exact ⟨_, _, hok, bound_report_agrees hok⟩

/--
A campaign whose candidate was built from modified sources is created. Its report is
final at once, for safety; binding it takes the campaign from CREATED to COMPLETED.
-/
theorem report_bound_before_start : ∃ w, Reachable Sample.deployment w ∧
    ∃ c ∈ w.db.campaigns,
      finalizationState c (w.db.resultsOf c.id) (seconds 9)
        (hardViolations c (w.db.resultsOf c.id) [] fun _ => none) {} = some "fatal_safety" ∧
      ∃ db', bindReport w.db (seconds 9) Sample.earlyBinding Sample.digest = .ok db' ∧
        ∃ c' ∈ db'.campaigns, c'.id = c.id ∧ ¬ c.Agrees c' := by
  obtain ⟨w, hr, hp⟩ := exists_reachable Sample.deployment (fun _ _ => True)
    [.transact 1 fun _ => some (.add Sample.dirtyCampaign)]
    (fun w => w.db.campaigns.any fun c =>
      finalizationState c (w.db.resultsOf c.id) (seconds 9)
        (hardViolations c (w.db.resultsOf c.id) [] fun _ => none) {} = some "fatal_safety" &&
      (bindReport w.db (seconds 9) Sample.earlyBinding Sample.digest).toOption.any fun db' =>
        db'.campaigns.any fun c' =>
          c'.id = c.id && c.status = .created && c'.status = .completed)
    (by decide +kernel)
  simp only [List.any_eq_true, Bool.and_eq_true, decide_eq_true_eq, Option.any_eq_true] at hp
  obtain ⟨c, hc, hfinal, db', hbind, c', hc', ⟨hid, hst⟩, hst'⟩ := hp
  refine ⟨w, hr, c, hc, hfinal, db', Orchestration.toOption_eq_some hbind, c', hc', hid, ?_⟩
  intro h
  have hedge := h.edge (by simp [hst, hst'])
  simp [hst, hst', CampaignStatus.targets] at hedge

end Sana.Shadow
