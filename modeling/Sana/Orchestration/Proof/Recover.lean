import Sana.Orchestration.Proof.Seal
import Sana.Orchestration.Proof.Total

/-!
# A live step is never lost

A READY step has a message that was not published yet, or the reconciler will find it
once its grace period is over; a retry is found when it is due, and a running step when
the lease of its open attempt has run out. What the reconciler finds it can release,
and what it has released can be claimed: neither transaction raises, because the rows
it loads were written by the workflow, the coordinator finds the plan and can read what
it needs, and the identifiers it draws are new.
-/

namespace Sana.Orchestration

open Sana.Lib

/-! ## What recovery relies on -/

section Relying

variable {who : Actor} {db db' : Db} {d : Deployment} {w w' : World}

/-- Runs can be loaded, retries have a time, and nothing comes after the plan without it. -/
structure Resumable (db : Db) : Prop where
  sound : ∀ r ∈ db.runs, r.Sound
  waiting : ∀ s ∈ db.steps, s.status = .retryWait → s.retryAt.isSome = true
  planned : ∀ s ∈ db.steps, 2 ≤ s.stepType.level →
    ∃ p ∈ db.steps, p.runId = s.runId ∧ p.stepKey = "plan" ∧ p.status = .succeeded

theorem Resumable.congr (h : Resumable db) (hsteps : db'.steps = db.steps)
    (hsound : ∀ r ∈ db'.runs, r.Sound) : Resumable db' := by
  obtain ⟨-, hw, hp⟩ := h
  rw [← hsteps] at hw hp
  exact ⟨hsound, hw, hp⟩

/-- A run's row is written soundly. -/
theorem Resumable.sound_of_update (h : Resumable db) {run run' : SearchRun} (hmem : run ∈ db.runs)
    (hkept : run.Kept run') (hruns : db'.runs = update (·.id) run.id (fun _ => run') db.runs) :
    ∀ r ∈ db'.runs, r.Sound := by
  intro r hr
  rw [hruns, mem_update_iff db.valid.pk_runs hmem] at hr
  rcases hr with rfl | ⟨hr, -⟩
  · exact hkept.sound (h.sound run hmem)
  · exact h.sound r hr

/-- A plan that has succeeded stays. -/
theorem Resumable.planned_move {cur cur' : SearchStep} {run run' : SearchRun}
    {new : List SearchStep} (h : Resumable db) (hsh : Shape db.toTables)
    (m : Move who db db' cur cur' run run' new) {s : SearchStep} (hs : s ∈ db'.steps)
    (hlevel : 2 ≤ s.stepType.level) :
    ∃ p ∈ db'.steps, p.runId = s.runId ∧ p.stepKey = "plan" ∧ p.status = .succeeded := by
  have old : ∀ x ∈ db.steps, 2 ≤ x.stepType.level → x.runId = s.runId →
      ∃ p ∈ db'.steps, p.runId = s.runId ∧ p.stepKey = "plan" ∧ p.status = .succeeded := by
    intro x hx hxl hxr
    obtain ⟨p, hp, hprun, hkey, hst⟩ := h.planned x hx hxl
    have hterm : p.isTerminal = true := by simp [SearchStep.isTerminal, hst, StepStatus.isTerminal]
    exact ⟨p, m.mem_of_terminal hp hterm, hprun.trans hxr, hkey, hst⟩
  rcases m.mem_steps.mp hs with rfl | ⟨hold, -⟩ | hnew
  · exact old cur m.cur_mem (by rw [← m.same.stepType]; exact hlevel) m.same.runId.symm
  · exact old s hold hlevel rfl
  · have hsched := m.sched s hnew
    have hrun : cur.runId = s.runId := m.run_id.symm.trans hsched.runId.symm
    rcases hsched.planned hlevel with hl | ⟨hplan, hst⟩
    · exact old cur m.cur_mem (by rw [← m.same.stepType]; exact hl) hrun
    · -- the plan itself has just succeeded
      have hkey := hsh.key cur m.cur_mem
      rw [← m.same.stepType, hplan] at hkey
      exact ⟨cur', m.mem_steps.mpr (.inl rfl), m.same.runId.trans hrun, m.same.stepKey.trans hkey,
        hst⟩

theorem Resumable.effect (h : Resumable db) (hsh : Shape db.toTables) (he : Effect who db db') :
    Resumable db' := by
  cases he with
  | idle hsteps hruns => exact h.congr hsteps (by rw [hruns]; exact h.sound)
  | renewed _ _ _ _ _ _ hsteps hruns => exact h.congr hsteps (by rw [hruns]; exact h.sound)
  | runWritten run run' hmem _ _ hsteps hruns _ hkept =>
      exact h.congr hsteps (h.sound_of_update hmem hkept hruns)
  | submitted rows route hsub =>
      refine ⟨?_, ?_, ?_⟩
      · intro r hr
        rw [hsub.runs, List.mem_append, List.mem_singleton] at hr
        rcases hr with hr | rfl
        · exact h.sound r hr
        · exact hsub.linked.run_sound
      · intro s hs hst
        rw [hsub.steps, List.mem_append, List.mem_singleton] at hs
        rcases hs with hs | rfl
        · exact h.waiting s hs hst
        · rw [hsub.ready] at hst
          cases hst
      · intro s hs hlevel
        rw [hsub.steps, List.mem_append, List.mem_singleton] at hs
        rcases hs with hs | rfl
        · obtain ⟨p, hp, hprun, hkey, hst⟩ := h.planned s hs hlevel
          exact ⟨p, by rw [hsub.steps]; exact List.mem_append_left _ hp, hprun, hkey, hst⟩
        · rw [hsub.stepType] at hlevel
          simp [StepType.level] at hlevel
  | moved cur cur' run run' new m =>
      refine ⟨h.sound_of_update m.run_mem m.orderly.ran.toKept m.runs, ?_, ?_⟩
      · intro s hs hst
        rcases m.mem_steps.mp hs with rfl | ⟨hold, -⟩ | hnew
        · exact m.orderly.retry hst
        · exact h.waiting s hold hst
        · rw [(m.sched s hnew).status] at hst
          cases hst
      · intro s hs hlevel
        exact h.planned_move hsh m hs hlevel

theorem resumable_reachable (hr : Reachable d w) : Resumable w.db := by
  refine hr.invariant_of (P := fun w => Resumable w.db) (Q := WInv) (fun _ => winv_reachable) ?_ ?_
  · intro s hs
    subst hs
    exact ⟨by simp [World.init, Db.empty], by simp [World.init, Db.empty],
      by simp [World.init, Db.empty]⟩
  · intro s t hi h hs
    obtain ⟨who, he, -⟩ := step_effect hi hs
    exact h.effect hi.shape he

/-- Every output can be read. -/
def Readable (ports : Ports) (db : Db) : Prop :=
  ∀ s ∈ db.steps, ∀ ref, s.outputRef = some ref → ∃ p, ports.artifacts ref = some p

/-- A report's output was read before the report was committed. -/
theorem Readable.saved {c : ClaimedStep} (h : Readable d.ports w.db) (hsaved : Saved d w c w') :
    Readable d.ports w'.db := by
  intro s hs ref href
  cases hsaved with
  | stale _ hdb => exact h s (hdb ▸ hs) ref href
  | saved _ cur step now new hcur _ _ _ hsteps hnew hout =>
      rw [hsteps, List.mem_append, mem_update] at hs
      rcases hs with (⟨x, -, -, rfl⟩ | ⟨hold, -⟩) | hin
      · have hstep : step.outputRef = some ref := href
        rcases hout with hsame | ⟨ref', p, href', hp⟩
        · exact h cur hcur ref (hsame ▸ hstep)
        · rw [href', Option.some.injEq] at hstep
          exact ⟨p, hstep ▸ hp⟩
      · exact h s hold ref href
      · rw [hnew s hin] at href
        cases href

theorem Readable.step (h : Readable d.ports w.db) (hi : WInv w) (hs : Step d w w') :
    Readable d.ports w'.db := by
  obtain ⟨who, he, hreport⟩ := step_effect hi hs
  cases he with
  | idle hsteps => exact fun s hs => h s (hsteps ▸ hs)
  | runWritten _ _ _ _ _ hsteps => exact fun s hs => h s (hsteps ▸ hs)
  | renewed _ _ _ _ _ _ hsteps => exact fun s hs => h s (hsteps ▸ hs)
  | submitted rows route hsub =>
      intro s hs ref href
      rw [hsub.steps, List.mem_append, List.mem_singleton] at hs
      rcases hs with hs | rfl
      · exact h s hs ref href
      · rw [hsub.output] at href
        cases href
  | moved cur cur' run run' new m =>
      -- only a report writes an output
      have quiet : cur'.status ≠ .succeeded → Readable d.ports w'.db := by
        intro hst s hs ref href
        rcases m.mem_steps.mp hs with rfl | ⟨hold, -⟩ | hnew
        · exact absurd (m.output.mpr (by rw [href]; rfl)) hst
        · exact h s hold ref href
        · rw [(m.sched s hnew).outputRef] at href
          cases href
      cases m.attempts with
      | opened _ _ hrun => exact quiet (by simp [hrun])
      | skipped _ hend => exact quiet (by rcases hend with he | he <;> simp [he])
      | due _ hready => exact quiet (by simp [hready])
      | expired _ _ _ hready => exact quiet (by simp [hready])
      | dispatched _ hready => exact quiet (by simp [hready])
      | finished c limit =>
          obtain ⟨hc, hrep⟩ := hreport c limit rfl
          exact h.saved (report_saved hi hc hrep)

theorem readable_reachable (hr : Reachable d w) : Readable d.ports w.db := by
  refine hr.invariant_of (P := fun w => Readable d.ports w.db) (Q := WInv)
    (fun _ => winv_reachable) ?_ fun _ _ hi h hs => h.step hi hs
  intro s hs
  subst hs
  simp [Readable, World.init, Db.empty]

end Relying

/-! ## Claiming a READY step -/

section Claiming

variable {d : Deployment} {w : World} {s : SearchStep} {r : SearchRun} {env : Env}

/-- A transaction that has staged nothing. -/
theorem Prepared.begin (db : Db) : Prepared db (Uow.begin db) none none none :=
  ⟨rfl, rfl, rfl, rfl, rfl, rfl, rfl, rfl, rfl, rfl, rfl, rfl, rfl, rfl⟩

/-- The step and the run as a claim loads them. -/
theorem loaded_ready (hs : s ∈ w.db.steps) (hrm : r ∈ w.db.runs) (hrid : r.id = s.runId) :
    Loaded w.db { r with persistedVersion := r.version } r s
      { s with persistedVersion := s.version } where
  mem := hs
  same := ⟨rfl, rfl, rfl, rfl, rfl, rfl⟩
  status := rfl
  outputRef := rfl
  run_mem := hrm
  run_ran := ⟨⟨rfl, rfl, rfl, rfl, rfl, rfl, fun h => h, fun _ => rfl⟩, rfl, rfl, rfl, rfl⟩
  run_status := rfl
  run_usage := rfl
  run_id := hrid

/-- A READY step that is started and failed at once. -/
theorem start_fail_total (step : SearchStep) (hready : step.status = .ready) :
    ∃ s₁ s₂, step.start = .ok s₁ ∧ s₁.fail = .ok s₂ ∧ s₂.status = .failed ∧ s₂.id = step.id ∧
      s₂.persistedVersion = step.persistedVersion := by
  obtain ⟨s₁, h₁, hst, hid, hv⟩ := SearchStep.start_total hready
  refine ⟨s₁, { s₁ with status := .failed, version := s₁.version + 1 }, h₁, ?_, rfl, hid, hv⟩
  exact SearchStep.transition_eq (by simp [hst, StepStatus.transitions])

theorem claimPastHardDeadline_total (hs : s ∈ w.db.steps) (hready : s.status = .ready)
    (hrm : r ∈ w.db.runs) (hopen : r.isTerminal = false) (hfresh : env.Fresh w.db.toTables 3) :
    ∃ out, claimPastHardDeadline env w.db { s with persistedVersion := s.version }
      { r with persistedVersion := r.version } = .ok out := by
  obtain ⟨s₁, s₂, h₁, h₂, -, hid, hv⟩ :=
    start_fail_total { s with persistedVersion := s.version } hready
  obtain ⟨r', hr', hrid, hrv, -⟩ := SearchRun.fail_total
    (r := { r with persistedVersion := r.version }) hopen .timeBudget (by simp) (by simp)
    env.now
  obtain ⟨db', hdb⟩ := saveAndCommit_total env "STEP_DEADLINE_EXCEEDED"
    (stepPayload s₂) (Prepared.begin w.db) hs hid hv hrm hrid hrv (by constructor <;> simp)
    (hfresh.events 0 (by omega))
  refine ⟨(.skipped .failed, db'), ?_⟩
  simp only [claimPastHardDeadline, h₁, h₂, hr', hdb, bind, Except.bind]
  rfl

theorem claimPastPhaseDeadline_total (hr : Reachable d w) (hs : s ∈ w.db.steps)
    (hready : s.status = .ready) (hrm : r ∈ w.db.runs) (hrid : r.id = s.runId)
    (hopen : r.isTerminal = false) (hfresh : env.Fresh w.db.toTables 3) :
    ∃ out, claimPastPhaseDeadline d.ports env w.db { s with persistedVersion := s.version }
      { r with persistedVersion := r.version } = .ok out := by
  have hsh := (winv_reachable hr).shape
  obtain ⟨r₁, hr₁, hrv⟩ := startOrResume_total env
    (r := { r with persistedVersion := r.version }) hopen
  obtain ⟨hran, hropen, -⟩ := startOrResume_ok hr₁
  obtain ⟨s₁, s₂, h₁, h₂, hst, hid, hv⟩ :=
    start_fail_total { s with persistedVersion := s.version } hready
  have e := (loaded_ready hs hrm hrid).ending_failed hsh h₁ h₂ hran.id
  have hrun : r₁.id = s.runId := hran.id.trans hrid
  have ha : 2 ≤ s.stepType.level → Advisable d.ports w.db r₁ := by
    intro hlevel
    obtain ⟨p, hp, hprun, hkey, hpst⟩ := (resumable_reachable hr).planned s hs hlevel
    exact ⟨⟨p, hp, hprun.trans hrun.symm, hkey, hpst⟩, readable_reachable hr⟩
  obtain ⟨u, r₂, hfail, hrid₂, hrv₂, hdrawn, newStep, message, hp, hnew⟩ :=
    onFailure_total e (by simp [hst]) (hropen hopen) ha
      ⟨fun i hi => hfresh.steps i (by omega), fun i hi => hfresh.attempts i (by omega),
        fun i hi => hfresh.events i (by omega), fun i hi => hfresh.outbox i (by omega)⟩
      (labelled_reachable hr) ⟨r, hrm, hran.id.symm⟩ phaseDeadlineExceeded
  obtain ⟨db', hdb⟩ := saveAndCommit_total env "STEP_PHASE_DEADLINE_EXCEEDED"
    (stepPayload s₂ ++ [("phase", .text (phaseForStep s₂.stepType).value)]) hp hs hid hv hrm
    (hrid₂.trans hran.id) (hrv₂.trans hrv) hnew (hfresh.events u.drawn (by omega))
  refine ⟨(.skipped .failed, db'), ?_⟩
  simp only [claimPastPhaseDeadline, hr₁, h₁, h₂, hfail, hdb, bind, Except.bind]
  rfl

theorem claimLease_total (hs : s ∈ w.db.steps) (hready : s.status = .ready) (hrm : r ∈ w.db.runs)
    (hopen : r.isTerminal = false) (hfresh : env.Fresh w.db.toTables 3) {worker : String}
    (hworker : Text.isBlank worker = false)
    (hearly : env.now < r.budget.deadlineFor (phaseForStep s.stepType)) :
    ∃ out, claimLease d.cfg env w.db { s with persistedVersion := s.version }
      { r with persistedVersion := r.version } worker = .ok out := by
  obtain ⟨r₁, hr₁, hrv⟩ := startOrResume_total env
    (r := { r with persistedVersion := r.version }) hopen
  have hran := (startOrResume_ok hr₁).1
  obtain ⟨s₁, attempt, hclaim, hid, hv, haid, hastep, hano⟩ := LeaseService.claim_total
    (env.ids 0) (w.db.nextAttemptNo s.id)
    (show SearchStep.status { s with persistedVersion := s.version } = .ready from hready) d.cfg.lease_valid.2 hearly hworker
  have hnew : NewKeys w.db.toTables none (some attempt) none none := by
    refine ⟨by simp, ?_, by simp, by simp⟩
    intro a ha
    obtain rfl := Option.some.inj ha
    refine ⟨?_, fun x hx heq => ?_, s, hs, hastep.symm⟩
    · rw [haid]
      exact hfresh.attempts 0 (by omega)
    · -- the number after the latest is not taken
      obtain ⟨hstep, hno⟩ := Prod.mk.inj heq
      have hle : x.attemptNo ≤ w.db.latestAttemptNo x.stepId := Tables.le_latestAttemptNo hx
      have hxs : x.stepId = s.id := hstep.trans hastep
      rw [hxs, hno, hano, Tables.nextAttemptNo] at hle
      omega
  have hp : Prepared w.db { Uow.begin w.db with newAttempts := [attempt], drawn := 1 } none
      (some attempt) none :=
    ⟨rfl, rfl, rfl, rfl, rfl, rfl, rfl, rfl, rfl, rfl, rfl, rfl, rfl, rfl⟩
  obtain ⟨db', hdb⟩ := saveAndCommit_total env "STEP_STARTED"
    (stepPayload s₁ ++ [("step_type", .text s₁.stepType.value),
      ("attempt_no", .number attempt.attemptNo)]) hp hs hid hv hrm hran.id hrv hnew
    (hfresh.events 1 (by omega))
  refine ⟨(.acquired {
    attempt, runId := s₁.runId, stepId := s₁.id
    deadlineAt := r.budget.deadlineFor (phaseForStep s.stepType) }, db'), ?_⟩
  simp only [Uow.begin] at hdb
  simp only [claimLease, hr₁, Uow.newUuid, Uow.begin, hclaim, hdb, bind, Except.bind,
    List.nil_append]
  rfl

/-- **A READY step of an open run can be claimed.** -/
theorem claim_total (hr : Reachable d w) (hs : s ∈ w.db.steps) (hready : s.status = .ready)
    (hrm : r ∈ w.db.runs) (hrid : r.id = s.runId) (hopen : r.isTerminal = false)
    (hfresh : env.Fresh w.db.toTables 3) {worker : String} (hworker : Text.isBlank worker = false) :
    ∃ res db', claim d.ports d.cfg env w.db s.id worker = .ok (res, db') := by
  have hstep := getStep_eq (winv_reachable hr).shape hs
  have hrun : w.db.getRun s.runId = .ok (some { r with persistedVersion := r.version }) := by
    rw [← hrid]
    exact getRun_eq hrm ((resumable_reachable hr).sound r hrm)
  have hopen' : SearchRun.isTerminal { r with persistedVersion := r.version } = false := hopen
  have hex : ∃ out, claim d.ports d.cfg env w.db s.id worker = .ok out := by
    unfold claim
    simp only [hstep, hrun, bind, Except.bind]
    rw [if_neg (by simp [hready]), if_neg (by simp [hopen'])]
    split
    · exact claimPastHardDeadline_total hs hready hrm hopen hfresh
    · split
      · exact claimPastPhaseDeadline_total hr hs hready hrm hrid hopen hfresh
      · rename_i hearly
        exact claimLease_total (d := d) hs hready hrm hopen hfresh hworker (not_le.mp hearly)
  obtain ⟨⟨res, db'⟩, h⟩ := hex
  exact ⟨res, db', h⟩

/-- After the claim the step is at work, or it has ended. -/
theorem claim_outcome (hr : Reachable d w) (hs : s ∈ w.db.steps) (hready : s.status = .ready)
    {worker : String} {res : ClaimResult} {db' : Db}
    (hop : claim d.ports d.cfg env w.db s.id worker = .ok (res, db')) :
    ∃ s' ∈ db'.steps, s'.id = s.id ∧ (s'.status = .running ∨ s'.isTerminal = true) := by
  have hsh := (winv_reachable hr).shape
  by_cases hstay : s ∈ db'.steps
  · exact absurd hready (claim_not_ready hsh hop hstay rfl)
  · have he := (claim_effect hsh hop).1
    generalize hwho : Actor.claimer s.id env.now = who at he
    cases he with
    | idle hsteps => exact absurd (hsteps ▸ hs) hstay
    | runWritten _ _ _ _ _ hsteps => exact absurd (hsteps ▸ hs) hstay
    | renewed _ _ _ _ _ _ hsteps => exact absurd (hsteps ▸ hs) hstay
    | submitted _ _ hsub => exact absurd (hsub.steps ▸ List.mem_append_left _ hs) hstay
    | moved cur cur' run run' new m =>
        by_cases hid : s.id = cur.id
        · refine ⟨cur', m.mem_steps.mpr (.inl rfl), m.same.id.trans hid.symm, ?_⟩
          have hatt := m.attempts
          rw [← hwho, hid] at hatt
          cases hatt with
          | opened _ _ hrun => exact .inl hrun
          | skipped _ hend =>
              right
              rcases hend with hend | hend <;> simp [SearchStep.isTerminal, hend, StepStatus.isTerminal]
        · exact absurd (m.mem_steps.mpr (.inr (.inl ⟨hs, hid⟩))) hstay

end Claiming

/-! ## Releasing what is overdue -/

section Releasing

variable {d : Deployment} {w : World} {s : SearchStep} {r : SearchRun} {env : Env} {db : Db}
  {now : Time}

theorem Grows.rfl (t : Tables) : Grows t t none none none none :=
  ⟨.refl _, .refl _, .refl _, .refl _, by simp, by simp, by simp, by simp, id, by simp,
    fun _ => ⟨.refl _, .refl _, .refl _, .refl _, .refl _⟩⟩

/-- Seal the open model calls and expire the attempts of a step: no key changes. -/
theorem grows_expire (t : Tables) (id : Uuid) (now : Time) :
    Grows t (expireAttempts (abandonExpired t id now) id now) none none none none := by
  obtain ⟨close, hclose, habandon⟩ := abandonRows_abandoned t.invocations
    (fun i => decide (i.attemptId ∈ (expiredAttempts t id now).map (·.id))) "worker_lease_expired" now
  refine ⟨rfl, rfl, rfl, rfl, (List.append_nil _).symm, ?_, (List.append_nil _).symm,
    (List.append_nil _).symm, close, hclose, ?_⟩
  · show (t.attempts.map _).map _ = _
    rw [List.map_map, Option.toList_none, List.map_nil, List.append_nil]
    refine List.map_congr_left fun a _ => ?_
    rw [Function.comp_apply]
    split <;> rfl
  · intro i
    rcases habandon i with heq | ⟨-, code, at', heq⟩ <;> rw [heq] <;> exact ⟨rfl, rfl, rfl, rfl, rfl⟩

/-- A step that is written back alone. -/
theorem saveStep_commit_total (env : Env) {t : Tables} {cur : SearchStep} (step : SearchStep)
    (hgrow : Grows db.toTables t none none none none) (hsteps : t.steps = db.steps)
    (hcur : cur ∈ db.steps) (hid : step.id = cur.id) (hv : step.persistedVersion = cur.version) :
    ∃ t' db', t.saveStep env.dbNow step = .ok t' ∧ ({ tables := t' } : Uow).commit env = .ok db' ∧
      db'.runs = t.runs ∧ SearchStep.writeTo env.dbNow step cur ∈ db'.steps := by
  let t' : Tables :=
    { t with steps := update (·.id) step.id (SearchStep.writeTo env.dbNow step) t.steps }
  have hsave : t.saveStep env.dbNow step = .ok t' :=
    saveStep_eq env.dbNow (by rw [hsteps]; exact db.valid.pk_steps) (by rw [hsteps]; exact hcur) hid hv
  have hgrow' : Grows db.toTables (Uow.flushed env { tables := t' }) none none none none := by
    refine ⟨hgrow.conversations, hgrow.messages, hgrow.responseRuns, hgrow.runs, ?_, ?_, ?_, ?_, ?_⟩
    · show (update SearchStep.id step.id (SearchStep.writeTo env.dbNow step) t.steps ++ []).map _ = _
      rw [List.append_nil, map_update_of_eq (by intro x _ _; rfl)]
      exact hgrow.steps
    · show (t.attempts ++ []).map _ = _
      rw [List.append_nil]
      exact hgrow.attempts
    · show t.events ++ [] = _
      rw [List.append_nil]
      exact hgrow.events
    · show t.outbox ++ [] = _
      rw [List.append_nil]
      exact hgrow.outbox
    · obtain ⟨close, hclose, hkept⟩ := hgrow.invocations
      refine ⟨close, ?_, hkept⟩
      show t.invocations ++ [] = _
      rw [List.append_nil]
      exact hclose
  have hvalid := hgrow'.valid db.valid (by constructor <;> simp)
  refine ⟨t', ⟨_, hvalid⟩, hsave, commit_eq hvalid, rfl, ?_⟩
  show _ ∈ update SearchStep.id step.id (SearchStep.writeTo env.dbNow step) t.steps ++ []
  rw [List.append_nil, hsteps]
  exact mem_update_self hcur hid.symm

/-- When the reconciler looks at a live step: after the grace period, when the retry is due, or
when the lease has run out. -/
def recoverableAt (t : Tables) (grace : Duration) (s : SearchStep) : Option Time :=
  match s.status with
  | .ready => some (s.updatedAt + grace)
  | .retryWait => s.retryAt
  | .running => currentLease t s.id
  | _ => none

theorem isOverdue_of_le {t : Tables} {grace : Duration} {due : Time}
    (hdue : recoverableAt t grace s = some due) (hnow : due ≤ now) : isOverdue t grace now s = true := by
  unfold recoverableAt at hdue
  unfold isOverdue
  cases hst : s.status <;> simp only [hst, reduceCtorEq] at hdue ⊢
  · rw [Option.some.injEq] at hdue
    rw [decide_eq_true_eq]
    exact Int.le_sub_right_of_add_le (hdue ▸ hnow)
  · simp [hdue, hnow]
  · simp [hdue, hnow]

/-- The reconciler has something to do for a step that is overdue. -/
theorem decideAction_isSome {t : Tables} {grace : Duration} {due : Time}
    (hdue : recoverableAt t grace s = some due) (hnow : due ≤ now) :
    (decideAction (candidateOf t s) now).isSome = true := by
  unfold recoverableAt at hdue
  unfold decideAction candidateOf
  cases hst : s.status <;> simp only [hst, reduceCtorEq] at hdue ⊢
  · simp
  · simp [hdue, hnow]
  · simp [hdue, hnow]

/-- **What is overdue can be released.** -/
theorem makeReady_total (env : Env) (hr : Reachable d w) (hs : s ∈ w.db.steps) {grace : Duration} {due : Time}
    (hdue : recoverableAt w.db.toTables grace s = some due) (hnow : due ≤ now) :
    ∃ db', makeReady env w.db (candidateOf w.db.toTables s) now = .ok (true, db') ∧
      db'.runs = w.db.runs ∧ ∃ s' ∈ db'.steps, s'.id = s.id ∧ s'.runId = s.runId ∧ s'.status = .ready := by
  obtain ⟨s₀, hstep, hs₀⟩ : ∃ s₀, w.db.getStep (candidateOf w.db.toTables s).stepId = .ok (some s₀) ∧
      s₀ = { s with persistedVersion := s.version } :=
    ⟨_, getStep_eq (winv_reachable hr).shape hs, rfl⟩
  have hsame : s₀.status = s.status := by rw [hs₀]
  have hid : s₀.id = s.id := by rw [hs₀]
  have hv : s₀.persistedVersion = s.version := by rw [hs₀]
  have hseen : (candidateOf w.db.toTables s).status = s.status := rfl
  unfold recoverableAt at hdue
  unfold makeReady
  simp only [hstep, bind, Except.bind]
  cases hst : s.status <;> simp only [hst, reduceCtorEq] at hdue
  case ready =>
    refine ⟨w.db, ?_, rfl, s, hs, rfl, rfl, hst⟩
    rw [if_neg (by simp [hseen, hst]), if_neg (by simp [hseen, hst])]
    simp [hsame, hst, pure, Except.pure]
  case retryWait =>
    have hmake : s₀.makeReady
        = .ok { s₀ with status := .ready, version := s₀.version + 1, retryAt := none } := by
      rw [SearchStep.makeReady, SearchStep.transition_eq (by simp [hsame, hst, StepStatus.transitions])]
      rfl
    obtain ⟨t', db', hsave, hcommit, hruns, hin⟩ := saveStep_commit_total env
      ({ s₀ with status := .ready, version := s₀.version + 1, retryAt := none })
      (Grows.rfl _) rfl hs hid hv
    refine ⟨db', ?_, hruns, _, hin, rfl, rfl, rfl⟩
    have hretry : s₀.retryAt = some due := by rw [hs₀]; exact hdue
    rw [if_pos ⟨hseen.trans hst, hsame.trans hst⟩]
    simp only [hretry, if_neg (not_lt.mpr hnow), hmake, hsave, hcommit]
    rfl
  case running =>
    have hmake : s₀.releaseExpiredLease
        = .ok { s₀ with status := .ready, version := s₀.version + 1 } :=
      SearchStep.transition_eq (by simp [hsame, hst, StepStatus.transitions])
    obtain ⟨t', db', hsave, hcommit, hruns, hin⟩ := saveStep_commit_total env
      ({ s₀ with status := .ready, version := s₀.version + 1 })
      (grows_expire w.db.toTables s.id now) rfl hs hid hv
    refine ⟨db', ?_, hruns, _, hin, rfl, rfl, rfl⟩
    have hlease : currentLease w.db.toTables (candidateOf w.db.toTables s).stepId = some due := hdue
    rw [if_neg (by simp [hseen, hst]), if_pos ⟨hseen.trans hst, hsame.trans hst⟩]
    simp only [hlease, if_neg (not_lt.mpr hnow), hmake]
    rw [show (candidateOf w.db.toTables s).stepId = s.id from rfl, hsave]
    simp only [hcommit]
    rfl

end Releasing

/-! ## Finding what is lost -/

section Finding

variable {d : Deployment} {w : World} {s : SearchStep} {r : SearchRun} {t : Tables}

/-- A running step has a lease that ends. -/
theorem currentLease_isSome {a : StepAttempt} (ha : a ∈ t.attempts) (hstep : a.stepId = s.id)
    (hopen : a.completedAt = none) : ∃ due, currentLease t s.id = some due := by
  rw [← Option.isSome_iff_exists]
  unfold currentLease
  rw [List.isSome_max?_iff]
  intro hnil
  have hin : a ∈ (t.attemptsOf s.id).filter (·.completedAt.isNone) := by
    simp [Tables.attemptsOf, ha, hstep, hopen]
  rw [List.map_eq_nil_iff] at hnil
  rw [hnil] at hin
  cases hin

/-- Every live step of a reachable world has a time from which on it is looked at. -/
theorem recoverableAt_isSome (hr : Reachable d w) (hs : s ∈ w.db.steps)
    (hlive : s.status = .ready ∨ s.status = .retryWait ∨ s.status = .running) (grace : Duration) :
    ∃ due, recoverableAt w.db.toTables grace s = some due := by
  unfold recoverableAt
  rcases hlive with hst | hst | hst <;> simp only [hst]
  · exact ⟨_, rfl⟩
  · exact Option.isSome_iff_exists.mp ((resumable_reachable hr).waiting s hs hst)
  · obtain ⟨a, ha, hstep, hopen⟩ := (oneOpen_reachable hr).exists_open s hs hst
    exact currentLease_isSome ha hstep hopen

/-- A message that is due and not locked is taken, unless the batch is full of older ones. -/
theorem claimUnpublished_takes {o : OutboxMessage} (ho : o ∈ t.outbox) (hunpub : o.publishedAt = none)
    {now : Time} (hnow : o.availableAt ≤ now) {locked : Uuid → Bool} (hfree : locked o.id = false)
    (limit : Nat) : o ∈ claimUnpublished t now locked limit ∨
      ((claimUnpublished t now locked limit).length = limit ∧
        ∀ x ∈ claimUnpublished t now locked limit, x.createdAt ≤ o.createdAt) := by
  have hdue : o ∈ t.outbox.filter (·.isDue now) := by simp [ho, OutboxMessage.isDue, hunpub, hnow]
  have hsort := List.pairwise_insertionSort (fun a b : OutboxMessage => a.createdAt ≤ b.createdAt)
    (t.outbox.filter (·.isDue now))
  refine mem_take_or_full (hsort.filter _) ?_ limit
  rw [List.mem_filter, List.mem_insertionSort]
  exact ⟨hdue, by simp [hfree]⟩

/-- A step the scan asks for is reported, unless the batch is full. -/
theorem candidates_take {grace : Duration} {now : Time} (hs : s ∈ t.steps) (hrm : r ∈ t.runs)
    (hcand : isCandidate t grace now s r = true) (limit : Nat) :
    candidateOf t s ∈ candidates t grace now limit ∨
      (candidates t grace now limit).length = limit := by
  have hin : s ∈ (t.steps.filter fun s => t.runs.any (isCandidate t grace now s)).insertionSort
      scannedBefore := by
    rw [List.mem_insertionSort, List.mem_filter, List.any_eq_true]
    exact ⟨hs, r, hrm, hcand⟩
  rcases mem_take_or_full (r := fun _ _ => True) (List.pairwise_of_forall fun _ _ => trivial) hin limit
    with hin | ⟨hfull, -⟩
  · exact .inl (List.mem_map.mpr ⟨s, hin, rfl⟩)
  · right
    unfold candidates
    rw [List.length_map, hfull]

theorem isCandidate_of_due {grace : Duration} {now due : Time} (hrid : r.id = s.runId)
    (hopen : r.isTerminal = false) (hpub : hasUnpublishedOutbox t s.id = false)
    (hdue : recoverableAt t grace s = some due) (hnow : due ≤ now) :
    isCandidate t grace now s r = true := by
  have hstatus : (r.status = .queued || r.status = .running || r.status = .waiting) = true := by
    unfold SearchRun.isTerminal at hopen
    cases hst : r.status <;> simp [hst, RunStatus.isTerminal] at hopen ⊢
  simp [isCandidate, hrid, hpub, isOverdue_of_le hdue hnow]
  simpa [or_assoc] using hstatus

/--
**A live step is never lost.** In every reachable world, whatever was published, lost,
claimed, renewed or left behind: a running step has an open attempt; and a READY, waiting or
running step of a run that has not ended has a message that is still to be published and that
the dispatcher takes when it is available, or from the end of its grace period, its retry time
or its lease on the reconciler finds it, decides on an action and makes it READY, and a claim
then starts it or ends it. Identifiers are new when they are drawn, and workers have names.
-/
theorem live_step_recoverable (hr : Reachable d w) (grace : Duration) :
    (∀ s ∈ w.db.steps, s.status = .running →
      ∃ a ∈ w.db.attempts, a.stepId = s.id ∧ a.completedAt = none) ∧
    ∀ r ∈ w.db.runs, r.isTerminal = false → ∀ s ∈ w.db.steps, s.runId = r.id →
      s.status = .ready ∨ s.status = .retryWait ∨ s.status = .running →
      (∃ o ∈ w.db.outbox, o.aggregateId = s.id ∧ o.publishedAt = none ∧
        (∃ queue, queueOf o.eventType = .ok queue) ∧
        ∀ now locked limit, o.availableAt ≤ now → locked o.id = false →
          o ∈ claimUnpublished w.db.toTables now locked limit ∨
          ((claimUnpublished w.db.toTables now locked limit).length = limit ∧
            ∀ x ∈ claimUnpublished w.db.toTables now locked limit, x.createdAt ≤ o.createdAt)) ∨
      ∃ due, recoverableAt w.db.toTables grace s = some due ∧ ∀ now, due ≤ now →
        isCandidate w.db.toTables grace now s r = true ∧
        (∀ limit, candidateOf w.db.toTables s ∈ candidates w.db.toTables grace now limit ∨
          (candidates w.db.toTables grace now limit).length = limit) ∧
        (decideAction (candidateOf w.db.toTables s) now).isSome = true ∧
        ∀ env, ∃ db₁, makeReady env w.db (candidateOf w.db.toTables s) now = .ok (true, db₁) ∧
          ∀ env' worker, env'.Fresh db₁.toTables 3 → Text.isBlank worker = false →
            ∃ res db₂, claim d.ports d.cfg env' db₁ s.id worker = .ok (res, db₂) ∧
              ∃ s' ∈ db₂.steps, s'.id = s.id ∧ (s'.status = .running ∨ s'.isTerminal = true) := by
  refine ⟨(oneOpen_reachable hr).exists_open, ?_⟩
  intro r hrm hopen s hs hrun hlive
  cases hpub : hasUnpublishedOutbox w.db.toTables s.id with
  | true =>
      left
      obtain ⟨o, ho, hfor⟩ := List.any_eq_true.mp hpub
      rw [Bool.and_eq_true, decide_eq_true_eq, Option.isNone_iff_eq_none] at hfor
      have hqueue := outbox_reachable (p := fun o => ∃ queue, queueOf o.eventType = .ok queue)
        (fun o o' hsame hq => by rw [hsame.eventType]; exact hq) (fun _ _ ha => ha.queue) hr o ho
      refine ⟨o, ho, hfor.1, hfor.2, hqueue, ?_⟩
      intro now locked limit hnow hfree
      exact claimUnpublished_takes ho hfor.2 hnow hfree limit
  | false =>
      right
      obtain ⟨due, hdue⟩ := recoverableAt_isSome hr hs hlive grace
      refine ⟨due, hdue, ?_⟩
      intro now hnow
      have hcand := isCandidate_of_due hrun.symm hopen hpub hdue hnow
      refine ⟨hcand, candidates_take hs hrm hcand, decideAction_isSome hdue hnow, ?_⟩
      intro env
      obtain ⟨db₁, hmake, hruns, s₁, hs₁, hid, hrunId, hready⟩ :=
        makeReady_total env hr hs hdue hnow
      refine ⟨db₁, hmake, ?_⟩
      intro env' worker hfresh hworker
      -- what was released is a reachable world too, and its step is READY
      have hr₁ : Reachable d ⟨db₁, w.claims⟩ := hr.tail (.makeReady env _ now true hmake)
      obtain ⟨res, db₂, hclaim⟩ := claim_total hr₁ hs₁ hready (r := r) (by rw [hruns]; exact hrm)
        (by rw [hrunId, hrun]) hopen hfresh hworker
      obtain ⟨s₂, hs₂, hid₂, hst₂⟩ := claim_outcome hr₁ hs₁ hready hclaim
      rw [hid] at hclaim hid₂
      exact ⟨res, db₂, hclaim, s₂, hs₂, hid₂, hst₂⟩

/-- The route step is claimed and its message was published; then the worker dies. -/
def lostActions : List Action := [
  .create (sampleEnv 1) ⟨7#128⟩ "hello" none,
  .submit (sampleEnv 2) ⟨⟨7#128⟩, (sampleEnv 1).ids 0, "hello", "k1", ⟨.fast, [], "search-v12"⟩⟩,
  .deliver (sampleEnv 3) (.published ((sampleEnv 2).ids 4) (seconds 3)),
  .claim (sampleEnv 4) ((sampleEnv 2).ids 3) "worker"]

/-- A step whose worker is gone, and the database once the reconciler has found it. -/
def isLost (w : World) : Bool :=
  w.db.steps.any fun s => s.status = .running && !hasUnpublishedOutbox w.db.toTables s.id
    && w.db.runs.any (fun r => r.id = s.runId && !r.isTerminal)
    && (recoverableAt w.db.toTables 0 s).all (· ≤ seconds 90)
    && (makeReady (sampleEnv 90) w.db (candidateOf w.db.toTables s) (seconds 90)).toOption.all
      fun x => decide ((sampleEnv 91).Fresh x.2.toTables 3)

theorem live_step_recoverable_sample : ∃ w, Reachable sample w ∧ ∃ s ∈ w.db.steps,
    s.status = .running ∧ ∃ db₁,
      makeReady (sampleEnv 90) w.db (candidateOf w.db.toTables s) (seconds 90) = .ok (true, db₁) ∧
      ∃ res db₂, claim sample.ports sample.cfg (sampleEnv 91) db₁ s.id "other" = .ok (res, db₂) ∧
        ∃ s' ∈ db₂.steps, s'.id = s.id ∧ (s'.status = .running ∨ s'.isTerminal = true) := by
  obtain ⟨w, hr, hp⟩ := exists_reachable sample lostActions isLost (by decide +kernel)
  obtain ⟨s, hs, hp⟩ := List.any_eq_true.mp hp
  simp only [Bool.and_eq_true, decide_eq_true_eq, Bool.not_eq_true', List.any_eq_true] at hp
  obtain ⟨⟨⟨⟨hst, hpub⟩, r, hrm, hrid, hopen⟩, hdue⟩, hfresh⟩ := hp
  refine ⟨w, hr, s, hs, hst, ?_⟩
  rcases (live_step_recoverable hr 0).2 r hrm hopen s hs hrid.symm (.inr (.inr hst)) with
    ⟨o, ho, hagg, hun, -⟩ | ⟨due, hat, hfind⟩
  · rw [hasUnpublishedOutbox, List.any_eq_false] at hpub
    exact absurd (by simp [hagg, hun]) (hpub o ho)
  · rw [hat] at hdue
    obtain ⟨-, -, -, hmake⟩ := hfind (seconds 90) (by simpa using hdue)
    obtain ⟨db₁, hmake, hclaim⟩ := hmake (sampleEnv 90)
    rw [hmake] at hfresh
    exact ⟨db₁, hmake, hclaim (sampleEnv 91) "other" (by simpa [Except.toOption] using hfresh)
      (by decide)⟩

end Finding

end Sana.Orchestration
