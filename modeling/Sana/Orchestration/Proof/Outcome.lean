import Sana.Orchestration.Proof.FanIn

/-!
# How a step ends

A step of an open run ends in one of three transactions: a report of success, a
report of a failure that is not retried, or a claim that comes after the step's
phase is over. All three ask the coordinator what comes next. `call_ended` is the
inversion: from a move that ended a step of an open run to the call of the
coordinator that scheduled what the move added.
-/

namespace Sana.Orchestration

open Sana.Lib

/-- How a step ends: with an output, or with an error. -/
inductive Outcome
  | success (ref : ArtifactRef)
  | failure (error : TypedError)
deriving DecidableEq, Repr

namespace Outcome

/-- The status the step is left with. -/
def status : Outcome → StepStatus
  | .success _ => .succeeded
  | .failure error => if error.category = .cancelled then .cancelled else .failed

/-- The output the step is left with. -/
def outputRef : Outcome → Option ArtifactRef
  | .success ref => some ref
  | .failure _ => none

/-- The codes the coordinator is told of. -/
def codes : Outcome → List String
  | .success _ => []
  | .failure error => [error.code]

/-- The step ends with an output. -/
def isSuccess (o : Outcome) : Bool := o.outputRef.isSome

theorem status_eq_succeeded {o : Outcome} : o.status = .succeeded ↔ o.isSuccess = true := by
  cases o with
  | success ref => simp [status, isSuccess, outputRef]
  | failure error =>
      simp only [status, isSuccess, outputRef]
      split <;> simp

/-- A step that does not succeed has ended badly. -/
theorem endedBadly_status {o : Outcome} : o.status.endedBadly = !o.isSuccess := by
  cases o with
  | success ref => rfl
  | failure error =>
      simp only [status, isSuccess, outputRef]
      split <;> rfl

theorem isTerminal_status {o : Outcome} : o.status.isTerminal = true := by
  cases o with
  | success ref => rfl
  | failure error =>
      simp only [status]
      split <;> rfl

/-- The coordinator's reaction to a step that ended. -/
def advance (ports : Ports) (env : Env) (db : Db) (run : SearchRun) (step : SearchStep) :
    Outcome → Except Exn (Uow × SearchRun)
  | .success ref => Coordinator.onSuccess ports env (Uow.begin db) run step ref
  | .failure error =>
      Coordinator.onFailure ports env (Uow.begin db) run step error
        (if error.category = .cancelled then .cancelled else .failed)

end Outcome

/-- The outcome a transaction gives to a step that it ends. -/
def Call.outcome : Call → Option Outcome
  | .succeed _ _ result => some (.success result.outputRef)
  | .fail _ _ error => some (.failure error)
  | .claim _ _ _ => some (.failure phaseDeadlineExceeded)
  | _ => none

/-- The row shows this outcome. -/
structure SearchStep.EndedAs (s : SearchStep) (o : Outcome) : Prop where
  status : s.status = o.status
  outputRef : s.outputRef = o.outputRef

theorem SearchStep.EndedAs.isTerminal {s : SearchStep} {o : Outcome} (h : s.EndedAs o) :
    s.isTerminal = true := by
  rw [SearchStep.isTerminal, h.status]
  exact Outcome.isTerminal_status

/-! ## From a move back to the coordinator -/

section Inversion

variable {who : Actor} {db db' : Db} {cur cur' : SearchStep} {run run' : SearchRun}
  {new : List SearchStep}

/-- The moved row is found under its id. -/
theorem Move.row_eq (m : Move who db db' cur cur' run run' new) {x : SearchStep}
    (hx : x ∈ db'.steps) (hid : x.id = cur.id) : x = cur' :=
  eq_of_key_eq db'.valid.pk_steps hx (m.mem_steps.mpr (.inl rfl)) (hid.trans m.same.id.symm)

/-- The moved run is found under its id. -/
theorem Move.run_eq (m : Move who db db' cur cur' run run' new) {x : SearchRun}
    (hx : x ∈ db'.runs) (hid : x.id = run.id) : x = run' := by
  rcases m.mem_runs.mp hx with h | ⟨_, hne⟩
  · exact h
  · exact absurd hid hne

/-- A step that ends is rewritten. -/
theorem Move.changed (m : Move who db db' cur cur' run run' new) (hend : cur'.isTerminal = true) :
    db' ≠ db := by
  intro h
  have : cur = cur' := m.row_eq (by rw [h]; exact m.cur_mem) rfl
  have hlive := m.cur_live
  rw [this, hend] at hlive
  cases hlive

/-- A run that is left open was open. -/
theorem Move.was_open (m : Move who db db' cur cur' run run' new)
    (hopen : run'.isTerminal = false) : run.isTerminal = false := by
  cases h : run.isTerminal with
  | false => rfl
  | true =>
      have := m.orderly.ran.isTerminal h
      rw [hopen] at this
      cases this

/-- What a transaction appended is what the move scheduled. -/
theorem Move.new_eq (m : Move who db db' cur cur' run run' new) {k : Uuid}
    {f : SearchStep → SearchStep} {added : List SearchStep}
    (h : db'.steps = update (·.id) k f db.steps ++ added) : new = added := by
  have heq := m.steps.symm.trans h
  exact (List.append_inj heq (by simp [update])).2

/-- The row a save leaves is the moved one. -/
theorem Move.saved_eq (m : Move who db db' cur cur' run run' new) {step : SearchStep} {now : Time}
    {added : List SearchStep} (hid : step.id = cur.id)
    (h : db'.steps = update (·.id) step.id (SearchStep.writeTo now step) db.steps ++ added) :
    cur' = SearchStep.writeTo now step cur := by
  have hmem : SearchStep.writeTo now step cur ∈ db'.steps := by
    rw [h, hid]
    exact List.mem_append_left _ (mem_update_self m.cur_mem rfl)
  exact (m.row_eq hmem rfl).symm

/-- The loaded step and run are the moved ones. -/
theorem Loaded.of_move {row r : SearchRun} {c step : SearchStep} (h : Loaded db r row c step)
    (m : Move who db db' cur cur' run run' new) (hid : c.id = cur.id) : c = cur ∧ row = run := by
  have hc : c = cur := eq_of_key_eq db.valid.pk_steps h.mem m.cur_mem hid
  refine ⟨hc, eq_of_key_eq db.valid.pk_runs h.run_mem m.run_mem ?_⟩
  rw [h.run_id, hc, m.run_id]

/-- The call of the coordinator behind a move that ended a step of an open run. -/
structure Asked (ports : Ports) (db : Db) (cur cur' : SearchStep) (run : SearchRun)
    (new : List SearchStep) (o : Outcome) (env : Env) (r r' : SearchRun) (step : SearchStep)
    (u : Uow) : Prop where
  ending : Ending db r cur step
  run_id : r.id = run.id
  routing : r.routing = run.routing
  isOpen : r.isTerminal = false
  ended : step.EndedAs o
  row : cur'.EndedAs o
  advance : o.advance ports env db r step = .ok (u, r')
  scheduled : new = u.newSteps.map (Uow.stamp env)

/-- A claim ends a step of an open run by finding its phase over. -/
theorem claim_ended {ports : Ports} {cfg : StoreSettings} {env : Env} {id : Uuid} {worker : String}
    {res : ClaimResult} (hsh : Shape db.toTables)
    (m : Move (.claimer id env.now) db db' cur cur' run run' new) (hend : cur'.isTerminal = true)
    (hopen : run.isTerminal = false) (hleft : run'.isTerminal = false ∨ cur'.status = .succeeded)
    (hop : claim ports cfg env db id worker = .ok (res, db')) :
    ∃ r r' step u, Asked ports db cur cur' run new (.failure phaseDeadlineExceeded) env r r' step u
    := by
  have hid : cur.id = id := by
    cases m.attempts with
    | opened => rfl
    | skipped => rfl
  have hsame : ∀ {disposition : Disposition},
      (pure (ClaimResult.skipped disposition, db) : Except Exn _) ≠ .ok (res, db') := by
    intro disposition hq
    exact m.changed hend (Prod.mk.inj (pure_ok_iff.mp hq)).2.symm
  simp only [claim, bind_ok_iff] at hop
  obtain ⟨found, hstep, hop⟩ := hop
  cases found with
  | none => exact absurd hop hsame
  | some step =>
      dsimp only at hop
      split at hop
      · exact absurd hop hsame
      · rw [bind_ok_iff] at hop
        obtain ⟨foundRun, hrun, hop⟩ := hop
        cases foundRun with
        | none => exact absurd hop hsame
        | some r =>
            obtain ⟨c, row, h, hcid⟩ := loaded_of_claim hstep hrun
            obtain ⟨rfl, rfl⟩ := h.of_move m (hcid.trans hid.symm)
            have hropen : r.isTerminal = false := by
              rw [← h.isTerminal_row]
              exact hopen
            dsimp only at hop
            rw [if_neg (by simp [hropen])] at hop
            split at hop
            · -- past the hard deadline the run would have ended
              simp only [claimPastHardDeadline, bind_ok_iff, pure_ok_iff, Prod.mk.injEq] at hop
              obtain ⟨s, hs, s', hs', r₁, hr₁, d, hsave, -, rfl⟩ := hop
              obtain ⟨-, hssame, -, -⟩ := SearchStep.start_ok hs
              obtain ⟨-, hssame', hst', -⟩ := SearchStep.transition_ok hs'
              obtain ⟨hran, hrst, -⟩ := SearchRun.fail_ok hr₁
              obtain ⟨hsteps, hruns, -⟩ := saveAndCommit_ok hsave
              have hmem : r₁.writeTo row ∈ d.runs := by
                rw [hruns]
                exact mem_update_self h.run_mem (hran.id.trans h.run_ran.id).symm
              rw [← m.run_eq hmem rfl,
                m.saved_eq ((h.same.trans hssame).trans hssame').id hsteps] at hleft
              simp [SearchRun.isTerminal, SearchRun.writeTo, hrst, RunStatus.isTerminal,
                SearchStep.writeTo, hst'] at hleft
            · split at hop
              · simp only [claimPastPhaseDeadline, bind_ok_iff, pure_ok_iff, Prod.mk.injEq] at hop
                obtain ⟨r₁, hr₁, s, hs, s', hs', ⟨u, r'⟩, hfail, d, hsave, -, rfl⟩ := hop
                obtain ⟨hran, hrterm, -⟩ := startOrResume_ok hr₁
                obtain ⟨-, -, hst', -⟩ := SearchStep.transition_ok hs'
                have e : Ending db r₁ c s' := h.ending_failed hsh hs hs' hran.id
                have hadv := onFailure_ok e (by simp) (hrterm hropen) hfail
                obtain ⟨hsteps, -, -⟩ := saveAndCommit_ok hsave
                rw [hadv.steps] at hsteps
                have hout : s'.outputRef = none := by
                  have := mt e.output.mpr (by simp [hst'])
                  simpa using this
                have hended : s'.EndedAs (.failure phaseDeadlineExceeded) := ⟨hst', hout⟩
                refine ⟨r₁, r', s', u, ⟨e, hran.id.trans h.run_ran.id,
                  hran.routing.trans h.run_ran.routing, hrterm hropen, hended, ?_, hfail,
                  m.new_eq hsteps⟩⟩
                rw [m.saved_eq e.same.id hsteps]
                exact ⟨hst', hout⟩
              · -- a lease leaves the step running
                simp only [claimLease, bind_ok_iff, pure_ok_iff, Prod.mk.injEq, Uow.newUuid] at hop
                obtain ⟨r₁, hr₁, ⟨s, a⟩, hlease, d, hsave, -, rfl⟩ := hop
                obtain ⟨-, ⟨-, hs, hst, -⟩, -⟩ := leaseClaim_ok hlease
                obtain ⟨hsteps, -, -⟩ := saveAndCommit_ok hsave
                rw [m.saved_eq (h.same.trans hs).id hsteps] at hend
                simp [SearchStep.isTerminal, SearchStep.writeTo, hst, StepStatus.isTerminal] at hend

/-- A report of success ends a step of an open run with its output. -/
theorem succeed_ended {ports : Ports} {env : Env} {c : ClaimedStep} {result : StepExecutionResult}
    {disposition : Disposition} {limit : StepType → Nat} (hsh : Shape db.toTables)
    (hc : ClaimOk db c) (m : Move (.reporter c limit) db db' cur cur' run run' new)
    (hend : cur'.isTerminal = true) (hopen : run.isTerminal = false)
    (hop : succeed ports env db c result = .ok (disposition, db')) :
    ∃ r r' step u, Asked ports db cur cur' run new (.success result.outputRef) env r r' step u := by
  have hid : cur.id = c.stepId := by
    cases m.attempts with
    | finished _ _ _ _ _ _ _ hstep => exact hstep
  have hsame : (pure (Disposition.stale, db) : Except Exn _) ≠ .ok (disposition, db') := by
    intro hq
    exact m.changed hend (Prod.mk.inj (pure_ok_iff.mp hq)).2.symm
  simp only [succeed, bind_ok_iff] at hop
  obtain ⟨found, hfenced, hop⟩ := hop
  cases found with
  | none => exact absurd hop hsame
  | some step =>
      obtain ⟨hstep, -, -⟩ := fenced_some hfenced
      simp only [bind_ok_iff] at hop
      obtain ⟨foundRun, hrun, hop⟩ := hop
      cases foundRun with
      | none => exact absurd hop hsame
      | some r =>
          obtain ⟨c', row, h, hcid⟩ := loaded_of_report hc hstep hrun
          obtain ⟨rfl, rfl⟩ := h.of_move m (hcid.trans hid.symm)
          have hropen : r.isTerminal = false := by
            rw [← h.isTerminal_row]
            exact hopen
          dsimp only at hop
          rw [if_neg (by simp [hropen])] at hop
          simp only [succeedRun, bind_ok_iff, pure_ok_iff, Prod.mk.injEq] at hop
          obtain ⟨fin, -, s, hs, r₁, hr₁, ⟨u, r'⟩, hadvance, t, hcomplete, d', hsave, -, rfl⟩ := hop
          obtain ⟨-, -, hst, hout⟩ := SearchStep.succeed_ok hs
          obtain ⟨hran, hrst, -⟩ := SearchRun.recordUsage_ok hr₁
          have hr₁open : r₁.isTerminal = false := by
            rw [SearchRun.isTerminal, hrst]
            exact hropen
          have e : Ending db r₁ c' s := h.ending_succeeded hsh hs hran.id
          have hadv := onSuccess_ok e hst hadvance
          obtain rfl := Tables.completeAttempt_ok hcomplete
          obtain ⟨hsteps, -, -⟩ := saveAndCommit_ok hsave
          simp only [hadv.steps] at hsteps
          refine ⟨r₁, r', s, u, ⟨e, hran.id.trans h.run_ran.id,
            hran.routing.trans h.run_ran.routing, hr₁open, ⟨hst, hout⟩, ?_, hadvance,
            m.new_eq hsteps⟩⟩
          rw [m.saved_eq e.same.id hsteps]
          exact ⟨hst, hout⟩

/-- How a failure of an open run's step that is not retried leaves the step. -/
theorem failStep_final {cfg : StoreSettings} {env : Env} {c : ClaimedStep} {error : TypedError}
    {r : SearchRun} {step s : SearchStep} {disposition : Disposition} {event : String}
    (hopen : r.isTerminal = false)
    (h : failStep cfg env c error step r = .ok (s, disposition, event))
    (hend : s.isTerminal = true) :
    s.status = (Outcome.failure error).status ∧
      disposition = if error.category = .cancelled then .cancelled else .failed := by
  unfold failStep at h
  simp only [hopen, Bool.false_or, decide_eq_true_eq] at h
  split at h
  · rename_i hcancel
    simp only [bind_ok_iff, pure_ok_iff, Prod.mk.injEq] at h
    obtain ⟨v, hv, rfl, rfl, rfl⟩ := h
    simp [Outcome.status, hcancel, (SearchStep.transition_ok hv).status]
  · rename_i hcancel
    split at h
    · simp only [bind_ok_iff, pure_ok_iff, Prod.mk.injEq] at h
      obtain ⟨v, hv, rfl, rfl, rfl⟩ := h
      simp [SearchStep.isTerminal, (SearchStep.retryLater_ok hv).status, StepStatus.isTerminal]
        at hend
    · simp only [bind_ok_iff, pure_ok_iff, Prod.mk.injEq] at h
      obtain ⟨v, hv, rfl, rfl, rfl⟩ := h
      simp [Outcome.status, hcancel, (SearchStep.transition_ok hv).status]

/-- A report of a failure ends a step of an open run with its error. -/
theorem fail_ended {ports : Ports} {cfg : StoreSettings} {env : Env} {c : ClaimedStep}
    {error : TypedError} {disposition : Disposition} {limit : StepType → Nat}
    (hsh : Shape db.toTables) (hc : ClaimOk db c)
    (m : Move (.reporter c limit) db db' cur cur' run run' new) (hend : cur'.isTerminal = true)
    (hopen : run.isTerminal = false)
    (hop : fail ports cfg env db c error = .ok (disposition, db')) :
    ∃ r r' step u, Asked ports db cur cur' run new (.failure error) env r r' step u := by
  have hid : cur.id = c.stepId := by
    cases m.attempts with
    | finished _ _ _ _ _ _ _ hstep => exact hstep
  have hsame : (pure (Disposition.stale, db) : Except Exn _) ≠ .ok (disposition, db') := by
    intro hq
    exact m.changed hend (Prod.mk.inj (pure_ok_iff.mp hq)).2.symm
  simp only [fail, bind_ok_iff] at hop
  obtain ⟨found, hfenced, hop⟩ := hop
  cases found with
  | none => exact absurd hop hsame
  | some step =>
      obtain ⟨hstep, -, -⟩ := fenced_some hfenced
      simp only [bind_ok_iff] at hop
      obtain ⟨foundRun, hrun, hop⟩ := hop
      cases foundRun with
      | none => exact absurd hop hsame
      | some r =>
          obtain ⟨c', row, h, hcid⟩ := loaded_of_report hc hstep hrun
          obtain ⟨rfl, rfl⟩ := h.of_move m (hcid.trans hid.symm)
          have hropen : r.isTerminal = false := by
            rw [← h.isTerminal_row]
            exact hopen
          simp only [bind_ok_iff, pure_ok_iff, Prod.mk.injEq] at hop
          obtain ⟨fin, -, ⟨s, d', ev⟩, hs, ⟨u, r'⟩, hadvance, t, hcomplete, db₁, hsave, -, rfl⟩ := hop
          obtain ⟨t', ⟨-, hssame, hst, -⟩, -, -, -, hd⟩ := failStep_ok hs
          obtain rfl := Tables.completeAttempt_ok hcomplete
          obtain ⟨hsteps, -, -⟩ := saveAndCommit_ok hsave
          by_cases hretry : d' = .retryScheduled
          · -- a retry leaves the step waiting
            obtain ⟨rfl, -⟩ := onFailure_quiet (.inl hretry) hadvance
            have hrow := m.saved_eq (h.same.trans hssame).id hsteps
            rcases hd with ⟨-, hwait, -⟩ | ⟨hne, -⟩
            · rw [hwait] at hst
              rw [hrow] at hend
              simp [SearchStep.isTerminal, SearchStep.writeTo, hst, StepStatus.isTerminal] at hend
            · exact absurd hretry hne
          · have e : Ending db r c' s := h.ending_reported hsh hs hretry
            have hadv := onFailure_ok e hretry hropen hadvance
            simp only [hadv.steps] at hsteps
            obtain ⟨hst, hdisp⟩ := failStep_final hropen hs e.ended
            have hout : s.outputRef = none := by
              have := mt e.output.mpr (by
                rw [hst, Outcome.status_eq_succeeded]
                simp [Outcome.isSuccess, Outcome.outputRef])
              simpa using this
            refine ⟨r, r', s, u, ⟨e, h.run_ran.id, h.run_ran.routing, hropen, ⟨hst, hout⟩, ?_, ?_,
              m.new_eq hsteps⟩⟩
            · rw [m.saved_eq e.same.id hsteps]
              exact ⟨hst, hout⟩
            · rw [hdisp] at hadvance
              exact hadvance

/--
**A move that ends a step of an open run asked the coordinator**, unless it ended
the run for being out of time.
-/
theorem call_ended {d : Deployment} {w w' : World} {call : Call} (hi : WInv w)
    (hheld : call.Held w) (hcall : call.run d w = .ok w')
    (m : Move (call.actor d) w.db w'.db cur cur' run run' new) (hend : cur'.isTerminal = true)
    (hopen : run.isTerminal = false) (hleft : run'.isTerminal = false ∨ cur'.status = .succeeded) :
    ∃ o, call.outcome = some o ∧ ∃ env r r' step u,
      Asked d.ports w.db cur cur' run new o env r r' step u := by
  cases call with
  | claim env stepId workerId =>
      simp only [Call.run, bind_ok_iff, pure_ok_iff, Prod.exists] at hcall
      obtain ⟨result, db, h, rfl⟩ := hcall
      exact ⟨_, rfl, env, claim_ended hi.shape m hend hopen hleft h⟩
  | succeed env claimed result =>
      simp only [Call.run, bind_ok_iff, pure_ok_iff, Prod.exists] at hcall
      obtain ⟨disposition, db, h, rfl⟩ := hcall
      exact ⟨_, rfl, env, succeed_ended hi.shape (hi.claims claimed hheld) m hend hopen h⟩
  | fail env claimed error =>
      simp only [Call.run, bind_ok_iff, pure_ok_iff, Prod.exists] at hcall
      obtain ⟨disposition, db, h, rfl⟩ := hcall
      exact ⟨_, rfl, env, fail_ended hi.shape (hi.claims claimed hheld) m hend hopen h⟩
  | makeReady env candidate now =>
      -- the reconciler only makes steps ready
      cases m.attempts with
      | expired _ _ _ hready => simp [SearchStep.isTerminal, hready, StepStatus.isTerminal] at hend
      | due _ hready => simp [SearchStep.isTerminal, hready, StepStatus.isTerminal] at hend
  | deliver env op =>
      have hatt := m.attempts
      cases op <;> simp only [Call.actor, DeliveryOp.actor] at hatt <;> cases hatt
      rename_i hready _
      simp [SearchStep.isTerminal, hready, StepStatus.isTerminal] at hend
  | create | submit | cancel | renew | renewLost | audit => cases m.attempts

end Inversion

/-! ## What the coordinator reads -/

/-- The code `_maybe_synthesize` derives from a row that ended badly. -/
def statusCode (ty : StepType) (status : StepStatus) : String :=
  Text.lowerAscii ty.value ++ "_" ++ Text.lowerAscii status.value

theorem mem_rowCodes {rows : List SearchStep} {step : SearchStep} {c : String} :
    c ∈ Coordinator.rowCodes rows step ↔ ∃ row ∈ rows,
      (Coordinator.statusOf row step).endedBadly = true ∧
      c = statusCode row.stepType (Coordinator.statusOf row step) := by
  have hbad : ∀ t : StepStatus, t = .failed ∨ t = .cancelled ↔ t.endedBadly = true := by
    intro t
    cases t <;> simp [StepStatus.endedBadly]
  simp only [Coordinator.rowCodes, List.mem_filterMap, hbad]
  refine exists_congr fun row => and_congr_right fun _ => ?_
  split
  · rename_i h
    simp [h, statusCode, eq_comm]
  · rename_i h
    simp [h]

theorem mem_sortedSet {codes : List String} {c : String} :
    c ∈ Coordinator.sortedSet codes ↔ c ∈ codes := by
  simp [Coordinator.sortedSet, List.mem_insertionSort]

/-- **The outputs of one kind**: those of the rows, the current step's taken from memory. -/
theorem Ending.mem_outputsOf {db : Db} {run : SearchRun} {cur step : SearchStep}
    (e : Ending db run cur step) {kind : StepType} {ref : ArtifactRef} :
    ref ∈ Coordinator.outputsOf kind (db.stepRows run.id) step ↔
      ∃ row ∈ db.steps, row.runId = run.id ∧ row.stepType = kind ∧
        outputAfter row step = some ref := by
  have hcur : ∀ row ∈ db.steps, row.id = step.id → row = cur := by
    intro row hr hid
    exact eq_of_key_eq db.valid.pk_steps hr e.mem (hid.trans e.same.id)
  have hnone : cur.outputRef = none := by
    refine e.shape.output_none e.mem fun hs => ?_
    have := e.live
    simp [SearchStep.isTerminal, hs, StepStatus.isTerminal] at this
  -- what the rows show, and what the step adds
  have hrows : ref ∈ ((db.stepRows run.id).filterMap fun row =>
      if row.stepType = kind ∧ Coordinator.statusOf row step = .succeeded then row.outputRef
      else none) ↔ ∃ row ∈ db.steps, row.runId = run.id ∧ row.stepType = kind ∧
        row.id ≠ step.id ∧ row.outputRef = some ref := by
    simp only [List.mem_filterMap, Tables.mem_stepRows, and_assoc]
    refine exists_congr fun row => and_congr_right fun hr => and_congr_right fun _ => ?_
    constructor
    · intro h
      split at h
      · rename_i hc
        refine ⟨hc.1, fun hid => ?_, h⟩
        rw [hcur row hr hid, hnone] at h
        cases h
      · cases h
    · rintro ⟨hk, hne, hout⟩
      have hst : row.status = .succeeded := (e.shape.output row hr).mpr (by simp [hout])
      rw [if_pos ⟨hk, by rw [Coordinator.statusOf, if_neg hne]; exact hst⟩]
      exact hout
  have hstep : (∃ row ∈ db.steps, row.runId = run.id ∧ row.stepType = kind ∧
      outputAfter row step = some ref) ↔
      (∃ row ∈ db.steps, row.runId = run.id ∧ row.stepType = kind ∧ row.id ≠ step.id ∧
        row.outputRef = some ref) ∨ (step.stepType = kind ∧ step.outputRef = some ref) := by
    constructor
    · rintro ⟨row, hr, hrun, hk, hout⟩
      by_cases hid : row.id = step.id
      · rw [outputAfter, if_pos hid] at hout
        refine .inr ⟨?_, hout⟩
        rw [e.same.stepType, ← hcur row hr hid]
        exact hk
      · rw [outputAfter, if_neg hid] at hout
        exact .inl ⟨row, hr, hrun, hk, hid, hout⟩
    · rintro (⟨row, hr, hrun, hk, hid, hout⟩ | ⟨hk, hout⟩)
      · exact ⟨row, hr, hrun, hk, by rw [outputAfter, if_neg hid]; exact hout⟩
      · exact ⟨cur, e.mem, e.run_id, e.same.stepType.symm.trans hk,
          by rw [outputAfter, if_pos e.same.id.symm]; exact hout⟩
  rw [hstep, ← hrows]
  simp only [Coordinator.outputsOf]
  split
  · rename_i hc
    cases hout : step.outputRef with
    | none => simp
    | some own =>
        dsimp only
        split
        · rename_i hmem
          simp only [Option.some.injEq]
          refine ⟨.inl, ?_⟩
          rintro (h | ⟨-, rfl⟩)
          · exact h
          · exact hmem
        · simp [hc.1, eq_comm]
  · rename_i hc
    refine ⟨.inl, ?_⟩
    rintro (h | ⟨hk, hout⟩)
    · exact h
    · exact absurd ⟨hk, e.output.mpr (by simp [hout])⟩ hc

/-- What the rows show after a move, read off the rows before it. -/
theorem Move.exists_after {who : Actor} {db db' : Db} {cur cur' : SearchStep}
    {run run' : SearchRun} {new : List SearchStep} (m : Move who db db' cur cur' run run' new)
    {runId : Uuid} {p : StepType → StepStatus → Option ArtifactRef → Prop}
    (hnew : ∀ ty, ¬ p ty .ready none) :
    (∃ row ∈ db.steps, row.runId = runId ∧
      p row.stepType (Coordinator.statusOf row cur') (outputAfter row cur')) ↔
    ∃ row ∈ db'.steps, row.runId = runId ∧ p row.stepType row.status row.outputRef := by
  constructor
  · rintro ⟨row, hr, hrun, hp⟩
    by_cases hid : row.id = cur.id
    · have hrow : row = cur := eq_of_key_eq db.valid.pk_steps hr m.cur_mem hid
      rw [Coordinator.statusOf, outputAfter, if_pos (hid.trans m.same.id.symm),
        if_pos (hid.trans m.same.id.symm), hrow, ← m.same.stepType] at hp
      exact ⟨cur', m.mem_steps.mpr (.inl rfl), by rw [m.same.runId, ← hrow]; exact hrun, hp⟩
    · have hne : row.id ≠ cur'.id := by rwa [m.same.id]
      rw [Coordinator.statusOf, outputAfter, if_neg hne, if_neg hne] at hp
      exact ⟨row, m.mem_steps.mpr (.inr (.inl ⟨hr, hid⟩)), hrun, hp⟩
  · rintro ⟨row, hr, hrun, hp⟩
    rcases m.mem_steps.mp hr with rfl | ⟨hold, hne⟩ | hadded
    · refine ⟨cur, m.cur_mem, m.same.runId.symm.trans hrun, ?_⟩
      rw [Coordinator.statusOf, outputAfter, if_pos m.same.id.symm, if_pos m.same.id.symm,
        ← m.same.stepType]
      exact hp
    · have hne' : row.id ≠ cur'.id := by rwa [m.same.id]
      refine ⟨row, hold, hrun, ?_⟩
      rw [Coordinator.statusOf, outputAfter, if_neg hne', if_neg hne']
      exact hp
    · have hs := m.sched row hadded
      rw [hs.status, hs.outputRef] at hp
      exact absurd hp (hnew _)

/-! ## What follows a fetch, an extract or a verification -/

/-- The key of the extract that continues a fetch. -/
def extractKey (fetch : SearchStep) : String :=
  Text.replaceFirst fetch.stepKey "fetch:" "extract:"

/-- A row belongs to the sources: it is a fetch or an extract. -/
def SearchStep.isSource (s : SearchStep) : Prop := s.stepType = .fetch ∨ s.stepType = .extract

instance (s : SearchStep) : Decidable s.isSource := inferInstanceAs (Decidable (_ ∨ _))

/-- What a RESEARCH run goes on with once one of these has ended with an outcome. -/
inductive Follows (ports : Ports) (db : Db) (run : SearchRun) (step : SearchStep) (o : Outcome)
    (s : SearchStep) : Prop
  /-- The extract of a fetch that succeeded. -/
  | extract (hty : s.stepType = .extract) (hkey : s.stepKey = extractKey step)
      (hfetch : step.stepType = .fetch) (hok : o.isSuccess = true)
  /-- The verification of what was extracted, once every source has ended. -/
  | verify (hty : s.stepType = .verify) (planRef : ArtifactRef) (refs : List ArtifactRef)
      (hinput : s.input = .verify planRef refs)
      (hrefs : refs = Coordinator.outputsOf .extract (db.stepRows run.id) step) (hne : refs ≠ [])
      (hdone : ∀ row ∈ db.steps, row.runId = run.id → row.isSource →
        Coordinator.isLive row step = false)
  /-- The synthesis: the verification has ended, or there is nothing to verify. -/
  | synthesis (hty : s.stepType = .synthesize) (i : SynthesisInput) (hinput : s.input = .synthesis i)
      (hcodes : i.pipelineDegradationCodes = Coordinator.sortedSet (o.codes ++
        Coordinator.rowCodes ((db.stepRows run.id).filter (·.stepType ≠ .synthesize)) step))
      (hfailures : Coordinator.selectionFailures ports (db.stepRows run.id) step
        = .ok i.providerFailures)
      (hdone : ∀ row ∈ db.steps, row.runId = run.id → row.stepType ≠ .synthesize →
        Coordinator.isLive row step = false)
      (hwhy : step.stepType = .verify ∨ (∀ row ∈ db.steps, row.runId = run.id →
          row.stepType ≠ .verify) ∧
        Coordinator.outputsOf .extract (db.stepRows run.id) step = [] ∧
        (step.stepType = .fetch → o.isSuccess = false))

section Next

variable {ports : Ports} {env : Env} {db : Db} {run run' : SearchRun} {cur step : SearchStep}
  {u : Uow} {o : Outcome}

/-- A step that is staged first is the only one. -/
theorem newSteps_of_stages {added : List SearchStep} (h : Stages (Uow.begin db) u added) :
    u.newSteps = added := by
  simpa [Uow.begin] using h.steps

theorem Ending.maybeSynthesize_follows (e : Ending db run cur step)
    (hns : cur.stepType ≠ .synthesize)
    (hwhy : step.stepType = .verify ∨ (∀ row ∈ db.steps, row.runId = run.id →
        row.stepType ≠ .verify) ∧
      Coordinator.outputsOf .extract (db.stepRows run.id) step = [] ∧
      (step.stepType = .fetch → o.isSuccess = false))
    (h : Coordinator.maybeSynthesize ports env (Uow.begin db) run step o.codes = .ok u) :
    ∀ s ∈ u.newSteps, Follows ports db run step o s := by
  simp only [Coordinator.maybeSynthesize] at h
  split at h
  · obtain rfl := pure_ok_iff.mp h
    simp [Uow.begin]
  · rename_i hall
    rw [Bool.not_eq_true, List.any_eq_false] at hall
    simp only [bind_ok_iff] at h
    obtain ⟨planRef, _, _, _, failures, hfail, h⟩ := h
    have hkey := e.shape.key cur e.mem
    have hlt : cur.stepType.level < StepType.synthesize.level := by
      revert hns hkey
      cases cur.stepType <;> simp [StepType.level, KeyOk]
    obtain ⟨id, hst⟩ := addStep_ok h (e.fresh (t := .synthesize) rfl hlt)
    intro s hs
    rw [newSteps_of_stages hst, List.mem_singleton] at hs
    subst hs
    refine .synthesis rfl _ rfl rfl hfail ?_ hwhy
    intro row hr hrun hne
    simpa using hall row (by simp [Uow.begin, hr, hrun, hne])

/-- In a RESEARCH run nothing is verified before every source has ended. -/
theorem Ending.maybeVerify_follows (e : Ending db run cur step) (hres : run.mode = .research)
    (hsource : cur.isSource) (hfetch : step.stepType = .fetch → o.isSuccess = false)
    (hver : ∀ row ∈ db.steps, row.runId = run.id → row.stepType ≠ .verify)
    (h : Coordinator.maybeVerify ports env (Uow.begin db) run step o.codes = .ok u) :
    ∀ s ∈ u.newSteps, Follows ports db run step o s := by
  have hfind : (db.stepRows run.id).find? (·.stepType = .verify) = none := by
    rw [List.find?_eq_none]
    intro row hr
    rw [Tables.mem_stepRows] at hr
    simpa using hver row hr.1 hr.2
  have hns : cur.stepType ≠ .synthesize := by
    rcases hsource with h | h <;> simp [h]
  have hdone : ((db.stepRows run.id).filter fun row =>
        row.stepType = .fetch || row.stepType = .extract).any (Coordinator.isLive · step) = false →
      ∀ row ∈ db.steps, row.runId = run.id → row.isSource → Coordinator.isLive row step = false := by
    intro hany row hr hrun hsrc
    rw [List.any_eq_false] at hany
    have hmem : row ∈ (db.stepRows run.id).filter fun row =>
        row.stepType = .fetch || row.stepType = .extract := by
      simpa [hr, hrun, SearchStep.isSource] using hsrc
    simpa using hany row hmem
  have idle : (pure (Uow.begin db) : Except Exn Uow) = .ok u →
      ∀ s ∈ u.newSteps, Follows ports db run step o s := by
    intro hu
    obtain rfl := pure_ok_iff.mp hu
    simp [Uow.begin]
  simp only [Coordinator.maybeVerify] at h
  split at h
  · rename_i existing hsome
    rw [show (Uow.begin db).tables = db.toTables from rfl, hfind] at hsome
    cases hsome
  · split at h
    · -- nothing was extracted
      rename_i hempty
      split at h
      · exact e.maybeSynthesize_follows hns (.inr ⟨hver, List.isEmpty_iff.mp hempty, hfetch⟩) h
      · exact idle h
    · rename_i hne
      rw [bind_ok_iff] at h
      obtain ⟨planRef, _, h⟩ := h
      split at h
      · rename_i hall
        rw [bind_ok_iff] at h
        obtain ⟨_, hadm, h⟩ := h
        obtain rfl := Except.ok.inj hadm
        obtain ⟨id, hst⟩ := addStep_ok h (e.verify_fresh hfind)
        intro s hs
        rw [newSteps_of_stages hst, List.mem_singleton] at hs
        subst hs
        exact .verify rfl planRef _ rfl rfl (fun h => hne (List.isEmpty_iff.mpr h))
          (hdone (by simpa [Uow.begin] using hall))
      · -- only a FAST run would be early
        rw [bind_ok_iff] at h
        obtain ⟨admitted, hearly, h⟩ := h
        have hfalse : admitted = false := by
          rw [Coordinator.earlyVerify, if_pos (by simp [hres])] at hearly
          exact (pure_ok_iff.mp hearly).symm
        rw [hfalse] at h
        exact idle h

/-- **What follows a step of the fetch stage in a RESEARCH run.** -/
theorem Outcome.advance_follows (e : Ending db run cur step) (hres : run.mode = .research)
    (hopen : run.isTerminal = false) (hlevel : cur.stepType.level = 4) (hended : step.EndedAs o)
    (hver : cur.isSource → ∀ row ∈ db.steps, row.runId = run.id → row.stepType ≠ .verify)
    (h : o.advance ports env db run step = .ok (u, run')) :
    (∀ s ∈ u.newSteps, Follows ports db run step o s) ∧
      (cur.stepType = .fetch → o.isSuccess = true →
        ∃ s ∈ u.newSteps, s.stepType = .extract ∧ s.stepKey = extractKey step) := by
  have hty := e.same.stepType
  cases o with
  | success ref =>
      simp only [Outcome.advance, Coordinator.onSuccess, bind_ok_iff] at h
      obtain ⟨p, _, h⟩ := h
      rw [hty] at h
      cases hcur : cur.stepType with
      | fetch =>
          simp only [hcur, bind_ok_iff, pure_ok_iff, Prod.mk.injEq] at h
          obtain ⟨v, hv, rfl, rfl⟩ := h
          obtain ⟨r, hstepKey, hfresh⟩ := e.extract_fresh hcur
          have hkey : extractKey step = "extract:" ++ r := by
            rw [extractKey, hstepKey, Text.replaceFirst_append _ _ _ (by decide)]
          obtain ⟨id, hst⟩ := addStep_ok hv (by rw [← extractKey, hkey]; exact hfresh)
          rw [newSteps_of_stages hst]
          refine ⟨?_, fun _ _ => ⟨_, List.mem_singleton.mpr rfl, rfl, rfl⟩⟩
          intro s hs
          rw [List.mem_singleton] at hs
          subst hs
          exact .extract rfl rfl (hty.trans hcur) rfl
      | extract =>
          simp only [hcur, bind_ok_iff, pure_ok_iff, Prod.mk.injEq] at h
          obtain ⟨v, hv, rfl, rfl⟩ := h
          refine ⟨?_, by simp⟩
          exact e.maybeVerify_follows hres (.inr hcur) (by simp [hty, hcur]) (hver (.inr hcur)) hv
      | verify =>
          simp only [hcur, bind_ok_iff, pure_ok_iff, Prod.mk.injEq] at h
          obtain ⟨v, hv, rfl, rfl⟩ := h
          refine ⟨?_, by simp⟩
          exact e.maybeSynthesize_follows (by simp [hcur]) (.inl (hty.trans hcur)) hv
      | route | plan | discovery | select | synthesize | complete =>
          simp [hcur, StepType.level] at hlevel
  | failure error =>
      have hc : (decide ((if error.category = .cancelled then Disposition.cancelled
          else Disposition.failed) = .retryScheduled) || run.isTerminal) = false := by
        rw [hopen]
        split <;> rfl
      simp only [Outcome.advance, Coordinator.onFailure, hc, Bool.false_eq_true, if_false] at h
      rw [hty] at h
      cases hcur : cur.stepType with
      | fetch | extract =>
          simp only [hcur, bind_ok_iff, pure_ok_iff, Prod.mk.injEq] at h
          obtain ⟨v, hv, rfl, rfl⟩ := h
          have hsrc : cur.isSource := by simp [SearchStep.isSource, hcur]
          refine ⟨?_, by simp [Outcome.isSuccess, Outcome.outputRef]⟩
          exact e.maybeVerify_follows hres hsrc (fun _ => rfl) (hver hsrc) hv
      | verify =>
          simp only [hcur, bind_ok_iff, pure_ok_iff, Prod.mk.injEq] at h
          obtain ⟨v, hv, rfl, rfl⟩ := h
          refine ⟨?_, by simp⟩
          exact e.maybeSynthesize_follows (by simp [hcur]) (.inl (hty.trans hcur)) hv
      | route | plan | discovery | select | synthesize | complete =>
          simp [hcur, StepType.level] at hlevel

end Next

end Sana.Orchestration
