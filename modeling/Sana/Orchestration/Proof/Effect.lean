import Sana.Orchestration.Proof.Sides

/-!
# What a transaction leaves behind

Every transaction of the workflow does one of five things to the tables of runs,
steps and attempts: nothing, write one run's row, extend a lease, add a run with its
first step, or *move one live step*. `Move` is the interesting one: it rewrites one
step row and its run's row, adds the steps the coordinator staged and does one of
six things to the step's attempts. All invariants are proved against `Effect`, so a
change to one operation is met here and nowhere else.
-/

namespace Sana.Orchestration

open Sana.Lib

/-! ## Effects -/

/-- The lease is for the step's latest attempt, which is still open. -/
structure Holds (db : Db) (c : ClaimedStep) (a : StepAttempt) : Prop where
  mem : a ∈ db.attempts
  id : a.id = c.attempt.id
  stepId : a.stepId = c.stepId
  attemptNo : a.attemptNo = c.attempt.attemptNo
  leaseOwner : a.leaseOwner = c.attempt.leaseOwner
  isOpen : a.completedAt = none
  latest : a.attemptNo = db.latestAttemptNo c.stepId

/-- What an actor may do to the attempts of the step that moves from `cur` to `cur'`. -/
inductive AttChange (db db' : Db) (cur cur' : SearchStep) : Actor → Prop
  /-- A lease: the step starts and gets its next attempt. -/
  | opened (a : StepAttempt) (hready : cur.status = .ready) (hrun : cur'.status = .running)
      (hstep : a.stepId = cur.id) (hno : a.attemptNo = db.nextAttemptNo cur.id)
      (hopen : a.completedAt = none) (hatt : db'.attempts = db.attempts ++ [a])
      (hown : a.runId = cur.runId) {now : Time} :
      AttChange db db' cur cur' (.claimer cur.id now)
  /-- No lease: the step ends without having run. -/
  | skipped (hready : cur.status = .ready)
      (hend : cur'.status = .failed ∨ cur'.status = .cancelled)
      (hatt : db'.attempts = db.attempts) {now : Time} :
      AttChange db db' cur cur' (.claimer cur.id now)
  /-- A report: the step stops running and its latest attempt is completed. -/
  | finished (c : ClaimedStep) (limit : StepType → Nat) (a a' : StepAttempt)
      (hrun : cur.status = .running)
      (hstop : cur'.isTerminal = true ∨
        cur'.status = .retryWait ∧ a.attemptNo < limit cur.stepType)
      (hholds : Holds db c a) (hstep : cur.id = c.stepId)
      (hsame : a.Same a') (hdone : a'.completedAt.isSome = true)
      (hatt : db'.attempts = update (·.id) a.id (fun _ => a') db.attempts) :
      AttChange db db' cur cur' (.reporter c limit)
  /-- A release: the leases have run out, and the step waits to be claimed again. -/
  | expired (candidate : ReconcileCandidate) (now : Time) (hrun : cur.status = .running)
      (hready : cur'.status = .ready) (hid : candidate.stepId = cur.id)
      (hseen : candidate.status = .running)
      (hlease : ∃ lease, currentLease db.toTables cur.id = some lease ∧ lease ≤ now)
      (hall : ∀ a ∈ db.attempts, a.stepId = cur.id → a.completedAt = none → a.leasedUntil ≤ now)
      (hatt : db'.attempts = (expireAttempts db.toTables cur.id now).attempts) :
      AttChange db db' cur cur' (.reconciler candidate now)
  /-- A retry that is due. -/
  | due (hwait : cur.status = .retryWait) (hready : cur'.status = .ready)
      (hatt : db'.attempts = db.attempts) {candidate : ReconcileCandidate} {now : Time}
      (hid : candidate.stepId = cur.id) : AttChange db db' cur cur' (.reconciler candidate now)
  /-- A READY step that was sent again. -/
  | dispatched (hready : cur.status = .ready) (hready' : cur'.status = .ready)
      (hatt : db'.attempts = db.attempts) : AttChange db db' cur cur' .sender

/-- How the rows of a submission refer to each other. -/
structure SubmissionRows.Linked (rows : SubmissionRows) : Prop where
  message_author : rows.message.authorUserId ≠ none
  message_key : rows.message.idempotencyKey ≠ none
  response_message : rows.responseRun.messageId = rows.message.id
  response_conversation : rows.responseRun.conversationId = rows.message.conversationId
  response_queued : rows.responseRun.status = .queued
  run_message : rows.run.messageId = rows.message.id
  run_conversation : rows.run.conversationId = rows.message.conversationId
  run_response : rows.run.responseRunId = rows.responseRun.id
  run_queued : rows.run.status = .queued
  run_usage : rows.run.usage = {}
  run_sound : rows.run.Sound
  route_run : rows.route.runId = rows.run.id
  route_key : rows.route.stepKey = "route"
  route_type : rows.route.stepType = .route
  route_revision : rows.route.planRevision = 1
  announces : Announces rows.route rows.outbox
  event_run : rows.event.runId = rows.run.id
  event_first : rows.event.sequence = 1

/-- How a run and its step go together in a move. -/
structure Orderly (run run' : SearchRun) (cur' : SearchStep) (new : List SearchStep) : Prop where
  ran : run.Ran run'
  /-- Only a success is charged. -/
  spent : cur'.status ≠ .succeeded → run'.usage = run.usage
  /-- A run that has ended gets no more steps. -/
  closed : run'.isTerminal = true → new = []
  /-- A step of a run that had ended is cancelled, or handed out to be cancelled. -/
  cancelled : run.isTerminal = true → cur'.status = .cancelled ∨ cur'.status = .ready
  /-- A retry has a time. -/
  retry : cur'.status = .retryWait → cur'.retryAt.isSome = true

/-- One live step moves from `cur` to `cur'`, its run from `run` to `run'`. -/
structure Move (who : Actor) (db db' : Db) (cur cur' : SearchStep) (run run' : SearchRun)
    (new : List SearchStep) : Prop where
  cur_mem : cur ∈ db.steps
  cur_live : cur.isTerminal = false
  same : cur.Same cur'
  output : cur'.status = .succeeded ↔ cur'.outputRef.isSome = true
  steps : db'.steps = update (·.id) cur.id (fun _ => cur') db.steps ++ new
  run_mem : run ∈ db.runs
  run_id : run.id = cur.runId
  run_id' : run'.id = run.id
  runs : db'.runs = update (·.id) run.id (fun _ => run') db.runs
  sched : ∀ s ∈ new, Sched db run cur' s
  kind : ∃ k, ∀ s ∈ new, s.stepType = k
  progress : cur'.isTerminal = false ∨ run'.isTerminal = true ∨ new ≠ [] ∨
    ∃ row ∈ db.steps, row.runId = run.id ∧ Coordinator.isLive row cur' = true
  attempts : AttChange db db' cur cur' who
  orderly : Orderly run run' cur' new
  sides : Sides who db db' new
  /--
  Whoever ends a run, except past the hard deadline, leaves none of its steps live
  and settles its response.
  -/
  settled : run.isTerminal = true ∨ run'.isTerminal = false ∨
    (∃ now, who = .claimer cur.id now ∧ cur.status = .ready ∧ cur'.isTerminal = true ∧
      run.isTerminal = false ∧ run.budget.hardDeadlineAt ≤ now) ∨
    (∀ row ∈ db.steps, row.runId = run.id → Coordinator.isLive row cur' = false) ∧
    ∀ q ∈ db'.responseRuns, q.id = run.responseRunId → q.status ≠ .queued

/-- The rows of a submission were added, the first step as `route`. -/
structure Submitted (db db' : Db) (rows : SubmissionRows) (route : SearchStep) : Prop where
  linked : rows.Linked
  same : rows.route.Same route
  ready : route.status = .ready
  output : route.outputRef = none
  tables : db'.toTables = { db.toTables with
    messages := db.messages ++ [rows.message]
    responseRuns := db.responseRuns ++ [rows.responseRun]
    runs := db.runs ++ [rows.run]
    steps := db.steps ++ [route]
    events := db.events ++ [rows.event]
    outbox := db.outbox ++ [rows.outbox] }

namespace Submitted

variable {db db' : Db} {rows : SubmissionRows} {route : SearchStep}

theorem steps (h : Submitted db db' rows route) : db'.steps = db.steps ++ [route] := by
  rw [h.tables]

theorem runs (h : Submitted db db' rows route) : db'.runs = db.runs ++ [rows.run] := by
  rw [h.tables]

theorem attempts (h : Submitted db db' rows route) : db'.attempts = db.attempts := by
  rw [h.tables]

theorem runId (h : Submitted db db' rows route) : route.runId = rows.run.id :=
  h.same.runId.trans h.linked.route_run

theorem stepType (h : Submitted db db' rows route) : route.stepType = .route :=
  h.same.stepType.trans h.linked.route_type

theorem stepKey (h : Submitted db db' rows route) : route.stepKey = "route" :=
  h.same.stepKey.trans h.linked.route_key

theorem planRevision (h : Submitted db db' rows route) : route.planRevision = 1 :=
  h.same.planRevision.trans h.linked.route_revision

end Submitted

/-- What one transaction of an actor does. -/
inductive Effect (who : Actor) (db db' : Db) : Prop
  /-- Nothing the workflow looks at. -/
  | idle (hsteps : db'.steps = db.steps) (hruns : db'.runs = db.runs)
      (hatt : db'.attempts = db.attempts) (hsides : Sides who db db' [])
  /-- A run is ended from outside, or a model call is counted. -/
  | runWritten (run run' : SearchRun) (hmem : run ∈ db.runs) (hid : run'.id = run.id)
      (hterm : who = .auditor ∧ run'.status = run.status ∨
        who = .canceller run.id ∧ run.isTerminal = false ∧ run'.isTerminal = true)
      (hsteps : db'.steps = db.steps)
      (hruns : db'.runs = update (·.id) run.id (fun _ => run') db.runs)
      (hatt : db'.attempts = db.attempts) (hkept : run.Kept run')
      (hran : who ≠ .auditor → run.Ran run' ∧ run'.usage = run.usage)
      (hsides : Sides who db db' [])
  /-- A lease is extended. -/
  | renewed (a a' : StepAttempt) (hmem : a ∈ db.attempts) (hsame : a.Same a')
      (hopen : a.completedAt = none) (hopen' : a'.completedAt = none)
      (hsteps : db'.steps = db.steps) (hruns : db'.runs = db.runs)
      (hatt : db'.attempts = update (·.id) a.id (fun _ => a') db.attempts)
      (hsides : Sides who db db' [])
  /-- A run is submitted with its first step. -/
  | submitted (rows : SubmissionRows) (route : SearchStep) (hsub : Submitted db db' rows route)
      (hwho : who = .submitter)
  /-- A step moves. -/
  | moved (cur cur' : SearchStep) (run run' : SearchRun) (new : List SearchStep)
      (hmove : Move who db db' cur cur' run run' new)

/-! ## From saved rows to a move -/

section Save

variable {db db' : Db} {run : SearchRun} {cur step : SearchStep} {now : Time}

/-- The row a save leaves. -/
theorem writeTo_same : cur.Same (SearchStep.writeTo now step cur) :=
  ⟨rfl, rfl, rfl, rfl, rfl, rfl⟩

theorem writeTo_id (h : cur.Same step) : (SearchStep.writeTo now step cur).id = step.id := h.id.symm

theorem statusOf_writeTo (h : cur.Same step) (row : SearchStep) :
    Coordinator.statusOf row (SearchStep.writeTo now step cur) = Coordinator.statusOf row step := by
  simp only [Coordinator.statusOf, writeTo_id h]
  rfl

theorem isLive_writeTo (h : cur.Same step) (row : SearchStep) :
    Coordinator.isLive row (SearchStep.writeTo now step cur) = Coordinator.isLive row step := by
  rw [Coordinator.isLive, Coordinator.isLive, statusOf_writeTo h]

theorem outputAfter_writeTo (h : cur.Same step) (row : SearchStep) :
    outputAfter row (SearchStep.writeTo now step cur) = outputAfter row step := by
  simp only [outputAfter, writeTo_id h]
  rfl

theorem Sched.congr_run {run' : SearchRun} {s : SearchStep} (hrun : run'.id = run.id)
    (hs : Sched db run' step s) : Sched db run step s where
  runId := hs.runId.trans hrun
  planRevision := hs.planRevision
  status := hs.status
  outputRef := hs.outputRef
  key := hs.key
  ended := hs.ended
  above := hs.above
  below row hr hrow := hs.below row hr (hrow.trans hrun.symm)
  extract := hs.extract
  synthesis hsyn := by
    obtain ⟨i, hi, hiff⟩ := hs.synthesis hsyn
    exact ⟨i, hi, fun ref => by rw [hiff ref, hrun]⟩
  degraded hsyn i hi row hr hrow := hs.degraded hsyn i hi row hr (hrow.trans hrun.symm)
  planned := hs.planned

/-- Scheduling is judged alike by the step in memory and by the row it leaves. -/
theorem Sched.writeTo {env : Env} {run' : SearchRun} {s : SearchStep} (h : cur.Same step)
    (hrun : run'.id = run.id) (hs : Sched db run step s) :
    Sched db run' (SearchStep.writeTo now step cur) (Uow.stamp env s) where
  runId := hs.runId.trans hrun.symm
  planRevision := hs.planRevision
  status := hs.status
  outputRef := hs.outputRef
  key := hs.key
  ended := hs.ended
  above := by
    have := hs.above
    rw [h.stepType] at this
    exact this
  below row hr hrow hlt := by
    rw [isLive_writeTo h]
    exact hs.below row hr (hrow.trans hrun) hlt
  extract hex := by
    obtain ⟨r, h1, h2⟩ := hs.extract hex
    exact ⟨r, h.stepKey.symm.trans h1, h2⟩
  synthesis hsyn := by
    obtain ⟨i, hi, hiff⟩ := hs.synthesis hsyn
    refine ⟨i, hi, fun ref => ?_⟩
    rw [hiff ref]
    simp only [outputAfter_writeTo h, hrun]
  degraded hsyn i hi row hr hrow hns hbad := by
    rw [statusOf_writeTo h] at hbad
    exact hs.degraded hsyn i hi row hr (hrow.trans hrun) hns hbad
  planned hlevel := by
    have := hs.planned hlevel
    rw [h.stepType] at this
    exact this

end Save

/-! ## Claiming -/

/-- A lease names an attempt of a step, and the run of that step. -/
structure ClaimOk (db : Db) (c : ClaimedStep) : Prop where
  attempt : ∃ a ∈ db.attempts, a.id = c.attempt.id ∧ a.stepId = c.stepId ∧
    a.attemptNo = c.attempt.attemptNo ∧ a.leaseOwner = c.attempt.leaseOwner ∧ a.runId = c.runId
  step : ∃ s ∈ db.steps, s.id = c.stepId ∧ s.runId = c.runId

/-- The step and the run an operation works on, as they were loaded. -/
structure Loaded (db : Db) (run row : SearchRun) (cur step : SearchStep) : Prop where
  mem : cur ∈ db.steps
  same : cur.Same step
  status : step.status = cur.status
  outputRef : step.outputRef = cur.outputRef
  run_mem : row ∈ db.runs
  run_ran : row.Ran run
  run_status : run.status = row.status
  run_usage : run.usage = row.usage
  run_id : row.id = cur.runId

/-- A step without output has not succeeded. -/
theorem output_iff {s : SearchStep} (hst : s.status ≠ .succeeded) (ho : s.outputRef = none) :
    s.status = .succeeded ↔ s.outputRef.isSome = true := by
  simp [hst, ho]

/-- How a failure leaves the step: retried, or ended. -/
theorem failStep_ok {cfg : StoreSettings} {env : Env} {c : ClaimedStep} {error : TypedError}
    {run : SearchRun} {step s : SearchStep} {d : Disposition} {e : String}
    (h : failStep cfg env c error step run = .ok (s, d, e)) :
    ∃ t, SearchStep.Became step t step.outputRef s ∧ t ≠ .succeeded ∧ t ≠ .running ∧
      (run.isTerminal = true → t = .cancelled) ∧
      (d = .retryScheduled ∧ t = .retryWait ∧ s.retryAt.isSome = true ∧
          c.attempt.attemptNo < cfg.attemptLimit step.stepType ∨
        d ≠ .retryScheduled ∧ s.isTerminal = true) := by
  unfold failStep at h
  split at h
  · simp only [bind_ok_iff, pure_ok_iff, Prod.mk.injEq] at h
    obtain ⟨v, hv, rfl, rfl, rfl⟩ := h
    have hb := SearchStep.transition_ok hv
    exact ⟨_, hb, by simp, by simp, fun _ => rfl, .inr ⟨by simp, by
      simp [SearchStep.isTerminal, hb.status, StepStatus.isTerminal]⟩⟩
  · rename_i hrun
    have hopen : run.isTerminal ≠ true := fun ht => hrun (by simp [ht])
    dsimp only at h
    split at h
    · rename_i hretry
      simp only [Bool.and_eq_true, decide_eq_true_eq] at hretry
      simp only [bind_ok_iff, pure_ok_iff, Prod.mk.injEq] at h
      obtain ⟨v, hv, rfl, rfl, rfl⟩ := h
      exact ⟨_, SearchStep.retryLater_ok hv, by simp, by simp, fun ht => absurd ht hopen,
        .inl ⟨rfl, rfl, SearchStep.retryLater_retryAt hv, hretry.1.2⟩⟩
    · simp only [bind_ok_iff, pure_ok_iff, Prod.mk.injEq] at h
      obtain ⟨v, hv, rfl, rfl, rfl⟩ := h
      have hb := SearchStep.transition_ok hv
      exact ⟨_, hb, by simp, by simp, fun ht => absurd ht hopen, .inr ⟨by simp, by
        simp [SearchStep.isTerminal, hb.status, StepStatus.isTerminal]⟩⟩

namespace Loaded

variable {db db' : Db} {run row : SearchRun} {cur step step' : SearchStep} {who : Actor}

/-- A step that may still go somewhere is live. -/
theorem live (h : Loaded db run row cur step) {t : StepStatus}
    (ht : t ∈ step.status.transitions) : cur.isTerminal = false := by
  rw [h.status] at ht
  revert ht
  simp only [SearchStep.isTerminal]
  cases cur.status <;> simp [StepStatus.transitions, StepStatus.isTerminal]

/-- A live step has no output. -/
theorem output_none (h : Loaded db run row cur step) (hsh : Shape db.toTables)
    (hlive : cur.isTerminal = false) : step.outputRef = none := by
  rw [h.outputRef]
  refine hsh.output_none h.mem fun hs => ?_
  simp [SearchStep.isTerminal, hs, StepStatus.isTerminal] at hlive

theorem run_id' (h : Loaded db run row cur step) : run.id = cur.runId :=
  h.run_ran.id.trans h.run_id

/-- A loaded step that has ended in memory. -/
theorem ending (h : Loaded db run row cur step) (hsh : Shape db.toTables)
    (hlive : cur.isTerminal = false) (hsame : cur.Same step') (hterm : step'.isTerminal = true)
    (hout : step'.status = .succeeded ↔ step'.outputRef.isSome = true) {run' : SearchRun}
    (hrun : run'.id = run.id) : Ending db run' cur step' :=
  ⟨hsh, h.mem, hlive, (hrun.trans h.run_id').symm, hsame, hterm, hout⟩

/-- A step that was started and failed at once. -/
theorem ending_failed (h : Loaded db run row cur step) (hsh : Shape db.toTables) {s : SearchStep}
    (hs : step.start = .ok s) (hs' : s.fail = .ok step') {run' : SearchRun}
    (hrun : run'.id = run.id) : Ending db run' cur step' := by
  obtain ⟨htr, hsame, -, hout⟩ := SearchStep.start_ok hs
  obtain ⟨-, hsame', hst', hout'⟩ := SearchStep.transition_ok hs'
  have hlive := h.live htr
  refine h.ending hsh hlive ((h.same.trans hsame).trans hsame')
    (by simp [SearchStep.isTerminal, hst', StepStatus.isTerminal])
    (output_iff (by simp [hst']) ?_) hrun
  exact (hout'.trans hout).trans (h.output_none hsh hlive)

/-- A step that succeeded. -/
theorem ending_succeeded (h : Loaded db run row cur step) (hsh : Shape db.toTables)
    {ref : ArtifactRef} (hs : step.succeed ref = .ok step') {run' : SearchRun}
    (hrun : run'.id = run.id) : Ending db run' cur step' := by
  obtain ⟨htr, hsame, hst, hout⟩ := SearchStep.succeed_ok hs
  exact h.ending hsh (h.live htr) (h.same.trans hsame)
    (by simp [SearchStep.isTerminal, hst, StepStatus.isTerminal]) (by simp [hst, hout]) hrun

/-- A step whose failure was reported and is not retried. -/
theorem ending_reported (h : Loaded db run row cur step) (hsh : Shape db.toTables)
    {env : Env} {cfg : StoreSettings} {c : ClaimedStep} {error : TypedError} {d : Disposition}
    {ev : String} (hs : failStep cfg env c error step run = .ok (step', d, ev))
    (hd : d ≠ .retryScheduled) : Ending db run cur step' := by
  obtain ⟨t, ⟨htr, hsame, hst, hout⟩, hns, -, -, hor⟩ := failStep_ok hs
  have hlive := h.live htr
  refine h.ending hsh hlive (h.same.trans hsame) ?_
    (output_iff (by rw [hst]; exact hns) (hout.trans (h.output_none hsh hlive))) rfl
  rcases hor with ⟨hr, -⟩ | ⟨-, hterm⟩
  · exact absurd hr hd
  · exact hterm

/-- Saving a step that the database holds live is a move. -/
theorem move (h : Loaded db run row cur step) (env : Env) (row' : SearchRun)
    (new : List SearchStep)
    (hlive : cur.isTerminal = false) (hsame : cur.Same step')
    (hout : step'.status = .succeeded ↔ step'.outputRef.isSome = true)
    (hsteps : db'.steps = update (·.id) step'.id (SearchStep.writeTo env.dbNow step') db.steps
      ++ new.map (Uow.stamp env))
    (hruns : db'.runs = update (·.id) row.id (fun _ => row') db.runs)
    (hsched : ∀ s ∈ new, Sched db run step' s) (hkind : ∃ k, ∀ s ∈ new, s.stepType = k)
    (hprog : step'.isTerminal = false ∨ row'.isTerminal = true ∨ new ≠ [] ∨
      ∃ r ∈ db.steps, r.runId = run.id ∧ Coordinator.isLive r step' = true)
    (hord : Orderly row row' step' new) (hsides : Sides who db db' (new.map (Uow.stamp env)))
    (hsettled : row.isTerminal = true ∨ row'.isTerminal = false ∨
      (∃ now, who = .claimer cur.id now ∧ cur.status = .ready ∧ step'.isTerminal = true ∧
        row.isTerminal = false ∧ row.budget.hardDeadlineAt ≤ now) ∨
      (∀ r ∈ db.steps, r.runId = run.id → Coordinator.isLive r step' = false) ∧
      ∀ q ∈ db'.responseRuns, q.id = row.responseRunId → q.status ≠ .queued)
    (hatt : AttChange db db' cur (SearchStep.writeTo env.dbNow step' cur) who) : Effect who db db' := by
  refine .moved cur (SearchStep.writeTo env.dbNow step' cur) row row' (new.map (Uow.stamp env)) {
    cur_mem := h.mem, cur_live := hlive, same := writeTo_same, output := hout
    steps := ?_, run_mem := h.run_mem, run_id := h.run_id, run_id' := hord.ran.id, runs := hruns
    sched := ?_, kind := ?_, progress := ?_, attempts := hatt, orderly := ?_, sides := hsides
    settled := ?_ }
  · rw [hsteps, hsame.id]
    exact congrArg (· ++ _) (update_eq_const db.valid.pk_steps h.mem)
  · intro s hs
    obtain ⟨x, hx, rfl⟩ := List.mem_map.mp hs
    exact (hsched x hx).writeTo hsame h.run_ran.id.symm
  · obtain ⟨k, hk⟩ := hkind
    refine ⟨k, fun s hs => ?_⟩
    obtain ⟨x, hx, rfl⟩ := List.mem_map.mp hs
    exact hk x hx
  · simp only [isLive_writeTo hsame, ← h.run_ran.id]
    simpa [SearchStep.isTerminal, SearchStep.writeTo] using hprog
  · exact ⟨hord.ran, hord.spent, fun ht => by rw [hord.closed ht]; rfl, hord.cancelled,
      hord.retry⟩
  · simp only [isLive_writeTo hsame, ← h.run_ran.id]
    exact hsettled

/-- A move that schedules nothing: the step stays live, or its run has ended. -/
theorem move_alone (h : Loaded db run row cur step) (env : Env) (row' : SearchRun)
    (hlive : cur.isTerminal = false) (hsame : cur.Same step')
    (hout : step'.status = .succeeded ↔ step'.outputRef.isSome = true)
    (hsteps : db'.steps = update (·.id) step'.id (SearchStep.writeTo env.dbNow step') db.steps)
    (hruns : db'.runs = update (·.id) row.id (fun _ => row') db.runs)
    (hprog : step'.isTerminal = false ∨ row'.isTerminal = true)
    (hord : Orderly row row' step' []) (hsides : Sides who db db' [])
    (hsettled : row.isTerminal = true ∨ row'.isTerminal = false ∨
      ∃ now, who = .claimer cur.id now ∧ cur.status = .ready ∧ step'.isTerminal = true ∧
        row.isTerminal = false ∧ row.budget.hardDeadlineAt ≤ now)
    (hatt : AttChange db db' cur (SearchStep.writeTo env.dbNow step' cur) who) : Effect who db db' :=
  h.move env row' [] hlive hsame hout (by simpa using hsteps) hruns (by simp)
    ⟨.route, by simp⟩ (hprog.imp_right .inl) hord hsides (hsettled.imp_right (.imp_right .inl)) hatt

/-- A run row that is not written stays as it is. -/
theorem runs_unsaved (h : Loaded db run row cur step) (hr : db'.runs = db.runs) :
    db'.runs = update (·.id) row.id (fun _ => row) db.runs := by
  rw [hr, update_self db.valid.pk_runs h.run_mem]

/-- A saved run replaces its row. -/
theorem runs_saved (h : Loaded db run row cur step) {run' : SearchRun} (hran : run.Ran run')
    (hr : db'.runs = update (·.id) run'.id run'.writeTo db.runs) :
    db'.runs = update (·.id) row.id (fun _ => run'.writeTo row) db.runs := by
  rw [hr, hran.id, h.run_ran.id]
  exact update_eq_const db.valid.pk_runs h.run_mem

theorem isTerminal_row (h : Loaded db run row cur step) : row.isTerminal = run.isTerminal := by
  rw [SearchRun.isTerminal, SearchRun.isTerminal, h.run_status]

/-- A run that is not saved. -/
theorem orderly_unsaved {row : SearchRun} (hst : step'.status = .cancelled ∨ step'.status = .ready) :
    Orderly row row step' [] where
  ran := .rfl
  spent _ := rfl
  closed _ := rfl
  cancelled _ := hst
  retry hr := by rcases hst with hst | hst <;> simp [hst] at hr

/-- A run that was open when it was loaded. -/
theorem orderly_saved (h : Loaded db run row cur step) {run' : SearchRun} {new : List SearchStep}
    (hopen : run.isTerminal = false) (hran : run.Ran run')
    (husage : step'.status ≠ .succeeded → run'.usage = run.usage)
    (hclosed : run'.isTerminal = true → new = [])
    (hretry : step'.status = .retryWait → step'.retryAt.isSome = true) :
    Orderly row (run'.writeTo row) step' new where
  ran := (h.run_ran.trans hran).writeTo
  spent hs := (husage hs).trans h.run_usage
  closed := hclosed
  cancelled ht := by
    rw [h.isTerminal_row, hopen] at ht
    cases ht
  retry := hretry

end Loaded

section Claim

variable {db db' : Db} {run row : SearchRun} {cur step : SearchStep} {env : Env}
  {ports : Ports} {cfg : StoreSettings} {res : ClaimResult} {worker : String}

theorem claimCancelled_effect (h : Loaded db run row cur step)
    (hsh : Shape db.toTables) (hready : step.status = .ready) (hterm : run.isTerminal = true)
    (hop : claimCancelled env db step = .ok (res, db')) :
    Effect (.claimer cur.id env.now) db db' ∧ res.claimed = none := by
  simp only [claimCancelled, bind_ok_iff, pure_ok_iff, Prod.mk.injEq] at hop
  obtain ⟨s, hs, t, hsave, d, hcommit, rfl, rfl⟩ := hop
  obtain ⟨htr, hsame, hst, hout⟩ := SearchStep.transition_ok hs
  obtain rfl := Tables.saveStep_ok hsave
  have hflush := commit_ok hcommit
  have hlive := h.live htr
  have hrow : row.isTerminal = true := h.isTerminal_row.trans hterm
  refine ⟨h.move_alone env row hlive (h.same.trans hsame)
    (output_iff (by simp [hst]) (hout.trans (h.output_none hsh hlive)))
    (by rw [hflush]; simp [Uow.flushed]) (h.runs_unsaved (by rw [hflush]; rfl))
    (.inr hrow) (Loaded.orderly_unsaved (.inl hst))
    (.of_commit hcommit rfl rfl rfl rfl rfl rfl rfl rfl rfl) (.inl hrow) ?_, rfl⟩
  refine .skipped (h.status ▸ hready) (.inr (by simp [SearchStep.writeTo, hst])) ?_
  rw [hflush]
  simp [Uow.flushed]

theorem claimPastHardDeadline_effect (h : Loaded db run row cur step) (hsh : Shape db.toTables)
    (hready : step.status = .ready) (hopen : run.isTerminal = false)
    (hlate : run.budget.hardDeadlineAt ≤ env.now)
    (hop : claimPastHardDeadline env db step run = .ok (res, db')) :
    Effect (.claimer cur.id env.now) db db' ∧ res.claimed = none := by
  simp only [claimPastHardDeadline, bind_ok_iff, pure_ok_iff, Prod.mk.injEq] at hop
  obtain ⟨s, hs, s', hs', r, hr, d, hsave, rfl, rfl⟩ := hop
  obtain ⟨htr, hsame, -, hout⟩ := SearchStep.start_ok hs
  obtain ⟨-, hsame', hst', hout'⟩ := SearchStep.transition_ok hs'
  obtain ⟨hran, hrst, husage⟩ := SearchRun.fail_ok hr
  obtain ⟨hsteps, hruns, hatt⟩ := saveAndCommit_ok hsave
  have hlive := h.live htr
  have hnone : s'.outputRef = none := (hout'.trans hout).trans (h.output_none hsh hlive)
  refine ⟨h.move_alone env (r.writeTo row) hlive
    ((h.same.trans hsame).trans hsame')
    (output_iff (by simp [hst']) hnone) (by simpa [Uow.begin] using hsteps)
    (h.runs_saved hran hruns)
    (.inr (by simp [SearchRun.isTerminal, SearchRun.writeTo, hrst, RunStatus.isTerminal]))
    (h.orderly_saved hopen hran (fun _ => husage) (fun _ => rfl) (by simp [hst']))
    (.of_saved h.run_mem (hran.id.trans h.run_ran.id) hsave rfl rfl rfl rfl rfl rfl rfl rfl rfl)
    (.inr (.inr ⟨env.now, rfl, h.status ▸ hready,
      by simp [SearchStep.isTerminal, hst', StepStatus.isTerminal], h.isTerminal_row.trans hopen,
      h.run_ran.budget ▸ hlate⟩)) ?_, rfl⟩
  exact .skipped (h.status ▸ hready) (.inl (by simp [SearchStep.writeTo, hst']))
    (by simpa [Uow.begin] using hatt)

theorem claimPastPhaseDeadline_effect (h : Loaded db run row cur step)
    (hsh : Shape db.toTables) (hready : step.status = .ready) (hterm : run.isTerminal = false)
    (hop : claimPastPhaseDeadline ports env db step run = .ok (res, db')) :
    Effect (.claimer cur.id env.now) db db' ∧ res.claimed = none := by
  simp only [claimPastPhaseDeadline, bind_ok_iff, pure_ok_iff, Prod.mk.injEq] at hop
  obtain ⟨r, hr, s, hs, s', hs', ⟨u, r'⟩, hfail, d, hsave, rfl, rfl⟩ := hop
  obtain ⟨hran, hrterm, husage⟩ := startOrResume_ok hr
  obtain ⟨-, -, hst', -⟩ := SearchStep.transition_ok hs'
  have e : Ending db r cur s' := h.ending_failed hsh hs hs' hran.id
  have hadv := onFailure_ok e (by simp) (hrterm hterm) hfail
  obtain ⟨hsteps, hruns, hatt⟩ := saveAndCommit_ok hsave
  rw [hadv.steps] at hsteps
  rw [hadv.runs] at hruns
  rw [hadv.attempts, hadv.newAttempts, List.append_nil] at hatt
  have hall := hran.trans hadv.ran
  refine ⟨h.move env (r'.writeTo row) u.newSteps e.live e.same e.output hsteps
    (h.runs_saved hall hruns) ?_ hadv.kind (.inr ?_)
    (h.orderly_saved hterm hall (fun _ => hadv.usage.trans husage)
      (hadv.closed (hrterm hterm)) (by simp [hst']))
    (hadv.sides h.run_mem (hall.id.trans h.run_ran.id) (h.isTerminal_row.trans hterm)
      (hran.responseRunId.trans h.run_ran.responseRunId) hsave) (.inr ?_) ?_, rfl⟩
  · intro x hx
    exact (hadv.sched x hx).congr_run hran.id
  · simpa [SearchRun.isTerminal, SearchRun.writeTo, hran.id] using hadv.progress
  · rcases hadv.settled (hrterm hterm) hsave with hopen | ⟨hlone, hq⟩
    · exact .inl hopen
    · rw [hran.responseRunId, h.run_ran.responseRunId] at hq
      rw [hran.id] at hlone
      exact .inr (.inr ⟨hlone, hq⟩)
  · exact .skipped (h.status ▸ hready) (.inl (by simp [SearchStep.writeTo, hst'])) hatt

theorem claimLease_effect (h : Loaded db run row cur step) (hsh : Shape db.toTables)
    (hterm : run.isTerminal = false)
    (hop : claimLease cfg env db step run worker = .ok (res, db')) :
    Effect (.claimer cur.id env.now) db db' ∧ ∃ c, res.claimed = some c ∧ ClaimOk db' c := by
  simp only [claimLease, bind_ok_iff, pure_ok_iff, Prod.mk.injEq, Uow.newUuid] at hop
  obtain ⟨r, hr, ⟨s, a⟩, hlease, d, hsave, rfl, rfl⟩ := hop
  obtain ⟨hran, hropen, husage⟩ := startOrResume_ok hr
  obtain ⟨hready, ⟨htr, hsame, hst, hout⟩, hstep, hno, hopen, harun⟩ := leaseClaim_ok hlease
  obtain ⟨hsteps, hruns, hatt⟩ := saveAndCommit_ok hsave
  have hlive := h.live htr
  have hall := h.same.trans hsame
  have hsteps' : d.steps = update (·.id) s.id (SearchStep.writeTo env.dbNow s) db.steps := by
    simpa [Uow.begin] using hsteps
  have hatt' : d.attempts = db.attempts ++ [a] := by simpa [Uow.begin] using hatt
  refine ⟨h.move_alone env (r.writeTo row) hlive hall
    (output_iff (by simp [hst]) (hout.trans (h.output_none hsh hlive))) hsteps'
    (h.runs_saved hran hruns)
    (.inl (by simp [SearchStep.isTerminal, hst, StepStatus.isTerminal]))
    (h.orderly_saved hterm hran (fun _ => husage) (fun _ => rfl) (by simp [hst]))
    (.of_saved h.run_mem (hran.id.trans h.run_ran.id) hsave rfl rfl rfl rfl rfl rfl rfl rfl rfl)
    (.inr (.inl (hropen hterm))) ?_, _, rfl, ?_, ?_⟩
  · refine .opened a (h.status ▸ hready) (by simp [SearchStep.writeTo, hst])
      (hstep.trans h.same.id) ?_ hopen hatt' (harun.trans h.same.runId)
    rw [hno, h.same.id]
  · exact ⟨a, by simp [hatt'], rfl, hstep.trans hsame.id.symm, rfl, rfl,
      harun.trans hsame.runId.symm⟩
  · refine ⟨SearchStep.writeTo env.dbNow s cur, ?_, hall.id.symm, hall.runId.symm⟩
    rw [hsteps']
    exact mem_update_self h.mem hall.id.symm

/-- The step and the run of a claim. -/
theorem loaded_of_claim {id : Uuid} (hstep : db.getStep id = .ok (some step))
    (hrun : db.getRun step.runId = .ok (some run)) :
    ∃ cur row, Loaded db run row cur step ∧ cur.id = id := by
  obtain ⟨cur, hmem, hid, hsame, hst, hout⟩ := Tables.getStep_some hstep
  obtain ⟨row, hrmem, hrid, hran, hrst, husage⟩ := Tables.getRun_some hrun
  exact ⟨cur, row, ⟨hmem, hsame, hst, hout, hrmem, hran, hrst, husage, hrid.trans hsame.runId⟩, hid⟩

/-- What a claim does, and the lease it hands out. -/
theorem claim_effect {id : Uuid} (hsh : Shape db.toTables)
    (hop : claim ports cfg env db id worker = .ok (res, db')) :
    Effect (.claimer id env.now) db db' ∧ ∀ c, res.claimed = some c → ClaimOk db' c := by
  have quiet : ∀ {d : Disposition}, (pure (ClaimResult.skipped d, db) : Except Exn _)
      = .ok (res, db') →
      Effect (.claimer id env.now) db db' ∧ ∀ c, res.claimed = some c → ClaimOk db' c := by
    intro d hq
    obtain ⟨rfl, rfl⟩ := Prod.mk.inj (pure_ok_iff.mp hq)
    exact ⟨.idle rfl rfl rfl .rfl, by simp [ClaimResult.skipped]⟩
  have skip : Effect (.claimer id env.now) db db' ∧ res.claimed = none →
      Effect (.claimer id env.now) db db' ∧ ∀ c, res.claimed = some c → ClaimOk db' c := by
    rintro ⟨he, hn⟩
    exact ⟨he, by simp [hn]⟩
  simp only [claim, bind_ok_iff] at hop
  obtain ⟨found, hstep, hop⟩ := hop
  cases found with
  | none => exact quiet hop
  | some step =>
      dsimp only at hop
      split at hop
      · exact quiet hop
      · rename_i hready
        rw [bind_ok_iff] at hop
        obtain ⟨foundRun, hrun, hop⟩ := hop
        cases foundRun with
        | none => exact quiet hop
        | some run =>
            obtain ⟨cur, row, h, rfl⟩ := loaded_of_claim hstep hrun
            rw [not_not] at hready
            dsimp only at hop
            split at hop
            · rename_i hterm
              exact skip (claimCancelled_effect h hsh hready hterm hop)
            · rename_i hterm
              rw [Bool.not_eq_true] at hterm
              split at hop
              · rename_i hlate
                exact skip (claimPastHardDeadline_effect h hsh hready hterm hlate hop)
              · split at hop
                · exact skip (claimPastPhaseDeadline_effect h hsh hready hterm hop)
                · obtain ⟨he, c, hc, hok⟩ := claimLease_effect h hsh hterm hop
                  refine ⟨he, fun c' hc' => ?_⟩
                  obtain rfl := Option.some.inj (hc.symm.trans hc')
                  exact hok

end Claim

/-! ## Reporting -/

section Report

variable {db db' : Db} {run row : SearchRun} {cur step : SearchStep} {env : Env}
  {ports : Ports} {cfg : StoreSettings} {c : ClaimedStep} {a : StepAttempt} {d : Disposition}
  {limit : StepType → Nat}

/-- **The fence lets exactly the holder of the latest attempt through.** -/
theorem isCurrentAttempt_iff (hc : ClaimOk db c) :
    isCurrentAttempt db.toTables c = true ↔ ∃ a, Holds db c a := by
  obtain ⟨a, hmem, hid, hstep, hno, howner, -⟩ := hc.attempt
  have hl : lookup (·.id) c.attempt.id db.attempts = some a := by
    rw [← hid]; exact lookup_of_mem db.valid.pk_attempts hmem
  simp only [isCurrentAttempt, hl, Bool.and_eq_true, decide_eq_true_eq, Option.isNone_iff_eq_none]
  constructor
  · rintro ⟨⟨hopen, hlatest⟩, _⟩
    exact ⟨a, hmem, hid, hstep, hno, howner, hopen, hno.trans hlatest.symm⟩
  · rintro ⟨b, hb⟩
    have : b = a := eq_of_key_eq db.valid.pk_attempts hb.mem hmem (hb.id.trans hid.symm)
    subst this
    exact ⟨⟨hb.isOpen, hb.latest.symm.trans hb.attemptNo⟩, howner⟩

/-- What a report that passes the fence works on. -/
theorem fenced_some (h : fenced db.toTables c = .ok (some step)) :
    db.getStep c.stepId = .ok (some step) ∧ step.status = .running ∧
      isCurrentAttempt db.toTables c = true := by
  simp only [fenced, bind_ok_iff] at h
  obtain ⟨found, hstep, h⟩ := h
  cases found with
  | none => simp at h
  | some s =>
      dsimp only at h
      split at h
      · rename_i hcur
        obtain rfl := Option.some.inj (pure_ok_iff.mp h)
        simp only [Bool.and_eq_true, decide_eq_true_eq] at hcur
        exact ⟨hstep, hcur⟩
      · simp at h

/-- The step and the run of a report, loaded under its lease. -/
theorem loaded_of_report (hc : ClaimOk db c) (hstep : db.getStep c.stepId = .ok (some step))
    (hrun : db.getRun c.runId = .ok (some run)) :
    ∃ cur row, Loaded db run row cur step ∧ cur.id = c.stepId := by
  obtain ⟨cur, hmem, hid, hsame, hst, hout⟩ := Tables.getStep_some hstep
  obtain ⟨row, hrmem, hrid, hran, hrst, husage⟩ := Tables.getRun_some hrun
  obtain ⟨s, hs, hsid, hsrun⟩ := hc.step
  have : s = cur := eq_of_key_eq db.valid.pk_steps hs hmem (hsid.trans hid.symm)
  subst this
  exact ⟨s, row, ⟨hmem, hsame, hst, hout, hrmem, hran, hrst, husage, hrid.trans hsrun.symm⟩, hsid⟩

/-- Completing the held attempt, and stopping the step, is a change the step's attempts allow. -/
theorem attChange_finished (fin : StepAttempt) {cur' : SearchStep} {at' : Time} (ha : Holds db c a)
    (hid : cur.id = c.stepId) (hrun : cur.status = .running)
    (hstop : cur'.isTerminal = true ∨
      cur'.status = .retryWait ∧ c.attempt.attemptNo < limit cur.stepType)
    (hfin : fin.id = c.attempt.id) (hdone : fin.completedAt = some at')
    (hatt : db'.attempts = update (·.id) fin.id fin.writeTo db.attempts) :
    AttChange db db' cur cur' (.reporter c limit) := by
  rw [← ha.attemptNo] at hstop
  refine .finished c limit a (fin.writeTo a) hrun hstop ha hid ⟨rfl, rfl, rfl, rfl, rfl, rfl⟩
    (by simp [StepAttempt.writeTo, hdone]) ?_
  rw [hatt, hfin, ← ha.id]
  exact update_eq_const db.valid.pk_attempts ha.mem

theorem succeedCancelled_effect (h : Loaded db run row cur step) (hsh : Shape db.toTables)
    (ha : Holds db c a) (hid : cur.id = c.stepId) (hrun : step.status = .running)
    (hterm : run.isTerminal = true)
    (hop : succeedCancelled env db c step run = .ok (d, db')) :
    Effect (.reporter c limit) db db' := by
  simp only [succeedCancelled, bind_ok_iff, pure_ok_iff, Prod.mk.injEq] at hop
  obtain ⟨fin, hfin, s, hs, t, hcomplete, t', hsave, d', hcommit, rfl, rfl⟩ := hop
  obtain ⟨htr, hsame, hst, hout⟩ := SearchStep.transition_ok hs
  obtain rfl := Tables.completeAttempt_ok hcomplete
  obtain rfl := Tables.saveStep_ok hsave
  have hflush := commit_ok hcommit
  have hfin' := StepAttempt.fail_ok hfin
  have hlive := h.live htr
  have hrow : row.isTerminal = true := h.isTerminal_row.trans hterm
  refine h.move_alone env row hlive (h.same.trans hsame)
    (output_iff (by simp [hst]) (hout.trans (h.output_none hsh hlive)))
    (by rw [hflush]; simp [Uow.flushed, addEvent, Uow.newUuid])
    (h.runs_unsaved (by rw [hflush]; rfl)) (.inr hrow) (Loaded.orderly_unsaved (.inl hst))
    ?_ (.inl hrow) ?_
  · refine .of_events (by rw [hflush]; rfl) (by rw [hflush]; rfl) (by rw [hflush]; rfl)
      (.event _ row h.run_mem h.run_ran.id ?_ (by rw [hflush]; rfl))
      (by rw [hflush]; simp [Uow.flushed, addEvent, Uow.newUuid])
      (by rw [hflush]; simp [Uow.flushed, addEvent, Uow.newUuid])
    rw [← h.run_ran.id]
    rfl
  refine attChange_finished fin ha hid (h.status ▸ hrun)
    (.inl (by simp [SearchStep.isTerminal, SearchStep.writeTo, hst, StepStatus.isTerminal]))
    hfin'.1 hfin'.2 ?_
  rw [hflush]
  simp [Uow.flushed, addEvent, Uow.newUuid]

theorem succeedRun_effect {result : StepExecutionResult} (h : Loaded db run row cur step)
    (hsh : Shape db.toTables) (ha : Holds db c a) (hid : cur.id = c.stepId)
    (hrun : step.status = .running) (hterm : run.isTerminal = false)
    (hop : succeedRun ports env db c result step run = .ok (d, db')) :
    Effect (.reporter c limit) db db' := by
  simp only [succeedRun, bind_ok_iff, pure_ok_iff, Prod.mk.injEq] at hop
  obtain ⟨fin, hfin, s, hs, r, hr, ⟨u, r'⟩, hadvance, t, hcomplete, d', hsave, rfl, rfl⟩ := hop
  obtain ⟨-, -, hst, -⟩ := SearchStep.succeed_ok hs
  obtain ⟨hran, hrst, -⟩ := SearchRun.recordUsage_ok hr
  have hopen : r.isTerminal = false := by
    rw [SearchRun.isTerminal, hrst]
    exact hterm
  have hfin' := StepAttempt.succeed_ok hfin
  have e : Ending db r cur s := h.ending_succeeded hsh hs hran.id
  have hadv := onSuccess_ok e hst hadvance
  obtain rfl := Tables.completeAttempt_ok hcomplete
  obtain ⟨hsteps, hruns, hatt⟩ := saveAndCommit_ok hsave
  simp only [hadv.steps, hadv.runs, hadv.attempts, hadv.newAttempts, List.append_nil]
    at hsteps hruns hatt
  have hall := hran.trans hadv.ran
  refine h.move env (r'.writeTo row) u.newSteps e.live e.same e.output hsteps
    (h.runs_saved hall hruns) ?_ hadv.kind (.inr ?_)
    (h.orderly_saved hterm hall (by simp [hst]) (hadv.closed hopen) (by simp [hst]))
    (hadv.sides h.run_mem (hall.id.trans h.run_ran.id) (h.isTerminal_row.trans hterm)
      (hran.responseRunId.trans h.run_ran.responseRunId) hsave) (.inr ?_) ?_
  · intro x hx
    exact (hadv.sched x hx).congr_run hran.id
  · simpa [SearchRun.isTerminal, SearchRun.writeTo, hran.id] using hadv.progress
  · rcases hadv.settled hopen hsave with hend | ⟨hlone, hq⟩
    · exact .inl hend
    · rw [hran.responseRunId, h.run_ran.responseRunId] at hq
      rw [hran.id] at hlone
      exact .inr (.inr ⟨hlone, hq⟩)
  · exact attChange_finished fin ha hid (h.status ▸ hrun)
      (.inl (by simp [SearchStep.isTerminal, SearchStep.writeTo, hst, StepStatus.isTerminal]))
      hfin'.1 hfin'.2 hatt

/-- What a success report does. -/
theorem succeed_effect {result : StepExecutionResult} (hsh : Shape db.toTables)
    (hc : ClaimOk db c) (hop : succeed ports env db c result = .ok (d, db')) :
    Effect (.reporter c limit) db db' := by
  have quiet : (pure (Disposition.stale, db) : Except Exn _) = .ok (d, db') →
      Effect (.reporter c limit) db db' := by
    intro hq
    obtain ⟨rfl, rfl⟩ := Prod.mk.inj (pure_ok_iff.mp hq)
    exact .idle rfl rfl rfl .rfl
  simp only [succeed, bind_ok_iff] at hop
  obtain ⟨found, hfenced, hop⟩ := hop
  cases found with
  | none => exact quiet hop
  | some step =>
      obtain ⟨hstep, hrunning, hcur⟩ := fenced_some hfenced
      obtain ⟨a, ha⟩ := (isCurrentAttempt_iff hc).mp hcur
      simp only [bind_ok_iff] at hop
      obtain ⟨foundRun, hrun, hop⟩ := hop
      cases foundRun with
      | none => exact quiet hop
      | some run =>
          obtain ⟨cur, row, h, hid⟩ := loaded_of_report hc hstep hrun
          dsimp only at hop
          split at hop
          · rename_i hterm
            exact succeedCancelled_effect h hsh ha hid hrunning hterm hop
          · rename_i hterm
            rw [Bool.not_eq_true] at hterm
            exact succeedRun_effect h hsh ha hid hrunning hterm hop

/-- What a failure report does. -/
theorem fail_effect {error : TypedError} (hsh : Shape db.toTables) (hc : ClaimOk db c)
    (hop : fail ports cfg env db c error = .ok (d, db')) :
    Effect (.reporter c cfg.attemptLimit) db db' := by
  have quiet : (pure (Disposition.stale, db) : Except Exn _) = .ok (d, db') →
      Effect (.reporter c cfg.attemptLimit) db db' := by
    intro hq
    obtain ⟨rfl, rfl⟩ := Prod.mk.inj (pure_ok_iff.mp hq)
    exact .idle rfl rfl rfl .rfl
  simp only [fail, bind_ok_iff] at hop
  obtain ⟨found, hfenced, hop⟩ := hop
  cases found with
  | none => exact quiet hop
  | some step =>
      obtain ⟨hstep, hrunning, hcur⟩ := fenced_some hfenced
      obtain ⟨a, ha⟩ := (isCurrentAttempt_iff hc).mp hcur
      simp only [bind_ok_iff] at hop
      obtain ⟨foundRun, hrun, hop⟩ := hop
      cases foundRun with
      | none => exact quiet hop
      | some run =>
          obtain ⟨cur, row, h, hid⟩ := loaded_of_report hc hstep hrun
          simp only [bind_ok_iff, pure_ok_iff, Prod.mk.injEq] at hop
          obtain ⟨fin, hfin, ⟨s, d', ev⟩, hs, ⟨u, r'⟩, hadvance, t, hcomplete, db₁, hsave, rfl, rfl⟩
            := hop
          obtain ⟨t', ⟨htr, hsame, hst, hout⟩, hns, hnr, hcancel, hd⟩ := failStep_ok hs
          have hfin' := StepAttempt.fail_ok hfin
          have hlive := h.live htr
          have hall := h.same.trans hsame
          have hiff := output_iff (by rw [hst]; exact hns) (hout.trans (h.output_none hsh hlive))
          obtain rfl := Tables.completeAttempt_ok hcomplete
          obtain ⟨hsteps, hruns, hatt⟩ := saveAndCommit_ok hsave
          have hstop : (SearchStep.writeTo env.dbNow s cur).isTerminal = true ∨
              (SearchStep.writeTo env.dbNow s cur).status = .retryWait ∧
                c.attempt.attemptNo < cfg.attemptLimit cur.stepType := by
            rcases hd with ⟨-, hwait, -, hlt⟩ | ⟨-, hend⟩
            · rw [h.same.stepType] at hlt
              exact .inr ⟨hst.trans hwait, hlt⟩
            · exact .inl hend
          by_cases hq : d' = .retryScheduled ∨ run.isTerminal = true
          · -- the coordinator was not asked
            obtain ⟨rfl, rfl⟩ := onFailure_quiet hq hadvance
            simp only [Uow.begin, List.append_nil, List.map_nil] at hsteps hruns hatt
            refine h.move_alone env (r'.writeTo row) hlive hall hiff hsteps
              (h.runs_saved .rfl hruns) ?_ ?_
              (.of_saved h.run_mem h.run_ran.id hsave rfl rfl rfl rfl rfl rfl rfl rfl rfl) ?_
              (attChange_finished fin ha hid (h.status ▸ hrunning) hstop hfin'.1 hfin'.2 hatt)
            · rcases hd with ⟨-, ht, -⟩ | ⟨hd, -⟩
              · exact .inl (by simp [SearchStep.isTerminal, hst, ht, StepStatus.isTerminal])
              · exact .inr (by simpa [SearchRun.isTerminal, SearchRun.writeTo] using
                  hq.resolve_left hd)
            · refine ⟨(h.run_ran).writeTo, fun _ => h.run_usage, fun _ => rfl, fun ht => ?_, ?_⟩
              · rw [h.isTerminal_row] at ht
                exact .inl (hst.trans (hcancel ht))
              · intro hret
                rcases hd with ⟨-, -, hat, -⟩ | ⟨-, hterm⟩
                · exact hat
                · simp [SearchStep.isTerminal, hret, StepStatus.isTerminal] at hterm
            · cases hterm : row.isTerminal with
              | true => exact .inl rfl
              | false =>
                  refine .inr (.inl ?_)
                  rw [← hterm, h.isTerminal_row]
                  rfl
          · rw [not_or, Bool.not_eq_true] at hq
            have e : Ending db run cur s := h.ending_reported hsh hs hq.1
            have hadv := onFailure_ok e hq.1 hq.2 hadvance
            simp only [hadv.steps, hadv.runs, hadv.attempts, hadv.newAttempts, List.append_nil]
              at hsteps hruns hatt
            refine h.move env (r'.writeTo row) u.newSteps hlive hall hiff hsteps
              (h.runs_saved hadv.ran hruns) hadv.sched hadv.kind (.inr ?_)
              (h.orderly_saved hq.2 hadv.ran (fun _ => hadv.usage) (hadv.closed hq.2) ?_)
              (hadv.sides h.run_mem (hadv.ran.id.trans h.run_ran.id)
                (h.isTerminal_row.trans hq.2) h.run_ran.responseRunId hsave) (.inr ?_)
              (attChange_finished fin ha hid (h.status ▸ hrunning) hstop hfin'.1 hfin'.2 hatt)
            · simpa [SearchRun.isTerminal, SearchRun.writeTo] using hadv.progress
            · intro hret
              have hend := e.ended
              simp [SearchStep.isTerminal, hret, StepStatus.isTerminal] at hend
            · rcases hadv.settled hq.2 hsave with hend | ⟨hlone, hset⟩
              · exact .inl hend
              · rw [h.run_ran.responseRunId] at hset
                exact .inr (.inr ⟨hlone, hset⟩)

/-- What a heartbeat does. -/
theorem renew_effect {answer : Bool} {c' : ClaimedStep} (hc : ClaimOk db c)
    (hop : renew cfg env db c = .ok (answer, c', db')) :
    Effect .heartbeat db db' ∧ c'.stepId = c.stepId ∧ c'.runId = c.runId ∧ c.attempt.Same c'.attempt := by
  have quiet : ∀ {b : Bool}, (pure (b, c, db) : Except Exn _) = .ok (answer, c', db') →
      Effect .heartbeat db db' ∧ c'.stepId = c.stepId ∧ c'.runId = c.runId ∧ c.attempt.Same c'.attempt := by
    intro b hq
    have := pure_ok_iff.mp hq
    simp only [Prod.mk.injEq] at this
    obtain ⟨-, rfl, rfl⟩ := this
    exact ⟨.idle rfl rfl rfl .rfl, rfl, rfl, .rfl⟩
  simp only [renew, bind_ok_iff] at hop
  obtain ⟨found, hfenced, hop⟩ := hop
  cases found with
  | none => exact quiet hop
  | some step =>
      obtain ⟨-, -, hcur⟩ := fenced_some hfenced
      obtain ⟨a, ha⟩ := (isCurrentAttempt_iff hc).mp hcur
      dsimp only at hop
      split at hop
      · exact quiet hop
      · split at hop
        · exact quiet hop
        · simp only [bind_ok_iff, pure_ok_iff, Prod.mk.injEq] at hop
          obtain ⟨a', ha', t, hrenew, db₁, hcommit, -, rfl, rfl⟩ := hop
          obtain ⟨hsame, -⟩ := StepAttempt.renewLease_ok ha'
          obtain rfl := Tables.renewAttempt_ok hrenew
          have hflush := commit_ok hcommit
          refine ⟨.renewed a (a'.writeLeaseTo a) ha.mem ⟨rfl, rfl, rfl, rfl, rfl, rfl⟩ ha.isOpen ha.isOpen
            (by rw [hflush]; simp [Uow.flushed]) (by rw [hflush]; rfl) ?_
            (.of_commit hcommit rfl rfl rfl rfl rfl rfl rfl rfl rfl), rfl, rfl, hsame⟩
          rw [hflush, ← update_eq_const db.valid.pk_attempts ha.mem, ha.id, ← hsame.id]
          simp [Uow.flushed]

end Report

/-! ## The reconciler and the API -/

section Api

variable {db db' : Db} {env : Env} {ports : Ports} {policy : SearchPolicy}

/-- A step can be loaded with the run it belongs to. -/
theorem loaded_of_step {id : Uuid} {step : SearchStep} (h : db.getStep id = .ok (some step)) :
    ∃ cur row, Loaded db row row cur step ∧ cur.id = id := by
  obtain ⟨cur, hmem, hid, hsame, hst, hout⟩ := Tables.getStep_some h
  obtain ⟨row, hrow, hrid⟩ := db.valid.fk_steps cur hmem
  exact ⟨cur, row, ⟨hmem, hsame, hst, hout, hrow, .rfl, rfl, rfl, hrid⟩, hid⟩

/-- A run that is not saved ends nothing. -/
theorem settled_unsaved {p : Prop} (row : SearchRun) :
    row.isTerminal = true ∨ row.isTerminal = false ∨ p := by
  cases row.isTerminal with
  | true => exact .inl rfl
  | false => exact .inr (.inl rfl)

/-- A lease that has run out has run out for every open attempt. -/
theorem leasedUntil_le {t : Tables} {id : Uuid} {lease : Time} (h : currentLease t id = some lease)
    {a : StepAttempt} (ha : a ∈ t.attempts) (hid : a.stepId = id) (hopen : a.completedAt = none) :
    a.leasedUntil ≤ lease := by
  unfold currentLease at h
  rw [List.max?_eq_some_iff] at h
  refine h.2 _ (List.mem_map_of_mem ?_)
  simp [Tables.attemptsOf, ha, hid, hopen]

/-- What the reconciler does to a candidate. -/
theorem makeReady_effect {candidate : ReconcileCandidate} {now : Time} {answer : Bool}
    (hsh : Shape db.toTables) (hop : makeReady env db candidate now = .ok (answer, db')) :
    Effect (.reconciler candidate now) db db' := by
  have quiet : ∀ {b : Bool}, (pure (b, db) : Except Exn _) = .ok (answer, db') →
      Effect (.reconciler candidate now) db db' := by
    intro b hq
    obtain ⟨-, rfl⟩ := Prod.mk.inj (pure_ok_iff.mp hq)
    exact .idle rfl rfl rfl .rfl
  simp only [makeReady, bind_ok_iff] at hop
  obtain ⟨found, hstep, hop⟩ := hop
  cases found with
  | none => exact quiet hop
  | some step =>
      obtain ⟨cur, row, h, hid⟩ := loaded_of_step hstep
      dsimp only at hop
      split at hop
      · -- a retry that is due
        rename_i hwait
        split at hop
        · exact quiet hop
        · split at hop
          · exact quiet hop
          · simp only [bind_ok_iff, pure_ok_iff, Prod.mk.injEq] at hop
            obtain ⟨s, hs, t, hsave, db₁, hcommit, -, rfl⟩ := hop
            obtain ⟨htr, hsame, hst, hout⟩ := SearchStep.makeReady_ok hs
            obtain rfl := Tables.saveStep_ok hsave
            have hflush := commit_ok hcommit
            have hlive := h.live htr
            refine h.move_alone env row hlive (h.same.trans hsame)
              (output_iff (by simp [hst]) (hout.trans (h.output_none hsh hlive)))
              (by rw [hflush]; simp [Uow.flushed]) (h.runs_unsaved (by rw [hflush]; rfl))
              (.inl (by simp [SearchStep.isTerminal, hst, StepStatus.isTerminal]))
              (Loaded.orderly_unsaved (.inr hst))
              (.of_commit hcommit rfl rfl rfl rfl rfl rfl rfl rfl rfl) (settled_unsaved row) ?_
            refine .due (h.status ▸ hwait.2) (by simp [SearchStep.writeTo, hst]) ?_ hid.symm
            rw [hflush]
            simp [Uow.flushed]
      · split at hop
        · -- a lease that has run out
          rename_i hrunning
          split at hop
          · exact quiet hop
          · rename_i lease hlease
            split at hop
            · exact quiet hop
            · rename_i hexp
              simp only [bind_ok_iff, pure_ok_iff, Prod.mk.injEq] at hop
              obtain ⟨s, hs, t, hsave, db₁, hcommit, -, rfl⟩ := hop
              obtain ⟨htr, hsame, hst, hout⟩ := SearchStep.transition_ok hs
              obtain rfl := Tables.saveStep_ok hsave
              have hflush := commit_ok hcommit
              have hlive := h.live htr
              refine h.move_alone env row hlive (h.same.trans hsame)
                (output_iff (by simp [hst]) (hout.trans (h.output_none hsh hlive)))
                (by rw [hflush]; simp [Uow.flushed, expireAttempts, abandonExpired])
                (h.runs_unsaved (by rw [hflush]; rfl))
                (.inl (by simp [SearchStep.isTerminal, hst, StepStatus.isTerminal]))
                (Loaded.orderly_unsaved (.inr hst))
                (.of_abandoned hcommit rfl rfl rfl rfl rfl rfl rfl rfl rfl)
                (settled_unsaved row) ?_
              refine .expired candidate now (h.status ▸ hrunning.2)
                (by simp [SearchStep.writeTo, hst]) hid.symm hrunning.1
                ⟨lease, hid ▸ hlease, not_lt.mp hexp⟩ ?_ ?_
              · intro a ha hstep hopen
                exact le_trans (leasedUntil_le hlease ha (hstep.trans hid) hopen) (not_lt.mp hexp)
              · rw [hflush, hid]
                simp [Uow.flushed, expireAttempts, abandonExpired]
        · exact quiet hop

/-- A snapshot is taken under the policy's version. -/
theorem snapshot_policyVersion {mode : SearchMode} {at' : Time} {budget : BudgetSnapshot}
    (h : policy.snapshot mode at' = .ok budget) : budget.policyVersion = policy.version := by
  unfold SearchPolicy.snapshot at h
  dsimp only at h
  split_ifs at h
  obtain rfl := Except.ok.inj h
  rfl

/-- The rows of a new submission belong together. -/
theorem newSubmission_linked {command : SubmitMessageCommand} {content key hash : String}
    {budget : BudgetSnapshot} (hver : command.routing.policyVersion = budget.policyVersion) :
    (newSubmission env command content key hash budget).Linked where
  message_author := by simp [newSubmission]
  message_key := by simp [newSubmission]
  response_message := rfl
  response_conversation := rfl
  response_queued := rfl
  run_message := rfl
  run_conversation := rfl
  run_response := rfl
  run_queued := rfl
  run_usage := rfl
  run_sound := ⟨hver, rfl⟩
  route_run := rfl
  route_key := rfl
  route_type := rfl
  route_revision := rfl
  announces := by
    refine ⟨rfl, rfl, rfl, ?_⟩
    dsimp only [newSubmission]
    split
    · exact ⟨.fast, rfl⟩
    · exact ⟨.research, rfl⟩
  event_run := rfl
  event_first := rfl

/-- A new submission adds its rows. -/
theorem commitSubmission_ok {command : SubmitMessageCommand} {content key hash : String}
    {budget : BudgetSnapshot} (hver : command.routing.policyVersion = budget.policyVersion)
    (hop : commitSubmission env db (newSubmission env command content key hash budget) = .ok db') :
    Submitted db db' (newSubmission env command content key hash budget)
      (Uow.stamp env (newSubmission env command content key hash budget).route) := by
  have hflush := commit_ok hop
  refine ⟨newSubmission_linked hver, ⟨rfl, rfl, rfl, rfl, rfl, rfl⟩, rfl, rfl, ?_⟩
  rw [hflush]
  simp [Uow.flushed]

/-- What a submission does. -/
theorem submitMessage_effect {command : SubmitMessageCommand} {receipt : SubmissionReceipt}
    (hop : submitMessage ports policy env db command = .ok (receipt, db')) :
    Effect .submitter db db' := by
  simp only [submitMessage, bind_ok_iff, check_eq_ok, decide_eq_true_eq] at hop
  obtain ⟨_, _, _, _, _, hver, hash, _, _, _, found, _, hop⟩ := hop
  cases found with
  | some existing =>
      simp only [bind_ok_iff, pure_ok_iff, Prod.mk.injEq] at hop
      obtain ⟨_, _, -, rfl⟩ := hop
      exact .idle rfl rfl rfl .rfl
  | none =>
      simp only [bind_ok_iff, pure_ok_iff, Prod.mk.injEq] at hop
      obtain ⟨budget, hbudget, db₁, hcommit, -, rfl⟩ := hop
      exact .submitted _ _
        (commitSubmission_ok (hver.trans (snapshot_policyVersion hbudget).symm) hcommit) rfl

/-- What cancelling a run does. -/
theorem cancelRun_effect {id : Uuid} {result : Option SearchRun}
    (hop : cancelRun env db id = .ok (result, db')) : Effect (.canceller id) db db' := by
  simp only [cancelRun, bind_ok_iff] at hop
  obtain ⟨found, hrun, hop⟩ := hop
  cases found with
  | none =>
      obtain ⟨-, rfl⟩ := Prod.mk.inj (pure_ok_iff.mp hop)
      exact .idle rfl rfl rfl .rfl
  | some run =>
      dsimp only at hop
      split at hop
      · obtain ⟨-, rfl⟩ := Prod.mk.inj (pure_ok_iff.mp hop)
        exact .idle rfl rfl rfl .rfl
      · rename_i hopen
        simp only [bind_ok_iff, pure_ok_iff, Prod.mk.injEq] at hop
        obtain ⟨r, hr, t, hsave, db₁, hcommit, -, rfl⟩ := hop
        obtain ⟨row, hrmem, hid, hran, hrst, husage⟩ := Tables.getRun_some hrun
        obtain ⟨hran', hst, husage'⟩ := SearchRun.cancel_ok hr
        obtain rfl := Tables.saveRun_ok hsave
        have hflush := commit_ok hcommit
        have hall := (hran.trans hran').writeTo
        have hopen' : row.isTerminal = false := by
          rw [Bool.not_eq_true, SearchRun.isTerminal, hrst] at hopen
          exact hopen
        refine .runWritten row (r.writeTo row) hrmem rfl
          (.inr ⟨by rw [hid], hopen', by
            simp [SearchRun.isTerminal, SearchRun.writeTo, hst, RunStatus.isTerminal]⟩)
          (by rw [hflush]; simp [Uow.flushed]) ?_ (by rw [hflush]; simp [Uow.flushed])
          hall.toKept (fun _ => ⟨hall, husage'.trans husage⟩) ?_
        · rw [hflush, ← update_eq_const db.valid.pk_runs hrmem, ← hran.id, ← hran'.id]
          rfl
        · refine .of_events (by rw [hflush]; rfl) (by rw [hflush]; rfl) (by rw [hflush]; rfl)
            (.event _ row hrmem hid.symm ?_ (by rw [hflush]; rfl))
            (by rw [hflush]; simp [Uow.flushed]) (by rw [hflush]; simp [Uow.flushed])
          rw [hid]
          rfl

/-- A conversation is added beside everything else. -/
theorem createConversation_effect {user : Uuid} {title : String} {key : Option String}
    {view : ConversationView}
    (hop : createConversation ports env db user title key = .ok (view, db')) : Effect .api db db' := by
  simp only [createConversation, bind_ok_iff, Uow.newUuid] at hop
  obtain ⟨k, _, hop⟩ := hop
  split at hop
  · simp only [bind_ok_iff, pure_ok_iff, Prod.mk.injEq] at hop
    obtain ⟨_, _, -, rfl⟩ := hop
    exact .idle rfl rfl rfl .rfl
  · simp only [bind_ok_iff, pure_ok_iff, Prod.mk.injEq] at hop
    obtain ⟨db₁, hcommit, -, rfl⟩ := hop
    have hflush := commit_ok hcommit
    refine .idle (by rw [hflush]; simp [Uow.flushed, Uow.begin])
      (by rw [hflush]; simp [Uow.flushed, Uow.begin])
      (by rw [hflush]; simp [Uow.flushed, Uow.begin]) {
        conversations := ⟨id, _, by rw [hflush, List.map_id]; rfl,
          fun c => ⟨rfl, rfl, rfl, rfl, rfl⟩⟩
        messages := ⟨[], by rw [hflush]; simp [Uow.flushed, Uow.begin], by simp⟩
        responses := ⟨id, by rw [hflush]; simp [Uow.flushed, Uow.begin],
          fun r => ⟨⟨rfl, rfl, rfl⟩, fun h => h, .inl rfl⟩⟩
        events := .nothing (by rw [hflush]; simp [Uow.flushed, Uow.begin])
        outbox := ⟨id, [], by rw [hflush]; simp [Uow.flushed, Uow.begin], fun _ => .rfl,
          fun _ _ => rfl, .nil⟩
        invocations := fun _ => ⟨id, by rw [hflush]; simp [Uow.flushed, Uow.begin],
          fun _ => .inl rfl⟩ }

end Api

/-! ## Model calls -/

section Audit

variable {db db' : Db} {env : Env} {op : AuditOp}

/-- Counting a call or its tokens changes only the counters. -/
theorem countCall_kept (run : SearchRun) : run.Kept run.countCall :=
  ⟨rfl, rfl, rfl, rfl, rfl, rfl, fun hs => hs, fun _ => rfl⟩

theorem countTokens_kept (response : ModelGateway.ProviderResponse) (run : SearchRun) :
    run.Kept (run.countTokens response) :=
  ⟨rfl, rfl, rfl, rfl, rfl, rfl, fun hs => hs, fun _ => rfl⟩

/-- The audit rows are the auditor's own business. -/
theorem Sides.of_audit {runs : List SearchRun} {invocations : List ModelInvocationRecord}
    (h : db'.toTables = { db.toTables with runs, invocations }) : Sides .auditor db db' [] where
  conversations := ⟨id, [], by rw [h]; simp, fun c => ⟨.refl _, .refl _, .refl _, .refl _, .refl _⟩⟩
  messages := ⟨[], by rw [h]; simp, by simp⟩
  responses := ⟨id, by rw [h]; simp, fun r => ⟨⟨.refl _, .refl _, .refl _⟩, fun h => h, .inl (.refl _)⟩⟩
  events := .nothing (by rw [h])
  outbox := ⟨id, [], by rw [h]; simp, fun _ => .rfl, fun _ _ => .refl _, .nil⟩
  invocations hne := absurd (.refl _) hne

/-- A transaction that writes a run's counters and audit rows. -/
theorem effect_of_counted {run : SearchRun} {count : SearchRun → SearchRun}
    {invocations : List ModelInvocationRecord} (hmem : run ∈ db.runs)
    (hkept : run.Kept (count run)) (hst : (count run).status = run.status)
    (h : db'.toTables = { db.toTables with
      runs := update (·.id) run.id count db.runs, invocations }) : Effect .auditor db db' := by
  refine .runWritten run (count run) hmem hkept.id (.inl ⟨rfl, hst⟩) (by rw [h]) ?_ (by rw [h])
    hkept (fun hne => absurd rfl hne) (.of_audit h)
  rw [h]
  exact update_eq_const db.valid.pk_runs hmem

/-- What an audit transaction does. -/
theorem audit_effect (hop : op.run env db = .ok db') : Effect .auditor db db' := by
  cases AuditOp.run_ok hop with
  | unchanged h =>
      subst h
      exact .idle rfl rfl rfl .rfl
  | reused context spec source run _ _ _ h =>
      exact .idle (by rw [h]) (by rw [h]) (by rw [h]) (.of_audit h)
  | started context spec run _ hcur _ _ h =>
      exact effect_of_counted hcur.run_mem (countCall_kept run) rfl h
  | completed context response outputRef row run _ _ _ _ hrun _ h =>
      exact effect_of_counted hrun (countTokens_kept response run) rfl h
  | closed close _ h => exact .idle (by rw [h]) (by rw [h]) (by rw [h]) (.of_audit h)

end Audit

/-! ## Deliveries -/

section Delivery

variable {db db' : Db} {env : Env}

/-- Who records a delivery. -/
def DeliveryOp.actor : DeliveryOp → Actor
  | .published _ _ | .failed _ _ => .dispatcher
  | .dispatched _ _ => .sender

/-- A transaction that writes outbox rows, and no published one. -/
theorem effect_of_outbox {id : Uuid} {write : OutboxMessage → OutboxMessage}
    (hwrite : ∀ o, OutboxMessage.Same o (write o))
    (hop : ({ tables := { db.toTables with
      outbox := update (·.id) id write db.outbox } } : Uow).commit env = .ok db') :
    Effect .dispatcher db db' := by
  have hflush := commit_ok hop
  refine .idle (by rw [hflush]; simp [Uow.flushed]) (by rw [hflush]; simp [Uow.flushed])
    (by rw [hflush]; simp [Uow.flushed]) {
      conversations := ⟨fun c => c, [], by rw [hflush]; simp [Uow.flushed],
        fun c => ⟨rfl, rfl, rfl, rfl, rfl⟩⟩
      messages := ⟨[], by rw [hflush]; simp [Uow.flushed], by simp⟩
      responses := ⟨fun r => r, by rw [hflush]; simp [Uow.flushed],
        fun r => ⟨⟨rfl, rfl, rfl⟩, fun h => h, .inl rfl⟩⟩
      events := .nothing (by rw [hflush]; simp [Uow.flushed])
      outbox := ⟨fun o => if o.id = id then write o else o, [],
        by rw [hflush]; simp [Uow.flushed, update], fun o => ?_, fun hne => absurd rfl hne, .nil⟩
      invocations := fun _ => ⟨fun r => r, by rw [hflush]; simp [Uow.flushed], fun _ => .inl rfl⟩ }
  dsimp only
  split
  · exact hwrite o
  · exact .rfl

/-- A READY step that is marked as sent is read again later. -/
theorem markDispatched_effect {candidate : ReconcileCandidate} {now : Time}
    (hsh : Shape db.toTables) (hop : markDispatched env db candidate now = .ok db') :
    Effect .sender db db' := by
  have hflush := commit_ok hop
  have hsides : Sides .sender db db' [] :=
    .of_commit hop rfl rfl rfl rfl rfl rfl rfl rfl rfl
  have hruns : db'.runs = db.runs := by rw [hflush]; simp [Uow.flushed]
  have hatt : db'.attempts = db.attempts := by rw [hflush]; simp [Uow.flushed]
  have hsteps : db'.steps = update (·.id) candidate.stepId
      (fun s => if s.status = .ready then { s with updatedAt := now } else s) db.steps := by
    rw [hflush]
    simp [Uow.flushed]
  by_cases hex : ∃ cur ∈ db.steps, cur.id = candidate.stepId
  · obtain ⟨cur, hmem, hid⟩ := hex
    rw [← hid, update_eq_const db.valid.pk_steps hmem] at hsteps
    by_cases hready : cur.status = .ready
    · obtain ⟨row, hrow, hrid⟩ := db.valid.fk_steps cur hmem
      rw [if_pos hready] at hsteps
      have hlive : cur.isTerminal = false := by
        simp [SearchStep.isTerminal, hready, StepStatus.isTerminal]
      have hout : cur.outputRef = none := hsh.output_none hmem (by simp [hready])
      exact .moved cur { cur with updatedAt := now } row row [] {
        cur_mem := hmem, cur_live := hlive, same := ⟨rfl, rfl, rfl, rfl, rfl, rfl⟩
        output := output_iff (by simp [hready]) hout
        steps := by rw [hsteps, List.append_nil]
        run_mem := hrow, run_id := hrid, run_id' := rfl
        runs := by rw [hruns, update_self db.valid.pk_runs hrow]
        sched := by simp
        kind := ⟨.route, by simp⟩
        progress := .inl hlive
        attempts := .dispatched hready (by exact hready) hatt
        orderly := Loaded.orderly_unsaved (.inr hready)
        sides := hsides
        settled := settled_unsaved row }
    · rw [if_neg hready, update_self db.valid.pk_steps hmem] at hsteps
      exact .idle hsteps hruns hatt hsides
  · rw [update_of_forall_ne fun s hs hk => hex ⟨s, hs, hk⟩] at hsteps
    exact .idle hsteps hruns hatt hsides

/-- What recording a delivery does. -/
theorem delivery_effect {op : DeliveryOp} (hsh : Shape db.toTables)
    (hop : op.run env db = .ok db') : Effect op.actor db db' := by
  cases op with
  | published id at' =>
      refine effect_of_outbox (fun o => ?_) hop
      split
      · rename_i hnone
        exact ⟨rfl, rfl, rfl, rfl, rfl, rfl,
          fun h => absurd (Option.isNone_iff_eq_none.mp hnone) h, rfl⟩
      · exact .rfl
  | failed id error =>
      refine effect_of_outbox (fun o => ?_) hop
      split
      · exact ⟨rfl, rfl, rfl, rfl, rfl, rfl, fun _ => rfl, rfl⟩
      · exact .rfl
  | dispatched candidate now => exact markDispatched_effect hsh hop

end Delivery

end Sana.Orchestration
