import Sana.Orchestration.Proof.Ops

/-!
# What an audit transaction does

One inversion for all of them: a call is recorded as reused, reserved and counted,
completed with its tokens, or some open rows are sealed. Reserving and reusing happen
only for the attempt that holds the step of an open run.
-/

namespace Sana.Orchestration

open Sana.Lib Sana.ModelGateway

/-- The context is that of the latest attempt of a running step, and its run is open. -/
structure Current (db : Db) (context : ModelInvocationContext) (run : SearchRun) : Prop where
  run_mem : run ∈ db.runs
  run_id : run.id = context.runId
  run_open : run.isTerminal = false
  step : ∃ s ∈ db.steps, s.id = context.stepId ∧ s.runId = context.runId ∧ s.status = .running
  attempt : ∃ a ∈ db.attempts, a.id = context.attemptId ∧ a.stepId = context.stepId ∧
    a.runId = context.runId ∧ a.attemptNo = context.attemptNo ∧ a.completedAt = none
  latest : db.latestAttemptNo context.stepId = context.attemptNo

theorem lockCurrent_ok {env : Env} {db : Db} {context : ModelInvocationContext} {deadline : Time}
    {run : SearchRun} (h : lockCurrent env db.toTables context deadline = .ok run) :
    Current db context run := by
  simp only [lockCurrent, bind_ok_iff] at h
  obtain ⟨_, _, h⟩ := h
  split at h
  · rename_i r s a hr hs ha
    simp only [bind_ok_iff, pure_ok_iff, check_eq_ok, Bool.not_eq_true', decide_eq_true_eq,
      Bool.and_eq_true, Option.isNone_iff_eq_none] at h
    obtain ⟨_, hopen, _, hrunning, _, ⟨⟨hno, hincomplete⟩, _⟩, _, hlatest, rfl⟩ := h
    obtain ⟨hmem, hid⟩ := lookup_eq_some hr
    have hstep := List.find?_some hs
    have hatt := List.find?_some ha
    simp only [Bool.and_eq_true, decide_eq_true_eq] at hstep hatt
    exact ⟨hmem, hid, hopen,
      ⟨s, List.mem_of_find?_eq_some hs, hstep.1, hstep.2, hrunning⟩,
      ⟨a, List.mem_of_find?_eq_some ha, hatt.1.1, hatt.1.2, hatt.2, hno, hincomplete⟩, hlatest⟩
  · cases h

/-- The row is as it was, or it was open and is sealed without an answer. -/
def ModelInvocationRecord.Sealed (i i' : ModelInvocationRecord) : Prop :=
  i' = i ∨ i.status = .started ∧ ∃ status category code at',
    (status = .failed ∨ status = .abandoned) ∧ i' = i.seal status category code at'

/-- The row is as it was, or it was open and is sealed as abandoned. -/
def ModelInvocationRecord.Abandoned (i i' : ModelInvocationRecord) : Prop :=
  i' = i ∨ i.status = .started ∧ ∃ code at', i' = i.seal .abandoned "TRANSIENT" code at'

theorem ModelInvocationRecord.Abandoned.isSealed {i i' : ModelInvocationRecord}
    (h : i.Abandoned i') : i.Sealed i' := by
  rcases h with h | ⟨hst, code, at', h⟩
  · exact .inl h
  · exact .inr ⟨hst, _, _, code, at', .inr rfl, h⟩

/-- Sealing open rows is all `abandonRows` does. -/
theorem abandonRows_abandoned (rows : List ModelInvocationRecord)
    (selected : ModelInvocationRecord → Bool) (code : String) (at' : Time) :
    ∃ close, abandonRows rows selected code at' = rows.map close ∧
      ∀ i, ModelInvocationRecord.Abandoned i (close i) := by
  refine ⟨_, rfl, fun i => ?_⟩
  split
  · rename_i h
    exact .inr ⟨h.1, code, at', rfl⟩
  · exact .inl rfl

/-- What an audit transaction does. -/
inductive Audited (env : Env) (op : AuditOp) (db db' : Db) : Prop
  | unchanged (h : db' = db)
  /-- An earlier answer is used again. -/
  | reused (context : ModelInvocationContext) (spec : CallSpec) (source : ModelInvocationRecord)
      (run : SearchRun) (hop : op = .reuse context spec source) (hcur : Current db context run)
      (hfree : callRow db.toTables context.attemptId spec.role spec.callNo = none)
      (h : db'.toTables = { db.toTables with
        invocations := db.invocations ++ [reusedRow env (env.ids 0) context spec source] })
  /-- A call is reserved and counted. -/
  | started (context : ModelInvocationContext) (spec : CallSpec) (run : SearchRun)
      (hop : op = .start context spec) (hcur : Current db context run)
      (hfree : callRow db.toTables context.attemptId spec.role spec.callNo = none)
      (hbudget : run.usage.llmCallCount + 1 ≤ run.budget.maxLlmCalls)
      (h : db'.toTables = { db.toTables with
        runs := update (·.id) run.id SearchRun.countCall db.runs
        invocations := db.invocations ++ [startedRow env (env.ids 0) context spec] })
  /-- A call is completed, and its tokens are counted. -/
  | completed (context : ModelInvocationContext) (response : ProviderResponse)
      (outputRef : ArtifactRef) (row : ModelInvocationRecord) (run : SearchRun)
      (hop : op = .complete context row.id response outputRef)
      (hrow : row ∈ db.invocations) (hatt : row.attemptId = context.attemptId)
      (hst : row.status = .started) (hrun : run ∈ db.runs) (hrid : run.id = context.runId)
      (h : db'.toTables = { db.toTables with
        runs := update (·.id) run.id (SearchRun.countTokens response) db.runs
        invocations := update (·.id) row.id
          (ModelInvocationRecord.complete env response outputRef) db.invocations })
  /-- Open rows are sealed. -/
  | closed (close : ModelInvocationRecord → ModelInvocationRecord)
      (hclose : ∀ i, ModelInvocationRecord.Sealed i (close i))
      (h : db'.toTables = { db.toTables with invocations := db.invocations.map close })

section Inversion

variable {env : Env} {db db' : Db} {context : ModelInvocationContext}

/-- Rows that were not staged in any other table. -/
theorem flushed_invocations {t : Tables} {rows : List ModelInvocationRecord} :
    ({ tables := t, newInvocations := rows } : Uow).flushed env
      = { t with invocations := t.invocations ++ rows } := by
  simp [Uow.flushed]

theorem reuseInvocation_ok {spec : CallSpec} {source : ModelInvocationRecord}
    (h : reuseInvocation env db context spec source = .ok db') :
    Audited env (.reuse context spec source) db db' := by
  simp only [reuseInvocation, bind_ok_iff] at h
  obtain ⟨run, hlock, h⟩ := h
  split at h
  · simp only [bind_ok_iff, pure_ok_iff] at h
    obtain ⟨_, _, rfl⟩ := h
    exact .unchanged rfl
  · rename_i hfree
    refine .reused context spec source run rfl (lockCurrent_ok hlock) hfree ?_
    rw [commit_ok h]
    exact flushed_invocations

theorem startInvocation_ok {spec : CallSpec} {r : ModelInvocationReservation}
    (h : startInvocation env db context spec = .ok (r, db')) :
    Audited env (.start context spec) db db' := by
  simp only [startInvocation, bind_ok_iff, pure_ok_iff, check_eq_ok, decide_eq_true_eq,
    Option.isNone_iff_eq_none, Prod.mk.injEq] at h
  obtain ⟨run, hlock, _, hfree, _, hbudget, db₁, hcommit, -, rfl⟩ := h
  refine .started context spec run rfl (lockCurrent_ok hlock) hfree hbudget ?_
  rw [commit_ok hcommit]
  exact flushed_invocations

/-- The row of a reservation is the attempt's. -/
theorem reservedRow_some {id : Uuid} {row : ModelInvocationRecord}
    (h : reservedRow db.toTables id context = some row) :
    row ∈ db.invocations ∧ row.id = id ∧ row.attemptId = context.attemptId := by
  have hp := List.find?_some h
  simp only [Bool.and_eq_true, decide_eq_true_eq] at hp
  exact ⟨List.mem_of_find?_eq_some h, hp⟩

theorem completeInvocation_ok {id : Uuid} {response : ProviderResponse} {outputRef : ArtifactRef}
    (h : completeInvocation env db id context response outputRef = .ok db') :
    Audited env (.complete context id response outputRef) db db' := by
  unfold completeInvocation at h
  split at h
  · cases h
  · rename_i row hrow
    obtain ⟨hmem, rfl, hatt⟩ := reservedRow_some hrow
    split at h
    · obtain rfl := Except.ok.inj h
      exact .unchanged rfl
    · simp only [bind_ok_iff, check_eq_ok, decide_eq_true_eq] at h
      obtain ⟨_, hst, h⟩ := h
      split at h
      · cases h
      · rename_i run hrun
        obtain ⟨hrmem, hrid⟩ := lookup_eq_some hrun
        refine .completed context response outputRef row run rfl hmem hatt hst hrmem hrid ?_
        rw [commit_ok h, flushed_invocations, List.append_nil]

theorem failInvocation_ok {id : Uuid} {error : RedactedInvocationError}
    (h : failInvocation env db id context error = .ok db') :
    Audited env (.fail context id error) db db' := by
  unfold failInvocation at h
  split at h
  · cases h
  · rename_i row hrow
    obtain ⟨hmem, hid, -⟩ := reservedRow_some hrow
    split at h
    · obtain rfl := Except.ok.inj h
      exact .unchanged rfl
    · rename_i hst
      rw [not_not] at hst
      refine .closed (fun i => if i = row then .seal .failed error.category error.code env.now i
        else i) (fun i => ?_) ?_
      · split
        · rename_i heq
          exact .inr ⟨heq ▸ hst, _, _, _, _, .inl rfl, rfl⟩
        · exact .inl rfl
      · rw [commit_ok h, flushed_invocations, List.append_nil]
        simp only [Tables.mk.injEq, true_and]
        refine List.map_congr_left fun i hi => ?_
        have : i.id = row.id ↔ i = row :=
          ⟨eq_of_key_eq db.valid.pk_invocations hi hmem, fun h => by rw [h]⟩
        simp only [this]

/-- Sealing open rows as abandoned. -/
theorem audited_of_abandoned {op : AuditOp} {selected : ModelInvocationRecord → Bool}
    {code : String} {at' : Time}
    (h : ({ tables := { db.toTables with
      invocations := abandonRows db.invocations selected code at' } } : Uow).commit env = .ok db') :
    Audited env op db db' := by
  obtain ⟨close, hclose, habandon⟩ := abandonRows_abandoned db.invocations selected code at'
  refine .closed close (fun i => (habandon i).isSealed) ?_
  rw [commit_ok h, flushed_invocations, List.append_nil]
  dsimp only
  rw [hclose]

/-- **Every audit transaction is one of these.** -/
theorem AuditOp.run_ok {op : AuditOp} (h : op.run env db = .ok db') : Audited env op db db' := by
  cases op with
  | reuse context spec source => exact reuseInvocation_ok h
  | start context spec =>
      simp only [AuditOp.run, map_ok_iff] at h
      obtain ⟨⟨r, d⟩, hstart, rfl⟩ := h
      exact startInvocation_ok hstart
  | complete context id response outputRef => exact completeInvocation_ok h
  | fail context id error => exact failInvocation_ok h
  | abandon attemptId at' => exact audited_of_abandoned h
  | sealOrphaned now locked limit => exact audited_of_abandoned h

end Inversion

end Sana.Orchestration
