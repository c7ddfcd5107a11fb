import Sana.Orchestration.Proof.Events

/-!
# The ledger of model calls

A run's usage counts its model calls and their tokens. The audit writes these counters
together with the audit rows; a step that succeeds writes the whole usage of its run,
but reads it under the run's lock and adds only queries, providers and fetches. So the
counters always agree with the rows: as many calls as rows with a provider call, as
many tokens as the completed rows have, and never more calls than the budget allows.
-/

namespace Sana.Orchestration

open Sana.Lib Sana.ModelGateway

variable {who : Actor} {db db' : Db} {d : Deployment} {w w' : World}

/-- The audit rows of a run under which a provider was called. -/
def Tables.providerCalls (t : Tables) (runId : Uuid) : List ModelInvocationRecord :=
  t.invocations.filter fun i => i.runId = runId && i.providerCalled

/-- The audit rows of a run that were answered. -/
def Tables.completedCalls (t : Tables) (runId : Uuid) : List ModelInvocationRecord :=
  t.invocations.filter fun i => i.runId = runId && i.status = .completed

/-- The counters of a run are what its audit rows say. -/
structure LlmLedger (t : Tables) (r : SearchRun) : Prop where
  calls : r.usage.llmCallCount = (t.providerCalls r.id).length
  most : r.usage.llmCallCount ≤ r.budget.maxLlmCalls
  prompt : r.usage.promptTokenCount = ((t.completedCalls r.id).map (·.promptTokens)).sum
  completion : r.usage.completionTokenCount = ((t.completedCalls r.id).map (·.completionTokens)).sum

/-- Every run's counters are right, and every audit row is of its attempt's run. -/
structure Books (db : Db) : Prop where
  ledger : ∀ r ∈ db.runs, LlmLedger db.toTables r
  owned : ∀ i ∈ db.invocations, ∃ a ∈ db.attempts, a.id = i.attemptId ∧ a.runId = i.runId

/-! ## Sealing rows -/

/-- What sealing leaves of a row. -/
structure ModelInvocationRecord.Same (i i' : ModelInvocationRecord) : Prop where
  runId : i'.runId = i.runId
  attemptId : i'.attemptId = i.attemptId
  providerCalled : i'.providerCalled = i.providerCalled
  promptTokens : i'.promptTokens = i.promptTokens
  completionTokens : i'.completionTokens = i.completionTokens
  completed : i'.status = .completed ↔ i.status = .completed

theorem ModelInvocationRecord.Sealed.same {i i' : ModelInvocationRecord} (h : i.Sealed i') :
    i.Same i' := by
  rcases h with rfl | ⟨hst, status, category, code, at', hend, rfl⟩
  · exact ⟨rfl, rfl, rfl, rfl, rfl, Iff.rfl⟩
  · refine ⟨rfl, rfl, rfl, rfl, rfl, ?_⟩
    rcases hend with rfl | rfl
    · simp [ModelInvocationRecord.seal, hst]
    · simp [ModelInvocationRecord.seal, hst]

variable {t t' : Tables} {close : ModelInvocationRecord → ModelInvocationRecord}

theorem providerCalls_map (h : t'.invocations = t.invocations.map close)
    (hsame : ∀ i, ModelInvocationRecord.Same i (close i)) (id : Uuid) :
    (t'.providerCalls id).length = (t.providerCalls id).length := by
  unfold Tables.providerCalls
  rw [h, filter_map_of_eq fun i _ => ?_, List.length_map]
  rw [(hsame i).runId, (hsame i).providerCalled]

theorem completedCalls_map (h : t'.invocations = t.invocations.map close)
    (hsame : ∀ i, ModelInvocationRecord.Same i (close i)) (id : Uuid) :
    t'.completedCalls id = (t.completedCalls id).map close := by
  unfold Tables.completedCalls
  rw [h, filter_map_of_eq fun i _ => ?_]
  simp only [(hsame i).runId, (hsame i).completed]

/-- The counters of a run whose rows were sealed at most. -/
theorem LlmLedger.sealed {r r' : SearchRun} (hl : LlmLedger t r)
    (h : t'.invocations = t.invocations.map close)
    (hsame : ∀ i, ModelInvocationRecord.Same i (close i)) (hran : r.Ran r') : LlmLedger t' r' where
  calls := by
    rw [hran.llmCallCount, hran.id, providerCalls_map h hsame]
    exact hl.calls
  most := by
    rw [hran.llmCallCount, hran.budget]
    exact hl.most
  prompt := by
    rw [hran.promptTokenCount, hran.id, completedCalls_map h hsame, List.map_map, hl.prompt]
    exact congrArg List.sum (List.map_congr_left fun i _ => ((hsame i).promptTokens).symm)
  completion := by
    rw [hran.completionTokenCount, hran.id, completedCalls_map h hsame, List.map_map, hl.completion]
    exact congrArg List.sum (List.map_congr_left fun i _ => ((hsame i).completionTokens).symm)

/-- A row of a run that is not asked for changes nothing. -/
theorem LlmLedger.other {r : SearchRun} (hl : LlmLedger t r) {i : ModelInvocationRecord}
    (h : t'.invocations = t.invocations ++ [i])
    (hne : i.runId ≠ r.id ∨ i.providerCalled = false ∧ i.status ≠ .completed) :
    LlmLedger t' r := by
  have hcalls : t'.providerCalls r.id = t.providerCalls r.id := by
    unfold Tables.providerCalls
    rw [h, List.filter_append]
    rcases hne with hne | ⟨hno, -⟩
    · simp [hne]
    · simp [hno]
  have hdone : t'.completedCalls r.id = t.completedCalls r.id := by
    unfold Tables.completedCalls
    rw [h, List.filter_append]
    rcases hne with hne | ⟨-, hno⟩
    · simp [hne]
    · simp [hno]
  exact ⟨hcalls ▸ hl.calls, hl.most, hdone ▸ hl.prompt, hdone ▸ hl.completion⟩

/-- A reserved call is counted. -/
theorem LlmLedger.started {r : SearchRun} (hl : LlmLedger t r) {i : ModelInvocationRecord}
    (h : t'.invocations = t.invocations ++ [i]) (hrun : i.runId = r.id)
    (hcalled : i.providerCalled = true) (hst : i.status ≠ .completed)
    (hbudget : r.usage.llmCallCount + 1 ≤ r.budget.maxLlmCalls) : LlmLedger t' r.countCall := by
  have hcalls : t'.providerCalls r.id = t.providerCalls r.id ++ [i] := by
    unfold Tables.providerCalls
    rw [h, List.filter_append]
    simp [hrun, hcalled]
  have hdone : t'.completedCalls r.id = t.completedCalls r.id := by
    unfold Tables.completedCalls
    rw [h, List.filter_append]
    simp [hst]
  refine ⟨?_, hbudget, hdone ▸ hl.prompt, hdone ▸ hl.completion⟩
  show r.usage.llmCallCount + 1 = (t'.providerCalls r.id).length
  rw [hcalls, List.length_append, hl.calls]
  rfl

/-- The tokens of a completed call are counted for its run. -/
theorem LlmLedger.completed {env : Env} {response : ProviderResponse} {ref : ArtifactRef}
    {r : SearchRun} (hl : LlmLedger t r) {row : ModelInvocationRecord}
    (hnd : (t.invocations.map (·.id)).Nodup) (hrow : row ∈ t.invocations)
    (hrun : row.runId = r.id) (hst : row.status = .started)
    (h : t'.invocations = update (·.id) row.id (.complete env response ref) t.invocations) :
    LlmLedger t' (r.countTokens response) := by
  have hsum : ∀ g : ModelInvocationRecord → Nat, ((t'.completedCalls r.id).map g).sum
      = ((t.completedCalls r.id).map g).sum + g (row.complete env response ref) := by
    intro g
    unfold Tables.completedCalls
    rw [h]
    refine sum_filter_update hnd hrow ?_ ?_
    · simp [hst]
    · simp [ModelInvocationRecord.complete, hrun]
  refine ⟨?_, hl.most, ?_, ?_⟩
  · show r.usage.llmCallCount = (t'.providerCalls r.id).length
    unfold Tables.providerCalls
    rw [h, filter_update, hl.calls]
    · simp [update, Tables.providerCalls]
    · intro i _ _
      rfl
  · show r.usage.promptTokenCount + response.promptTokens = _
    rw [hl.prompt]
    exact (hsum _).symm
  · show r.usage.completionTokenCount + response.completionTokens = _
    rw [hl.completion]
    exact (hsum _).symm

/-- Completing a call of another run changes nothing. -/
theorem LlmLedger.completed_other {env : Env} {response : ProviderResponse} {ref : ArtifactRef}
    {r : SearchRun} (hl : LlmLedger t r) {row : ModelInvocationRecord}
    (hnd : (t.invocations.map (·.id)).Nodup) (hrow : row ∈ t.invocations) (hrun : row.runId ≠ r.id)
    (h : t'.invocations = update (·.id) row.id (.complete env response ref) t.invocations) :
    LlmLedger t' r := by
  have hsel : ∀ p : ModelInvocationRecord → Bool, (∀ i, p i = true → i.runId = r.id) →
      t'.invocations.filter p = t.invocations.filter p := by
    intro p hp
    have hout : ∀ i : ModelInvocationRecord, i.runId ≠ r.id → p i = false := by
      intro i hne
      rw [← Bool.not_eq_true]
      exact fun ht => hne (hp i ht)
    rw [h, filter_update]
    · refine update_of_forall_ne fun i hi hid => ?_
      rw [List.mem_filter] at hi
      rw [eq_of_key_eq hnd hi.1 hrow hid] at hi
      exact hrun (hp row hi.2)
    · intro i hi hid
      rw [eq_of_key_eq hnd hi hrow hid, hout row hrun]
      exact hout _ hrun
  have hcalls : t'.providerCalls r.id = t.providerCalls r.id := hsel _ fun i hi => by
    simp only [Bool.and_eq_true, decide_eq_true_eq] at hi
    exact hi.1
  have hdone : t'.completedCalls r.id = t.completedCalls r.id := hsel _ fun i hi => by
    simp only [Bool.and_eq_true, decide_eq_true_eq] at hi
    exact hi.1
  exact ⟨hcalls ▸ hl.calls, hl.most, hdone ▸ hl.prompt, hdone ▸ hl.completion⟩

/-! ## Every transaction keeps the books -/

/-- A transaction that is no audit leaves every run's counters, and new runs have none. -/
theorem Effect.run_of (he : Effect who db db') (hne : who ≠ .auditor) {r' : SearchRun}
    (hr' : r' ∈ db'.runs) : (∃ r ∈ db.runs, r.Ran r') ∨
      r'.usage = {} ∧ ∀ r ∈ db.runs, r.id ≠ r'.id := by
  cases he with
  | idle _ hruns => exact .inl ⟨r', hruns ▸ hr', .rfl⟩
  | renewed _ _ _ _ _ _ _ hruns => exact .inl ⟨r', hruns ▸ hr', .rfl⟩
  | runWritten run run' hmem _ _ _ hruns _ _ hran =>
      rw [hruns, mem_update_iff db.valid.pk_runs hmem] at hr'
      rcases hr' with rfl | ⟨hold, -⟩
      · exact .inl ⟨run, hmem, (hran hne).1⟩
      · exact .inl ⟨r', hold, .rfl⟩
  | submitted rows route hsub =>
      have hnd := db'.valid.pk_runs
      rw [hsub.runs, List.map_append, List.nodup_append] at hnd
      rw [hsub.runs, List.mem_append, List.mem_singleton] at hr'
      rcases hr' with hr' | rfl
      · exact .inl ⟨r', hr', .rfl⟩
      · exact .inr ⟨hsub.linked.run_usage,
          fun r hr => hnd.2.2 r.id (List.mem_map_of_mem hr) rows.run.id (by simp)⟩
  | moved cur cur' run run' new m =>
      rcases m.mem_runs.mp hr' with rfl | ⟨hold, -⟩
      · exact .inl ⟨run, m.run_mem, m.orderly.ran⟩
      · exact .inl ⟨r', hold, .rfl⟩

/-- A transaction that is no audit seals rows at most. -/
theorem Effect.invocations (he : Effect who db db') (hne : who ≠ .auditor) :
    ∃ close, db'.invocations = db.invocations.map close ∧
      ∀ i, ModelInvocationRecord.Same i (close i) := by
  have sides : ∀ {new : List SearchStep}, Sides who db db' new →
      ∃ close, db'.invocations = db.invocations.map close ∧
        ∀ i, ModelInvocationRecord.Same i (close i) := by
    intro new hsides
    obtain ⟨close, hmap, habandon⟩ := hsides.invocations hne
    exact ⟨close, hmap, fun i => (habandon i).isSealed.same⟩
  cases he with
  | idle _ _ _ hsides => exact sides hsides
  | runWritten _ _ _ _ _ _ _ _ _ _ hsides => exact sides hsides
  | renewed _ _ _ _ _ _ _ _ _ hsides => exact sides hsides
  | moved _ _ _ _ _ m => exact sides m.sides
  | submitted rows route hsub =>
      exact ⟨id, by rw [hsub.tables, List.map_id], fun _ => ⟨rfl, rfl, rfl, rfl, rfl, Iff.rfl⟩⟩

/-- The rows a transaction leaves are of their attempts' runs. -/
theorem Books.owned_map (hb : Books db) (he : Effect who db db')
    (h : db'.invocations = db.invocations.map close)
    (hsame : ∀ i, ModelInvocationRecord.Same i (close i)) :
    ∀ i ∈ db'.invocations, ∃ a ∈ db'.attempts, a.id = i.attemptId ∧ a.runId = i.runId := by
  intro i hi
  rw [h] at hi
  obtain ⟨o, ho, rfl⟩ := List.mem_map.mp hi
  obtain ⟨a, ha, hid, hrun⟩ := hb.owned o ho
  obtain ⟨a', ha', hkept⟩ := he.attempt_persists ha
  exact ⟨a', ha', (hkept.id.trans hid).trans (hsame o).attemptId.symm,
    (hkept.runId.trans hrun).trans (hsame o).runId.symm⟩

/-- **No transaction but the audit's counts a call.** -/
theorem Books.effect (hb : Books db) (he : Effect who db db') (hne : who ≠ .auditor) :
    Books db' := by
  obtain ⟨close, hmap, hsame⟩ := he.invocations hne
  refine ⟨fun r' hr' => ?_, hb.owned_map he hmap hsame⟩
  rcases he.run_of hne hr' with ⟨r, hr, hran⟩ | ⟨husage, hnew⟩
  · exact (hb.ledger r hr).sealed hmap hsame hran
  · -- a run that was just submitted has no rows
    have hnone : ∀ i ∈ db'.invocations, i.runId ≠ r'.id := by
      intro i hi hid
      rw [hmap] at hi
      obtain ⟨o, ho, rfl⟩ := List.mem_map.mp hi
      obtain ⟨⟨r, hr, hrid⟩, -⟩ := db.valid.fk_invocations o ho
      exact hnew r hr ((hrid.trans (hsame o).runId.symm).trans hid)
    have hcalls : db'.providerCalls r'.id = [] := by
      unfold Tables.providerCalls
      rw [List.filter_eq_nil_iff]
      intro i hi
      simp [hnone i hi]
    have hdone : db'.completedCalls r'.id = [] := by
      unfold Tables.completedCalls
      rw [List.filter_eq_nil_iff]
      intro i hi
      simp [hnone i hi]
    refine ⟨?_, ?_, ?_, ?_⟩
    · rw [hcalls, husage]
      rfl
    · rw [husage]
      exact Nat.zero_le _
    · rw [hdone, husage]
      rfl
    · rw [hdone, husage]
      rfl

/-- The row of a call is of the run of the lease it was made under. -/
theorem Books.runId_of_held (hb : Books w.db) (hi : WInv w) {context : ModelInvocationContext}
    (hheld : ∃ c ∈ w.claims, isContextOf context c = true) {row : ModelInvocationRecord}
    (hrow : row ∈ w.db.invocations) (hatt : row.attemptId = context.attemptId) :
    row.runId = context.runId := by
  obtain ⟨c, hc, hof⟩ := hheld
  simp only [isContextOf, Bool.and_eq_true, decide_eq_true_eq] at hof
  obtain ⟨⟨⟨hrun, -⟩, hid⟩, -⟩ := hof
  obtain ⟨a, ha, haid, -, -, -, harun⟩ := (hi.claims c hc).attempt
  obtain ⟨b, hbm, hbid, hbrun⟩ := hb.owned row hrow
  have hab : b = a := by
    refine eq_of_key_eq w.db.valid.pk_attempts hbm ha ?_
    rw [hbid, hatt, hid, haid]
  rw [← hbrun, hab, harun, hrun]

/-- **The audit counts what it records.** -/
theorem Books.audited {env : Env} {op : AuditOp} (hb : Books w.db) (hi : WInv w)
    (hheld : ∀ context ∈ op.context, ∃ c ∈ w.claims, isContextOf context c = true)
    (h : Audited env op w.db db') : Books db' := by
  cases h with
  | unchanged h =>
      subst h
      exact hb
  | reused context spec source run hop hcur _ h =>
      have hinv : db'.invocations
          = w.db.invocations ++ [reusedRow env (env.ids 0) context spec source] := by rw [h]
      obtain ⟨a, ha, haid, -, harun, -⟩ := hcur.attempt
      refine ⟨fun r hr => ?_, fun i hi => ?_⟩
      · have hr' : r ∈ w.db.runs := by
          rw [h] at hr
          exact hr
        exact (hb.ledger r hr').other hinv (.inr ⟨rfl, by simp [reusedRow]⟩)
      · rw [hinv, List.mem_append, List.mem_singleton] at hi
        rw [h]
        rcases hi with hi | rfl
        · exact hb.owned i hi
        · exact ⟨a, ha, haid, harun⟩
  | started context spec run hop hcur _ hbudget h =>
      have hinv : db'.invocations
          = w.db.invocations ++ [startedRow env (env.ids 0) context spec] := by rw [h]
      obtain ⟨a, ha, haid, -, harun, -⟩ := hcur.attempt
      refine ⟨fun r hr => ?_, fun i hi => ?_⟩
      · rw [h] at hr
        rcases (mem_update_iff w.db.valid.pk_runs hcur.run_mem).mp hr with rfl | ⟨hold, hne⟩
        · exact (hb.ledger run hcur.run_mem).started hinv hcur.run_id.symm rfl
            (by simp [startedRow]) hbudget
        · refine (hb.ledger r hold).other hinv (.inl ?_)
          rw [hcur.run_id] at hne
          exact fun hid => hne hid.symm
      · rw [hinv, List.mem_append, List.mem_singleton] at hi
        rw [h]
        rcases hi with hi | rfl
        · exact hb.owned i hi
        · exact ⟨a, ha, haid, harun⟩
  | completed context response outputRef row run hop hrow hatt hst hrun hrid h =>
      have hinv : db'.invocations = update (·.id) row.id
          (ModelInvocationRecord.complete env response outputRef) w.db.invocations := by rw [h]
      have hmine : row.runId = run.id := by
        rw [hrid]
        refine hb.runId_of_held hi (hheld context ?_) hrow hatt
        rw [hop]
        rfl
      have hnd := w.db.valid.pk_invocations
      refine ⟨fun r hr => ?_, fun i hi => ?_⟩
      · rw [h] at hr
        rcases (mem_update_iff w.db.valid.pk_runs hrun).mp hr with rfl | ⟨hold, hne⟩
        · exact (hb.ledger run hrun).completed hnd hrow hmine hst hinv
        · refine (hb.ledger r hold).completed_other hnd hrow ?_ hinv
          rw [hmine]
          exact hne.symm
      · rw [hinv] at hi
        rw [h]
        rcases mem_update.mp hi with ⟨o, ho, _, rfl⟩ | ⟨ho, _⟩
        · exact hb.owned o ho
        · exact hb.owned i ho
  | closed close hclose h =>
      have hinv : db'.invocations = w.db.invocations.map close := by rw [h]
      refine ⟨fun r hr => ?_, fun i hi => ?_⟩
      · have hr' : r ∈ w.db.runs := by
          rw [h] at hr
          exact hr
        exact (hb.ledger r hr').sealed hinv (fun i => (hclose i).same) .rfl
      · rw [hinv] at hi
        rw [h]
        obtain ⟨o, ho, rfl⟩ := List.mem_map.mp hi
        obtain ⟨a, ha, hid, hrun⟩ := hb.owned o ho
        exact ⟨a, ha, hid.trans (hclose o).same.attemptId.symm,
          hrun.trans (hclose o).same.runId.symm⟩

/-- Only the audit audits. -/
theorem actor_ne_auditor {call : Call} (h : ∀ env op, call ≠ .audit env op) :
    call.actor d ≠ .auditor := by
  cases call with
  | audit env op => exact absurd rfl (h env op)
  | deliver env op => cases op <;> simp [Call.actor, DeliveryOp.actor]
  | _ => simp [Call.actor]

theorem books_reachable (hr : Reachable d w) : Books w.db := by
  refine hr.invariant_of (P := fun w => Books w.db) (Q := WInv) (fun _ => winv_reachable) ?_ ?_
  · intro s hs
    subst hs
    exact ⟨by simp [World.init, Db.empty], by simp [World.init, Db.empty]⟩
  · intro s t hi hb hs
    obtain ⟨call, hheld, hrun⟩ := step_iff_call.mp hs
    by_cases haudit : ∃ env op, call = .audit env op
    · obtain ⟨env, op, rfl⟩ := haudit
      simp only [Call.run, bind_ok_iff, pure_ok_iff] at hrun
      obtain ⟨db, hop, rfl⟩ := hrun
      exact hb.audited hi hheld (AuditOp.run_ok hop)
    · refine hb.effect (call_effect hi hheld hrun) (actor_ne_auditor fun env op heq => ?_)
      exact haudit ⟨env, op, heq⟩

/--
**The ledger of model calls.** In every reachable world, for every run: its call count
is the number of its audit rows under which a provider was called and is within the
budget, and its token counts are the sums over its completed rows.
-/
theorem llm_usage_ledger (hr : Reachable d w) : ∀ r ∈ w.db.runs,
    r.usage.llmCallCount = (w.db.providerCalls r.id).length ∧
    r.usage.llmCallCount ≤ r.budget.maxLlmCalls ∧
    r.usage.promptTokenCount = ((w.db.completedCalls r.id).map (·.promptTokens)).sum ∧
    r.usage.completionTokenCount = ((w.db.completedCalls r.id).map (·.completionTokens)).sum := by
  intro r hrun
  have hl := (books_reachable hr).ledger r hrun
  exact ⟨hl.calls, hl.most, hl.prompt, hl.completion⟩

/-- The context of a lease. -/
def sampleContext (c : ClaimedStep) : ModelInvocationContext :=
  ⟨c.runId, c.stepId, "route", c.attempt.id, c.attempt.attemptNo, []⟩

/-- The n-th call of the router. -/
def sampleCall (n : Nat) : CallSpec := ⟨.router, "m", "p", n, toString n, seconds 12⟩

/-- One call is answered, a second one fails, and the step succeeds. -/
def auditedActions : List Action :=
  sampleActions.take 3 ++ [
    .audit (sampleEnv 4) 0 fun c => .start (sampleContext c) (sampleCall 1),
    .audit (sampleEnv 5) 0 fun c => .complete (sampleContext c) ((sampleEnv 4).ids 0)
      ⟨"{}", "m", 30, 5, none⟩ ⟨"file:///b", "11"⟩,
    .audit (sampleEnv 6) 0 fun c => .start (sampleContext c) (sampleCall 2),
    .audit (sampleEnv 7) 0 fun c => .fail (sampleContext c) ((sampleEnv 6).ids 0)
      ⟨"TRANSIENT", "timeout", true⟩,
    .succeed (sampleEnv 8) 0 sampleResult]

theorem llm_usage_ledger_sample : ∃ w, Reachable sample w ∧ ∃ r ∈ w.db.runs,
    r.usage.llmCallCount = 2 ∧ r.usage.promptTokenCount = 30 ∧
    r.usage.llmCallCount = (w.db.providerCalls r.id).length ∧
    r.usage.promptTokenCount = ((w.db.completedCalls r.id).map (·.promptTokens)).sum := by
  obtain ⟨w, hr, hp⟩ := exists_reachable sample auditedActions
    (fun w => w.db.runs.any fun r => r.usage.llmCallCount = 2 && r.usage.promptTokenCount = 30)
    (by decide +kernel)
  obtain ⟨r, hrun, hcount⟩ := List.any_eq_true.mp hp
  rw [Bool.and_eq_true, decide_eq_true_eq, decide_eq_true_eq] at hcount
  have hl := llm_usage_ledger hr r hrun
  exact ⟨w, hr, r, hrun, hcount.1, hcount.2, hl.1, hl.2.2.1⟩

end Sana.Orchestration
