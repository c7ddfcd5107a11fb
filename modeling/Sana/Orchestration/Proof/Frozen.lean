import Sana.Orchestration.Proof.Fence
import Sana.Orchestration.Proof.Usage

/-!
# Runs that nothing writes any more

A run that has ended is not left alone at once: steps that were live when it ended are
cancelled one by one as they are claimed, a worker that comes back completes its model
call, the dispatcher publishes what is still in the outbox. When none of this is
left, no transaction touches a row of the run again.

* `Ended`: the run has ended and none of its model calls is open. Its audit rows are final.
* `Still`: and none of its steps is live. Then the run, its steps, its attempts and its
  response are final too.
-/

namespace Sana.Orchestration

open Sana.Lib Sana.ModelGateway

/-- The run has ended, and no model call of it is open. -/
structure Ended (t : Tables) (runId : Uuid) : Prop where
  run : ∃ r ∈ t.runs, r.id = runId ∧ r.isTerminal = true
  calls : ∀ i ∈ t.invocations, i.runId = runId → i.status ≠ .started

/-- And no step of it is live. -/
structure Still (t : Tables) (runId : Uuid) : Prop extends Ended t runId where
  steps : ∀ s ∈ t.steps, s.runId = runId → s.isTerminal = true

/-- Every attempt is of the run its step is of. -/
def AttemptsOwned (t : Tables) : Prop :=
  ∀ a ∈ t.attempts, ∀ s ∈ t.steps, s.id = a.stepId → a.runId = s.runId

section Rows

variable {db : Db} {runId : Uuid}

theorem Ended.of_run (h : Ended db.toTables runId) {r : SearchRun} (hr : r ∈ db.runs)
    (hid : r.id = runId) : r.isTerminal = true := by
  obtain ⟨o, ho, hoid, hterm⟩ := h.run
  rw [eq_of_key_eq db.valid.pk_runs hr ho (hid.trans hoid.symm)]
  exact hterm

/-- A run that is open, or not there, has not ended. -/
theorem not_ended_of_open {r : SearchRun} (hr : r ∈ db.runs) (hopen : r.isTerminal = false) :
    ¬ Ended db.toTables r.id := by
  intro h
  rw [h.of_run hr rfl] at hopen
  cases hopen

theorem not_still_of_live {s : SearchStep} (hs : s ∈ db.steps) (hlive : s.isTerminal = false) :
    ¬ Still db.toTables s.runId := by
  intro h
  rw [h.steps s hs rfl] at hlive
  cases hlive

/-- An open attempt is of a live step. -/
theorem not_still_of_attempt (ho : OneOpen db) (hown : AttemptsOwned db.toTables)
    {a : StepAttempt} (ha : a ∈ db.attempts) (hopen : a.completedAt = none) :
    ¬ Still db.toTables a.runId := by
  obtain ⟨s, hs, hid⟩ := db.valid.fk_attempts a ha
  have hrun := ho.running s hs a ha hid.symm hopen
  rw [hown a ha s hs hid]
  refine not_still_of_live hs ?_
  rw [SearchStep.isTerminal, hrun]
  rfl

/-- The run a submission adds was not there. -/
theorem Submitted.not_ended {db' : Db} {rows : SubmissionRows} {route : SearchStep}
    (h : Submitted db db' rows route) : ¬ Ended db.toTables rows.run.id := by
  rintro ⟨⟨r, hr, hid, -⟩, -⟩
  have hnd := db'.valid.pk_runs
  rw [h.runs, List.map_append, List.nodup_append] at hnd
  exact hnd.2.2 r.id (List.mem_map_of_mem hr) rows.run.id (by simp) hid

end Rows

/-! ## Attempts and their runs -/

section Owned

variable {who : Actor} {db db' : Db}

/-- An attempt that is there was there, or a step of its run was just claimed. -/
theorem Effect.attempt_back (he : Effect who db db') {a' : StepAttempt} (ha' : a' ∈ db'.attempts) :
    (∃ a ∈ db.attempts, a.Same a') ∨ ∃ s ∈ db.steps, a'.stepId = s.id ∧ a'.runId = s.runId := by
  have rewritten : ∀ {b b' : StepAttempt}, b ∈ db.attempts → b.Same b' →
      a' ∈ update (·.id) b.id (fun _ => b') db.attempts → ∃ a ∈ db.attempts, a.Same a' := by
    intro b b' hb hsame hmem
    rcases (mem_update_iff db.valid.pk_attempts hb).mp hmem with rfl | ⟨hold, -⟩
    · exact ⟨b, hb, hsame⟩
    · exact ⟨a', hold, .rfl⟩
  cases he with
  | idle _ _ hatt => exact .inl ⟨a', hatt ▸ ha', .rfl⟩
  | runWritten _ _ _ _ _ _ _ hatt => exact .inl ⟨a', hatt ▸ ha', .rfl⟩
  | submitted _ _ hsub => exact .inl ⟨a', hsub.attempts ▸ ha', .rfl⟩
  | renewed b b' hb hsame _ _ _ _ hatt => exact .inl (rewritten hb hsame (hatt ▸ ha'))
  | moved cur cur' run run' new m =>
      cases m.attempts with
      | skipped _ _ hatt => exact .inl ⟨a', hatt ▸ ha', .rfl⟩
      | due _ _ hatt => exact .inl ⟨a', hatt ▸ ha', .rfl⟩
      | dispatched _ _ hatt => exact .inl ⟨a', hatt ▸ ha', .rfl⟩
      | finished c _ b b' _ _ hholds _ hsame _ hatt =>
          exact .inl (rewritten hholds.mem hsame (hatt ▸ ha'))
      | opened b _ _ hstep _ _ hatt hown =>
          rw [hatt, List.mem_append, List.mem_singleton] at ha'
          rcases ha' with hold | rfl
          · exact .inl ⟨a', hold, .rfl⟩
          · exact .inr ⟨cur, m.cur_mem, hstep, hown⟩
      | expired _ now _ _ _ _ _ _ hatt =>
          rw [hatt] at ha'
          obtain ⟨a, ha, rfl⟩ := List.mem_map.mp ha'
          refine .inl ⟨a, ha, ?_⟩
          split
          · exact ⟨rfl, rfl, rfl, rfl, rfl, rfl⟩
          · exact .rfl

/-- **Every attempt stays with the run of its step.** -/
theorem AttemptsOwned.effect (h : AttemptsOwned db.toTables) (he : Effect who db db') :
    AttemptsOwned db'.toTables := by
  intro a' ha' s' hs' hid
  -- the step of an attempt that is there is a row that was there, kept
  have key : ∀ s ∈ db.steps, s.id = a'.stepId → s'.runId = s.runId := by
    intro s hs hsid
    obtain ⟨o, ho, hsame⟩ := he.step_persists hs
    rw [eq_of_key_eq db'.valid.pk_steps hs' ho (hid.trans (hsid.symm.trans hsame.id.symm))]
    exact hsame.runId
  rcases he.attempt_back ha' with ⟨a, ha, hsame⟩ | ⟨s, hs, hstep, hrun⟩
  · obtain ⟨s, hs, hsid⟩ := db.valid.fk_attempts a ha
    rw [key s hs (hsid.trans hsame.stepId.symm), hsame.runId]
    exact h a ha s hs hsid
  · rw [key s hs hstep.symm]
    exact hrun

theorem attemptsOwned_reachable {d : Deployment} {w : World} (hr : Reachable d w) :
    AttemptsOwned w.db.toTables := by
  refine hr.invariant_of (P := fun w => AttemptsOwned w.db.toTables) (Q := WInv)
    (fun _ => winv_reachable) ?_ ?_
  · rintro w rfl a ha
    cases ha
  · intro w w' hi ho hs
    obtain ⟨who, he, -⟩ := step_effect hi hs
    exact ho.effect he

end Owned

/-! ## Model calls -/

section Calls

variable {who : Actor} {db db' : Db} {d : Deployment} {w w' : World}

/-- Sealing rows leaves those of ended runs. -/
theorem untouched_of_sealed {close : ModelInvocationRecord → ModelInvocationRecord}
    (h : db'.invocations = db.invocations.map close)
    (hclose : ∀ i, ModelInvocationRecord.Sealed i (close i)) :
    Untouched (fun i => Ended db.toTables i.runId) db.invocations db'.invocations := by
  refine ⟨close, [], by rw [h, List.append_nil], ?_, ?_, by simp⟩
  · intro i hi hended
    rcases hclose i with heq | ⟨hst, -⟩
    · exact heq
    · exact absurd hst (hended.calls i hi rfl)
  · intro i _ hn
    dsimp only
    rw [(hclose i).same.runId]
    exact hn

theorem Effect.calls_untouched (he : Effect who db db') (hne : who ≠ .auditor) :
    Untouched (fun i => Ended db.toTables i.runId) db.invocations db'.invocations := by
  have sides : ∀ {new : List SearchStep}, Sides who db db' new →
      Untouched (fun i => Ended db.toTables i.runId) db.invocations db'.invocations := by
    intro new hsides
    obtain ⟨close, hmap, habandon⟩ := hsides.invocations hne
    exact untouched_of_sealed hmap fun i => (habandon i).isSealed
  cases he with
  | idle _ _ _ hsides => exact sides hsides
  | runWritten _ _ _ _ _ _ _ _ _ _ hsides => exact sides hsides
  | renewed _ _ _ _ _ _ _ _ _ hsides => exact sides hsides
  | moved _ _ _ _ _ m => exact sides m.sides
  | submitted rows route hsub => exact .of_eq (by rw [hsub.tables])

/-- What an audit leaves alone: the calls of ended runs, and the runs themselves. -/
theorem Audited.untouched {env : Env} {op : AuditOp} (hi : WInv w) (hb : Books w.db)
    (hheld : ∀ context ∈ op.context, ∃ c ∈ w.claims, isContextOf context c = true)
    (h : Audited env op w.db db') :
    Untouched (fun i => Ended w.db.toTables i.runId) w.db.invocations db'.invocations ∧
      Untouched (fun r => Ended w.db.toTables r.id) w.db.runs db'.runs := by
  cases h with
  | unchanged h =>
      subst h
      exact ⟨.of_eq rfl, .of_eq rfl⟩
  | reused context spec source run _ hcur _ h =>
      refine ⟨.of_append (by rw [h]) ?_, .of_eq (by rw [h])⟩
      intro i hi
      rw [List.mem_singleton.mp hi, show (reusedRow env (env.ids 0) context spec source).runId
        = run.id from hcur.run_id.symm]
      exact not_ended_of_open hcur.run_mem hcur.run_open
  | started context spec run _ hcur _ _ h =>
      have hopen := not_ended_of_open hcur.run_mem hcur.run_open
      have hruns : db'.runs = update (·.id) run.id (fun _ => run.countCall) w.db.runs := by
        rw [h]
        exact update_eq_const w.db.valid.pk_runs hcur.run_mem
      refine ⟨.of_append (by rw [h]) ?_,
        .of_update w.db.valid.pk_runs hcur.run_mem hruns hopen hopen⟩
      intro i hi
      rw [List.mem_singleton.mp hi, show (startedRow env (env.ids 0) context spec).runId
        = run.id from hcur.run_id.symm]
      exact hopen
  | completed context response outputRef row run hop hrow hatt hst hrun hrid h =>
      -- the call that is completed was open, and the tokens are counted for its run
      have hopen : ¬ Ended w.db.toTables row.runId := fun he => he.calls row hrow rfl hst
      have hof : row.runId = run.id := by
        rw [hrid]
        exact hb.runId_of_held hi (hheld context (by rw [hop]; rfl)) hrow hatt
      have hrows : db'.invocations = update (·.id) row.id
          (fun _ => row.complete env response outputRef) w.db.invocations := by
        rw [h]
        exact update_eq_const w.db.valid.pk_invocations hrow
      have hruns : db'.runs = update (·.id) run.id (fun _ => run.countTokens response)
          w.db.runs := by
        rw [h]
        exact update_eq_const w.db.valid.pk_runs hrun
      have hopen' : ¬ Ended w.db.toTables run.id := hof ▸ hopen
      exact ⟨.of_update w.db.valid.pk_invocations hrow hrows hopen hopen,
        .of_update w.db.valid.pk_runs hrun hruns hopen' hopen'⟩
  | closed close hclose h =>
      exact ⟨untouched_of_sealed (by rw [h]) hclose, .of_eq (by rw [h])⟩

end Calls

/-! ## The other rows of a run -/

section Rest

variable {who : Actor} {db db' : Db}

theorem Effect.runs_untouched (he : Effect who db db') (hne : who ≠ .auditor) :
    Untouched (fun r => Still db.toTables r.id) db.runs db'.runs := by
  cases he with
  | idle _ hruns => exact .of_eq hruns
  | renewed _ _ _ _ _ _ _ hruns => exact .of_eq hruns
  | runWritten run run' hmem hid hterm _ hruns =>
      rcases hterm with ⟨hwho, -⟩ | ⟨-, hopen, -⟩
      · exact absurd hwho hne
      · have hnot : ¬ Still db.toTables run.id :=
          fun h => not_ended_of_open hmem hopen h.toEnded
        exact .of_update db.valid.pk_runs hmem hruns hnot (hid ▸ hnot)
  | submitted rows route hsub =>
      refine .of_append hsub.runs fun r hr h => hsub.not_ended ?_
      rw [← List.mem_singleton.mp hr]
      exact h.toEnded
  | moved cur cur' run run' new m =>
      have hnot : ¬ Still db.toTables run.id := by
        rw [m.run_id]
        exact not_still_of_live m.cur_mem m.cur_live
      exact .of_update db.valid.pk_runs m.run_mem m.runs hnot (m.run_id' ▸ hnot)

theorem Effect.steps_untouched (he : Effect who db db') :
    Untouched (fun s => Still db.toTables s.runId) db.steps db'.steps := by
  cases he with
  | idle hsteps => exact .of_eq hsteps
  | renewed _ _ _ _ _ _ hsteps => exact .of_eq hsteps
  | runWritten _ _ _ _ _ hsteps => exact .of_eq hsteps
  | submitted rows route hsub =>
      refine .of_append hsub.steps fun s hs h => hsub.not_ended ?_
      rw [← hsub.runId, ← List.mem_singleton.mp hs]
      exact h.toEnded
  | moved cur cur' run run' new m =>
      have hnot := not_still_of_live m.cur_mem m.cur_live
      refine .of_update_append db.valid.pk_steps m.cur_mem m.steps hnot (m.same.runId ▸ hnot) ?_
      intro s hs
      rw [(m.sched s hs).runId, m.run_id]
      exact hnot

theorem Effect.attempts_untouched (he : Effect who db db') (ho : OneOpen db)
    (hown : AttemptsOwned db.toTables) :
    Untouched (fun a => Still db.toTables a.runId) db.attempts db'.attempts := by
  -- an attempt that is rewritten is open
  have rewritten : ∀ {b b' : StepAttempt}, b ∈ db.attempts → b.completedAt = none → b.Same b' →
      db'.attempts = update (·.id) b.id (fun _ => b') db.attempts →
      Untouched (fun a => Still db.toTables a.runId) db.attempts db'.attempts := by
    intro b b' hb hopen hsame h
    have hnot := not_still_of_attempt ho hown hb hopen
    exact .of_update db.valid.pk_attempts hb h hnot (hsame.runId ▸ hnot)
  cases he with
  | idle _ _ hatt => exact .of_eq hatt
  | runWritten _ _ _ _ _ _ _ hatt => exact .of_eq hatt
  | submitted _ _ hsub => exact .of_eq hsub.attempts
  | renewed b b' hb hsame hopen _ _ _ hatt => exact rewritten hb hopen hsame hatt
  | moved cur cur' run run' new m =>
      cases m.attempts with
      | skipped _ _ hatt => exact .of_eq hatt
      | due _ _ hatt => exact .of_eq hatt
      | dispatched _ _ hatt => exact .of_eq hatt
      | finished c _ b b' _ _ hholds _ hsame _ hatt =>
          exact rewritten hholds.mem hholds.isOpen hsame hatt
      | opened b _ _ _ _ _ hatt hrun =>
          refine .of_append hatt fun a ha => ?_
          rw [List.mem_singleton.mp ha, hrun]
          exact not_still_of_live m.cur_mem m.cur_live
      | expired _ now _ _ _ _ _ _ hatt =>
          refine ⟨_, [], by rw [hatt, List.append_nil]; rfl, ?_, ?_, by simp⟩
          · intro a ha hstill
            refine if_neg fun hx => ?_
            exact not_still_of_attempt ho hown ha hx.2.1 hstill
          · intro a _ hn
            dsimp only
            split
            · exact hn
            · exact hn

/-- The response of a run that has ended is not settled again. -/
theorem Effect.responses_untouched (he : Effect who db db') :
    Untouched (fun q => ∃ r ∈ db.runs, r.isTerminal = true ∧ r.responseRunId = q.id)
      db.responseRuns db'.responseRuns := by
  have sides : ∀ {new : List SearchStep}, Sides who db db' new →
      Untouched (fun q => ∃ r ∈ db.runs, r.isTerminal = true ∧ r.responseRunId = q.id)
        db.responseRuns db'.responseRuns := by
    intro new hsides
    obtain ⟨settle, hmap, hsettle⟩ := hsides.responses
    refine ⟨settle, [], by rw [hmap, List.append_nil], ?_, ?_, by simp⟩
    · rintro q _ ⟨r, hr, hterm, hresp⟩
      rcases (hsettle q).2.2 with heq | ⟨o, ho, hopen, hid⟩
      · exact heq
      · rw [eq_of_key_eq db.valid.uq_runs_responseRun hr ho (hresp.trans hid), hopen] at hterm
        cases hterm
    · intro q _ hn
      dsimp only
      rw [(hsettle q).1.id]
      exact hn
  cases he with
  | idle _ _ _ hsides => exact sides hsides
  | runWritten _ _ _ _ _ _ _ _ _ _ hsides => exact sides hsides
  | renewed _ _ _ _ _ _ _ _ _ hsides => exact sides hsides
  | moved _ _ _ _ _ m => exact sides m.sides
  | submitted rows route hsub =>
      refine .of_append (by rw [hsub.tables]) ?_
      rintro q hq ⟨r, hr, -, hresp⟩
      rw [List.mem_singleton.mp hq] at hresp
      obtain ⟨p, hp, hpid⟩ := db.valid.fk_runs r hr
      have hnd := db'.valid.pk_responseRuns
      rw [hsub.tables, List.map_append, List.nodup_append] at hnd
      exact hnd.2.2 p.id (List.mem_map_of_mem hp) rows.responseRun.id (by simp)
        (hpid.trans hresp)

/-- Of the outbox only what is not published is written, and only new steps get messages. -/
theorem Effect.outbox_change (he : Effect who db db') :
    ∃ publish rows, db'.outbox = db.outbox.map publish ++ rows ∧
      (∀ o, OutboxMessage.Same o (publish o)) ∧
      ∀ o ∈ rows, ∃ s ∈ db'.steps, o.aggregateId = s.id ∧ ∀ x ∈ db.steps, x.id ≠ s.id := by
  have sides : Sides who db db' [] → ∃ publish rows, db'.outbox = db.outbox.map publish ++ rows ∧
      (∀ o, OutboxMessage.Same o (publish o)) ∧
      ∀ o ∈ rows, ∃ s ∈ db'.steps, o.aggregateId = s.id ∧ ∀ x ∈ db.steps, x.id ≠ s.id := by
    intro hsides
    obtain ⟨publish, rows, hmap, hsame, -, hrows⟩ := hsides.outbox
    cases hrows
    exact ⟨publish, [], hmap, hsame, by simp⟩
  cases he with
  | idle _ _ _ hsides => exact sides hsides
  | runWritten _ _ _ _ _ _ _ _ _ _ hsides => exact sides hsides
  | renewed _ _ _ _ _ _ _ _ _ hsides => exact sides hsides
  | submitted rows route hsub =>
      refine ⟨id, [rows.outbox], by rw [hsub.tables, List.map_id], fun _ => .rfl, ?_⟩
      intro o ho
      rw [List.mem_singleton.mp ho]
      have hnd := db'.valid.pk_steps
      rw [hsub.steps, List.map_append, List.nodup_append] at hnd
      refine ⟨route, by simp [hsub.steps], hsub.linked.announces.aggregateId.trans hsub.same.id.symm,
        fun x hx => hnd.2.2 x.id (List.mem_map_of_mem hx) route.id (by simp)⟩
  | moved cur cur' run run' new m =>
      obtain ⟨publish, rows, hmap, hsame, -, hrows⟩ := m.sides.outbox
      refine ⟨publish, rows, hmap, hsame, fun o ho => ?_⟩
      obtain ⟨s, hs, hann⟩ := exists_left_of_forall₂ hrows ho
      have hnd := db'.valid.pk_steps
      rw [m.step_ids, List.nodup_append] at hnd
      exact ⟨s, m.mem_steps.mpr (.inr (.inr hs)), hann.aggregateId,
        fun x hx => hnd.2.2 x.id (List.mem_map_of_mem hx) s.id (List.mem_map_of_mem hs)⟩

end Rest

/-! ## Every step -/

section Step

variable {d : Deployment} {w w' : World} {runId : Uuid}

/-- What a step leaves alone. -/
structure LeftAlone (t t' : Tables) : Prop where
  calls : Untouched (fun i => Ended t i.runId) t.invocations t'.invocations
  runs : Untouched (fun r => Still t r.id) t.runs t'.runs
  steps : Untouched (fun s => Still t s.runId) t.steps t'.steps
  attempts : Untouched (fun a => Still t a.runId) t.attempts t'.attempts
  responses : Untouched (fun q => ∃ r ∈ t.runs, r.isTerminal = true ∧ r.responseRunId = q.id)
    t.responseRuns t'.responseRuns
  /-- A run that has ended stays so. -/
  kept : ∀ r ∈ t.runs, ∃ r' ∈ t'.runs, r.Kept r'
  outbox : ∃ publish rows, t'.outbox = t.outbox.map publish ++ rows ∧
    (∀ o, OutboxMessage.Same o (publish o)) ∧
    ∀ o ∈ rows, ∃ s ∈ t'.steps, o.aggregateId = s.id ∧ ∀ x ∈ t.steps, x.id ≠ s.id

/-- **No transaction writes a row of a run that has come to rest.** -/
theorem step_leftAlone (hr : Reachable d w) (hs : Step d w w') :
    LeftAlone w.db.toTables w'.db.toTables := by
  have hi := winv_reachable hr
  obtain ⟨call, hheld, hrun⟩ := step_iff_call.mp hs
  have he := call_effect hi hheld hrun
  have hwritten : Untouched (fun i => Ended w.db.toTables i.runId) w.db.invocations
      w'.db.invocations ∧ Untouched (fun r => Still w.db.toTables r.id) w.db.runs w'.db.runs := by
    by_cases haudit : ∃ env op, call = .audit env op
    · obtain ⟨env, op, rfl⟩ := haudit
      simp only [Call.run, bind_ok_iff, pure_ok_iff] at hrun
      obtain ⟨db, hop, rfl⟩ := hrun
      obtain ⟨hcalls, hruns⟩ :=
        (AuditOp.run_ok hop).untouched hi (books_reachable hr) hheld
      exact ⟨hcalls, hruns.mono fun _ h => h.toEnded⟩
    · have hne := actor_ne_auditor (d := d) fun env op heq => haudit ⟨env, op, heq⟩
      exact ⟨he.calls_untouched hne, he.runs_untouched hne⟩
  exact ⟨hwritten.1, hwritten.2, he.steps_untouched,
    he.attempts_untouched (oneOpen_reachable hr) (attemptsOwned_reachable hr),
    he.responses_untouched, fun r hr => he.run_persists hr, he.outbox_change⟩

variable {t t' : Tables}

theorem LeftAlone.ended (h : LeftAlone t t') (he : Ended t runId) : Ended t' runId := by
  obtain ⟨r, hr, hid, hterm⟩ := he.run
  obtain ⟨r', hr', hkept⟩ := h.kept r hr
  refine ⟨⟨r', hr', hkept.id.trans hid, hkept.isTerminal hterm⟩, fun i hi hrun => ?_⟩
  have hsame := h.calls.filter_eq (s := fun i => i.runId = runId) fun x hx => by
    rw [of_decide_eq_true hx]
    exact he
  have hmem : i ∈ t'.invocations.filter fun i => i.runId = runId := by simp [hi, hrun]
  rw [hsame, List.mem_filter] at hmem
  exact he.calls i hmem.1 hrun

theorem LeftAlone.still (h : LeftAlone t t') (hst : Still t runId) : Still t' runId := by
  refine ⟨h.ended hst.toEnded, fun s hs hrun => ?_⟩
  have hsame := h.steps.filter_eq (s := fun s => s.runId = runId) fun x hx => by
    rw [of_decide_eq_true hx]
    exact hst
  have hmem : s ∈ t'.steps.filter fun s => s.runId = runId := by simp [hs, hrun]
  rw [hsame, List.mem_filter] at hmem
  exact hst.steps s hmem.1 hrun

end Step

end Sana.Orchestration
