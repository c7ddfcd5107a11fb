import Sana.Orchestration.Fleet
import Sana.Orchestration.Proof.Fence

/-!
# Sealing a run that has ended

A run ends at once, its steps do not. Whoever touches a step of a run that has ended
cancels it, and nobody looks for such steps: the reconciler scans open runs only. So a
step that is live when its run ends must still be *attended* by something that will
touch it, a message that is on its way or the worker that holds its attempt. A retry
that waits has neither; nor has a step whose worker died before the run ended.
-/

namespace Sana.Orchestration

open Sana.Lib

/-! ## What is left behind when a run ends -/

section Lingering

variable {who : Actor} {db db' : Db} {s : SearchStep} {r' : SearchRun}

/-- Why a step of a run that has ended is live after a transaction. -/
inductive Lingers (who : Actor) (db : Db) (s : SearchStep) : Prop
  /-- It was so before. -/
  | kept (hs : s ∈ db.steps) (r : SearchRun) (hr : r ∈ db.runs) (hid : r.id = s.runId)
      (hterm : r.isTerminal = true)
  /-- The reconciler has just released it. -/
  | released (candidate : ReconcileCandidate) (now : Time) (hwho : who = .reconciler candidate now)
      (hid : candidate.stepId = s.id) (hready : s.status = .ready) (hnew : s ∉ db.steps)
  /-- It was READY and was marked as sent. -/
  | resent (cur : SearchStep) (hcur : cur ∈ db.steps) (hlive : cur.isTerminal = false)
      (hready : cur.status = .ready) (hid : cur.id = s.id) (hready' : s.status = .ready)
      (r : SearchRun) (hr : r ∈ db.runs) (hrid : r.id = cur.runId) (hterm : r.isTerminal = true)
  /-- Its run has just been cancelled. -/
  | cancelled (hs : s ∈ db.steps) (r : SearchRun) (hr : r ∈ db.runs) (hid : r.id = s.runId)
      (hopen : r.isTerminal = false) (hwho : who = .canceller r.id)
  /-- Another step of its run was claimed past the hard deadline. -/
  | outOfTime (hs : s ∈ db.steps) (cur : SearchStep) (hcur : cur ∈ db.steps)
      (hready : cur.status = .ready) (hne : s.id ≠ cur.id) (now : Time)
      (hwho : who = .claimer cur.id now) (r : SearchRun) (hr : r ∈ db.runs)
      (hid : r.id = cur.runId) (hrun : s.runId = cur.runId) (hopen : r.isTerminal = false)
      (hlate : r.budget.hardDeadlineAt ≤ now)

/-- The moved step is live and its run has ended: the reconciler or the sender moved it. -/
theorem Move.lingers_self {cur cur' : SearchStep} {run run' : SearchRun} {new : List SearchStep}
    (m : Move who db db' cur cur' run run' new) (hlive : cur'.isTerminal = false)
    (hterm : run'.isTerminal = true) : Lingers who db cur' := by
  have fresh : cur'.status ≠ cur.status → cur' ∉ db.steps := by
    intro hne hin
    exact hne (by rw [eq_of_key_eq db.valid.pk_steps hin m.cur_mem m.same.id])
  rcases m.settled with hend | hopen | ⟨_, _, _, hstop, _⟩ | ⟨hlone, -⟩
  · -- the run had ended before, so the step is cancelled or READY
    have hready : cur'.status = .ready := by
      rcases m.orderly.cancelled hend with hc | hc
      · simp [SearchStep.isTerminal, hc, StepStatus.isTerminal] at hlive
      · exact hc
    cases m.attempts with
    | opened _ _ hrun => simp [hrun] at hready
    | skipped _ hstop => rcases hstop with h | h <;> simp [h] at hready
    | finished _ _ _ _ _ hstop =>
        rcases hstop with h | ⟨h, -⟩
        · rw [h] at hlive
          cases hlive
        · simp [h] at hready
    | expired candidate now hrun _ hid =>
        exact .released candidate now rfl (hid.trans m.same.id.symm) hready
          (fresh (by simp [hready, hrun]))
    | due hwait _ _ hid =>
        exact .released _ _ rfl (hid.trans m.same.id.symm) hready (fresh (by simp [hready, hwait]))
    | dispatched hready' =>
        exact .resent cur m.cur_mem m.cur_live hready' m.same.id.symm hready run m.run_mem m.run_id
          hend
  · rw [hopen] at hterm
    cases hterm
  · rw [hstop] at hlive
    cases hlive
  · have := hlone cur m.cur_mem m.run_id.symm
    rw [m.isLive_self, hlive] at this
    cases this

/-- **A live step of a run that has ended was there before, or its run has just ended.** -/
theorem Effect.lingers (he : Effect who db db') (hs : s ∈ db'.steps) (hlive : s.isTerminal = false)
    (hr : r' ∈ db'.runs) (hid : r'.id = s.runId) (hterm : r'.isTerminal = true) :
    Lingers who db s := by
  cases he with
  | idle hsteps hruns => exact .kept (hsteps ▸ hs) r' (hruns ▸ hr) hid hterm
  | renewed _ _ _ _ _ _ hsteps hruns => exact .kept (hsteps ▸ hs) r' (hruns ▸ hr) hid hterm
  | runWritten run run' hmem hrid hst hsteps hruns =>
      rw [hruns, mem_update_iff db.valid.pk_runs hmem] at hr
      rcases hr with rfl | ⟨hr, -⟩
      · have hid' : run.id = s.runId := hrid.symm.trans hid
        rcases hst with ⟨-, hsame⟩ | ⟨hwho, hopen, -⟩
        · refine .kept (hsteps ▸ hs) run hmem hid' ?_
          rw [SearchRun.isTerminal, ← hsame]
          exact hterm
        · exact .cancelled (hsteps ▸ hs) run hmem hid' hopen hwho
      · exact .kept (hsteps ▸ hs) r' hr hid hterm
  | submitted rows route hsub =>
      have hne : r' ≠ rows.run := by
        intro heq
        rw [heq, SearchRun.isTerminal, hsub.linked.run_queued] at hterm
        cases hterm
      have hnew : rows.run ∈ db'.runs := by rw [hsub.runs]; simp
      rw [hsub.steps, List.mem_append, List.mem_singleton] at hs
      rcases hs with hs | rfl
      · rw [hsub.runs, List.mem_append, List.mem_singleton] at hr
        exact .kept hs r' (hr.resolve_right hne) hid hterm
      · exact absurd (eq_of_key_eq db'.valid.pk_runs hr hnew (hid.trans hsub.runId)) hne
  | moved cur cur' run run' new m =>
      rcases m.mem_runs.mp hr with rfl | ⟨hrold, hrne⟩
      · have hrun : s.runId = run.id := hid.symm.trans m.run_id'
        rcases m.mem_steps.mp hs with rfl | ⟨hold, hne⟩ | hnew
        · exact m.lingers_self hlive hterm
        · rcases m.settled with hend | hopen | ⟨now, hwho, hready, -, hopen, hlate⟩ | ⟨hlone, -⟩
          · exact .kept hold run m.run_mem hrun.symm hend
          · rw [hopen] at hterm
            cases hterm
          · exact .outOfTime hold cur m.cur_mem hready hne now hwho run m.run_mem m.run_id
              (hrun.trans m.run_id) hopen hlate
          · have := hlone s hold hrun
            rw [m.isLive_other hne, hlive] at this
            cases this
        · rw [m.orderly.closed hterm] at hnew
          cases hnew
      · -- a run that this transaction does not touch
        have hsrun : s.runId ≠ run.id := fun h => hrne (hid.trans h)
        rcases m.mem_steps.mp hs with rfl | ⟨hold, -⟩ | hnew
        · exact absurd (m.same.runId.trans m.run_id.symm) hsrun
        · exact .kept hold r' hrold hid hterm
        · exact absurd (m.sched s hnew).runId hsrun

/-- The open attempt of a step that goes on running stays open. -/
theorem Effect.open_persists (he : Effect who db db') {a : StepAttempt} (ha : a ∈ db.attempts)
    (hopen : a.completedAt = none) (hs : s ∈ db.steps) (hs' : s ∈ db'.steps)
    (hstep : a.stepId = s.id) (hrun : s.status = .running) :
    ∃ a' ∈ db'.attempts, a.Same a' ∧ a'.completedAt = none := by
  cases he with
  | idle _ _ hatt => exact ⟨a, hatt ▸ ha, .rfl, hopen⟩
  | runWritten _ _ _ _ _ _ _ hatt => exact ⟨a, hatt ▸ ha, .rfl, hopen⟩
  | submitted _ _ hsub => exact ⟨a, hsub.attempts ▸ ha, .rfl, hopen⟩
  | renewed b b' hb hsame hbo hbo' _ _ hatt =>
      rw [hatt]
      by_cases hid : a.id = b.id
      · obtain rfl := eq_of_key_eq db.valid.pk_attempts ha hb hid
        exact ⟨b', (mem_update_iff db.valid.pk_attempts hb).mpr (.inl rfl), hsame, hbo'⟩
      · exact ⟨a, mem_update_of_ne ha hid, .rfl, hopen⟩
  | moved cur cur' run run' new m =>
      -- the step that moves does not run both before and after
      have hboth : s.id = cur.id → cur.status = .running ∧ cur'.status = .running := by
        intro hid
        have h1 : s = cur := eq_of_key_eq db.valid.pk_steps hs m.cur_mem hid
        have h2 : s = cur' := eq_of_key_eq db'.valid.pk_steps hs' (m.mem_steps.mpr (.inl rfl))
          (hid.trans m.same.id.symm)
        exact ⟨h1 ▸ hrun, h2 ▸ hrun⟩
      cases m.attempts with
      | opened b hready hrun' _ _ _ hatt =>
          exact ⟨a, hatt ▸ List.mem_append_left _ ha, .rfl, hopen⟩
      | skipped _ _ hatt => exact ⟨a, hatt ▸ ha, .rfl, hopen⟩
      | due _ _ hatt => exact ⟨a, hatt ▸ ha, .rfl, hopen⟩
      | dispatched _ _ hatt => exact ⟨a, hatt ▸ ha, .rfl, hopen⟩
      | finished c _ b b' _ hstop hholds hcur _ _ hatt =>
          refine ⟨a, hatt ▸ mem_update_of_ne ha ?_, .rfl, hopen⟩
          intro hid
          have hb : a = b := eq_of_key_eq db.valid.pk_attempts ha hholds.mem hid
          have hid' : s.id = cur.id := by rw [← hstep, hb, hholds.stepId, hcur]
          have hrun' := (hboth hid').2
          rcases hstop with hend | ⟨hwait, -⟩
          · simp [SearchStep.isTerminal, hrun', StepStatus.isTerminal] at hend
          · rw [hwait] at hrun'
            cases hrun'
      | expired _ now _ hready _ _ _ _ hatt =>
          rw [hatt]
          refine ⟨a, List.mem_map.mpr ⟨a, ha, if_neg fun hx => ?_⟩, .rfl, hopen⟩
          have hrun' := (hboth (hstep.symm.trans hx.1)).2
          rw [hready] at hrun'
          cases hrun'

/-- A row stays unpublished, unless the dispatcher marks it. -/
theorem Effect.unpublished_persists (he : Effect who db db') (hne : who ≠ .dispatcher)
    {o : OutboxMessage} (ho : o ∈ db.outbox) : o ∈ db'.outbox := by
  have side : ∀ {new : List SearchStep}, Sides who db db' new → o ∈ db'.outbox := by
    intro new hsides
    obtain ⟨publish, rows, hout, -, hid, -⟩ := hsides.outbox
    rw [hout]
    exact List.mem_append_left _ (List.mem_map.mpr ⟨o, ho, hid hne o⟩)
  cases he with
  | idle _ _ _ hsides => exact side hsides
  | runWritten _ _ _ _ _ _ _ _ _ _ hsides => exact side hsides
  | renewed _ _ _ _ _ _ _ _ _ hsides => exact side hsides
  | submitted _ _ hsub =>
      rw [hsub.tables]
      exact List.mem_append_left _ ho
  | moved _ _ _ _ _ m => exact side m.sides

end Lingering

/-! ## Touching a step -/

section Touching

variable {db db' : Db} {env : Env} {ports : Ports} {cfg : StoreSettings} {cur step : SearchStep}

/-- A saved step reads as it was saved. -/
theorem status_of_saved {now : Time} (new : List SearchStep) (hcur : cur ∈ db.steps)
    (hid : step.id = cur.id)
    (hsteps : db'.steps = update (·.id) step.id (SearchStep.writeTo now step) db.steps ++ new)
    {s : SearchStep} (hs : s ∈ db'.steps) (hsid : s.id = cur.id) : s.status = step.status := by
  have hrow : SearchStep.writeTo now step cur ∈ db'.steps := by
    rw [hsteps]
    exact List.mem_append_left _ (mem_update_self hcur hid.symm)
  rw [eq_of_key_eq db'.valid.pk_steps hs hrow hsid]
  rfl

/-- **A claim leaves no step READY.** -/
theorem claim_not_ready {id : Uuid} {worker : String} {res : ClaimResult} (hsh : Shape db.toTables)
    (hop : claim ports cfg env db id worker = .ok (res, db')) {s : SearchStep}
    (hs : s ∈ db'.steps) (hsid : s.id = id) : s.status ≠ .ready := by
  simp only [claim, bind_ok_iff] at hop
  obtain ⟨found, hstep, hop⟩ := hop
  cases found with
  | none =>
      obtain ⟨-, rfl⟩ := Prod.mk.inj (pure_ok_iff.mp hop)
      rw [← hsid, Tables.getStep, lookup_of_mem db.valid.pk_steps hs] at hstep
      simp only [bind_ok_iff, pure_ok_iff] at hstep
      obtain ⟨_, _, h⟩ := hstep
      cases h
  | some step =>
      obtain ⟨cur, hmem, rfl, hsame, hst, -⟩ := Tables.getStep_some hstep
      dsimp only at hop
      split at hop
      · rename_i hready
        obtain ⟨-, rfl⟩ := Prod.mk.inj (pure_ok_iff.mp hop)
        rwa [eq_of_key_eq db.valid.pk_steps hs hmem hsid, ← hst]
      · rw [bind_ok_iff] at hop
        obtain ⟨foundRun, hrun, hop⟩ := hop
        obtain ⟨row, hrow, hrid⟩ := db.valid.fk_steps cur hmem
        cases foundRun with
        | none =>
            rw [hsame.runId, ← hrid] at hrun
            exact absurd hrun (getRun_ne_none hrow)
        | some run =>
            dsimp only at hop
            split at hop
            · -- cancelled, since its run has ended
              simp only [claimCancelled, bind_ok_iff, pure_ok_iff, Prod.mk.injEq] at hop
              obtain ⟨v, hv, t, hsave, db₁, hcommit, -, rfl⟩ := hop
              obtain ⟨-, hsame', hst', -⟩ := SearchStep.transition_ok hv
              obtain rfl := Tables.saveStep_ok hsave
              rw [status_of_saved [] hmem (hsame.trans hsame').id
                (by rw [commit_ok hcommit]; rfl) hs hsid, hst']
              simp
            · rename_i hopen
              split at hop
              · simp only [claimPastHardDeadline, bind_ok_iff, pure_ok_iff, Prod.mk.injEq] at hop
                obtain ⟨v, hv, v', hv', _, _, db₁, hsave, -, rfl⟩ := hop
                obtain ⟨-, hsame', -, -⟩ := SearchStep.start_ok hv
                obtain ⟨-, hsame'', hst', -⟩ := SearchStep.transition_ok hv'
                rw [status_of_saved _ hmem ((hsame.trans hsame').trans hsame'').id
                  (saveAndCommit_ok hsave).1 hs hsid, hst']
                simp
              · split at hop
                · simp only [claimPastPhaseDeadline, bind_ok_iff, pure_ok_iff, Prod.mk.injEq] at hop
                  obtain ⟨r, hr, v, hv, v', hv', ⟨u, r'⟩, hfail, db₁, hsave, -, rfl⟩ := hop
                  obtain ⟨-, hsame', -, -⟩ := SearchStep.start_ok hv
                  obtain ⟨-, hsame'', hst', -⟩ := SearchStep.transition_ok hv'
                  obtain ⟨hran, hropen, -⟩ := startOrResume_ok hr
                  obtain ⟨_, _, h, -⟩ := loaded_of_claim hstep hrun
                  have hadv := onFailure_ok (h.ending_failed hsh hv hv' hran.id) (by simp)
                    (hropen (by simpa using hopen)) hfail
                  obtain ⟨hsteps, -, -⟩ := saveAndCommit_ok hsave
                  rw [hadv.steps] at hsteps
                  rw [status_of_saved _ hmem ((hsame.trans hsame').trans hsame'').id hsteps hs hsid,
                    hst']
                  simp
                · simp only [claimLease, bind_ok_iff, pure_ok_iff, Prod.mk.injEq, Uow.newUuid] at hop
                  obtain ⟨_, _, ⟨v, a⟩, hlease, db₁, hsave, -, rfl⟩ := hop
                  obtain ⟨-, ⟨-, hsame', hst', -⟩, -⟩ := leaseClaim_ok hlease
                  rw [status_of_saved _ hmem (hsame.trans hsame').id (saveAndCommit_ok hsave).1 hs
                    hsid, hst']
                  simp

/-- A lease whose attempt is open holds it. -/
theorem Holds.of_open {c : ClaimedStep} (hc : ClaimOk db c) (ho : OneOpen db) {a : StepAttempt}
    (ha : a ∈ db.attempts) (hid : a.id = c.attempt.id) (hopen : a.completedAt = none) :
    Holds db c a := by
  obtain ⟨b, hb, hbid, hstep, hno, howner, -⟩ := hc.attempt
  obtain rfl := eq_of_key_eq db.valid.pk_attempts ha hb (hid.trans hbid.symm)
  exact ⟨hb, hbid, hstep, hno, howner, hopen, by rw [ho.latest a hb hopen, hstep]⟩

/-- The holder of an open attempt passes the fence. -/
theorem fenced_of_holds {c : ClaimedStep} {a : StepAttempt} (hsh : Shape db.toTables)
    (ho : OneOpen db) (hc : ClaimOk db c) (ha : Holds db c a) :
    fenced db.toTables c ≠ .ok none := by
  obtain ⟨s, hs, hsid, -⟩ := hc.step
  have hrun := ho.running s hs a ha.mem (ha.stepId.trans hsid.symm) ha.isOpen
  have hcur := (isCurrentAttempt_iff hc).mpr ⟨a, ha⟩
  have hl : lookup (·.id) c.stepId db.steps = some s := by
    rw [← hsid]
    exact lookup_of_mem db.valid.pk_steps hs
  have hrow := SearchStep.rehydrate_eq (hsh.output s hs)
  simp [fenced, Tables.getStep, hl, hrow, hcur, hrun, bind, Except.bind, pure, Except.pure]

/-- **A report leaves the attempt it is made under closed.** -/
theorem report_closes {d : Deployment} {w w' : World} {c : ClaimedStep} (hi : WInv w)
    (ho : OneOpen w.db) (hc : c ∈ w.claims) (h : Report d w c w') {a : StepAttempt}
    (ha : a ∈ w'.db.attempts) (hid : a.id = c.attempt.id) : a.completedAt ≠ none := by
  have hok := hi.claims c hc
  cases report_saved hi hc h with
  | stale hf hdb =>
      -- a report that is turned away changes nothing, and its attempt was closed
      intro hopen
      exact fenced_of_holds hi.shape ho hok (.of_open hok ho (hdb ▸ ha) hid hopen) hf
  | saved fin _ _ _ _ _ hfin hdone hatt =>
      rw [hatt, mem_update] at ha
      rcases ha with ⟨b, -, -, rfl⟩ | ⟨-, hne⟩
      · rw [StepAttempt.writeTo]
        exact Option.isSome_iff_ne_none.mp hdone
      · exact absurd (hid.trans hfin.symm) hne

/-- The reconciler says that a step is READY, or it has done nothing. -/
theorem makeReady_answer {candidate : ReconcileCandidate} {now : Time} {answer : Bool}
    (hop : makeReady env db candidate now = .ok (answer, db')) : answer = true ∨ db' = db := by
  have quiet : ∀ {b : Bool}, (pure (b, db) : Except Exn _) = .ok (answer, db') →
      answer = true ∨ db' = db := by
    intro b hq
    exact .inr (Prod.mk.inj (pure_ok_iff.mp hq)).2.symm
  simp only [makeReady, bind_ok_iff] at hop
  obtain ⟨found, -, hop⟩ := hop
  cases found with
  | none => exact quiet hop
  | some step =>
      dsimp only at hop
      split at hop
      · split at hop
        · exact quiet hop
        · split at hop
          · exact quiet hop
          · simp only [bind_ok_iff, pure_ok_iff, Prod.mk.injEq] at hop
            obtain ⟨_, _, _, _, _, _, h, -⟩ := hop
            exact .inl h.symm
      · split at hop
        · split at hop
          · exact quiet hop
          · split at hop
            · exact quiet hop
            · simp only [bind_ok_iff, pure_ok_iff, Prod.mk.injEq] at hop
              obtain ⟨_, _, _, _, _, _, h, -⟩ := hop
              exact .inl h.symm
        · exact quiet hop

end Touching

/-! ## Attended steps -/

/-- A message that names the step is on its way, or will be. -/
def Fleet.Messaged (f : Fleet) (stepId : Uuid) : Prop :=
  stepId ∈ f.queue ∨ stepId ∈ f.releasing ∨
    ∃ o ∈ f.world.db.outbox, o.aggregateId = stepId ∧ o.publishedAt = none ∧ o.id ∉ f.sent

/-- A worker is executing under the step's open attempt. -/
def Fleet.Worked (f : Fleet) (stepId : Uuid) : Prop :=
  ∃ c ∈ f.executing, ∃ a ∈ f.world.db.attempts,
    a.id = c.attempt.id ∧ a.stepId = stepId ∧ a.completedAt = none

/-- Something is under way that will touch the step. -/
def Fleet.Attended (f : Fleet) (s : SearchStep) : Prop :=
  s.status = .ready ∧ f.Messaged s.id ∨ s.status = .running ∧ f.Worked s.id

/-- Every step of a run that has not ended, except one, is attended. -/
def Fleet.OthersAttended (f : Fleet) (runId : Uuid) (except : Option Uuid) : Prop :=
  ∀ s ∈ f.world.db.steps, s.runId = runId → s.isTerminal = false → some s.id ≠ except → f.Attended s

/-- Every live step of every run that has ended is attended. -/
def Fleet.Covered (f : Fleet) : Prop :=
  ∀ r ∈ f.world.db.runs, r.isTerminal = true → f.OthersAttended r.id none

/--
What may happen, and when. A run is cancelled, or a step claimed past its run's hard
deadline, only while every other live step of the run is attended. A message, a release
or a worker is lost only if no step of a run that has ended needed it.
-/
def Fleet.Tended (f : Fleet) : Fleet.Act → Prop
  | .transact (.cancel _ runId) => ∀ r ∈ f.world.db.runs, r.id = runId → r.isTerminal = false →
      f.OthersAttended runId none
  | .take message env _ => ∀ s ∈ f.world.db.steps, f.queue[message]? = some s.id →
      s.status = .ready → ∀ r ∈ f.world.db.runs, r.id = s.runId → r.isTerminal = false →
        r.budget.hardDeadlineAt ≤ env.now → f.OthersAttended r.id (some s.id)
  | .lose message => ∀ s ∈ f.world.db.steps, f.queue[message]? = some s.id → s.status = .ready →
      ∀ r ∈ f.world.db.runs, r.id = s.runId → r.isTerminal = true →
        Fleet.Messaged { f with queue := f.queue.eraseIdx message } s.id
  | .drop released => ∀ s ∈ f.world.db.steps, f.releasing[released]? = some s.id →
      s.status = .ready → ∀ r ∈ f.world.db.runs, r.id = s.runId → r.isTerminal = true →
        Fleet.Messaged { f with releasing := f.releasing.eraseIdx released } s.id
  | .crash worker => ∀ s ∈ f.world.db.steps,
      f.executing[worker]?.map (·.stepId) = some s.id → s.status = .running →
        ∀ r ∈ f.world.db.runs, r.id = s.runId → r.isTerminal = true →
          Fleet.Worked { f with executing := f.executing.eraseIdx worker } s.id
  | _ => True

section Decidability

variable (f : Fleet)

instance (id : Uuid) : Decidable (f.Messaged id) := by unfold Fleet.Messaged; infer_instance

instance (id : Uuid) : Decidable (f.Worked id) := by unfold Fleet.Worked; infer_instance

instance (s : SearchStep) : Decidable (f.Attended s) := by unfold Fleet.Attended; infer_instance

instance (id : Uuid) (except : Option Uuid) : Decidable (f.OthersAttended id except) := by
  unfold Fleet.OthersAttended
  infer_instance

instance (a : Fleet.Act) : Decidable (f.Tended a) := by
  unfold Fleet.Tended
  split <;> infer_instance

end Decidability

section Covering

variable {d : Deployment} {f g : Fleet} {who : Actor} {s : SearchStep}

/-- **What a transaction has to leave in place for every lingering step to be attended.** -/
theorem Fleet.Covered.effect (h : f.Covered) (he : Effect who f.world.db g.world.db)
    (hcancel : ∀ r ∈ f.world.db.runs, who = .canceller r.id → r.isTerminal = false →
      f.OthersAttended r.id none)
    (hclaim : ∀ cur ∈ f.world.db.steps, ∀ now, who = .claimer cur.id now → cur.status = .ready →
      ∀ r ∈ f.world.db.runs, r.id = cur.runId → r.isTerminal = false →
        r.budget.hardDeadlineAt ≤ now → f.OthersAttended r.id (some cur.id))
    (hrelease : ∀ candidate now, who = .reconciler candidate now →
      g.world.db.steps = f.world.db.steps ∨ candidate.stepId ∈ g.releasing)
    (hmessage : ∀ s ∈ g.world.db.steps, s.status = .ready → f.Messaged s.id → g.Messaged s.id)
    (hworker : ∀ s ∈ f.world.db.steps, s ∈ g.world.db.steps → s.status = .running →
      f.Worked s.id → g.Worked s.id) : g.Covered := by
  -- a step that stays as it is stays attended
  have keep : ∀ s ∈ f.world.db.steps, s ∈ g.world.db.steps → f.Attended s → g.Attended s := by
    intro s hs hs' hatt
    rcases hatt with ⟨hready, hm⟩ | ⟨hrun, hw⟩
    · exact .inl ⟨hready, hmessage s hs' hready hm⟩
    · exact .inr ⟨hrun, hworker s hs hs' hrun hw⟩
  intro r' hr' hterm' s hs hrun hlive _
  cases he.lingers hs hlive hr' hrun.symm hterm' with
  | kept hold r hr hid hterm =>
      exact keep s hold hs (h r hr hterm s hold hid.symm hlive (by simp))
  | released candidate now hwho hid hready hnew =>
      rcases hrelease candidate now hwho with hsame | hin
      · exact absurd (hsame ▸ hs) hnew
      · exact .inl ⟨hready, .inr (.inl (hid ▸ hin))⟩
  | resent cur hcur hcurlive hcurready hid hready r hr hrid hterm =>
      rcases h r hr hterm cur hcur hrid.symm hcurlive (by simp) with ⟨-, hm⟩ | ⟨hrun', -⟩
      · rw [hid] at hm
        exact .inl ⟨hready, hmessage s hs hready hm⟩
      · rw [hcurready] at hrun'
        cases hrun'
  | cancelled hold r hr hid hopen hwho =>
      exact keep s hold hs (hcancel r hr hwho hopen s hold hid.symm hlive (by simp))
  | outOfTime hold cur hcur hready hne now hwho r hr hid hrun' hopen hlate =>
      refine keep s hold hs (hclaim cur hcur now hwho hready r hr hid hopen hlate s hold
        (hrun'.trans hid.symm) hlive ?_)
      simpa using hne

/-- A transaction of anyone but the dispatcher leaves the messages that are there. -/
theorem Fleet.Messaged.effect {id : Uuid} (h : f.Messaged id)
    (he : Effect who f.world.db g.world.db) (hne : who ≠ .dispatcher)
    (hqueue : id ∈ f.queue → id ∈ g.queue) (hreleasing : f.releasing ⊆ g.releasing)
    (hsent : g.sent = f.sent) : g.Messaged id := by
  rcases h with hq | hr | ⟨o, ho, hid, hun, hns⟩
  · exact .inl (hqueue hq)
  · exact .inr (.inl (hreleasing hr))
  · exact .inr (.inr ⟨o, he.unpublished_persists hne ho, hid, hun, by rwa [hsent]⟩)

/-- A worker goes on executing. -/
theorem Fleet.Worked.effect (h : f.Worked s.id) (he : Effect who f.world.db g.world.db)
    (hs : s ∈ f.world.db.steps) (hs' : s ∈ g.world.db.steps) (hrun : s.status = .running)
    (hworkers : ∀ c ∈ f.executing, (∃ a ∈ g.world.db.attempts, a.id = c.attempt.id ∧
      a.completedAt = none) → ∃ c' ∈ g.executing, c'.attempt.id = c.attempt.id) :
    g.Worked s.id := by
  obtain ⟨c, hc, a, ha, hid, hstep, hopen⟩ := h
  obtain ⟨a', ha', hsame, hopen'⟩ := he.open_persists ha hopen hs hs' hstep hrun
  have hid' : a'.id = c.attempt.id := hsame.id.trans hid
  obtain ⟨c', hc', hcid⟩ := hworkers c hc ⟨a', ha', hid', hopen'⟩
  exact ⟨c', hc', a', ha', hid'.trans hcid.symm, hsame.stepId.trans hstep, hopen'⟩

/-- Nothing is written: every attended step has to stay so. -/
theorem Fleet.Covered.still (h : f.Covered) (hw : g.world = f.world)
    (hmessage : ∀ s ∈ f.world.db.steps, s.status = .ready →
      (∃ r ∈ f.world.db.runs, r.id = s.runId ∧ r.isTerminal = true) → f.Messaged s.id →
        g.Messaged s.id)
    (hworker : ∀ s ∈ f.world.db.steps, s.status = .running →
      (∃ r ∈ f.world.db.runs, r.id = s.runId ∧ r.isTerminal = true) → f.Worked s.id →
        g.Worked s.id) : g.Covered := by
  intro r hr hterm s hs hrun hlive hne
  rw [hw] at hr hs
  rcases h r hr hterm s hs hrun hlive hne with ⟨hready, hm⟩ | ⟨hrunning, hwork⟩
  · exact .inl ⟨hready, hmessage s hs hready ⟨r, hr, hrun.symm, hterm⟩ hm⟩
  · exact .inr ⟨hrunning, hworker s hs hrunning ⟨r, hr, hrun.symm, hterm⟩ hwork⟩

end Covering

/-! ## One thing happens -/

section Acting

variable {d : Deployment} {f g : Fleet} {a : Fleet.Act}

/-- What holds in every state: the workers' leases were handed out, and no step is left alone. -/
structure Fleet.Inv (d : Deployment) (f : Fleet) : Prop where
  reach : Reachable d f.world
  held : ∀ c ∈ f.executing, c ∈ f.world.claims
  covered : f.Covered

/-- A transaction beside the deliveries hands out no lease. -/
theorem claims_of_isBeside {call : Call} {w w' : World} (hb : call.isBeside = true)
    (hrun : call.run d w = .ok w') : w'.claims = w.claims := by
  cases call with
  | claim | succeed | fail | renew | renewLost | makeReady => cases hb
  | create | submit | cancel | audit | deliver =>
      simp only [Call.run, bind_ok_iff, pure_ok_iff] at hrun
      obtain ⟨_, _, rfl⟩ := hrun
      rfl

/-- A failed send is counted, and its row stays unpublished. -/
theorem markFailed_unpublished {env : Env} {db db' : Db} {id : Uuid} {error : String}
    (hop : markFailed env db id error = .ok db') {o : OutboxMessage} (ho : o ∈ db.outbox)
    (hun : o.publishedAt = none) :
    ∃ o' ∈ db'.outbox, o'.id = o.id ∧ o'.aggregateId = o.aggregateId ∧ o'.publishedAt = none := by
  rw [commit_ok hop]
  by_cases hid : o.id = id
  · refine ⟨_, List.mem_append_left _ (mem_update_self ho hid), ?_⟩
    simp [hun]
  · exact ⟨o, List.mem_append_left _ (mem_update_of_ne ho hid), rfl, rfl, hun⟩

/-- Marking one row leaves the others as they are. -/
theorem markPublished_other {env : Env} {db db' : Db} {id : Uuid} {at' : Time}
    (hop : markPublished env db id at' = .ok db') {o : OutboxMessage} (ho : o ∈ db.outbox)
    (hne : o.id ≠ id) : o ∈ db'.outbox := by
  rw [commit_ok hop]
  exact List.mem_append_left _ (mem_update_of_ne ho hne)

/-- Only a failed send is a transaction of the dispatcher's beside the marks. -/
theorem markFailed_of_dispatcher {call : Call} {w w' : World} (hb : call.isBeside = true)
    (hwho : call.actor d = .dispatcher) (hrun : call.run d w = .ok w') :
    ∃ env id error, markFailed env w.db id error = .ok w'.db := by
  cases call with
  | deliver env op =>
      cases op with
      | published | dispatched => cases hb <;> cases hwho
      | failed id error =>
          simp only [Call.run, bind_ok_iff, pure_ok_iff] at hrun
          obtain ⟨db, h, rfl⟩ := hrun
          exact ⟨env, id, error, h⟩
  | _ => cases hwho

theorem Fleet.Inv.transact (h : f.Inv d) {call : Call} (hok : f.Tended (.transact call))
    (hact : f.act d (.transact call) = some g) : g.Inv d := by
  simp only [Fleet.act, Option.ite_none_right_eq_some, Option.map_eq_some_iff] at hact
  obtain ⟨⟨hb, hheld⟩, w', hrun, rfl⟩ := hact
  replace hrun := toOption_eq_some hrun
  have hi := winv_reachable h.reach
  have he := call_effect hi hheld hrun
  refine ⟨h.reach.tail (step_iff_call.mpr ⟨call, hheld, hrun⟩), ?_, ?_⟩
  · intro c hc
    rw [claims_of_isBeside hb hrun]
    exact h.held c hc
  refine h.covered.effect (g := { f with world := w' }) he ?_ ?_ ?_ ?_ ?_
  · intro r hr hwho hopen
    cases call with
    | cancel env runId =>
        obtain rfl := Actor.canceller.inj hwho
        exact hok r hr rfl hopen
    | deliver env op => cases op <;> cases hwho
    | _ => cases hwho
  · intro cur _ now hwho
    cases call with
    | claim => cases hb
    | deliver env op => cases op <;> cases hwho
    | _ => cases hwho
  · intro candidate now hwho
    cases call with
    | makeReady => cases hb
    | deliver env op => cases op <;> cases hwho
    | _ => cases hwho
  · intro s _ _ hm
    by_cases hwho : call.actor d = .dispatcher
    · obtain ⟨env, id, error, hop⟩ := markFailed_of_dispatcher hb hwho hrun
      rcases hm with hq | hr | ⟨o, ho, hid, hun, hns⟩
      · exact .inl hq
      · exact .inr (.inl hr)
      · obtain ⟨o', ho', hoid, hoagg, hun'⟩ := markFailed_unpublished hop ho hun
        exact .inr (.inr ⟨o', ho', hoagg.trans hid, hun', by rwa [hoid]⟩)
    · exact hm.effect he hwho (fun hq => hq) (List.Subset.refl _) rfl
  · intro s hs hs' hrun' hw
    exact hw.effect he hs hs' hrun' fun c hc _ => ⟨c, hc, rfl⟩

theorem Fleet.Inv.mark (h : f.Inv d) {env : Env} {id : Uuid} {at' : Time}
    (hact : f.act d (.mark env id at') = some g) : g.Inv d := by
  simp only [Fleet.act, Option.ite_none_right_eq_some, Option.map_eq_some_iff] at hact
  obtain ⟨hsent, db, hop, rfl⟩ := hact
  replace hop := toOption_eq_some hop
  have he := @delivery_effect _ _ _ (.published id at') (winv_reachable h.reach).shape hop
  refine ⟨h.reach.tail (.deliver env (.published id at') hop), h.held, ?_⟩
  refine h.covered.effect he (by simp [DeliveryOp.actor]) (by simp [DeliveryOp.actor])
    (by simp [DeliveryOp.actor]) ?_ ?_
  · intro s _ _ hm
    rcases hm with hq | hr | ⟨o, ho, hid, hun, hns⟩
    · exact .inl hq
    · exact .inr (.inl hr)
    · -- a row that was not sent is not the one that is marked
      have hne : o.id ≠ id := fun heq => hns (heq ▸ hsent)
      exact .inr (.inr ⟨o, markPublished_other hop ho hne, hid, hun,
        fun hin => hns (List.mem_filter.mp hin).1⟩)
  · intro s hs hs' hrun hw
    exact hw.effect he hs hs' hrun fun c hc _ => ⟨c, hc, rfl⟩

/-- Removing one entry leaves the others. -/
theorem mem_eraseIdx_of_ne {α : Type} {l : List α} {i : Nat} {x : α} (hi : l[i]? ≠ some x)
    (hx : x ∈ l) : x ∈ l.eraseIdx i := by
  obtain ⟨j, hj⟩ := List.mem_iff_getElem?.mp hx
  refine List.mem_eraseIdx_iff_getElem?.mpr ⟨j, fun hij => hi ?_, hj⟩
  rw [← hij]
  exact hj

theorem Fleet.Inv.take (h : f.Inv d) {message : Nat} {env : Env} {worker : String}
    (hok : f.Tended (.take message env worker))
    (hact : f.act d (.take message env worker) = some g) : g.Inv d := by
  simp only [Fleet.act, Option.bind_eq_some_iff, Option.map_eq_some_iff, Prod.exists] at hact
  obtain ⟨stepId, hmsg, result, db, hop, rfl⟩ := hact
  replace hop := toOption_eq_some hop
  have hi := winv_reachable h.reach
  have he := (claim_effect hi.shape hop).1
  refine ⟨h.reach.tail (.claim env stepId worker result hop), ?_, ?_⟩
  · intro c hc
    rcases List.mem_append.mp hc with hc | hc
    · exact List.mem_append_left _ (h.held c hc)
    · exact List.mem_append_right _ hc
  refine h.covered.effect he (by simp) ?_ (by simp) ?_ ?_
  · intro cur hcur now hwho hready r hr hrid hopen hlate
    obtain ⟨rfl, rfl⟩ := Actor.claimer.inj hwho
    exact hok cur hcur hmsg hready r hr hrid hopen hlate
  · -- the claimed step is not READY any more, so the message is not missed
    intro s hs hready hm
    have hne : s.id ≠ stepId := fun hid => claim_not_ready hi.shape hop hs hid hready
    refine hm.effect he (by simp) (fun hq => mem_eraseIdx_of_ne ?_ hq) (List.Subset.refl _) rfl
    rw [hmsg]
    exact fun heq => hne (Option.some.inj heq).symm
  · intro s hs hs' hrun hw
    exact hw.effect he hs hs' hrun fun c hc _ => ⟨c, List.mem_append_left _ hc, rfl⟩

/-- A worker reports and is done. -/
theorem Fleet.Inv.reported (h : f.Inv d) {worker : Nat} {c : ClaimedStep} {db : Db}
    {limit : StepType → Nat} (hc : f.executing[worker]? = some c)
    (hstep : Step d f.world ⟨db, f.world.claims⟩) (hreport : Report d f.world c ⟨db, f.world.claims⟩)
    (he : Effect (.reporter c limit) f.world.db db) :
    Fleet.Inv d { f with world := ⟨db, f.world.claims⟩, executing := f.executing.eraseIdx worker } := by
  have hmem := h.held c (List.mem_of_getElem? hc)
  refine ⟨h.reach.tail hstep, fun c' hc' => h.held c' (List.mem_of_mem_eraseIdx hc'), ?_⟩
  refine h.covered.effect he (by simp) (by simp) (by simp) ?_ ?_
  · intro s _ _ hm
    exact hm.effect he (by simp) (fun hq => hq) (List.Subset.refl _) rfl
  · intro s hs hs' hrun hw
    refine hw.effect he hs hs' hrun fun c' hc' hopen => ⟨c', ?_, rfl⟩
    -- the attempt of the worker that has reported is closed
    obtain ⟨a, ha, hid, hao⟩ := hopen
    refine mem_eraseIdx_of_ne ?_ hc'
    rw [hc]
    intro heq
    obtain rfl := Option.some.inj heq
    exact report_closes (winv_reachable h.reach) (oneOpen_reachable h.reach) hmem hreport ha hid hao

theorem Fleet.Inv.succeed (h : f.Inv d) {worker : Nat} {env : Env} {result : StepExecutionResult}
    (hact : f.act d (.succeed worker env result) = some g) : g.Inv d := by
  simp only [Fleet.act, Option.bind_eq_some_iff, Option.map_eq_some_iff, Prod.exists] at hact
  obtain ⟨c, hc, disposition, db, hop, rfl⟩ := hact
  replace hop := toOption_eq_some hop
  have hi := winv_reachable h.reach
  have hmem := h.held c (List.mem_of_getElem? hc)
  exact h.reported hc (.succeed env c hmem result disposition hop)
    (.succeed env result disposition hop)
    (@succeed_effect _ _ _ _ _ _ (fun _ => 0) _ hi.shape (hi.claims c hmem) hop)

theorem Fleet.Inv.fail (h : f.Inv d) {worker : Nat} {env : Env} {error : TypedError}
    (hact : f.act d (.fail worker env error) = some g) : g.Inv d := by
  simp only [Fleet.act, Option.bind_eq_some_iff, Option.map_eq_some_iff, Prod.exists] at hact
  obtain ⟨c, hc, disposition, db, hop, rfl⟩ := hact
  replace hop := toOption_eq_some hop
  have hi := winv_reachable h.reach
  have hmem := h.held c (List.mem_of_getElem? hc)
  exact h.reported hc (.fail env c hmem error disposition hop) (.fail env error disposition hop)
    (fail_effect hi.shape (hi.claims c hmem) hop)

/-- A worker goes on under a longer lease of the same attempt. -/
theorem Fleet.Inv.extended (h : f.Inv d) {worker : Nat} {c c' : ClaimedStep} {db : Db}
    (hc : f.executing[worker]? = some c) (hid : c'.attempt.id = c.attempt.id)
    (hstep : Step d f.world ⟨db, f.world.claims ++ [c']⟩)
    (he : Effect .heartbeat f.world.db db) :
    Fleet.Inv d { f with
      world := ⟨db, f.world.claims ++ [c']⟩, executing := f.executing.set worker c' } := by
  refine ⟨h.reach.tail hstep, ?_, ?_⟩
  · intro x hx
    rcases List.mem_or_eq_of_mem_set hx with hx | rfl
    · exact List.mem_append_left _ (h.held x hx)
    · exact List.mem_append_right _ (by simp)
  refine h.covered.effect he (by simp) (by simp) (by simp) ?_ ?_
  · intro s _ _ hm
    exact hm.effect he (by simp) (fun hq => hq) (List.Subset.refl _) rfl
  · intro s hs hs' hrun hw
    refine hw.effect he hs hs' hrun fun x hx _ => ?_
    obtain ⟨j, hj⟩ := List.mem_iff_getElem?.mp hx
    have hlt : worker < f.executing.length := (List.getElem?_eq_some_iff.mp hc).1
    by_cases hij : worker = j
    · rw [← hij, hc] at hj
      obtain rfl := Option.some.inj hj
      exact ⟨c', List.mem_set hlt c', hid⟩
    · refine ⟨x, List.mem_iff_getElem?.mpr ⟨j, ?_⟩, rfl⟩
      rw [List.getElem?_set_ne hij]
      exact hj

theorem Fleet.Inv.renew (h : f.Inv d) {worker : Nat} {env : Env}
    (hact : f.act d (.renew worker env) = some g) : g.Inv d := by
  simp only [Fleet.act, Option.bind_eq_some_iff, Option.map_eq_some_iff, Prod.exists] at hact
  obtain ⟨c, hc, answer, renewed, db, hop, rfl⟩ := hact
  replace hop := toOption_eq_some hop
  have hmem := h.held c (List.mem_of_getElem? hc)
  obtain ⟨he, -, -, hsame⟩ := renew_effect ((winv_reachable h.reach).claims c hmem) hop
  exact h.extended hc hsame.id (.renew env c hmem answer renewed hop) he

theorem Fleet.Inv.renewLost (h : f.Inv d) {worker : Nat} {leasedUntil : Time}
    (hact : f.act d (.renewLost worker leasedUntil) = some g) : g.Inv d := by
  simp only [Fleet.act, Option.bind_eq_some_iff, Option.map_eq_some_iff] at hact
  obtain ⟨c, hc, attempt, hop, rfl⟩ := hact
  replace hop := toOption_eq_some hop
  have hmem := h.held c (List.mem_of_getElem? hc)
  exact h.extended hc (StepAttempt.renewLease_ok hop).1.id
    (.renewLost c hmem attempt leasedUntil hop) (.idle rfl rfl rfl .rfl)

theorem Fleet.Inv.release (h : f.Inv d) {env : Env} {candidate : ReconcileCandidate} {now : Time}
    (hact : f.act d (.release env candidate now) = some g) : g.Inv d := by
  simp only [Fleet.act, Option.map_eq_some_iff, Prod.exists] at hact
  obtain ⟨answer, db, hop, rfl⟩ := hact
  replace hop := toOption_eq_some hop
  have he := makeReady_effect (winv_reachable h.reach).shape hop
  have hsub : f.releasing ⊆ if answer then f.releasing ++ [candidate.stepId] else f.releasing := by
    split
    · exact List.subset_append_left _ _
    · exact List.Subset.refl _
  refine ⟨h.reach.tail (.makeReady env candidate now answer hop), h.held, ?_⟩
  refine h.covered.effect he (by simp) (by simp) ?_ ?_ ?_
  · intro candidate' now' hwho
    obtain ⟨rfl, -⟩ := Actor.reconciler.inj hwho
    rcases makeReady_answer hop with rfl | rfl
    · exact .inr (by simp)
    · exact .inl rfl
  · intro s _ _ hm
    exact hm.effect he (by simp) (fun hq => hq) hsub rfl
  · intro s hs hs' hrun hw
    exact hw.effect he hs hs' hrun fun c hc _ => ⟨c, hc, rfl⟩

/-- Where only the bookkeeping changes, it is enough to look at the steps it is about. -/
theorem Fleet.Inv.still (h : f.Inv d) (hw : g.world = f.world)
    (hex : ∀ c ∈ g.executing, c ∈ f.executing)
    (hmessage : ∀ s ∈ f.world.db.steps, s.status = .ready →
      (∃ r ∈ f.world.db.runs, r.id = s.runId ∧ r.isTerminal = true) → f.Messaged s.id →
        g.Messaged s.id)
    (hworker : ∀ s ∈ f.world.db.steps, s.status = .running →
      (∃ r ∈ f.world.db.runs, r.id = s.runId ∧ r.isTerminal = true) → f.Worked s.id →
        g.Worked s.id) : g.Inv d where
  reach := by
    rw [hw]
    exact h.reach
  held c hc := by
    rw [hw]
    exact h.held c (hex c hc)
  covered := h.covered.still hw hmessage hworker

theorem Fleet.Inv.send (h : f.Inv d) {now : Time} {id : Uuid}
    (hact : f.act d (.send now id) = some g) : g.Inv d := by
  simp only [Fleet.act, Option.bind_eq_some_iff, Option.ite_none_right_eq_some,
    Option.some.injEq] at hact
  obtain ⟨o, ho, -, rfl⟩ := hact
  obtain ⟨homem, -⟩ := lookup_eq_some ho
  refine h.still rfl (fun c hc => hc) ?_ (fun s _ _ _ hwork => hwork)
  intro s _ _ _ hm
  rcases hm with hq | hr | ⟨o', ho', hid', hun, hns⟩
  · exact .inl (List.mem_append_left _ hq)
  · exact .inr (.inl hr)
  · by_cases heq : o'.id = o.id
    · -- the row that is sent: its message is on the broker now
      obtain rfl := eq_of_key_eq f.world.db.valid.pk_outbox ho' homem heq
      exact .inl (List.mem_append_right _ (by simp [hid']))
    · exact .inr (.inr ⟨o', ho', hid', hun, by simp [hns, heq]⟩)

theorem Fleet.Inv.crash (h : f.Inv d) {worker : Nat} (hok : f.Tended (.crash worker))
    (hact : f.act d (.crash worker) = some g) : g.Inv d := by
  obtain rfl := Option.some.inj hact
  refine h.still rfl (fun c hc => List.mem_of_mem_eraseIdx hc) (fun s _ _ _ hm => hm) ?_
  intro s hs hrun hrow hwork
  obtain ⟨r, hr, hrid, hterm⟩ := hrow
  by_cases hmine : f.executing[worker]?.map (·.stepId) = some s.id
  · exact hok s hs hmine hrun r hr hrid hterm
  · obtain ⟨c, hc, a, ha, hid, hstep, hopen⟩ := hwork
    refine ⟨c, mem_eraseIdx_of_ne ?_ hc, a, ha, hid, hstep, hopen⟩
    intro hcw
    obtain ⟨b, hb, hbid, hbstep, -⟩ := ((winv_reachable h.reach).claims c (h.held c hc)).attempt
    obtain rfl := eq_of_key_eq f.world.db.valid.pk_attempts ha hb (hid.trans hbid.symm)
    exact hmine (by rw [hcw, Option.map_some, ← hbstep, hstep])

/-- A message or a release is gone: its step needs another. -/
theorem Fleet.Messaged.without {id : Uuid} (h : f.Messaged id) (hsent : g.sent = f.sent)
    (hw : g.world = f.world) (hqueue : id ∈ f.queue → id ∈ g.queue ∨ id ∈ g.releasing)
    (hreleasing : id ∈ f.releasing → id ∈ g.queue ∨ id ∈ g.releasing) : g.Messaged id := by
  rcases h with hq | hr | ⟨o, ho, hid, hun, hns⟩
  · rcases hqueue hq with h | h
    · exact .inl h
    · exact .inr (.inl h)
  · rcases hreleasing hr with h | h
    · exact .inl h
    · exact .inr (.inl h)
  · exact .inr (.inr ⟨o, by rwa [hw], hid, hun, by rwa [hsent]⟩)

theorem Fleet.Inv.lose (h : f.Inv d) {message : Nat} (hok : f.Tended (.lose message))
    (hact : f.act d (.lose message) = some g) : g.Inv d := by
  obtain rfl := Option.some.inj hact
  refine h.still rfl (fun c hc => hc) ?_ (fun s _ _ _ hwork => hwork)
  intro s hs hready hrow hm
  obtain ⟨r, hr, hrid, hterm⟩ := hrow
  by_cases hmine : f.queue[message]? = some s.id
  · exact hok s hs hmine hready r hr hrid hterm
  · exact hm.without rfl rfl (fun hq => .inl (mem_eraseIdx_of_ne hmine hq)) .inr

theorem Fleet.Inv.drop (h : f.Inv d) {released : Nat} (hok : f.Tended (.drop released))
    (hact : f.act d (.drop released) = some g) : g.Inv d := by
  obtain rfl := Option.some.inj hact
  refine h.still rfl (fun c hc => hc) ?_ (fun s _ _ _ hwork => hwork)
  intro s hs hready hrow hm
  obtain ⟨r, hr, hrid, hterm⟩ := hrow
  by_cases hmine : f.releasing[released]? = some s.id
  · exact hok s hs hmine hready r hr hrid hterm
  · exact hm.without rfl rfl .inl fun hr => .inr (mem_eraseIdx_of_ne hmine hr)

theorem Fleet.Inv.dispatch (h : f.Inv d) {released : Nat}
    (hact : f.act d (.dispatch released) = some g) : g.Inv d := by
  simp only [Fleet.act, Option.map_eq_some_iff] at hact
  obtain ⟨stepId, hstep, rfl⟩ := hact
  refine h.still rfl (fun c hc => hc) ?_ (fun s _ _ _ hwork => hwork)
  intro s _ _ _ hm
  refine hm.without rfl rfl (fun hq => .inl (List.mem_append_left _ hq)) fun hr => ?_
  by_cases heq : stepId = s.id
  · exact .inl (List.mem_append_right _ (by simp [heq]))
  · refine .inr (mem_eraseIdx_of_ne ?_ hr)
    rw [hstep]
    exact fun hs => heq (Option.some.inj hs)

/-- **Every step keeps the invariant, if it meets the condition.** -/
theorem Fleet.Inv.act (h : f.Inv d) (hok : f.Tended a) (hact : f.act d a = some g) : g.Inv d := by
  cases a with
  | transact call => exact h.transact hok hact
  | send now id => exact h.send hact
  | mark env id at' => exact h.mark hact
  | take message env worker => exact h.take hok hact
  | lose message => exact h.lose hok hact
  | succeed worker env result => exact h.succeed hact
  | fail worker env error => exact h.fail hact
  | renew worker env => exact h.renew hact
  | renewLost worker leasedUntil => exact h.renewLost hact
  | crash worker => exact h.crash hok hact
  | release env candidate now => exact h.release hact
  | dispatch released => exact h.dispatch hact
  | drop released => exact h.drop hok hact
  | abort =>
      obtain rfl := Option.some.inj hact
      refine h.still rfl (fun c hc => hc) ?_ (fun s _ _ _ hwork => hwork)
      intro s _ _ _ hm
      rcases hm with hq | hr | ⟨o, ho, hid, hun, -⟩
      · exact .inl hq
      · exact .inr (.inl hr)
      · exact .inr (.inr ⟨o, ho, hid, hun, by simp⟩)
  | deliver stepId =>
      obtain rfl := Option.some.inj hact
      refine h.still rfl (fun c hc => hc) ?_ (fun s _ _ _ hwork => hwork)
      intro s _ _ _ hm
      exact hm.without rfl rfl (fun hq => .inl (List.mem_append_left _ hq)) .inr

theorem Fleet.inv_reachable (hr : Fleet.ReachableBy d Fleet.Tended f) : f.Inv d := by
  refine hr.invariant ?_ ?_
  · intro f hf
    subst hf
    exact ⟨.init rfl, by simp [Fleet.init], by simp [Fleet.Covered, Fleet.init, World.init, Db.empty]⟩
  · intro f g h hs
    obtain ⟨a, hok, hact⟩ := hs
    exact h.act hok hact

end Acting

/-! ## Sealed runs -/

/-- Nothing is under way for a run, and the reconciler finds nothing of it. -/
structure Fleet.Quiet (f : Fleet) (run : SearchRun) (grace : Duration) (now : Time) (limit : Nat) :
    Prop where
  workers : ∀ c ∈ f.executing, c.runId ≠ run.id
  messages : ∀ s ∈ f.world.db.steps, s.runId = run.id → s.id ∉ f.queue ∧ s.id ∉ f.releasing
  outbox : ∀ s ∈ f.world.db.steps, s.runId = run.id →
    hasUnpublishedOutbox f.world.db.toTables s.id = false
  scan : ∀ s ∈ f.world.db.steps, s.runId = run.id →
    ∀ c ∈ candidates f.world.db.toTables grace now limit, c.stepId ≠ s.id

/-- Every step of the run has ended and every attempt is completed. -/
def Sealed (db : Db) (run : SearchRun) : Prop :=
  ∀ s ∈ db.steps, s.runId = run.id → s.isTerminal = true ∧
    ∀ a ∈ db.attempts, a.stepId = s.id → a.completedAt ≠ none

instance (f : Fleet) (run : SearchRun) (grace : Duration) (now : Time) (limit : Nat) :
    Decidable (f.Quiet run grace now limit) :=
  decidable_of_iff
    ((∀ c ∈ f.executing, c.runId ≠ run.id) ∧
      (∀ s ∈ f.world.db.steps, s.runId = run.id → s.id ∉ f.queue ∧ s.id ∉ f.releasing) ∧
      (∀ s ∈ f.world.db.steps, s.runId = run.id →
        hasUnpublishedOutbox f.world.db.toTables s.id = false) ∧
      ∀ s ∈ f.world.db.steps, s.runId = run.id →
        ∀ c ∈ candidates f.world.db.toTables grace now limit, c.stepId ≠ s.id)
    ⟨fun ⟨h1, h2, h3, h4⟩ => ⟨h1, h2, h3, h4⟩, fun ⟨h1, h2, h3, h4⟩ => ⟨h1, h2, h3, h4⟩⟩

instance (db : Db) (run : SearchRun) : Decidable (Sealed db run) := by
  unfold Sealed
  infer_instance

/--
**Sealing.** If no run was ended while one of its live steps was unattended, and nothing
that a step of an ended run still needed was lost, then in every state a run that has
ended, with nothing under way for it, is sealed: every step of it has ended and every
attempt is completed.
-/
theorem run_sealed {d : Deployment} {f : Fleet} (hr : Fleet.ReachableBy d Fleet.Tended f) :
    ∀ run ∈ f.world.db.runs, run.isTerminal = true →
      ∀ grace now limit, f.Quiet run grace now limit → Sealed f.world.db run := by
  have hi := Fleet.inv_reachable hr
  have ho := oneOpen_reachable hi.reach
  intro run hrun hterm grace now limit hq s hs hsrun
  have hend : s.isTerminal = true := by
    by_contra hlive
    rw [Bool.not_eq_true] at hlive
    rcases hi.covered run hrun hterm s hs hsrun hlive (by simp) with ⟨-, hm⟩ | ⟨-, hw⟩
    · obtain ⟨hqueue, hreleasing⟩ := hq.messages s hs hsrun
      rcases hm with h | h | ⟨o, hmem, hid, hun, -⟩
      · exact hqueue h
      · exact hreleasing h
      · have hnone := hq.outbox s hs hsrun
        simp only [hasUnpublishedOutbox, List.any_eq_false, Bool.and_eq_true, decide_eq_true_eq,
          Option.isNone_iff_eq_none, not_and] at hnone
        exact hnone o hmem hid hun
    · obtain ⟨c, hc, a, ha, hid, hstep, -⟩ := hw
      have hok := (winv_reachable hi.reach).claims c (hi.held c hc)
      obtain ⟨b, hb, hbid, hbstep, -⟩ := hok.attempt
      obtain rfl := eq_of_key_eq f.world.db.valid.pk_attempts ha hb (hid.trans hbid.symm)
      obtain ⟨s', hs', hsid', hsrun'⟩ := hok.step
      obtain rfl := eq_of_key_eq f.world.db.valid.pk_steps hs hs'
        ((hstep.symm.trans hbstep).trans hsid'.symm)
      exact hq.workers c hc (hsrun'.symm.trans hsrun)
  refine ⟨hend, fun a ha hstep => ho.not_open hs ?_ ha hstep⟩
  intro hrunning
  simp [SearchStep.isTerminal, hrunning, StepStatus.isTerminal] at hend

/-- A run is submitted, its first step is sent and a worker takes the message. -/
def takenActs : List Fleet.Act := [
  .transact (.create (sampleEnv 1) ⟨7#128⟩ "hello" none),
  .transact (.submit (sampleEnv 2)
    ⟨⟨7#128⟩, (sampleEnv 1).ids 0, "hello", "k1", ⟨.fast, [], "search-v12"⟩⟩),
  .send (seconds 3) ((sampleEnv 2).ids 4),
  .mark (sampleEnv 3) ((sampleEnv 2).ids 4) (seconds 3),
  .take 0 (sampleEnv 4) "worker"]

/-- The run is cancelled while the worker executes, and then the worker reports. -/
theorem run_sealed_reported : ∃ f, Fleet.ReachableBy sample Fleet.Tended f ∧
    ∃ run ∈ f.world.db.runs, run.isTerminal = true ∧ f.Quiet run 0 (seconds 9) 100 ∧
      Sealed f.world.db run := by
  obtain ⟨f, hr, hp⟩ := Fleet.exists_reachableBy sample Fleet.Tended
    (takenActs ++ [.transact (.cancel (sampleEnv 5) ((sampleEnv 2).ids 2)),
      .succeed 0 (sampleEnv 6) sampleResult])
    (fun f => f.world.db.runs.any fun r => r.isTerminal && decide (f.Quiet r 0 (seconds 9) 100))
    (by decide +kernel)
  obtain ⟨run, hmem, hrun⟩ := List.any_eq_true.mp hp
  rw [Bool.and_eq_true, decide_eq_true_eq] at hrun
  exact ⟨f, hr, run, hmem, hrun.1, hrun.2,
    run_sealed hr run hmem hrun.1 0 (seconds 9) 100 hrun.2⟩

/-- The reconciler never finds a step of a run that has ended. -/
theorem not_scanned {t : Tables} {run : SearchRun} {s : SearchStep} (hv : t.Valid)
    (hrun : run ∈ t.runs) (hterm : run.isTerminal = true) (hs : s ∈ t.steps)
    (hid : s.runId = run.id) (grace : Duration) (now : Time) (limit : Nat) :
    ∀ c ∈ candidates t grace now limit, c.stepId ≠ s.id := by
  intro c hc heq
  obtain ⟨s', hs', rfl⟩ := List.mem_map.mp hc
  replace hs' := List.mem_of_mem_take hs'
  rw [List.mem_insertionSort, List.mem_filter, List.any_eq_true] at hs'
  obtain ⟨hmem, r, hr, hcand⟩ := hs'
  obtain rfl := eq_of_key_eq hv.pk_steps hmem hs heq
  simp only [isCandidate, Bool.and_eq_true, Bool.or_eq_true, decide_eq_true_eq] at hcand
  obtain ⟨⟨⟨hrid, hopen⟩, -⟩, -⟩ := hcand
  obtain rfl := eq_of_key_eq hv.pk_runs hr hrun (hrid.trans hid)
  rw [SearchRun.isTerminal] at hterm
  rcases hopen with (h | h) | h <;> simp [h, RunStatus.isTerminal] at hterm

/-- A retry is scheduled, and then the run is cancelled. -/
def waitingActs : List Fleet.Act := takenActs ++ [
  .fail 0 (sampleEnv 5) ⟨.transient, "provider_failed", "", true⟩,
  .transact (.cancel (sampleEnv 6) ((sampleEnv 2).ids 2))]

/-- The worker dies, and then the run is cancelled. -/
def crashedActs : List Fleet.Act := takenActs ++ [
  .crash 0,
  .transact (.cancel (sampleEnv 5) ((sampleEnv 2).ids 2))]

/-- A run has ended, nothing is under way for it, and a step of it has the given status. -/
def Fleet.leavesLive (f : Fleet) (status : StepStatus) : Bool :=
  f.world.db.runs.any fun r => r.isTerminal && decide (f.Quiet r 0 0 100) &&
    f.world.db.steps.any fun s => s.runId = r.id && s.status = status

/-- A run can end and leave a step with a status, with nothing under way for it. -/
def LeftUnsealed (status : StepStatus) : Prop :=
  ∃ f, Fleet.ReachableBy sample (fun _ _ => True) f ∧ ∃ run ∈ f.world.db.runs,
    run.isTerminal = true ∧ (∀ grace now limit, f.Quiet run grace now limit) ∧
    (∃ s ∈ f.world.db.steps, s.runId = run.id ∧ s.status = status) ∧
    ¬ Sealed f.world.db run

theorem leftUnsealed_of_acts (acts : List Fleet.Act) {status : StepStatus}
    (hlive : status.isTerminal = false)
    (hacts : (acts.foldlM (fun f a => if (fun _ _ => True : Fleet → Fleet.Act → Prop) f a
      then Fleet.act sample f a else none) Fleet.init).any (·.leavesLive status) = true) :
    LeftUnsealed status := by
  obtain ⟨f, hr, hp⟩ := Fleet.exists_reachableBy sample (fun _ _ => True) acts
    (·.leavesLive status) hacts
  obtain ⟨run, hmem, hrun⟩ := List.any_eq_true.mp hp
  simp only [Bool.and_eq_true, decide_eq_true_eq, List.any_eq_true] at hrun
  obtain ⟨⟨hterm, hq⟩, s, hs, hsrun, hst⟩ := hrun
  refine ⟨f, hr, run, hmem, hterm, ?_, ⟨s, hs, hsrun, hst⟩, ?_⟩
  · intro grace now limit
    refine ⟨hq.workers, hq.messages, hq.outbox, fun s hs hsrun => ?_⟩
    exact not_scanned f.world.db.valid hmem hterm hs hsrun grace now limit
  · intro hsealed
    have hend := (hsealed s hs hsrun).1
    rw [SearchStep.isTerminal, hst, hlive] at hend
    cases hend

/--
**A retry that waits and a step whose worker has died outlive their run.** Nothing is
under way for the run, the reconciler will never find it, and it is not sealed.
-/
theorem run_left_unsealed : LeftUnsealed .retryWait ∧ LeftUnsealed .running := by
  constructor
  · exact leftUnsealed_of_acts waitingActs rfl (by decide +kernel)
  · exact leftUnsealed_of_acts crashedActs rfl (by decide +kernel)

end Sana.Orchestration
