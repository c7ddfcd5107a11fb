import Sana.Orchestration.Proof.Events

/-!
# Whether a run that has ended leaves its response pending

Clients wait on the response. The coordinator ends a run in two places, with an
answer and with a failure, and settles the response in both. Two more places end a
run without the coordinator: a user's cancellation, and a claim past the hard
deadline. Neither of them writes the response, which then stays QUEUED for good. As
long as neither happens to an open run, every run that has ended has a settled
response.
-/

namespace Sana.Orchestration

open Sana.Lib

variable {who : Actor} {db db' : Db} {d : Deployment} {w w' : World}

/-- The response of every run that has ended has ended. -/
def ResponsesSettled (db : Db) : Prop :=
  ∀ r ∈ db.runs, r.isTerminal = true →
    ∃ q ∈ db.responseRuns, q.id = r.responseRunId ∧ q.status ≠ .queued

/-- No open run is cancelled, or claimed past its hard deadline. -/
def EndedByCoordinator (w : World) : Call → Prop
  | .cancel _ runId => ∀ r ∈ w.db.runs, r.id = runId → r.isTerminal = true
  | .claim env stepId _ => ∀ s ∈ w.db.steps, s.id = stepId → s.status = .ready →
      ∀ r ∈ w.db.runs, r.id = s.runId → r.isTerminal = true ∨ env.now < r.budget.hardDeadlineAt
  | _ => True

instance (w : World) (call : Call) : Decidable (EndedByCoordinator w call) := by
  apply @Call.casesOn (fun call => Decidable (EndedByCoordinator w call)) call <;> intros <;>
    unfold EndedByCoordinator <;> infer_instance

/-- A settled response stays settled. -/
theorem Sides.settled_persists {new : List SearchStep} (h : Sides who db db' new)
    {q : ResponseRun} (hq : q ∈ db.responseRuns) (hst : q.status ≠ .queued) :
    ∃ q' ∈ db'.responseRuns, q'.id = q.id ∧ q'.status ≠ .queued := by
  obtain ⟨settle, hmap, hsettle⟩ := h.responses
  refine ⟨settle q, ?_, (hsettle q).1.id, (hsettle q).2.1 hst⟩
  rw [hmap]
  exact List.mem_map_of_mem hq

/-- A run whose status is not written has the response it had. -/
theorem ResponsesSettled.persists {new : List SearchStep} (h : ResponsesSettled db)
    (hsides : Sides who db db' new) {r r' : SearchRun} (hr : r ∈ db.runs)
    (hterm : r.isTerminal = true) (hresp : r'.responseRunId = r.responseRunId) :
    ∃ q ∈ db'.responseRuns, q.id = r'.responseRunId ∧ q.status ≠ .queued := by
  obtain ⟨q, hq, hid, hst⟩ := h r hr hterm
  obtain ⟨q', hq', hid', hst'⟩ := hsides.settled_persists hq hst
  exact ⟨q', hq', (hid'.trans hid).trans hresp.symm, hst'⟩

/-- **A transaction that ends no run from outside settles what it ends.** -/
theorem ResponsesSettled.effect (h : ResponsesSettled db)
    (hcancel : ∀ r ∈ db.runs, who = .canceller r.id → r.isTerminal = true)
    (hclaim : ∀ s ∈ db.steps, ∀ now, who = .claimer s.id now → s.status = .ready →
      ∀ r ∈ db.runs, r.id = s.runId → r.isTerminal = true ∨ now < r.budget.hardDeadlineAt)
    (he : Effect who db db') : ResponsesSettled db' := by
  intro r hr hterm
  cases he with
  | idle _ hruns _ hsides => exact h.persists hsides (hruns ▸ hr) hterm rfl
  | renewed _ _ _ _ _ _ _ hruns _ hsides => exact h.persists hsides (hruns ▸ hr) hterm rfl
  | runWritten run run' hmem hid hst _ hruns _ hkept _ hsides =>
      rw [hruns, mem_update_iff db.valid.pk_runs hmem] at hr
      rcases hr with rfl | ⟨hr, -⟩
      · -- a counted run was over before, and nobody cancels an open one
        refine h.persists hsides hmem ?_ hkept.responseRunId
        rcases hst with ⟨-, hsame⟩ | ⟨hwho, hopen, -⟩
        · rw [SearchRun.isTerminal, ← hsame]
          exact hterm
        · exact hcancel run hmem hwho
      · exact h.persists hsides hr hterm rfl
  | submitted rows route hsub =>
      rw [hsub.runs, List.mem_append, List.mem_singleton] at hr
      rw [hsub.tables]
      rcases hr with hr | rfl
      · obtain ⟨q, hq, hid, hst⟩ := h r hr hterm
        exact ⟨q, List.mem_append_left _ hq, hid, hst⟩
      · rw [SearchRun.isTerminal, hsub.linked.run_queued] at hterm
        cases hterm
  | moved cur cur' run run' new m =>
      rcases m.mem_runs.mp hr with rfl | ⟨hold, -⟩
      · have hresp := m.orderly.ran.responseRunId
        rcases m.settled with hend | hopen | ⟨now, hwho, hready, -, hopen, hlate⟩ | ⟨-, hset⟩
        · exact h.persists m.sides m.run_mem hend hresp
        · rw [hopen] at hterm
          cases hterm
        · -- past the hard deadline
          rcases hclaim cur m.cur_mem now hwho hready run m.run_mem m.run_id with hend | hearly
          · rw [hend] at hopen
            cases hopen
          · exact absurd hearly (not_lt.mpr hlate)
        · obtain ⟨q, hq, hid⟩ := db'.valid.fk_runs r hr
          exact ⟨q, hq, hid, hset q hq (hid.trans hresp)⟩
      · exact h.persists m.sides hold hterm rfl

/-- Only a cancellation cancels. -/
theorem runId_of_canceller {call : Call} {id : Uuid} (h : call.actor d = .canceller id) :
    ∃ env, call = .cancel env id := by
  cases call with
  | cancel env runId =>
      obtain rfl := Actor.canceller.inj h
      exact ⟨env, rfl⟩
  | deliver env op => cases op <;> simp [Call.actor, DeliveryOp.actor] at h
  | _ => simp [Call.actor] at h

/-- Only a claim claims. -/
theorem claim_of_claimer {call : Call} {id : Uuid} {now : Time}
    (h : call.actor d = .claimer id now) :
    ∃ env worker, call = .claim env id worker ∧ env.now = now := by
  cases call with
  | claim env stepId worker =>
      obtain ⟨rfl, rfl⟩ := Actor.claimer.inj h
      exact ⟨env, worker, rfl, rfl⟩
  | deliver env op => cases op <;> simp [Call.actor, DeliveryOp.actor] at h
  | _ => simp [Call.actor] at h

/--
**Runs the coordinator ends settle their response.** In every run in which no open
run is cancelled and no step of an open run is claimed past the run's hard deadline,
every search run that has ended has a response that has ended.
-/
theorem responses_settled (hr : ReachableBy d EndedByCoordinator w) :
    ∀ r ∈ w.db.runs, r.isTerminal = true →
      ∃ q ∈ w.db.responseRuns, q.id = r.responseRunId ∧ q.status ≠ .queued := by
  refine hr.invariant_of (P := fun w => ResponsesSettled w.db) (Q := WInv)
    (fun _ h => winv_reachable (ReachableBy.reachable h)) ?_ ?_
  · intro s hs
    subst hs
    simp [ResponsesSettled, World.init, Db.empty]
  · intro s t hi hset hm
    obtain ⟨call, hok, hheld, hrun⟩ := hm
    refine hset.effect ?_ ?_ (call_effect hi hheld hrun)
    · intro r hmem hwho
      obtain ⟨env, rfl⟩ := runId_of_canceller hwho
      exact hok r hmem rfl
    · intro st hst now hwho hready
      obtain ⟨env, worker, rfl, rfl⟩ := claim_of_claimer hwho
      exact hok st hst rfl hready

/-- A run that is routed and planned by two empty results, and whose synthesis then fails. -/
def failedActions : List Action := sampleActions ++ [
  .claim (sampleEnv 7) ((sampleEnv 6).ids 0) "worker",
  .fail (sampleEnv 8) 2 ⟨.permanent, "model_failed", "", false⟩]

theorem responses_settled_failed : ∃ w, ReachableBy sample EndedByCoordinator w ∧
    (∃ r ∈ w.db.runs, r.isTerminal = true) ∧
    ∀ r ∈ w.db.runs, r.isTerminal = true →
      ∃ q ∈ w.db.responseRuns, q.id = r.responseRunId ∧ q.status ≠ .queued := by
  obtain ⟨w, hr, hp⟩ := exists_reachableBy sample EndedByCoordinator failedActions
    (fun w => w.db.runs.any fun r => r.isTerminal) (by decide +kernel)
  exact ⟨w, hr, by simpa using hp, responses_settled hr⟩

/-- A run has ended, and its response is pending. -/
def leavesPending (w : World) : Bool :=
  w.db.runs.any fun r => r.isTerminal &&
    w.db.responseRuns.all fun q => !(q.id = r.responseRunId && q.status ≠ .queued)

theorem not_settled_of_pending (h : leavesPending w = true) : ¬ ResponsesSettled w.db := by
  intro hset
  obtain ⟨r, hr, hp⟩ := List.any_eq_true.mp h
  rw [Bool.and_eq_true, List.all_eq_true] at hp
  obtain ⟨q, hq, hid, hst⟩ := hset r hr hp.1
  have := hp.2 q hq
  simp [hid, hst] at this

/-- A user cancels the run before it was claimed. -/
def cancelledActions : List Action :=
  sampleActions.take 2 ++ [.cancel (sampleEnv 3) ((sampleEnv 2).ids 2)]

/-- The first step is claimed a minute later. -/
def tooLateActions : List Action :=
  sampleActions.take 2 ++ [.claim (sampleEnv 60) ((sampleEnv 2).ids 3) "worker"]

/-- **A cancelled run leaves its response pending, and so does one that is claimed too late.** -/
theorem response_left_pending :
    (∃ w, perform sample cancelledActions = some w ∧ Reachable sample w ∧
      ¬ ResponsesSettled w.db) ∧
    ∃ w, perform sample tooLateActions = some w ∧ Reachable sample w ∧
      ¬ ResponsesSettled w.db := by
  have pending : ∀ actions, (perform sample actions).any leavesPending = true →
      ∃ w, perform sample actions = some w ∧ Reachable sample w ∧ ¬ ResponsesSettled w.db := by
    intro actions h
    obtain ⟨w, hw, hp⟩ := (Option.any_eq_true _ _).mp h
    exact ⟨w, hw, reachable_of_perform hw, not_settled_of_pending hp⟩
  exact ⟨pending _ (by decide +kernel), pending _ (by decide +kernel)⟩

end Sana.Orchestration
