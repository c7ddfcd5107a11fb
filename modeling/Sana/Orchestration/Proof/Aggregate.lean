import Sana.Orchestration.Aggregate
import Sana.Orchestration.Proof.Ops

/-!
# The run and the step keep their invariants

Every method of the two objects checks before it changes anything, so a call that raises
changes nothing. What a call that returns has done is said once (`RunCalled`,
`StepCalled`), and the invariants follow from it: a state that calls lead to is loaded
from its row as it is, and a run that runs has a start, a step that is ready or runs has no
retry time. Two methods can be called where they break the last part. `resume` takes a
queued run to `RUNNING` without a start, and `release_expired_lease` takes a step out of
`RETRY_WAIT` with its retry time; where they are not, the invariant holds in every run of
calls and saves.
-/

namespace Sana.Orchestration.Aggregate

open Sana.Lib

/-! ## All or nothing -/

theorem reads_requireAware {σ : Type} (at' : DateTime) (field : String) :
    (requireAware at' field : Method Exn σ Unit).Reads := Method.reads_require _ _

namespace SearchRun

theorem atomic_transition (target : RunStatus) : (transition target).Atomic := by
  refine .after_read Method.reads_get fun run => ?_
  exact .after_read (Method.reads_require _ _) fun _ => (Method.commits_modify _).atomic

theorem atomic_transition_then (target : RunStatus) (f : SearchRun → SearchRun) :
    (do transition target; modify f).Atomic :=
  .then_commit (atomic_transition target) fun _ => Method.commits_modify f

/-- **A call that raises leaves the run as it was.** -/
theorem atomic_method (op : RunOp) : op.method.Atomic := by
  cases op with
  | start at' => exact .after_read (reads_requireAware _ _) fun _ => atomic_transition_then _ _
  | wait => exact atomic_transition _
  | resume => exact atomic_transition _
  | recordUsage usage =>
      refine .after_read Method.reads_get fun _ => ?_
      refine .after_read (Method.reads_require _ _) fun _ => ?_
      exact .after_read (Method.reads_require _ _) fun _ => (Method.commits_modify _).atomic
  | upgradeToResearch routing budget =>
      refine .after_read Method.reads_get fun _ => ?_
      refine .after_read (Method.reads_require _ _) fun _ => ?_
      refine .after_read (Method.reads_require _ _) fun _ => ?_
      refine .after_read (Method.reads_require _ _) fun _ => ?_
      refine .after_read (Method.reads_require _ _) fun _ => ?_
      refine .after_read (Method.reads_require _ _) fun _ => ?_
      exact .after_read (Method.reads_require _ _) fun _ => (Method.commits_modify _).atomic
  | succeed quality reason at' =>
      refine .after_read (reads_requireAware _ _) fun _ => ?_
      refine .after_read (Method.reads_require _ _) fun _ => ?_
      refine .after_read (Method.reads_require _ _) fun _ => ?_
      refine .after_read (Method.reads_require _ _) fun _ => ?_
      exact .after_read (Method.reads_require _ _) fun _ => atomic_transition_then _ _
  | fail reason at' =>
      refine .after_read (reads_requireAware _ _) fun _ => ?_
      exact .after_read (Method.reads_require _ _) fun _ => atomic_transition_then _ _
  | cancel at' => exact .after_read (reads_requireAware _ _) fun _ => atomic_transition_then _ _

end SearchRun

namespace SearchStep

theorem atomic_transition (target : StepStatus) : (transition target).Atomic := by
  refine .after_read Method.reads_get fun step => ?_
  exact .after_read (Method.reads_require _ _) fun _ => (Method.commits_modify _).atomic

theorem atomic_transition_then (target : StepStatus) (f : SearchStep → SearchStep) :
    (do transition target; modify f).Atomic :=
  .then_commit (atomic_transition target) fun _ => Method.commits_modify f

/-- **A call that raises leaves the step as it was.** -/
theorem atomic_method (op : StepOp) : op.method.Atomic := by
  cases op with
  | start => exact atomic_transition_then _ _
  | releaseExpiredLease => exact atomic_transition _
  | retryLater at' =>
      exact .after_read (reads_requireAware _ _) fun _ => atomic_transition_then _ _
  | makeReady => exact atomic_transition_then _ _
  | succeed outputRef =>
      refine .after_read Method.reads_get fun _ => ?_
      exact .after_read (Method.reads_require _ _) fun _ => atomic_transition_then _ _
  | fail => exact atomic_transition _
  | skip => exact atomic_transition _
  | cancel => exact atomic_transition _

end SearchStep

/-! ## What a call does -/

/-- What an operation on a run that returned has done. -/
inductive RunCalled (run : SearchRun) : RunOp → SearchRun → Prop
  | start {at' : DateTime} (hst : .running ∈ run.status.transitions) :
      RunCalled run (.start at') { run with
        status := .running, version := run.version + 1
        startedAt := some (run.startedAt.getD at'.instant) }
  | wait (hst : .waiting ∈ run.status.transitions) :
      RunCalled run .wait { run with status := .waiting, version := run.version + 1 }
  | resume (hst : .running ∈ run.status.transitions) :
      RunCalled run .resume { run with status := .running, version := run.version + 1 }
  | recordUsage {usage : BudgetUsage} (hopen : run.isTerminal = false) :
      RunCalled run (.recordUsage usage) { run with usage, version := run.version + 1 }
  | upgradeToResearch {routing : RoutingDecision} {budget : BudgetSnapshot}
      (hopen : run.isTerminal = false) (hpolicy : routing.policyVersion = budget.policyVersion) :
      RunCalled run (.upgradeToResearch routing budget)
        { run with routing, budget, version := run.version + 1 }
  | succeed {quality : AnswerQuality} {reason : StopReason} {at' : DateTime}
      (hquality : quality ≠ .none) (hcomplete : ¬(quality = .complete ∧ reason ≠ .factsCovered))
      (hpart : ¬(quality = .partialAnswer ∧ reason = .factsCovered))
      (hst : .succeeded ∈ run.status.transitions) :
      RunCalled run (.succeed quality reason at') { run with
        status := .succeeded, version := run.version + 1, answerQuality := quality
        stopReason := some reason, completedAt := some at'.instant }
  | fail {reason : StopReason} {at' : DateTime} (hst : .failed ∈ run.status.transitions) :
      RunCalled run (.fail reason at') { run with
        status := .failed, version := run.version + 1, answerQuality := .none
        stopReason := some reason, completedAt := some at'.instant }
  | cancel {at' : DateTime} (hst : .cancelled ∈ run.status.transitions) :
      RunCalled run (.cancel at') { run with
        status := .cancelled, version := run.version + 1, answerQuality := .none
        stopReason := some .userCancelled, completedAt := some at'.instant }

namespace SearchRun

variable {run run' : SearchRun}

theorem transition_ok {target : RunStatus} {a : Unit}
    (h : (transition target).call run = (.ok a, run')) :
    target ∈ run.status.transitions ∧
      run' = { run with status := target, version := run.version + 1 } := by
  obtain ⟨_, _, hget, h⟩ := Method.bind_ok h
  obtain ⟨rfl, rfl⟩ := Method.get_ok hget
  obtain ⟨_, _, hreq, h⟩ := Method.bind_ok h
  obtain ⟨hmem, rfl⟩ := Method.require_ok hreq
  exact ⟨hmem, Method.modify_ok h⟩

theorem transition_call {target : RunStatus} (h : target ∈ run.status.transitions) :
    (transition target).call run
      = (.ok (), { run with status := target, version := run.version + 1 }) := by
  simp only [transition, Method.call_bind, Method.call_get, Method.call_require, if_pos h,
    Method.call_modify]

theorem transition_then_ok {target : RunStatus} {f : SearchRun → SearchRun} {a : PUnit}
    (h : Method.call (do transition target; modify f) run = (.ok a, run')) :
    target ∈ run.status.transitions ∧
      run' = f { run with status := target, version := run.version + 1 } := by
  obtain ⟨_, _, htr, hlast⟩ := Method.bind_ok h
  obtain ⟨hmem, rfl⟩ := transition_ok htr
  exact ⟨hmem, Method.modify_ok hlast⟩

theorem called_of_ok {op : RunOp} {a : Unit} (h : op.method.call run = (.ok a, run')) :
    RunCalled run op run' := by
  cases op with
  | start at' =>
      obtain ⟨_, _, hreq, h⟩ := Method.bind_ok h
      obtain ⟨-, rfl⟩ := Method.require_ok hreq
      obtain ⟨hst, rfl⟩ := transition_then_ok h
      exact .start hst
  | wait =>
      obtain ⟨hst, rfl⟩ := transition_ok h
      exact .wait hst
  | resume =>
      obtain ⟨hst, rfl⟩ := transition_ok h
      exact .resume hst
  | recordUsage usage =>
      obtain ⟨_, _, hget, h⟩ := Method.bind_ok h
      obtain ⟨rfl, rfl⟩ := Method.get_ok hget
      obtain ⟨_, _, hreq, h⟩ := Method.bind_ok h
      obtain ⟨hopen, rfl⟩ := Method.require_ok hreq
      obtain ⟨_, _, hreq, h⟩ := Method.bind_ok h
      obtain ⟨-, rfl⟩ := Method.require_ok hreq
      rw [Method.modify_ok h]
      exact .recordUsage hopen
  | upgradeToResearch routing budget =>
      obtain ⟨_, _, hget, h⟩ := Method.bind_ok h
      obtain ⟨rfl, rfl⟩ := Method.get_ok hget
      obtain ⟨_, _, hreq, h⟩ := Method.bind_ok h
      obtain ⟨hopen, rfl⟩ := Method.require_ok hreq
      obtain ⟨_, _, hreq, h⟩ := Method.bind_ok h
      obtain ⟨-, rfl⟩ := Method.require_ok hreq
      obtain ⟨_, _, hreq, h⟩ := Method.bind_ok h
      obtain ⟨hpolicy, rfl⟩ := Method.require_ok hreq
      obtain ⟨_, _, hreq, h⟩ := Method.bind_ok h
      obtain ⟨-, rfl⟩ := Method.require_ok hreq
      obtain ⟨_, _, hreq, h⟩ := Method.bind_ok h
      obtain ⟨-, rfl⟩ := Method.require_ok hreq
      obtain ⟨_, _, hreq, h⟩ := Method.bind_ok h
      obtain ⟨-, rfl⟩ := Method.require_ok hreq
      rw [Method.modify_ok h]
      exact .upgradeToResearch hopen hpolicy
  | succeed quality reason at' =>
      obtain ⟨_, _, hreq, h⟩ := Method.bind_ok h
      obtain ⟨-, rfl⟩ := Method.require_ok hreq
      obtain ⟨_, _, hreq, h⟩ := Method.bind_ok h
      obtain ⟨hquality, rfl⟩ := Method.require_ok hreq
      obtain ⟨_, _, hreq, h⟩ := Method.bind_ok h
      obtain ⟨hcomplete, rfl⟩ := Method.require_ok hreq
      obtain ⟨_, _, hreq, h⟩ := Method.bind_ok h
      obtain ⟨hpart, rfl⟩ := Method.require_ok hreq
      obtain ⟨_, _, hreq, h⟩ := Method.bind_ok h
      obtain ⟨-, rfl⟩ := Method.require_ok hreq
      obtain ⟨hst, rfl⟩ := transition_then_ok h
      exact .succeed hquality hcomplete hpart hst
  | fail reason at' =>
      obtain ⟨_, _, hreq, h⟩ := Method.bind_ok h
      obtain ⟨-, rfl⟩ := Method.require_ok hreq
      obtain ⟨_, _, hreq, h⟩ := Method.bind_ok h
      obtain ⟨-, rfl⟩ := Method.require_ok hreq
      obtain ⟨hst, rfl⟩ := transition_then_ok h
      exact .fail hst
  | cancel at' =>
      obtain ⟨_, _, hreq, h⟩ := Method.bind_ok h
      obtain ⟨-, rfl⟩ := Method.require_ok hreq
      obtain ⟨hst, rfl⟩ := transition_then_ok h
      exact .cancel hst

end SearchRun

/-- What an operation on a step that returned has done. -/
inductive StepCalled (step : SearchStep) : StepOp → SearchStep → Prop
  | start (hst : .running ∈ step.status.transitions) :
      StepCalled step .start { step with
        status := .running, version := step.version + 1, retryAt := none }
  | releaseExpiredLease (hst : .ready ∈ step.status.transitions) :
      StepCalled step .releaseExpiredLease { step with
        status := .ready, version := step.version + 1 }
  | retryLater {at' : DateTime} (hst : .retryWait ∈ step.status.transitions) :
      StepCalled step (.retryLater at') { step with
        status := .retryWait, version := step.version + 1, retryAt := some at'.instant }
  | makeReady (hst : .ready ∈ step.status.transitions) :
      StepCalled step .makeReady { step with
        status := .ready, version := step.version + 1, retryAt := none }
  | succeed {outputRef : ArtifactRef} (hst : .succeeded ∈ step.status.transitions) :
      StepCalled step (.succeed outputRef) { step with
        status := .succeeded, version := step.version + 1, outputRef := some outputRef }
  | fail (hst : .failed ∈ step.status.transitions) :
      StepCalled step .fail { step with status := .failed, version := step.version + 1 }
  | skip (hst : .skipped ∈ step.status.transitions) :
      StepCalled step .skip { step with status := .skipped, version := step.version + 1 }
  | cancel (hst : .cancelled ∈ step.status.transitions) :
      StepCalled step .cancel { step with status := .cancelled, version := step.version + 1 }

namespace SearchStep

variable {step step' : SearchStep}

theorem transition_ok {target : StepStatus} {a : Unit}
    (h : (transition target).call step = (.ok a, step')) :
    target ∈ step.status.transitions ∧
      step' = { step with status := target, version := step.version + 1 } := by
  obtain ⟨_, _, hget, h⟩ := Method.bind_ok h
  obtain ⟨rfl, rfl⟩ := Method.get_ok hget
  obtain ⟨_, _, hreq, h⟩ := Method.bind_ok h
  obtain ⟨hmem, rfl⟩ := Method.require_ok hreq
  exact ⟨hmem, Method.modify_ok h⟩

theorem transition_call {target : StepStatus} (h : target ∈ step.status.transitions) :
    (transition target).call step
      = (.ok (), { step with status := target, version := step.version + 1 }) := by
  simp only [transition, Method.call_bind, Method.call_get, Method.call_require, if_pos h,
    Method.call_modify]

theorem transition_then_ok {target : StepStatus} {f : SearchStep → SearchStep} {a : PUnit}
    (h : Method.call (do transition target; modify f) step = (.ok a, step')) :
    target ∈ step.status.transitions ∧
      step' = f { step with status := target, version := step.version + 1 } := by
  obtain ⟨_, _, htr, hlast⟩ := Method.bind_ok h
  obtain ⟨hmem, rfl⟩ := transition_ok htr
  exact ⟨hmem, Method.modify_ok hlast⟩

theorem called_of_ok {op : StepOp} {a : Unit} (h : op.method.call step = (.ok a, step')) :
    StepCalled step op step' := by
  cases op with
  | start =>
      obtain ⟨hst, rfl⟩ := transition_then_ok h
      exact .start hst
  | releaseExpiredLease =>
      obtain ⟨hst, rfl⟩ := transition_ok h
      exact .releaseExpiredLease hst
  | retryLater at' =>
      obtain ⟨_, _, hreq, h⟩ := Method.bind_ok h
      obtain ⟨-, rfl⟩ := Method.require_ok hreq
      obtain ⟨hst, rfl⟩ := transition_then_ok h
      exact .retryLater hst
  | makeReady =>
      obtain ⟨hst, rfl⟩ := transition_then_ok h
      exact .makeReady hst
  | succeed outputRef =>
      obtain ⟨_, _, hget, h⟩ := Method.bind_ok h
      obtain ⟨rfl, rfl⟩ := Method.get_ok hget
      obtain ⟨_, _, hreq, h⟩ := Method.bind_ok h
      obtain ⟨-, rfl⟩ := Method.require_ok hreq
      obtain ⟨hst, rfl⟩ := transition_then_ok h
      exact .succeed hst
  | fail =>
      obtain ⟨hst, rfl⟩ := transition_ok h
      exact .fail hst
  | skip =>
      obtain ⟨hst, rfl⟩ := transition_ok h
      exact .skip hst
  | cancel =>
      obtain ⟨hst, rfl⟩ := transition_ok h
      exact .cancel hst

end SearchStep

/-! ## What is written is read back -/

section Codec

variable {b : Builtins} {intOf : String → Option Int}

theorem searchMode_value (m : SearchMode) : searchMode m.value = .ok m := by cases m <;> rfl

theorem runStatus_value (s : RunStatus) : runStatus s.value = .ok s := by cases s <;> rfl

theorem answerQuality_value (q : AnswerQuality) :
    answerQuality (AnswerQuality.value q) = .ok q := by cases q <;> rfl

theorem stepStatus_value (s : StepStatus) : stepStatus s.value = .ok s := by cases s <;> rfl

theorem stepType_value (t : StepType) : stepType t.value = .ok t := by cases t <;> rfl

/-- A value that was built can be built again from its fields. -/
theorem checked_of_valid {α β : Type} {postInit : α → Except Exn Unit}
    {build : (a : α) → postInit a = .ok () → β} {a : α} (h : postInit a = .ok ()) :
    checked postInit build a = .ok (build a h) := by
  unfold checked
  split
  · rfl
  · rename_i e he
    rw [h] at he
    cases he

theorem int_number (n : Int) : int intOf (.number n) = .ok n := by
  simp [int]

theorem phases_phasesToDict (l : List (String × Rat)) : phases b (phasesToDict l) = .ok l := by
  unfold phases phasesToDict
  induction l with
  | nil => rfl
  | cons p l ih =>
      simp only [List.map_cons, List.mapM_cons] at ih ⊢
      rw [ih]
      rfl

variable (hiso : ∀ t, b.fromisoformat (b.isoformat t) = some t)

include hiso in
theorem moment_isoformat (t : Time) : moment b (.str (b.isoformat t)) = .ok t := by
  simp [moment, Json.text, hiso]

theorem member_head (key : String) (v : Json) (rest : List (String × Json)) :
    Json.member key (.obj ((key, v) :: rest)) = .ok v := by
  simp [Json.member]

theorem member_tail {key key' : String} (h : key' ≠ key) (v : Json)
    (rest : List (String × Json)) :
    Json.member key (.obj ((key', v) :: rest)) = Json.member key (.obj rest) := by
  simp [Json.member, h]

theorem getOr_head (key : String) (default v : Json) (rest : List (String × Json)) :
    getOr key default (.obj ((key, v) :: rest)) = .ok v := by
  simp [getOr]

theorem getOr_tail {key key' : String} (h : key' ≠ key) (default v : Json)
    (rest : List (String × Json)) :
    getOr key default (.obj ((key', v) :: rest)) = getOr key default (.obj rest) := by
  simp [getOr, h]

include hiso in
/-- **A budget is read back as it was written.** -/
theorem budgetFromDict_budgetToDict (budget : BudgetSnapshot) :
    budgetFromDict b intOf (budgetToDict b budget) = .ok budget := by
  have hmake : BudgetSnapshot.make budget.toBudgetFields = .ok budget :=
    checked_of_valid budget.valid
  unfold budgetFromDict budgetToDict
  simp (disch := decide) only [member_head, member_tail, moment_isoformat hiso, Json.float,
    int_number, phases_phasesToDict, Json.text, ok_bind]
  exact hmake

theorem usageFromDict_usageToDict (usage : BudgetUsage) :
    usageFromDict b intOf (usageToDict usage) = .ok usage := by
  have hmake : BudgetUsage.make usage.toUsageFields = .ok usage := checked_of_valid usage.valid
  unfold usageFromDict usageToDict
  simp (disch := decide) only [getOr_head, getOr_tail, int_number, phases_phasesToDict, ok_bind]
  exact hmake

theorem artifactFromDict_artifactToDict (artifact : ArtifactRef) :
    artifactFromDict b (artifactToDict artifact) = .ok artifact := by
  unfold artifactFromDict artifactToDict
  simp (disch := decide) only [member_head, member_tail, Json.text, ok_bind]
  rw [ArtifactRef.make, dif_pos artifact.uri_text, dif_pos artifact.digits]
  simp only [artifact.lower]

end Codec

/-! ## Invariants -/

namespace SearchRun

variable {run run' : SearchRun}

/-- The invariant of a run. -/
structure Inv (run : SearchRun) : Prop where
  policy : run.postInit = .ok ()
  outcome : run.validateLoadedState = .ok ()
  queued : run.status = .queued → run.startedAt = none
  started : run.status = .running ∨ run.status = .waiting → run.startedAt.isSome = true

/-- Where `resume` does not go wrong. -/
def Meets (run : SearchRun) : RunOp → Prop
  | .resume => run.status ≠ .queued
  | _ => True

/-- The outcome a run has while it goes on. -/
theorem Inv.open_outcome (h : run.Inv) (hopen : run.isTerminal = false) :
    run.answerQuality = .none ∧ run.stopReason = none := by
  have hv := h.outcome
  unfold validateLoadedState at hv
  unfold isTerminal at hopen
  split at hv
  · rename_i hst
    simp [hst, RunStatus.isTerminal] at hopen
  · rename_i hst
    simp [hst, RunStatus.isTerminal] at hopen
  · rename_i hst
    simp [hst, RunStatus.isTerminal] at hopen
  · simpa using hv
  · simpa using hv
  · simpa using hv

/-- A run that goes on, with the outcome of one. -/
theorem validate_of_open (hopen : run.isTerminal = false) (hquality : run.answerQuality = .none)
    (hreason : run.stopReason = none) : run.validateLoadedState = .ok () := by
  unfold isTerminal at hopen
  unfold validateLoadedState
  split
  · rename_i hst
    simp [hst, RunStatus.isTerminal] at hopen
  · rename_i hst
    simp [hst, RunStatus.isTerminal] at hopen
  · rename_i hst
    simp [hst, RunStatus.isTerminal] at hopen
  · simp [hquality, hreason]
  · simp [hquality, hreason]
  · simp [hquality, hreason]

theorem open_of_transitions {s target : RunStatus} (h : target ∈ s.transitions) :
    s.isTerminal = false := by
  revert h
  cases s <;> simp [RunStatus.transitions, RunStatus.isTerminal]

/-- **One call.** What an operation that returned has done keeps the invariant. -/
theorem Inv.called (h : run.Inv) {op : RunOp} (hok : run.Meets op)
    (hcall : RunCalled run op run') : run'.Inv := by
  cases hcall with
  | start hst =>
      obtain ⟨hq, hr⟩ := h.open_outcome (open_of_transitions hst)
      exact ⟨h.policy, validate_of_open rfl hq hr, fun hor => by simp at hor, fun _ => rfl⟩
  | wait hst =>
      obtain ⟨hq, hr⟩ := h.open_outcome (open_of_transitions hst)
      have hrun : run.status = .running := by
        revert hst
        cases run.status <;> simp [RunStatus.transitions]
      exact ⟨h.policy, validate_of_open rfl hq hr, fun hor => by simp at hor, fun _ => h.started (.inl hrun)⟩
  | resume hst =>
      obtain ⟨hq, hr⟩ := h.open_outcome (open_of_transitions hst)
      -- only a run that waits is resumed, and that one was started
      have hwait : run.status = .waiting := by
        have hne : run.status ≠ .queued := hok
        revert hst hne
        cases run.status <;> simp [RunStatus.transitions]
      exact ⟨h.policy, validate_of_open rfl hq hr, fun hor => by simp at hor, fun _ => h.started (.inr hwait)⟩
  | recordUsage hopen =>
      obtain ⟨hq, hr⟩ := h.open_outcome hopen
      exact ⟨h.policy, validate_of_open hopen hq hr, h.queued, h.started⟩
  | upgradeToResearch hopen hpolicy =>
      obtain ⟨hq, hr⟩ := h.open_outcome hopen
      refine ⟨?_, validate_of_open hopen hq hr, h.queued, h.started⟩
      simp [postInit, hpolicy]
  | succeed hquality hcomplete hpart hst =>
      refine ⟨h.policy, ?_, fun hor => by simp at hor, fun hor => by simp at hor⟩
      simp only [not_and, not_not] at hcomplete hpart
      simp [validateLoadedState, hquality, bind_ok_iff]
      exact ⟨imp_iff_not_or.mp hcomplete, imp_iff_not_or.mp hpart⟩
  | fail hst => exact ⟨h.policy, by simp [validateLoadedState], fun hor => by simp at hor, fun hor => by simp at hor⟩
  | cancel hst => exact ⟨h.policy, by simp [validateLoadedState], fun hor => by simp at hor, fun hor => by simp at hor⟩

theorem Inv.call (h : run.Inv) {op : RunOp} (hok : run.Meets op) : (op.method.call run).2.Inv := by
  rcases hcall : op.method.call run with ⟨r, run'⟩
  cases r with
  | ok a => exact h.called hok (called_of_ok hcall)
  | error e =>
      obtain rfl := atomic_method op run e run' hcall
      exact h

/-- A call that returns moves the version on. -/
theorem version_lt {op : RunOp} (h : RunCalled run op run') : run.version < run'.version := by
  cases h <;> exact Nat.lt_succ_self _

/-- **The end of a run is final.** Every operation on a run that has ended raises. -/
theorem terminal_raises (hterm : run.isTerminal = true) (op : RunOp) :
    ∃ e, op.method.call run = (.error e, run) := by
  rcases hcall : op.method.call run with ⟨r, run'⟩
  cases r with
  | error e =>
      obtain rfl := atomic_method op run e run' hcall
      exact ⟨e, rfl⟩
  | ok a =>
      exfalso
      have hopen : run.isTerminal = false := by
        cases called_of_ok hcall with
        | recordUsage hopen => exact hopen
        | upgradeToResearch hopen _ => exact hopen
        | start hst => exact open_of_transitions hst
        | wait hst => exact open_of_transitions hst
        | resume hst => exact open_of_transitions hst
        | succeed _ _ _ hst => exact open_of_transitions hst
        | fail hst => exact open_of_transitions hst
        | cancel hst => exact open_of_transitions hst
      rw [hopen] at hterm
      cases hterm

section Rows

variable {b : Builtins} {intOf : String → Option Int}

/-- A stop reason is no empty text. -/
theorem stopReasonOrNone_value (reason : Option StopReason) :
    stopReasonOrNone (reason.map StopReason.value) = .ok reason := by
  cases reason with
  | none => rfl
  | some r => cases r <;> rfl

/-- The row has the columns of the run that are read back. -/
structure Mirrors (b : Builtins) (run : SearchRun) (row : SearchRunRecord) : Prop where
  id : row.id = run.id
  tenantId : row.tenantId = run.tenantId
  responseRunId : row.responseRunId = run.responseRunId
  conversationId : row.conversationId = run.conversationId
  messageId : row.messageId = run.messageId
  mode : row.mode = run.mode.value
  routeReasonCodes : row.routeReasonCodes = run.routing.reasonCodes
  policyVersion : row.policyVersion = run.routing.policyVersion
  routeConfidence : row.routeConfidence = run.routing.confidence
  status : row.status = run.status.value
  answerQuality : row.answerQuality = AnswerQuality.value run.answerQuality
  stopReason : row.stopReason = run.stopReason.map StopReason.value
  budgetSnapshot : row.budgetSnapshot = budgetToDict b run.budget
  usageSnapshot : row.usageSnapshot = usageToDict run.usage
  startedAt : row.startedAt = run.startedAt
  completedAt : row.completedAt = run.completedAt
  version : row.version = run.version

/-- **A row is loaded as the run it was written from.** -/
theorem Inv.load (h : run.Inv) (hiso : ∀ t, b.fromisoformat (b.isoformat t) = some t)
    {row : SearchRunRecord} (hrow : run.Mirrors b row) :
    runFromRecord b intOf row = .ok run.markPersisted := by
  have hrouting : RoutingDecision.make run.routing.toRoutingFields = .ok run.routing :=
    checked_of_valid run.routing.valid
  have houtcome : run.markPersisted.validateLoadedState = .ok () := h.outcome
  unfold runFromRecord
  rw [hrow.mode, searchMode_value, ok_bind, hrow.routeReasonCodes, hrow.policyVersion,
    hrow.routeConfidence]
  have hfields : RoutingDecision.make
      { mode := run.mode, reasonCodes := run.routing.reasonCodes
        policyVersion := run.routing.policyVersion, confidence := run.routing.confidence }
      = .ok run.routing := hrouting
  rw [hfields, ok_bind, hrow.budgetSnapshot, budgetFromDict_budgetToDict hiso, ok_bind,
    hrow.status, runStatus_value, ok_bind, hrow.answerQuality, answerQuality_value, ok_bind,
    hrow.stopReason, stopReasonOrNone_value, ok_bind, hrow.usageSnapshot,
    usageFromDict_usageToDict, ok_bind, hrow.id, hrow.tenantId, hrow.conversationId,
    hrow.messageId, hrow.responseRunId, hrow.startedAt, hrow.completedAt, hrow.version]
  -- the checks of the constructor do not look at the status, which is set after them
  change (run.postInit >>= fun _ => run.markPersisted.validateLoadedState >>= fun _ =>
    pure run.markPersisted) = _
  rw [h.policy, ok_bind, houtcome, ok_bind]
  rfl

theorem mirrors_toRecord : run.Mirrors b (run.toRecord b) := by
  constructor <;> rfl

/-- **A saved run is loaded as it is.** -/
theorem Inv.save (h : run.Inv) (hiso : ∀ t, b.fromisoformat (b.isoformat t) = some t)
    {row : SearchRunRecord} (hid : row.id = run.id) (htenant : row.tenantId = run.tenantId)
    (hresponse : row.responseRunId = run.responseRunId)
    (hconversation : row.conversationId = run.conversationId)
    (hmessage : row.messageId = run.messageId) (hversion : row.version = run.persistedVersion) :
    ∃ row', run.save b row = .ok (row', run.markPersisted) ∧
      runFromRecord b intOf row' = .ok run.markPersisted := by
  have hcheck : (decide (row.tenantId = run.tenantId) && decide (row.id = run.id)
      && decide (row.version = run.persistedVersion)) = true := by simp [hid, htenant, hversion]
  refine ⟨run.writeTo b row, ?_, ?_⟩
  · rw [SearchRun.save, hcheck]
    rfl
  · exact h.load hiso ⟨hid, htenant, hresponse, hconversation, hmessage, rfl, rfl, rfl, rfl, rfl,
      rfl, rfl, rfl, rfl, rfl, rfl, rfl⟩

end Rows

end SearchRun

namespace SearchStep

variable {step step' : SearchStep}

/-- The invariant of a step. -/
structure Inv (step : SearchStep) : Prop where
  fields : step.postInit = .ok ()
  output : step.status = .succeeded ↔ step.outputRef.isSome = true
  unset : step.status = .ready ∨ step.status = .running → step.retryAt = none
  waiting : step.status = .retryWait → step.retryAt.isSome = true

/-- Where `release_expired_lease` does not go wrong. -/
def Meets (step : SearchStep) : StepOp → Prop
  | .releaseExpiredLease => step.status ≠ .retryWait
  | _ => True

theorem validateLoadedState_iff :
    step.validateLoadedState = .ok () ↔ (step.status = .succeeded ↔ step.outputRef.isSome = true) := by
  unfold validateLoadedState
  cases h : step.outputRef with
  | none => simp [bind_ok_iff]
  | some ref => simp [bind_ok_iff]

theorem open_of_transitions {s target : StepStatus} (h : target ∈ s.transitions) :
    s.isTerminal = false := by
  revert h
  cases s <;> simp [StepStatus.transitions, StepStatus.isTerminal]

/-- A step that goes on has no output. -/
theorem Inv.no_output (h : step.Inv) (hopen : step.status.isTerminal = false) :
    step.outputRef = none := by
  cases hout : step.outputRef with
  | none => rfl
  | some ref =>
      have hst := h.output.mpr (by rw [hout]; rfl)
      rw [hst] at hopen
      cases hopen

/-- **One call.** What an operation that returned has done keeps the invariant. -/
theorem Inv.called (h : step.Inv) {op : StepOp} (hok : step.Meets op)
    (hcall : StepCalled step op step') : step'.Inv := by
  cases hcall with
  | start hst =>
      have hout := h.no_output (open_of_transitions hst)
      exact ⟨h.fields, by simp [hout], fun _ => rfl, nofun⟩
  | releaseExpiredLease hst =>
      have hout := h.no_output (open_of_transitions hst)
      -- only a step that runs is released, and that one has no retry time
      have hrun : step.status = .running := by
        have hne : step.status ≠ .retryWait := hok
        revert hst hne
        cases step.status <;> simp [StepStatus.transitions]
      exact ⟨h.fields, by simp [hout], fun _ => h.unset (.inr hrun), nofun⟩
  | retryLater hst =>
      have hout := h.no_output (open_of_transitions hst)
      exact ⟨h.fields, by simp [hout], fun hor => by simp at hor, fun _ => rfl⟩
  | makeReady hst =>
      have hout := h.no_output (open_of_transitions hst)
      exact ⟨h.fields, by simp [hout], fun _ => rfl, nofun⟩
  | succeed hst => exact ⟨h.fields, by simp, fun hor => by simp at hor, nofun⟩
  | fail hst =>
      have hout := h.no_output (open_of_transitions hst)
      exact ⟨h.fields, by simp [hout], fun hor => by simp at hor, nofun⟩
  | skip hst =>
      have hout := h.no_output (open_of_transitions hst)
      exact ⟨h.fields, by simp [hout], fun hor => by simp at hor, nofun⟩
  | cancel hst =>
      have hout := h.no_output (open_of_transitions hst)
      exact ⟨h.fields, by simp [hout], fun hor => by simp at hor, nofun⟩

theorem Inv.call (h : step.Inv) {op : StepOp} (hok : step.Meets op) :
    (op.method.call step).2.Inv := by
  rcases hcall : op.method.call step with ⟨r, step'⟩
  cases r with
  | ok a => exact h.called hok (called_of_ok hcall)
  | error e =>
      obtain rfl := atomic_method op step e step' hcall
      exact h

theorem version_lt {op : StepOp} (h : StepCalled step op step') : step.version < step'.version := by
  cases h <;> exact Nat.lt_succ_self _

/-- **The end of a step is final.** -/
theorem terminal_raises (hterm : step.status.isTerminal = true) (op : StepOp) :
    ∃ e, op.method.call step = (.error e, step) := by
  rcases hcall : op.method.call step with ⟨r, step'⟩
  cases r with
  | error e =>
      obtain rfl := atomic_method op step e step' hcall
      exact ⟨e, rfl⟩
  | ok a =>
      exfalso
      have hopen : step.status.isTerminal = false := by
        cases called_of_ok hcall <;> exact open_of_transitions ‹_›
      rw [hopen] at hterm
      cases hterm

section Rows

variable {b : Builtins}

theorem artifactOrNone_map (ref : Option ArtifactRef) :
    artifactOrNone b (ref.map artifactToDict) = .ok ref := by
  cases ref with
  | none => rfl
  | some ref => simp [artifactOrNone, artifactFromDict_artifactToDict, Except.map]

/-- The row has the columns of the step. -/
structure Mirrors (step : SearchStep) (row : SearchStepRecord) : Prop where
  id : row.id = step.id
  tenantId : row.tenantId = step.tenantId
  runId : row.runId = step.runId
  stepKey : row.stepKey = step.stepKey
  stepType : row.stepType = step.stepType.value
  planRevision : row.planRevision = step.planRevision
  status : row.status = step.status.value
  inputRef : row.inputRef = artifactToDict step.inputRef
  outputRef : row.outputRef = step.outputRef.map artifactToDict
  retryAt : row.retryAt = step.retryAt
  version : row.version = step.version

/-- **A row is loaded as the step it was written from.** -/
theorem Inv.load (h : step.Inv) {row : SearchStepRecord} (hrow : step.Mirrors row) :
    stepFromRecord b row = .ok step.markPersisted := by
  have houtput : step.markPersisted.validateLoadedState = .ok () :=
    validateLoadedState_iff.mpr h.output
  unfold stepFromRecord
  rw [hrow.stepType, stepType_value, ok_bind, hrow.inputRef, artifactFromDict_artifactToDict,
    ok_bind, hrow.status, stepStatus_value, ok_bind, hrow.outputRef, artifactOrNone_map, ok_bind,
    hrow.id, hrow.tenantId, hrow.runId, hrow.stepKey, hrow.planRevision, hrow.retryAt,
    hrow.version]
  change (step.postInit >>= fun _ => step.markPersisted.validateLoadedState >>= fun _ =>
    pure step.markPersisted) = _
  rw [h.fields, ok_bind, houtput, ok_bind]
  rfl

theorem mirrors_toRecord : step.Mirrors step.toRecord := by
  constructor <;> rfl

/-- **A saved step is loaded as it is.** -/
theorem Inv.save (h : step.Inv) {row : SearchStepRecord} (hrow : row.id = step.id)
    (htenant : row.tenantId = step.tenantId) (hrun : row.runId = step.runId)
    (hkey : row.stepKey = step.stepKey) (htype : row.stepType = step.stepType.value)
    (hrevision : row.planRevision = step.planRevision)
    (hinput : row.inputRef = artifactToDict step.inputRef)
    (hversion : row.version = step.persistedVersion) :
    ∃ row', step.save row = .ok (row', step.markPersisted) ∧
      stepFromRecord b row' = .ok step.markPersisted := by
  have hcheck : (decide (row.tenantId = step.tenantId) && decide (row.id = step.id)
      && decide (row.version = step.persistedVersion)) = true := by simp [hrow, htenant, hversion]
  refine ⟨step.writeTo row, ?_, ?_⟩
  · rw [SearchStep.save, hcheck]
    rfl
  · exact h.load ⟨hrow, htenant, hrun, hkey, htype, hrevision, rfl, hinput, rfl, rfl, rfl⟩

end Rows

end SearchStep

/-! ## Runs of calls -/

/-- A run as it is created. -/
def SearchRun.Initial (run : SearchRun) : Prop :=
  run.postInit = .ok () ∧ run.status = .queued ∧ run.answerQuality = .none ∧
    run.stopReason = none ∧ run.startedAt = none

/-- A call that meets the condition, or a save. -/
inductive SearchRun.Step : SearchRun → SearchRun → Prop
  | call {run : SearchRun} (op : RunOp) (h : run.Meets op) : Step run (op.method.call run).2
  | saved {run : SearchRun} : Step run run.markPersisted

/-- The states such calls lead to. -/
abbrev SearchRun.Reachable : SearchRun → Prop := Lib.Reachable SearchRun.Initial SearchRun.Step

/-- A step as it is created. -/
def SearchStep.Initial (step : SearchStep) : Prop :=
  step.postInit = .ok () ∧ step.status = .ready ∧ step.outputRef = none ∧ step.retryAt = none

/-- A call that meets the condition, or a save. -/
inductive SearchStep.Step : SearchStep → SearchStep → Prop
  | call {step : SearchStep} (op : StepOp) (h : step.Meets op) : Step step (op.method.call step).2
  | saved {step : SearchStep} : Step step step.markPersisted

/-- The states such calls lead to. -/
abbrev SearchStep.Reachable : SearchStep → Prop := Lib.Reachable SearchStep.Initial SearchStep.Step

theorem SearchRun.inv_reachable {run : SearchRun} (h : SearchRun.Reachable run) : run.Inv := by
  refine h.invariant ?_ ?_
  · rintro run ⟨hpolicy, hst, hquality, hreason, hstart⟩
    refine ⟨hpolicy, SearchRun.validate_of_open ?_ hquality hreason, fun _ => hstart, ?_⟩
    · simp [SearchRun.isTerminal, hst, RunStatus.isTerminal]
    · simp [hst]
  · intro run run' hinv hs
    cases hs with
    | call op hok => exact hinv.call hok
    | saved => exact ⟨hinv.policy, hinv.outcome, hinv.queued, hinv.started⟩

theorem SearchStep.inv_reachable {step : SearchStep} (h : SearchStep.Reachable step) :
    step.Inv := by
  refine h.invariant ?_ ?_
  · rintro step ⟨hfields, hst, hout, hretry⟩
    exact ⟨hfields, by simp [hst, hout], fun _ => hretry, by simp [hst]⟩
  · intro step step' hinv hs
    cases hs with
    | call op hok => exact hinv.call hok
    | saved => exact ⟨hinv.fields, hinv.output, hinv.unset, hinv.waiting⟩

/-- What is promised of every state of a run. -/
structure SearchRun.Promised (b : Builtins) (intOf : String → Option Int) (run : SearchRun) :
    Prop where
  loads : runFromRecord b intOf (run.toRecord b) = .ok run.markPersisted
  started : run.status = .running → run.startedAt.isSome = true

/-- What is promised of every state of a step. -/
structure SearchStep.Promised (b : Builtins) (step : SearchStep) : Prop where
  loads : stepFromRecord b step.toRecord = .ok step.markPersisted
  unset : step.status = .ready ∨ step.status = .running → step.retryAt = none

theorem SearchRun.Inv.promised {b : Builtins} {intOf : String → Option Int} {run : SearchRun}
    (h : run.Inv) (hiso : ∀ t, b.fromisoformat (b.isoformat t) = some t) :
    run.Promised b intOf :=
  ⟨h.load hiso SearchRun.mirrors_toRecord, fun hst => h.started (.inl hst)⟩

theorem SearchStep.Inv.promised {b : Builtins} {step : SearchStep} (h : step.Inv) :
    step.Promised b :=
  ⟨h.load SearchStep.mirrors_toRecord, h.unset⟩

/-- A queued run that is resumed runs without a start. -/
theorem SearchRun.not_promised_of_not_meets {b : Builtins} {intOf : String → Option Int}
    {run : SearchRun} (h : run.Inv) {op : RunOp} (hbad : ¬ run.Meets op) :
    ¬ (op.method.call run).2.Promised b intOf := by
  intro hp
  cases op with
  | resume =>
      have hst : run.status = .queued := not_not.mp hbad
      have hcall : (RunOp.resume.method.call run).2
          = { run with status := .running, version := run.version + 1 } := by
        have hmem : RunStatus.running ∈ run.status.transitions := by simp [hst, RunStatus.transitions]
        simp only [RunOp.method, SearchRun.resume, SearchRun.transition_call hmem]
      rw [hcall] at hp
      have hstart := hp.started rfl
      rw [h.queued hst] at hstart
      cases hstart
  | _ => exact hbad trivial

/-- A step that waits for its retry and is released is ready with a retry time. -/
theorem SearchStep.not_promised_of_not_meets {b : Builtins} {step : SearchStep} (h : step.Inv)
    {op : StepOp} (hbad : ¬ step.Meets op) : ¬ (op.method.call step).2.Promised b := by
  intro hp
  cases op with
  | releaseExpiredLease =>
      have hst : step.status = .retryWait := not_not.mp hbad
      have hcall : (StepOp.releaseExpiredLease.method.call step).2
          = { step with status := .ready, version := step.version + 1 } := by
        have hmem : StepStatus.ready ∈ step.status.transitions := by
          simp [hst, StepStatus.transitions]
        simp only [StepOp.method, SearchStep.releaseExpiredLease, SearchStep.transition_call hmem]
      rw [hcall] at hp
      have hretry := h.waiting hst
      rw [hp.unset (.inl rfl)] at hretry
      cases hretry
  | _ => exact hbad trivial

/-! ## The objects and the transactions -/

/-- The object of a run that the transactions work on. -/
structure SearchRun.Rep (o : SearchRun) (run : Orchestration.SearchRun) : Prop where
  id : o.id = run.id
  status : o.status = run.status
  answerQuality : o.answerQuality = run.answerQuality
  stopReason : o.stopReason = run.stopReason
  startedAt : o.startedAt = run.startedAt
  completedAt : o.completedAt = run.completedAt
  version : o.version = run.version
  persistedVersion : o.persistedVersion = run.persistedVersion

/-- The lifecycle operations of a run as the transactions perform them. -/
def RunOp.apply (run : Orchestration.SearchRun) : RunOp → Option (Except Exn Orchestration.SearchRun)
  | .start at' => some (run.start at'.instant)
  | .resume => some run.resume
  | .succeed quality reason at' => some (run.succeed quality reason at'.instant)
  | .fail reason at' => some (run.fail reason at'.instant)
  | .cancel at' => some (run.cancel at'.instant)
  | .wait | .recordUsage _ | .upgradeToResearch _ _ => none

/-- The moment an operation is given is aware. -/
def RunOp.Aware : RunOp → Prop
  | .start at' | .succeed _ _ at' | .fail _ at' | .cancel at' => at'.aware = true
  | _ => True

/-- **What a transaction does to a run, the method does to its object.** -/
theorem SearchRun.method_of_apply {o : SearchRun} {run run' : Orchestration.SearchRun} {op : RunOp}
    (hrep : o.Rep run) (haware : op.Aware) (h : op.apply run = some (.ok run')) :
    ∃ o', op.method.call o = (.ok (), o') ∧ o'.Rep run' := by
  cases op with
  | wait => cases h
  | recordUsage usage => cases h
  | upgradeToResearch routing budget => cases h
  | start at' =>
      simp only [RunOp.apply, Option.some.injEq, Orchestration.SearchRun.start, bind_ok_iff,
        pure_ok_iff, Orchestration.SearchRun.transition_ok] at h
      obtain ⟨_, ⟨hmem, rfl⟩, rfl⟩ := h
      rw [← hrep.status] at hmem
      have haware : at'.aware = true := haware
      simp only [RunOp.method, SearchRun.start, requireAware, Method.call_bind,
        Method.call_require, if_pos haware, SearchRun.transition_call hmem, Method.call_modify]
      refine ⟨_, rfl, hrep.id, rfl, hrep.answerQuality, hrep.stopReason, ?_, hrep.completedAt,
        congrArg (· + 1) hrep.version, hrep.persistedVersion⟩
      rw [hrep.startedAt]
      cases run.startedAt <;> rfl
  | resume =>
      simp only [RunOp.apply, Option.some.injEq, Orchestration.SearchRun.resume,
        Orchestration.SearchRun.transition_ok] at h
      obtain ⟨hmem, rfl⟩ := h
      rw [← hrep.status] at hmem
      simp only [RunOp.method, SearchRun.resume, SearchRun.transition_call hmem]
      exact ⟨_, rfl, hrep.id, rfl, hrep.answerQuality, hrep.stopReason, hrep.startedAt,
        hrep.completedAt, congrArg (· + 1) hrep.version, hrep.persistedVersion⟩
  | succeed quality reason at' =>
      simp only [RunOp.apply, Option.some.injEq, Orchestration.SearchRun.succeed, bind_ok_iff,
        pure_ok_iff, check_eq_ok, Orchestration.SearchRun.transition_ok, Bool.not_eq_true',
        Bool.and_eq_false_iff, decide_eq_false_iff_not, decide_eq_true_eq] at h
      obtain ⟨_, hquality, _, hcomplete, _, hpart, _, hreason, _, ⟨hmem, rfl⟩, rfl⟩ := h
      rw [← hrep.status] at hmem
      have haware : at'.aware = true := haware
      have hc : ¬(quality = .complete ∧ reason ≠ .factsCovered) := by tauto
      have hp : ¬(quality = .partialAnswer ∧ reason = .factsCovered) := by tauto
      simp only [RunOp.method, SearchRun.succeed, requireAware, Method.call_bind,
        Method.call_require, if_pos haware, if_pos hquality, if_pos hc, if_pos hp, if_pos hreason,
        SearchRun.transition_call hmem, Method.call_modify]
      exact ⟨_, rfl, hrep.id, rfl, rfl, rfl, hrep.startedAt, rfl, congrArg (· + 1) hrep.version,
        hrep.persistedVersion⟩
  | fail reason at' =>
      simp only [RunOp.apply, Option.some.injEq, Orchestration.SearchRun.fail, bind_ok_iff,
        pure_ok_iff, check_eq_ok, Orchestration.SearchRun.transition_ok, Bool.and_eq_true,
        decide_eq_true_eq] at h
      obtain ⟨_, hreason, _, ⟨hmem, rfl⟩, rfl⟩ := h
      rw [← hrep.status] at hmem
      have haware : at'.aware = true := haware
      simp only [RunOp.method, SearchRun.fail, requireAware, Method.call_bind,
        Method.call_require, if_pos haware, if_pos hreason, SearchRun.transition_call hmem,
        Method.call_modify]
      exact ⟨_, rfl, hrep.id, rfl, rfl, rfl, hrep.startedAt, rfl, congrArg (· + 1) hrep.version,
        hrep.persistedVersion⟩
  | cancel at' =>
      simp only [RunOp.apply, Option.some.injEq, Orchestration.SearchRun.cancel, bind_ok_iff,
        pure_ok_iff, Orchestration.SearchRun.transition_ok] at h
      obtain ⟨_, ⟨hmem, rfl⟩, rfl⟩ := h
      rw [← hrep.status] at hmem
      have haware : at'.aware = true := haware
      simp only [RunOp.method, SearchRun.cancel, requireAware, Method.call_bind,
        Method.call_require, if_pos haware, SearchRun.transition_call hmem, Method.call_modify]
      exact ⟨_, rfl, hrep.id, rfl, rfl, rfl, hrep.startedAt, rfl, congrArg (· + 1) hrep.version,
        hrep.persistedVersion⟩

/-! ## The statement -/

/--
**The aggregate invariant.** In every run of calls and saves that starts with a new run and
never resumes a queued one: every state is loaded from its row as it is, also after a
save, and a run that runs has a start. So for a step that is never released while it
waits for a retry: every state is loaded as it is, and a step that is ready or runs has no
retry time. A call that does not meet the condition breaks this at once. A call that
raises, in any state, leaves the object as it was; one that returns moves the version on;
and after the end every call raises.
-/
theorem aggregate_invariant (b : Builtins) (intOf : String → Option Int)
    (hiso : ∀ t, b.fromisoformat (b.isoformat t) = some t) :
    (∀ run, SearchRun.Reachable run →
      run.Promised b intOf ∧
      (∀ row : SearchRunRecord, row.id = run.id → row.tenantId = run.tenantId →
        row.responseRunId = run.responseRunId → row.conversationId = run.conversationId →
        row.messageId = run.messageId → row.version = run.persistedVersion →
        ∃ row', run.save b row = .ok (row', run.markPersisted) ∧
          runFromRecord b intOf row' = .ok run.markPersisted) ∧
      ∀ op : RunOp, run.Meets op ↔ (op.method.call run).2.Promised b intOf) ∧
    (∀ step, SearchStep.Reachable step →
      step.Promised b ∧
      (∀ row : SearchStepRecord, row.id = step.id → row.tenantId = step.tenantId →
        row.runId = step.runId → row.stepKey = step.stepKey →
        row.stepType = step.stepType.value → row.planRevision = step.planRevision →
        row.inputRef = artifactToDict step.inputRef → row.version = step.persistedVersion →
        ∃ row', step.save row = .ok (row', step.markPersisted) ∧
          stepFromRecord b row' = .ok step.markPersisted) ∧
      ∀ op : StepOp, step.Meets op ↔ (op.method.call step).2.Promised b) ∧
    (∀ (op : RunOp) (run run' : SearchRun),
      (∀ e, op.method.call run = (.error e, run') → run' = run) ∧
      (op.method.call run = (.ok (), run') → run.version < run'.version) ∧
      (run.isTerminal = true → ∃ e, op.method.call run = (.error e, run))) ∧
    ∀ (op : StepOp) (step step' : SearchStep),
      (∀ e, op.method.call step = (.error e, step') → step' = step) ∧
      (op.method.call step = (.ok (), step') → step.version < step'.version) ∧
      (step.status.isTerminal = true → ∃ e, op.method.call step = (.error e, step)) := by
  refine ⟨?_, ?_, ?_, ?_⟩
  · intro run hr
    have hinv := SearchRun.inv_reachable hr
    refine ⟨hinv.promised hiso, ?_, ?_⟩
    · intro row hid htenant hresponse hconversation hmessage hversion
      exact hinv.save hiso hid htenant hresponse hconversation hmessage hversion
    · intro op
      refine ⟨fun hok => (hinv.call hok).promised hiso, fun hp => ?_⟩
      by_contra hbad
      exact SearchRun.not_promised_of_not_meets hinv hbad hp
  · intro step hr
    have hinv := SearchStep.inv_reachable hr
    refine ⟨hinv.promised, ?_, ?_⟩
    · intro row hid htenant hrun hkey htype hrevision hinput hversion
      exact hinv.save hid htenant hrun hkey htype hrevision hinput hversion
    · intro op
      refine ⟨fun hok => (hinv.call hok).promised, fun hp => ?_⟩
      by_contra hbad
      exact SearchStep.not_promised_of_not_meets hinv hbad hp
  · intro op run run'
    refine ⟨fun e h => SearchRun.atomic_method op run e run' h, fun h => ?_, fun h => ?_⟩
    · exact SearchRun.version_lt (SearchRun.called_of_ok h)
    · exact SearchRun.terminal_raises h op
  · intro op step step'
    refine ⟨fun e h => SearchStep.atomic_method op step e step' h, fun h => ?_, fun h => ?_⟩
    · exact SearchStep.version_lt (SearchStep.called_of_ok h)
    · exact SearchStep.terminal_raises h op

namespace Sample

/-- A text for every instant; the two that are used are written as ISO 8601 writes them. -/
def isoformat (t : Time) : String :=
  if t = 0 then "1970-01-01T00:00:00+00:00"
  else if t = seconds 15 then "1970-01-01T00:00:15+00:00"
  else String.ofList (List.replicate (Encodable.encode t) 'x')

def fromisoformat (text : String) : Option Time :=
  if text = "1970-01-01T00:00:00+00:00" then some 0
  else if text = "1970-01-01T00:00:15+00:00" then some (seconds 15)
  else Encodable.decode text.length

theorem fromisoformat_isoformat (t : Time) : fromisoformat (isoformat t) = some t := by
  have hother : ∀ n, ∀ s : String, '1' ∈ s.toList → String.ofList (List.replicate n 'x') ≠ s := by
    rintro n s hs rfl
    simp [List.mem_replicate] at hs
  unfold isoformat fromisoformat
  split
  · rename_i h
    simp [h]
  · split
    · rename_i h
      simp [h]
    · rw [if_neg (hother _ _ (by decide)), if_neg (hother _ _ (by decide)), String.length_ofList,
        List.length_replicate]
      exact Encodable.encodek t

/-- Conversions that read and write the two moments. -/
def builtins : Builtins where
  strOf _ := ""
  floatOf _ := none
  lower := Text.lowerAscii
  isoformat := isoformat
  fromisoformat := fromisoformat
  uuid5 id _ := id
  sha256 _ := ""

def policyVersion : String := "search-v12"

def routing : RoutingDecision :=
  ⟨{ mode := .fast, reasonCodes := ["default"], policyVersion, confidence := 1 }, by decide⟩

def budget : BudgetSnapshot :=
  ⟨{ policyVersion, createdAt := 0, softDeadlineAt := seconds 15, hardDeadlineAt := seconds 15
     synthesisReserveSeconds := 1, maxQueries := 4, maxProviders := 2, maxFetches := 4
     maxLlmCalls := 4, maxExpansionRounds := 1, phaseSeconds := [("verify", 2)] }, by decide⟩

def id : Uuid := ⟨1#128⟩

/-- A new run. -/
def run : SearchRun where
  id := id
  tenantId := id
  conversationId := id
  messageId := id
  responseRunId := id
  routing := routing
  budget := budget

/-- A new step. -/
def step : SearchStep where
  id := id
  tenantId := id
  runId := id
  stepKey := "route"
  stepType := .route
  planRevision := 1
  inputRef := {
    uri := "db://messages/1", sha256 := String.ofList (List.replicate 64 'a')
    uri_text := by decide, digits := by decide, lower := by decide }

/-- The step runs and is put off. -/
def putOff : SearchStep :=
  ((StepOp.retryLater ⟨seconds 15, true⟩).method.call (StepOp.start.method.call step).2).2

end Sample

/-- A started run and a started step are loaded as they are, with a start and without a retry time. -/
theorem aggregate_invariant_started :
    SearchRun.Promised Sample.builtins (fun _ => none)
      ((RunOp.start ⟨0, true⟩).method.call Sample.run).2 ∧
    SearchStep.Promised Sample.builtins (StepOp.start.method.call Sample.step).2 := by
  have h := aggregate_invariant Sample.builtins (fun _ => none) Sample.fromisoformat_isoformat
  have hrun : SearchRun.Reachable ((RunOp.start ⟨0, true⟩).method.call Sample.run).2 :=
    .tail (.init ⟨by decide, rfl, rfl, rfl, rfl⟩) (.call (.start ⟨0, true⟩) trivial)
  have hstep : SearchStep.Reachable (StepOp.start.method.call Sample.step).2 :=
    .tail (.init ⟨by decide, rfl, rfl, rfl⟩) (.call .start trivial)
  exact ⟨(h.1 _ hrun).1, (h.2.1 _ hstep).1⟩

/--
A new run is resumed and runs without a start. A step that waits for its retry is
released and is ready with the retry time.
-/
theorem aggregate_broken :
    Sample.run.Initial ∧ (RunOp.resume.method.call Sample.run).1 = .ok () ∧
    (RunOp.resume.method.call Sample.run).2.status = .running ∧
    (RunOp.resume.method.call Sample.run).2.startedAt = none ∧
    Sample.step.Initial ∧ Sample.putOff.status = .retryWait ∧
    (StepOp.releaseExpiredLease.method.call Sample.putOff).1 = .ok () ∧
    (StepOp.releaseExpiredLease.method.call Sample.putOff).2.status = .ready ∧
    (StepOp.releaseExpiredLease.method.call Sample.putOff).2.retryAt = some (seconds 15) := by
  refine ⟨⟨by decide, rfl, rfl, rfl, rfl⟩, rfl, rfl, rfl, ⟨by decide, rfl, rfl, rfl⟩,
    rfl, rfl, rfl, rfl⟩

end Sana.Orchestration.Aggregate
