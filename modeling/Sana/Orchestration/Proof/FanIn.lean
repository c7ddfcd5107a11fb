import Sana.Orchestration.Proof.Workflow

/-!
# The fan-in steps

A run has at most one selection, one verification and one synthesis. Synthesis is
scheduled when nothing else of the run is live, and the coordinator's guard against
two verify outputs is never hit: the lemmas of the first half say that no other part
of a transaction raises that error, so only the fan-in itself could.
-/

namespace Sana.Orchestration

open Sana.Lib

/-! ## Nobody else raises the error of the fan-in -/

section Raises

open Coordinator

variable {s : SearchStep} {r : SearchRun} {a : StepAttempt} {t : Tables} {u : Uow} {env : Env}
  {ports : Ports} {cfg : StoreSettings}

theorem valueError_eq_many {m : String} : Exn.valueError m = manyVerifyOutputs ↔
    m = "Workflow produced more than one VERIFY output" := by
  simp [manyVerifyOutputs]

theorem invariant_ne_many {m c : String} : Exn.invariant m c ≠ manyVerifyOutputs := by
  simp [manyVerifyOutputs]

theorem integrity_ne_many {m : String} : Exn.integrity m ≠ manyVerifyOutputs := by
  simp [manyVerifyOutputs]

theorem typeError_ne_many {m : String} : Exn.typeError m ≠ manyVerifyOutputs := by
  simp [manyVerifyOutputs]

theorem runtimeError_ne_many {m : String} : Exn.runtimeError m ≠ manyVerifyOutputs := by
  simp [manyVerifyOutputs]

theorem keyError_ne_many {m : String} : Exn.keyError m ≠ manyVerifyOutputs := by
  simp [manyVerifyOutputs]

attribute [local simp] bind_error_iff pure_ne_error map_error_iff valueError_eq_many
  invariant_ne_many integrity_ne_many typeError_ne_many runtimeError_ne_many keyError_ne_many
  violation

/-! ### Aggregates -/

@[local simp] theorem stepTransition_ne_many {st : StepStatus} :
    s.transition st ≠ .error manyVerifyOutputs := by
  simp [SearchStep.transition, assertTransition]

@[local simp] theorem runTransition_ne_many {st : RunStatus} :
    r.transition st ≠ .error manyVerifyOutputs := by
  simp [SearchRun.transition, assertTransition]

@[local simp] theorem stepRehydrate_ne_many : s.rehydrate ≠ .error manyVerifyOutputs := by
  simp [SearchStep.rehydrate]

@[local simp] theorem runRehydrate_ne_many : r.rehydrate ≠ .error manyVerifyOutputs := by
  have hstate : r.validateLoadedState ≠ .error manyVerifyOutputs := by
    unfold SearchRun.validateLoadedState
    split <;> simp
  simp [SearchRun.rehydrate, hstate]

@[local simp] theorem runFail_ne_many {reason : StopReason} {at' : Time} :
    r.fail reason at' ≠ .error manyVerifyOutputs := by
  simp [SearchRun.fail]

@[local simp] theorem runSucceed_ne_many {q : AnswerQuality} {reason : StopReason} {at' : Time} :
    r.succeed q reason at' ≠ .error manyVerifyOutputs := by
  simp [SearchRun.succeed]

@[local simp] theorem startOrResume_ne_many : startOrResume env r ≠ .error manyVerifyOutputs := by
  unfold startOrResume
  split <;> simp [SearchRun.start, SearchRun.resume]

@[local simp] theorem attemptFinish_ne_many {at' : Time} :
    a.finish at' ≠ .error manyVerifyOutputs := by
  simp [StepAttempt.finish]

/-! ### Repositories -/

@[local simp] theorem getStep_ne_many {id : Uuid} : t.getStep id ≠ .error manyVerifyOutputs := by
  unfold Tables.getStep
  split <;> simp

@[local simp] theorem getRun_ne_many {id : Uuid} : t.getRun id ≠ .error manyVerifyOutputs := by
  unfold Tables.getRun
  split <;> simp

@[local simp] theorem commit_ne_many : u.commit env ≠ .error manyVerifyOutputs := by
  unfold Uow.commit
  split <;> simp

@[local simp] theorem saveStep_ne_many {now : Time} :
    t.saveStep now s ≠ .error manyVerifyOutputs := by
  simp [Tables.saveStep]

@[local simp] theorem completeAttempt_ne_many :
    t.completeAttempt a ≠ .error manyVerifyOutputs := by
  simp [Tables.completeAttempt]

@[local simp] theorem saveAndCommit_ne_many {e : String} {p : List (String × EventValue)} :
    saveAndCommit env u s r e p ≠ .error manyVerifyOutputs := by
  simp [saveAndCommit, Tables.saveRun]

@[local simp] theorem fenced_ne_many {c : ClaimedStep} :
    fenced t c ≠ .error manyVerifyOutputs := by
  simp only [fenced, ne_eq, bind_error_iff, getStep_ne_many, false_or, not_exists, not_and]
  intro found _
  cases found with
  | none => simp
  | some step => by_cases h : step.status = .running ∧ isCurrentAttempt t c = true <;> simp [h]

/-! ### The coordinator, up to the fan-in -/

@[local simp] theorem payload_ne_many {ref : ArtifactRef} :
    payload ports ref ≠ .error manyVerifyOutputs := by
  unfold payload
  split <;> simp

@[local simp] theorem planReference_ne_many :
    planReference t r s ≠ .error manyVerifyOutputs := by
  unfold planReference
  dsimp only
  split <;> simp

@[local simp] theorem addStep_ne_many {key : String} {k : StepType} {input : StepInput} :
    addStep env u r key k input ≠ .error manyVerifyOutputs := by
  unfold addStep
  split
  · simp
  · simp [Uow.newUuid]

@[local simp] theorem addSteps_ne_many {α : Type} {key : α → String} {k : StepType}
    {input : α → StepInput} {items : List α} :
    addSteps env u r key k input items ≠ .error manyVerifyOutputs := by
  induction items generalizing u with
  | nil => simp [addSteps]
  | cons a rest ih => simp [addSteps, ih]

@[local simp] theorem maybeSelect_ne_many : maybeSelect env u r s ≠ .error manyVerifyOutputs := by
  unfold maybeSelect
  dsimp only
  split <;> simp

@[local simp] theorem selectionFailures_ne_many {rows : List SearchStep} :
    selectionFailures ports rows s ≠ .error manyVerifyOutputs := by
  unfold selectionFailures
  split
  · rename_i ref _
    cases h : payload ports ref with
    | ok p => simp [Except.map]
    | error e =>
        have hne : payload ports ref ≠ .error manyVerifyOutputs := payload_ne_many
        rw [h] at hne
        simpa [Except.map] using hne
  · simp

@[local simp] theorem earlyVerify_ne_many {ref : ArtifactRef} {refs : List ArtifactRef} :
    earlyVerify ports r ref refs ≠ .error manyVerifyOutputs := by
  have hmap : refs.mapM (payload ports) ≠ .error manyVerifyOutputs := by
    induction refs with
    | nil => simp
    | cons x xs ih => simp [List.mapM_cons, ih]
  unfold earlyVerify
  split
  · simp
  · simp only [ne_eq, bind_error_iff, hmap, false_or, not_exists, not_and]
    intro extracted _
    split <;> simp

@[local simp] theorem persistAnswer_ne_many {p : Payload} :
    persistAnswer ports env t r p ≠ .error manyVerifyOutputs := by
  unfold persistAnswer
  split <;> simp

@[local simp] theorem failRun_ne_many {reason : StopReason} :
    failRun env u r reason ≠ .error manyVerifyOutputs := by
  unfold failRun
  split <;> simp

/-! ### The fan-in -/

variable {db : Db} {cur step : SearchStep} {codes : List String}

/-- **The fan-in never meets two verify outputs.** -/
theorem maybeSynthesize_ne_many (e : Ending db r cur step) (hu : u.tables = db.toTables) :
    maybeSynthesize ports env u r step codes ≠ .error manyVerifyOutputs := by
  obtain ⟨o, ho, -⟩ := e.outputsOf_verify
  have hlen : (outputsOf .verify (db.stepRows r.id) step).length ≤ 1 := by
    rw [ho]
    cases o <;> simp
  simp only [maybeSynthesize, hu]
  split
  · simp
  · simp [hlen]

theorem maybeVerify_ne_many (e : Ending db r cur step) (hu : u.tables = db.toTables) :
    maybeVerify ports env u r step codes ≠ .error manyVerifyOutputs := by
  have hsyn : maybeSynthesize ports env u r step codes ≠ .error manyVerifyOutputs :=
    maybeSynthesize_ne_many e hu
  simp only [maybeVerify]
  split
  · split
    · exact hsyn
    · simp
  · split
    · split
      · exact hsyn
      · simp
    · simp only [ne_eq, bind_error_iff, planReference_ne_many, false_or, not_exists, not_and]
      intro planRef _
      split
      · simp
      · simp only [bind_error_iff, earlyVerify_ne_many, false_or, not_exists, not_and]
        intro admitted _
        split <;> simp

theorem onSuccess_ne_many {ref : ArtifactRef} (e : Ending db r cur step) :
    onSuccess ports env (Uow.begin db) r step ref ≠ .error manyVerifyOutputs := by
  have hsyn : ∀ codes, maybeSynthesize ports env (Uow.begin db) r step codes
      ≠ .error manyVerifyOutputs := fun _ => maybeSynthesize_ne_many e rfl
  have hver : ∀ codes, maybeVerify ports env (Uow.begin db) r step codes
      ≠ .error manyVerifyOutputs := fun _ => maybeVerify_ne_many e rfl
  simp only [onSuccess, ne_eq, bind_error_iff, payload_ne_many, false_or, not_exists, not_and]
  intro p _
  cases step.stepType with
  | route => simp
  | plan =>
      simp only [bind_error_iff, addSteps_ne_many, false_or, not_exists, not_and]
      intro v hv
      by_cases hq : p.queries = []
      · rw [hq] at hv
        obtain rfl := Except.ok.inj hv
        simp [hq, hsyn]
      · simp [hq]
  | discovery => simp
  | select =>
      by_cases hsel : p.selected = []
      · simp [hsel, hsyn]
      · simp only [List.isEmpty_iff, hsel, if_false]
        split <;> simp
  | fetch => simp
  | extract => simp [hver]
  | verify => simp [hsyn]
  | synthesize =>
      simp only [bind_error_iff, persistAnswer_ne_many, false_or, not_exists, not_and]
      intro t _
      split
      · split <;> simp
      · simp
  | complete => simp

theorem onFailure_ne_many {error : TypedError} {disposition : Disposition}
    (e : disposition ≠ .retryScheduled → r.isTerminal = false → Ending db r cur step) :
    onFailure ports env (Uow.begin db) r step error disposition ≠ .error manyVerifyOutputs := by
  unfold onFailure
  split
  · simp
  · rename_i hq
    simp only [Bool.or_eq_true, decide_eq_true_eq, not_or, Bool.not_eq_true] at hq
    have hsyn : ∀ codes, maybeSynthesize ports env (Uow.begin db) r step codes
        ≠ .error manyVerifyOutputs := fun _ => maybeSynthesize_ne_many (e hq.1 hq.2) rfl
    have hver : ∀ codes, maybeVerify ports env (Uow.begin db) r step codes
        ≠ .error manyVerifyOutputs := fun _ => maybeVerify_ne_many (e hq.1 hq.2) rfl
    split
    · simp
    · simp
    · simp
    · simp
    · simp [hver]
    · simp [hver]
    · simp [hsyn]
    · simp [hsyn]
    · simp [hsyn]

/-! ### The three operations that ask the coordinator -/

variable {c : ClaimedStep}

theorem claimPastPhaseDeadline_ne_many {run row : SearchRun} (h : Loaded db run row cur step)
    (hsh : Shape db.toTables) :
    claimPastPhaseDeadline ports env db step run ≠ .error manyVerifyOutputs := by
  have hstart : ∀ {s : SearchStep}, s.start ≠ .error manyVerifyOutputs := by
    simp [SearchStep.start]
  have hfail : ∀ {s : SearchStep}, s.fail ≠ .error manyVerifyOutputs := stepTransition_ne_many
  simp only [claimPastPhaseDeadline, ne_eq, bind_error_iff, startOrResume_ne_many, hstart, hfail,
    saveAndCommit_ne_many, pure_ne_error, false_or, or_false, and_false, exists_false, not_exists,
    not_and]
  intro r hr s hs s' hs'
  exact onFailure_ne_many fun _ _ => h.ending_failed hsh hs hs' (startOrResume_ok hr).1.id

theorem claim_ne_many {id : Uuid} {worker : String} (hsh : Shape db.toTables) :
    claim ports cfg env db id worker ≠ .error manyVerifyOutputs := by
  simp only [claim, ne_eq, bind_error_iff, getStep_ne_many, false_or, not_exists, not_and]
  intro found hstep
  cases found with
  | none => simp
  | some step =>
      dsimp only
      split
      · simp
      · simp only [bind_error_iff, getRun_ne_many, false_or, not_exists, not_and]
        intro foundRun hrun
        cases foundRun with
        | none => simp
        | some run =>
            obtain ⟨cur, row, h, -⟩ := loaded_of_claim hstep hrun
            dsimp only
            split
            · simp [claimCancelled, SearchStep.cancel]
            · split
              · simp [claimPastHardDeadline, SearchStep.start, SearchStep.fail]
              · split
                · exact claimPastPhaseDeadline_ne_many h hsh
                · simp [claimLease, LeaseService.claim, SearchStep.start, Uow.newUuid]

theorem succeed_ne_many {result : StepExecutionResult} (hsh : Shape db.toTables)
    (hc : ClaimOk db c) : succeed ports env db c result ≠ .error manyVerifyOutputs := by
  simp only [succeed, ne_eq, bind_error_iff, fenced_ne_many, false_or, not_exists, not_and]
  intro found hfenced
  cases found with
  | none => simp
  | some step =>
      simp only [bind_error_iff, getRun_ne_many, false_or, not_exists, not_and]
      intro foundRun hrun
      cases foundRun with
      | none => simp
      | some run =>
          obtain ⟨cur, row, h, -⟩ := loaded_of_report hc (fenced_some hfenced).1 hrun
          dsimp only
          split
          · simp [succeedCancelled, StepAttempt.fail, SearchStep.cancel]
          · have hs : ∀ {ref : ArtifactRef}, step.succeed ref ≠ .error manyVerifyOutputs := by
              simp [SearchStep.succeed]
            have ha : ∀ {ref : ArtifactRef},
                c.attempt.succeed ref env.now ≠ .error manyVerifyOutputs := by
              simp [StepAttempt.succeed]
            have hu : ∀ {usage : BudgetUsage}, run.recordUsage usage ≠ .error manyVerifyOutputs := by
              simp [SearchRun.recordUsage]
            simp only [succeedRun, bind_error_iff, hs, ha, hu, completeAttempt_ne_many,
              saveAndCommit_ne_many, pure_ne_error, false_or, or_false, and_false, exists_false,
              not_exists, not_and]
            intro fin _ s hs r hr
            exact onSuccess_ne_many (h.ending_succeeded hsh hs (SearchRun.recordUsage_ok hr).1.id)

theorem fail_ne_many {error : TypedError} (hsh : Shape db.toTables) (hc : ClaimOk db c) :
    fail ports cfg env db c error ≠ .error manyVerifyOutputs := by
  simp only [fail, ne_eq, bind_error_iff, fenced_ne_many, false_or, not_exists, not_and]
  intro found hfenced
  cases found with
  | none => simp
  | some step =>
      simp only [bind_error_iff, getRun_ne_many, false_or, not_exists, not_and]
      intro foundRun hrun
      cases foundRun with
      | none => simp
      | some run =>
          obtain ⟨cur, row, h, -⟩ := loaded_of_report hc (fenced_some hfenced).1 hrun
          have ha : c.attempt.fail error env.now ≠ .error manyVerifyOutputs := by
            simp [StepAttempt.fail]
          have hf : failStep cfg env c error step run ≠ .error manyVerifyOutputs := by
            unfold failStep
            split
            · simp [SearchStep.cancel]
            · dsimp only
              split <;> simp [SearchStep.retryLater, SearchStep.fail]
          simp only [bind_error_iff, ha, hf, completeAttempt_ne_many, saveAndCommit_ne_many,
            pure_ne_error, false_or, or_false, and_false, exists_false, not_exists, not_and]
          rintro fin _ ⟨s, d, ev⟩ hs
          exact onFailure_ne_many fun hd _ => h.ending_reported hsh hs hd

end Raises

/-! ## One of each -/

section Unique

variable {d : Deployment} {w : World}

/-- A kind with one key has one step in a run. -/
theorem step_unique {db : Db} (hsh : Shape db.toTables) {a b : SearchStep} (ha : a ∈ db.steps)
    (hb : b ∈ db.steps) (hrun : a.runId = b.runId) (hty : a.stepType = b.stepType)
    (hkind : a.stepType = .select ∨ a.stepType = .verify ∨ a.stepType = .synthesize) : a = b := by
  refine Ending.eq_of_key hsh ha hb hrun (keyOk_one ?_ ?_ ?_ _ _ (hsh.key a ha) ?_)
  · rcases hkind with h | h | h <;> simp [h]
  · rcases hkind with h | h | h <;> simp [h]
  · rcases hkind with h | h | h <;> simp [h]
  · rw [hty]
    exact hsh.key b hb

/-- Where a synthesis exists, everything else of its run has ended. -/
theorem terminal_of_synthesis {db : Db} (hsh : Shape db.toTables) {s o : SearchStep}
    (hs : s ∈ db.steps) (hsyn : s.stepType = .synthesize) (ho : o ∈ db.steps)
    (hrun : o.runId = s.runId) (hne : o ≠ s) : o.isTerminal = true := by
  refine hsh.below_synthesis ho hs hrun hsyn ?_
  intro hosyn
  exact hne (step_unique hsh ho hs hrun (hosyn.trans hsyn.symm) (.inr (.inr hosyn)))

/--
**At most one fan-in step of each kind.** In every reachable world a run has at
most one selection, one verification and one synthesis; a transaction that creates
the synthesis leaves every other step of the run ended and gives it the output of
the run's verification; and no transaction raises the error of two outputs.
-/
theorem fan_in_once (hr : Reachable d w) :
    (∀ a ∈ w.db.steps, ∀ b ∈ w.db.steps, a.runId = b.runId → a.stepType = b.stepType →
      (a.stepType = .select ∨ a.stepType = .verify ∨ a.stepType = .synthesize) → a = b) ∧
    (∀ w', Step d w w' → ∀ s ∈ w'.db.steps, s.stepType = .synthesize →
      (∀ s₀ ∈ w.db.steps, s₀.id ≠ s.id) →
        (∀ o ∈ w'.db.steps, o.runId = s.runId → o ≠ s → o.isTerminal = true) ∧
        ∃ i, s.input = .synthesis i ∧ ∀ ref, i.verifyRef = some ref ↔
          ∃ v ∈ w'.db.steps, v.runId = s.runId ∧ v.stepType = .verify ∧ v.outputRef = some ref) ∧
    (∀ env stepId worker, claim d.ports d.cfg env w.db stepId worker
      ≠ .error Coordinator.manyVerifyOutputs) ∧
    ∀ c ∈ w.claims, ∀ env,
      (∀ result, succeed d.ports env w.db c result ≠ .error Coordinator.manyVerifyOutputs) ∧
      ∀ error, fail d.ports d.cfg env w.db c error ≠ .error Coordinator.manyVerifyOutputs := by
  have hi := winv_reachable hr
  refine ⟨?_, ?_, ?_, ?_⟩
  · intro a ha b hb hrun hty hkind
    exact step_unique hi.shape ha hb hrun hty hkind
  · intro w' hs s hsmem hsyn _
    have hi' := winv_step hi hs
    exact ⟨fun o ho hrun hne => terminal_of_synthesis hi'.shape hsmem hsyn ho hrun hne,
      fanIn_reachable (hr.tail hs) s hsmem hsyn⟩
  · intro env stepId worker
    exact claim_ne_many hi.shape
  · intro c hc env
    exact ⟨fun _ => succeed_ne_many hi.shape (hi.claims c hc),
      fun _ => fail_ne_many hi.shape (hi.claims c hc)⟩

theorem fan_in_once_sample : ∃ w, Reachable sample w ∧
    (∃ s ∈ w.db.steps, s.stepType = .synthesize) ∧
    ∀ a ∈ w.db.steps, ∀ b ∈ w.db.steps, a.runId = b.runId → a.stepType = b.stepType →
      (a.stepType = .select ∨ a.stepType = .verify ∨ a.stepType = .synthesize) → a = b := by
  obtain ⟨w, hr, hp⟩ := exists_reachable sample sampleActions
    (fun w => w.db.steps.any fun s => s.stepType = .synthesize) (by decide +kernel)
  exact ⟨w, hr, by simpa using hp, (fan_in_once hr).1⟩

end Unique

end Sana.Orchestration
