import Sana.Orchestration.Proof.Fence

/-!
# How often a step is tried

A failure schedules a retry only below the attempt limit. A lease that runs out does
not ask: the reconciler puts the step back to READY whatever its number, and the
next claim opens one attempt more. As long as no step is released that way after its
last permitted attempt, no step is tried more often than its limit allows, and a step
whose attempts are used up has ended.
-/

namespace Sana.Orchestration

open Sana.Lib

variable {who : Actor} {db db' : Db} {cur cur' : SearchStep} {run run' : SearchRun}
  {new : List SearchStep} {d : Deployment} {w w' : World}

/-! ## Counting attempts -/

/-- The number of attempts depends on which attempts of which steps there are. -/
theorem attemptsOf_length_congr {t t' : Tables}
    (h : t'.attempts.map (fun a => (a.stepId, a.attemptNo))
      = t.attempts.map fun a => (a.stepId, a.attemptNo)) (id : Uuid) :
    (t'.attemptsOf id).length = (t.attemptsOf id).length := by
  have spelled : ∀ u : Tables, (u.attemptsOf id).length
      = ((u.attempts.map fun a => (a.stepId, a.attemptNo)).filter (·.1 = id)).length := by
    intro u
    unfold Tables.attemptsOf
    rw [List.filter_map, List.length_map]
    rfl
  rw [spelled, spelled, h]

/-- Which attempts there are after a move: those that were there, or one more. -/
theorem Move.attempt_keys (m : Move who db db' cur cur' run run' new) :
    db'.attempts.map (fun a => (a.stepId, a.attemptNo))
        = db.attempts.map (fun a => (a.stepId, a.attemptNo)) ∨
      ∃ a : StepAttempt, cur.status = .ready ∧ cur'.status = .running ∧ a.stepId = cur.id ∧
        a.attemptNo = db.nextAttemptNo cur.id ∧ db'.attempts = db.attempts ++ [a] := by
  cases m.attempts with
  | opened a hready hrun hstep hno _ hatt => exact .inr ⟨a, hready, hrun, hstep, hno, hatt⟩
  | skipped _ _ hatt => exact .inl (by rw [hatt])
  | due _ _ hatt => exact .inl (by rw [hatt])
  | dispatched _ _ hatt => exact .inl (by rw [hatt])
  | finished c _ b b' _ _ hholds _ hsame _ hatt =>
      refine .inl ?_
      rw [hatt]
      refine map_update_of_eq fun r hr hid => ?_
      rw [eq_of_key_eq db.valid.pk_attempts hr hholds.mem hid, hsame.stepId, hsame.attemptNo]
  | expired _ now _ _ _ _ _ _ hatt =>
      refine .inl ?_
      rw [hatt]
      simp only [expireAttempts, List.map_map]
      refine List.map_congr_left fun o _ => ?_
      simp only [Function.comp]
      split <;> rfl

/-- Which attempts there are after a transaction that moves no step. -/
theorem attempt_keys_renewed {a a' : StepAttempt} (ha : a ∈ db.attempts) (hsame : a.Same a')
    (hatt : db'.attempts = update (·.id) a.id (fun _ => a') db.attempts) :
    db'.attempts.map (fun a => (a.stepId, a.attemptNo))
      = db.attempts.map fun a => (a.stepId, a.attemptNo) := by
  rw [hatt]
  refine map_update_of_eq fun r hr hid => ?_
  rw [eq_of_key_eq db.valid.pk_attempts hr ha hid, hsame.stepId, hsame.attemptNo]

/-- A step without attempts has no latest number. -/
theorem latestAttemptNo_eq_zero {t : Tables} {id : Uuid}
    (h : ∀ a ∈ t.attempts, a.stepId ≠ id) : t.latestAttemptNo id = 0 := by
  have hnone : t.attemptsOf id = [] := by
    unfold Tables.attemptsOf
    rw [List.filter_eq_nil_iff]
    intro a ha
    simpa using h a ha
  unfold Tables.latestAttemptNo
  rw [hnone]
  rfl

/-! ## The invariant -/

/-- Attempts are numbered from one up to the limit, and a waiting step has one left. -/
structure Limited (limit : StepType → Nat) (db : Db) : Prop where
  counted : ∀ id, (db.attemptsOf id).length = db.latestAttemptNo id
  most : ∀ s ∈ db.steps, db.latestAttemptNo s.id ≤ limit s.stepType
  left : ∀ s ∈ db.steps, s.isTerminal = false → s.status ≠ .running →
    db.latestAttemptNo s.id < limit s.stepType

namespace Limited

variable {limit : StepType → Nat}

/-- The steps and which attempts they have are all the invariant is about. -/
theorem congr_rows (h : Limited limit db) (hsteps : db'.steps = db.steps)
    (hatt : db'.attempts.map (fun a => (a.stepId, a.attemptNo))
      = db.attempts.map fun a => (a.stepId, a.attemptNo)) : Limited limit db' where
  counted id := by
    rw [attemptsOf_length_congr hatt, latestAttemptNo_congr hatt]
    exact h.counted id
  most s hs := by
    rw [latestAttemptNo_congr hatt]
    exact h.most s (hsteps ▸ hs)
  left s hs := by
    rw [latestAttemptNo_congr hatt]
    exact h.left s (hsteps ▸ hs)

/-- A submitted step was never tried. -/
theorem submitted {rows : SubmissionRows} {route : SearchStep} (h : Limited limit db)
    (hpos : ∀ k, 0 < limit k) (hsub : Submitted db db' rows route) : Limited limit db' := by
  have hids : db'.steps.map (·.id) = db.steps.map (·.id) ++ [route].map (·.id) := by
    rw [hsub.steps, List.map_append]
  have hkeys : db'.attempts.map (fun a => (a.stepId, a.attemptNo))
      = db.attempts.map fun a => (a.stepId, a.attemptNo) := by rw [hsub.attempts]
  have hzero : db'.latestAttemptNo route.id = 0 := by
    refine latestAttemptNo_eq_zero fun a ha => ?_
    exact new_step_attempts hids (List.mem_singleton.mpr rfl) (hsub.attempts ▸ ha)
  refine ⟨fun id => ?_, fun s hs => ?_, fun s hs hlive hn => ?_⟩
  · rw [attemptsOf_length_congr hkeys, latestAttemptNo_congr hkeys]
    exact h.counted id
  · rw [hsub.steps, List.mem_append, List.mem_singleton] at hs
    rcases hs with hs | rfl
    · rw [latestAttemptNo_congr hkeys]
      exact h.most s hs
    · rw [hzero]
      exact Nat.zero_le _
  · rw [hsub.steps, List.mem_append, List.mem_singleton] at hs
    rcases hs with hs | rfl
    · rw [latestAttemptNo_congr hkeys]
      exact h.left s hs hlive hn
    · rw [hzero]
      exact hpos _

/-- What is left to check of a move is the step that moves. -/
theorem move (h : Limited limit db) (hpos : ∀ k, 0 < limit k)
    (m : Move who db db' cur cur' run run' new)
    (hwait : cur'.isTerminal = false → cur'.status ≠ .running →
      db.latestAttemptNo cur.id < limit cur.stepType) : Limited limit db' := by
  -- a step that is scheduled now has no attempt, and the one that is opened is the moved step's
  have hnew : ∀ s ∈ new, db'.latestAttemptNo s.id = 0 := by
    intro s hs
    refine latestAttemptNo_eq_zero fun a ha hid => ?_
    obtain ⟨b, hb, hbid⟩ := db'.valid.fk_attempts a ha
    rcases m.attempt_keys with hkeys | ⟨o, -, -, hstep, -, hatt⟩
    · have hmem : (a.stepId, a.attemptNo) ∈ db.attempts.map fun a => (a.stepId, a.attemptNo) := by
        rw [← hkeys]
        exact List.mem_map_of_mem ha
      obtain ⟨x, hx, hkey⟩ := List.mem_map.mp hmem
      exact new_step_attempts m.step_ids hs hx ((congrArg Prod.fst hkey).trans hid)
    · rw [hatt, List.mem_append, List.mem_singleton] at ha
      rcases ha with ha | rfl
      · exact new_step_attempts m.step_ids hs ha hid
      · have hnd := db'.valid.pk_steps
        rw [m.step_ids, List.nodup_append] at hnd
        exact hnd.2.2 cur.id (List.mem_map_of_mem m.cur_mem) s.id (List.mem_map_of_mem hs)
          (hstep.symm.trans hid)
  -- the other steps keep their numbers, the moved one gets one more at most
  have hnums : (∀ id, (db'.attemptsOf id).length = db'.latestAttemptNo id) ∧
      (∀ id, id ≠ cur.id → db'.latestAttemptNo id = db.latestAttemptNo id) ∧
      (db'.latestAttemptNo cur.id = db.latestAttemptNo cur.id ∨
        cur.status = .ready ∧ cur'.status = .running ∧
          db'.latestAttemptNo cur.id = db.latestAttemptNo cur.id + 1) := by
    rcases m.attempt_keys with hkeys | ⟨a, hready, hrun, hstep, hno, hatt⟩
    · refine ⟨fun id => ?_, fun id _ => latestAttemptNo_congr hkeys id,
        .inl (latestAttemptNo_congr hkeys _)⟩
      rw [attemptsOf_length_congr hkeys, latestAttemptNo_congr hkeys]
      exact h.counted id
    · have hmax : db'.latestAttemptNo cur.id = db.latestAttemptNo cur.id + 1 := by
        rw [latestAttemptNo_append hatt, if_pos hstep, hno]
        unfold Tables.nextAttemptNo
        omega
      have hother : ∀ id, id ≠ cur.id → db'.latestAttemptNo id = db.latestAttemptNo id := by
        intro id hid
        rw [latestAttemptNo_append hatt, if_neg]
        intro h'
        exact hid (h'.symm.trans hstep)
      refine ⟨fun id => ?_, hother, .inr ⟨hready, hrun, hmax⟩⟩
      have hcount := h.counted id
      unfold Tables.attemptsOf at hcount ⊢
      rw [hatt, List.filter_append, List.length_append, hcount]
      by_cases hid : id = cur.id
      · simp [hid, hmax, hstep]
      · rw [hother id hid]
        have hne : a.stepId ≠ id := fun h' => hid (h'.symm.trans hstep)
        simp [hne]
  obtain ⟨hcount, hother, hmine⟩ := hnums
  refine ⟨hcount, fun s hs => ?_, fun s hs hlive hn => ?_⟩
  · rcases m.mem_steps.mp hs with rfl | ⟨hold, hne⟩ | hs
    · rw [m.same.id, m.same.stepType]
      rcases hmine with hsame | ⟨hready, -, hmax⟩
      · rw [hsame]
        exact h.most cur m.cur_mem
      · rw [hmax]
        exact h.left cur m.cur_mem m.cur_live (by simp [hready])
    · rw [hother s.id hne]
      exact h.most s hold
    · rw [hnew s hs]
      exact Nat.zero_le _
  · rcases m.mem_steps.mp hs with rfl | ⟨hold, hne⟩ | hs
    · rw [m.same.id, m.same.stepType]
      rcases hmine with hsame | ⟨-, hrun, -⟩
      · rw [hsame]
        exact hwait hlive hn
      · exact absurd hrun hn
    · rw [hother s.id hne]
      exact h.left s hold hlive hn
    · rw [hnew s hs]
      exact hpos _

end Limited

/-- Every kind of step may be tried once. -/
theorem StoreSettings.attemptLimit_pos (cfg : StoreSettings) (k : StepType) :
    0 < cfg.attemptLimit k := by
  have hlimits := cfg.limits_valid
  cases k <;> simp only [StoreSettings.attemptLimit] <;> omega

/-- No lease that runs out puts a step back that has used up its attempts. -/
def ReleasedWithinLimit (cfg : StoreSettings) (w : World) : Call → Prop
  | .makeReady _ candidate now => candidate.status = .running →
      ∀ s ∈ w.db.steps, s.id = candidate.stepId → s.status = .running →
        (∃ lease ∈ currentLease w.db.toTables s.id, lease ≤ now) →
          w.db.latestAttemptNo s.id < cfg.attemptLimit s.stepType
  | _ => True

instance (cfg : StoreSettings) (w : World) (call : Call) :
    Decidable (ReleasedWithinLimit cfg w call) := by
  apply @Call.casesOn (fun call => Decidable (ReleasedWithinLimit cfg w call)) call <;> intros <;>
    unfold ReleasedWithinLimit <;> infer_instance

/-- A reporter keeps to the store's limits. -/
theorem limit_of_reporter {call : Call} {c : ClaimedStep} {limit : StepType → Nat}
    (h : call.actor d = .reporter c limit) (k : StepType) : limit k ≤ d.cfg.attemptLimit k := by
  cases call with
  | succeed env claimed result =>
      obtain ⟨-, rfl⟩ := Actor.reporter.inj h
      exact Nat.zero_le _
  | fail env claimed error =>
      obtain ⟨-, rfl⟩ := Actor.reporter.inj h
      exact le_refl _
  | deliver env op => cases op <;> simp [Call.actor, DeliveryOp.actor] at h
  | _ => simp [Call.actor] at h

/-- Only `make_ready` releases. -/
theorem makeReady_of_reconciler {call : Call} {candidate : ReconcileCandidate} {now : Time}
    (h : call.actor d = .reconciler candidate now) : ∃ env, call = .makeReady env candidate now := by
  cases call with
  | makeReady env c n =>
      obtain ⟨rfl, rfl⟩ := Actor.reconciler.inj h
      exact ⟨env, rfl⟩
  | deliver env op => cases op <;> simp [Call.actor, DeliveryOp.actor] at h
  | _ => simp [Call.actor] at h

theorem limited_reachable (hr : ReachableBy d (ReleasedWithinLimit d.cfg) w) :
    Limited d.cfg.attemptLimit w.db := by
  refine hr.invariant_of (P := fun w => Limited d.cfg.attemptLimit w.db)
    (Q := fun w => WInv w ∧ OneOpen w.db)
    (fun _ h => ⟨winv_reachable (ReachableBy.reachable h),
      oneOpen_reachable (ReachableBy.reachable h)⟩) ?_ ?_
  · intro s hs
    subst hs
    exact ⟨fun _ => rfl, by simp [World.init, Db.empty], by simp [World.init, Db.empty]⟩
  · intro s t hi h hm
    obtain ⟨call, hok, hheld, hcommit⟩ := hm
    have hpos := d.cfg.attemptLimit_pos
    have he := call_effect hi.1 hheld hcommit
    generalize hwho : call.actor d = who at he
    cases he with
    | idle hsteps _ hatt => exact h.congr_rows hsteps (by rw [hatt])
    | runWritten _ _ _ _ _ hsteps _ hatt => exact h.congr_rows hsteps (by rw [hatt])
    | renewed a a' ha hsame _ _ hsteps _ hatt =>
        exact h.congr_rows hsteps (attempt_keys_renewed ha hsame hatt)
    | submitted rows route hsub => exact h.submitted hpos hsub
    | moved cur cur' run run' new m =>
        refine h.move hpos m fun hlive hn => ?_
        cases m.attempts with
        | opened a hready hrun => exact absurd hrun hn
        | skipped hready hend =>
            rcases hend with hend | hend <;>
              simp [SearchStep.isTerminal, hend, StepStatus.isTerminal] at hlive
        | due hwait => exact h.left cur m.cur_mem m.cur_live (by simp [hwait])
        | dispatched hready => exact h.left cur m.cur_mem m.cur_live (by simp [hready])
        | finished c limit a a' hrun hstop hholds hstep =>
            -- a retry is scheduled only below the limit, and the attempt is the latest
            rcases hstop with hend | ⟨-, hlt⟩
            · rw [hend] at hlive
              cases hlive
            · rw [hstep, ← hholds.latest]
              refine lt_of_lt_of_le hlt ?_
              exact limit_of_reporter hwho _
        | expired candidate now hrun hready hid hseen hlease =>
            obtain ⟨env, rfl⟩ := makeReady_of_reconciler hwho
            obtain ⟨lease, hlease, hle⟩ := hlease
            exact hok hseen cur m.cur_mem hid.symm hrun ⟨lease, hlease, hle⟩

/--
**The attempt limit.** In every run in which no lease that runs out puts a step back
after its last permitted attempt, no step is tried more often than its kind allows, and
a step that was tried so often and is not being tried now has ended.
-/
theorem attempt_limit (hr : ReachableBy d (ReleasedWithinLimit d.cfg) w) :
    ∀ s ∈ w.db.steps, (w.db.attemptsOf s.id).length ≤ d.cfg.attemptLimit s.stepType ∧
      ((w.db.attemptsOf s.id).length = d.cfg.attemptLimit s.stepType →
        (∀ a ∈ w.db.attemptsOf s.id, a.completedAt ≠ none) → s.isTerminal = true) := by
  intro s hs
  have h := limited_reachable hr
  have ho := oneOpen_reachable (ReachableBy.reachable hr)
  rw [h.counted]
  refine ⟨h.most s hs, fun hused hdone => ?_⟩
  by_contra hlive
  rw [Bool.not_eq_true] at hlive
  have hn : s.status ≠ .running := by
    intro hrun
    obtain ⟨a, ha, hstep, hopen⟩ := ho.exists_open s hs hrun
    exact hdone a (by simp [Tables.attemptsOf, ha, hstep]) hopen
  have := h.left s hs hlive hn
  omega

/-- A failure that may be retried. -/
def retryable : TypedError := ⟨.transient, "timeout", "", true⟩

/-- The first step fails twice and is tried a third time. -/
def retriedActions : List Action :=
  let id := (sampleEnv 2).ids 3
  sampleActions.take 2 ++ [
    .claim (sampleEnv 3) id "worker", .fail (sampleEnv 4) 0 retryable,
    .makeReady (sampleEnv 6) { stepId := id, status := .retryWait } (seconds 6),
    .claim (sampleEnv 7) id "worker", .fail (sampleEnv 8) 1 retryable,
    .makeReady (sampleEnv 11) { stepId := id, status := .retryWait } (seconds 11),
    .claim (sampleEnv 12) id "worker"]

theorem attempt_limit_retried : ∃ w, ReachableBy sample (ReleasedWithinLimit sample.cfg) w ∧
    ∃ s ∈ w.db.steps, (w.db.attemptsOf s.id).length = 3 ∧
      (w.db.attemptsOf s.id).length ≤ sample.cfg.attemptLimit s.stepType := by
  obtain ⟨w, hr, hp⟩ := exists_reachableBy sample (ReleasedWithinLimit sample.cfg) retriedActions
    (fun w => w.db.steps.any fun s => (w.db.attemptsOf s.id).length = 3) (by decide +kernel)
  obtain ⟨s, hs, hlen⟩ := List.any_eq_true.mp hp
  exact ⟨w, hr, s, hs, by simpa using hlen, (attempt_limit hr s hs).1⟩

/-- A worker that dies with every attempt: the lease runs out, the step is claimed again. -/
def poisonActions : List Action :=
  let id := (sampleEnv 2).ids 3
  let release (n : Nat) : Action :=
    .makeReady (sampleEnv n) { stepId := id, status := .running } (seconds n)
  [.create (sampleEnv 1) ⟨7#128⟩ "hello" none,
    .submit (sampleEnv 2)
      ⟨⟨7#128⟩, (sampleEnv 1).ids 0, "hello", "k1", ⟨.research, [], "search-v12"⟩⟩,
    .claim (sampleEnv 3) id "worker", release 34, .claim (sampleEnv 35) id "worker", release 66,
    .claim (sampleEnv 67) id "worker", release 98, .claim (sampleEnv 99) id "worker"]

/-- **A step whose leases run out is tried a fourth time**, where three are allowed. -/
theorem attempt_limit_exceeded : ∃ w, Reachable sample w ∧
    ∃ s ∈ w.db.steps, sample.cfg.attemptLimit s.stepType < (w.db.attemptsOf s.id).length := by
  obtain ⟨w, hr, hp⟩ := exists_reachable sample poisonActions
    (fun w => w.db.steps.any fun s =>
      sample.cfg.attemptLimit s.stepType < (w.db.attemptsOf s.id).length) (by decide +kernel)
  obtain ⟨s, hs, hlen⟩ := List.any_eq_true.mp hp
  exact ⟨w, hr, s, hs, by simpa using hlen⟩

end Sana.Orchestration
