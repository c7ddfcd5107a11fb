import Sana.Orchestration.Api
import Sana.Orchestration.Proof.Recover

/-!
# Users of one tenant

A conversation is only read and written for the user it belongs to. The calls about a
run find it by its identifier within the tenant, and look at nobody's ownership: to a
user it makes no difference whose the run is.
-/

namespace Sana.Orchestration

open Sana.Lib

/-- The run belongs to a conversation of the user. -/
def SearchRun.OwnedBy (db : Db) (run : SearchRun) (userId : Uuid) : Prop :=
  ∃ c ∈ db.conversations, c.id = run.conversationId ∧ c.userId = userId

/-- No run has this identifier. -/
def Missing (db : Db) (runId : Uuid) : Prop := ∀ run ∈ db.runs, run.id ≠ runId

/-- The call about the one run answers as that about the other, and neither leaves a trace. -/
def RunCall.AsMissing (call : RunCall) (s : ApiState) (principal : Principal)
    (runId missing : Uuid) : Prop :=
  ∃ reply, call.run s principal missing = .ok (reply, s) ∧ call.run s principal runId = .ok (reply, s)

/-- What a call about a run that does not exist answers. -/
def RunCall.absent : RunCall → RunReply
  | .get => .run none
  | .cancel _ _ => .run none
  | .evidence => .evidence none
  | .subscribe _ => .events [] true

section Calls

variable {s : ApiState} {principal : Principal} {runId missing : Uuid} {call : RunCall}

theorem getRun_missing (h : Missing s.db missing) : s.db.getRun missing = .ok none := by
  rw [Tables.getRun, lookup_eq_none.mpr h]

/-- A call about a run that does not exist returns nothing and changes nothing. -/
theorem run_absent (h : Missing s.db missing) :
    call.run s principal missing = .ok (call.absent, s) := by
  have hrun := getRun_missing h
  cases call with
  | get => simp [RunCall.run, getRunView, hrun, RunCall.absent, bind, Except.bind, pure, Except.pure]
  | cancel env redisUp =>
      have hcancel : cancelRun env s.db missing = .ok (none, s.db) := by
        simp [cancelRun, hrun, bind, Except.bind, pure, Except.pure]
      have hnew : s.db.events.find? (fun e => !decide (e ∈ s.db.events)) = none := by
        simp [List.find?_eq_none]
      simp [RunCall.run, cancelRunView, hcancel, hnew, RunCall.absent, bind, Except.bind, pure,
        Except.pure]
  | evidence =>
      simp [RunCall.run, evidenceReport, hrun, RunCall.absent, bind, Except.bind, pure, Except.pure]
  | subscribe afterSequence =>
      simp [RunCall.run, subscribeRun, hrun, RunCall.absent, Subscription.readRun,
        Subscription.start, bind, Except.bind, pure, Except.pure]

theorem asMissing_iff (h : Missing s.db missing) :
    call.AsMissing s principal runId missing ↔ call.run s principal runId = .ok (call.absent, s) := by
  unfold RunCall.AsMissing
  rw [run_absent h]
  constructor
  · rintro ⟨reply, hm, hr⟩
    simp only [Except.ok.injEq, Prod.mk.injEq, and_true] at hm
    rw [hr, hm]
  · exact fun hr => ⟨_, rfl, hr⟩

/-- A cancellation returns the run it found. -/
theorem cancelRun_some {db db' : Db} {env : Env} {run : SearchRun} (hrun : run ∈ db.runs)
    {view : Option SearchRun} (h : cancelRun env db run.id = .ok (view, db')) : view ≠ none := by
  unfold cancelRun at h
  obtain ⟨found, hfound, h⟩ := bind_ok_iff.mp h
  cases found with
  | none => exact absurd hfound (getRun_ne_none hrun)
  | some r =>
      simp only [] at h
      split at h
      · simp only [pure_ok_iff, Prod.mk.injEq] at h
        rw [← h.1]
        simp
      · simp only [bind_ok_iff, pure_ok_iff, Prod.mk.injEq] at h
        obtain ⟨_, _, _, _, _, _, rfl, _⟩ := h
        simp

/-- Of the calls about a run that exists, only a subscription can come back with nothing. -/
theorem subscribes_of_absent {run : SearchRun} (hrun : run ∈ s.db.runs)
    (h : call.run s principal run.id = .ok (call.absent, s)) :
    ∃ afterSequence, call = .subscribe afterSequence := by
  cases call with
  | get =>
      simp only [RunCall.run, getRunView, RunCall.absent, bind_ok_iff, pure_ok_iff, Prod.mk.injEq,
        RunReply.run.injEq, Option.map_eq_none_iff] at h
      obtain ⟨_, hfound, rfl, _⟩ := h
      exact absurd hfound (getRun_ne_none hrun)
  | cancel env redisUp =>
      simp only [RunCall.run, cancelRunView, RunCall.absent, bind_ok_iff, pure_ok_iff, Prod.mk.injEq,
        RunReply.run.injEq, Option.map_eq_none_iff, Prod.exists] at h
      obtain ⟨_, _, hcancel, rfl, _⟩ := h
      exact absurd rfl (cancelRun_some hrun hcancel)
  | evidence =>
      simp only [RunCall.run, evidenceReport, RunCall.absent, bind_ok_iff] at h
      obtain ⟨found, hfound, h⟩ := h
      cases found with
      | none => exact absurd hfound (getRun_ne_none hrun)
      | some _ => simp [pure, Except.pure] at h
  | subscribe afterSequence => exact ⟨afterSequence, rfl⟩

theorem databaseEvents_eq_nil {t : Tables} {afterSequence : Nat} :
    databaseEvents t runId afterSequence = [] ↔
      ∀ e ∈ t.events, e.runId = runId → e.sequence ≤ afterSequence := by
  simp only [databaseEvents, List.map_eq_nil_iff, List.take_eq_nil_iff, OfNat.ofNat_ne_zero, false_or]
  rw [← List.length_eq_zero_iff, List.length_insertionSort, List.length_eq_zero_iff,
    List.filter_eq_nil_iff]
  simp only [Bool.and_eq_true, decide_eq_true_eq, not_and, not_lt]

/-- Rows that are passed on are appended. -/
theorem foldl_yieldRow_yielded (views : List EventView) (sub : Subscription) :
    (views.foldl Subscription.yieldRow sub).yielded = sub.yielded ++ views := by
  induction views generalizing sub with
  | nil => simp
  | cons v views ih =>
      rw [List.foldl_cons, ih, Subscription.yieldRow, List.append_assoc, List.singleton_append]

/-- What a subscription to a run that can be loaded starts with. -/
theorem subscribeRun_eq (s : ApiState) (principal : Principal) (afterSequence : Nat)
    {run : SearchRun} (hrun : s.db.getRun runId = .ok (some run)) :
    subscribeRun s principal runId afterSequence = .ok
      (.events (databaseEvents s.db.toTables runId afterSequence) run.isTerminal, s) := by
  have hstart : (Subscription.start runId afterSequence).readRun (some run)
      = ⟨runId, afterSequence, afterSequence, .events run.isTerminal, []⟩ := rfl
  simp only [subscribeRun, hrun, hstart, bind, Except.bind, pure, Except.pure, Except.ok.injEq,
    Prod.mk.injEq, and_true, RunReply.events.injEq, Subscription.readEvents,
    foldl_yieldRow_yielded, List.nil_append, true_and]
  cases run.isTerminal <;> simp

end Calls

/-! ## The result -/

/--
**A call about another user's run is answered as if there were no such run exactly when it
subscribes to a run that has ended, behind its last event.** Reading the run, reading its
evidence and cancelling it never are.
-/
theorem run_isolated_iff {d : Deployment} {w : World} (hr : Reachable d w) (lineage : Lineage)
    (redis : RedisEventStream) {principal : Principal} {owner : Uuid}
    (_hother : principal.userId ≠ owner) {run : SearchRun} (hrun : run ∈ w.db.runs)
    (_howned : run.OwnedBy w.db owner) {missing : Uuid} (hmissing : Missing w.db missing)
    (call : RunCall) :
    call.AsMissing ⟨w.db, lineage, redis⟩ principal run.id missing ↔
      ∃ afterSequence, call = .subscribe afterSequence ∧ run.isTerminal = true ∧
        ∀ e ∈ w.db.events, e.runId = run.id → e.sequence ≤ afterSequence := by
  have hload := getRun_eq hrun ((resumable_reachable hr).sound run hrun)
  have hsub (afterSequence : Nat) :
      RunCall.run ⟨w.db, lineage, redis⟩ principal run.id (.subscribe afterSequence) = .ok
        (.events (databaseEvents w.db.toTables run.id afterSequence) run.isTerminal,
          ⟨w.db, lineage, redis⟩) := by
    have h := subscribeRun_eq ⟨w.db, lineage, redis⟩ principal afterSequence hload
    exact h
  rw [asMissing_iff hmissing]
  constructor
  · intro h
    obtain ⟨afterSequence, rfl⟩ := subscribes_of_absent hrun h
    rw [hsub] at h
    simp only [RunCall.absent, Except.ok.injEq, Prod.mk.injEq, RunReply.events.injEq, and_true] at h
    exact ⟨afterSequence, rfl, h.2, databaseEvents_eq_nil.mp h.1⟩
  · rintro ⟨afterSequence, rfl, hterminal, hbehind⟩
    rw [hsub, hterminal, databaseEvents_eq_nil.mpr hbehind]
    rfl

/-! ## Two users -/

/-- The user whose run is looked at. -/
def runOwner : Uuid := ⟨7#128⟩

/-- Another user of the tenant. -/
def otherUser : Principal := ⟨⟨8#128⟩⟩

/-- The first user's message is submitted and its run queued. -/
def queuedActions : List Action := sampleActions.take 2

/-- Another user who reads the run is not told that there is none. -/
theorem run_isolated_sample : ∃ w, Reachable sample w ∧ ∃ run ∈ w.db.runs,
    run.OwnedBy w.db runOwner ∧ ∃ missing, Missing w.db missing ∧
      ¬ RunCall.AsMissing .get ⟨w.db, {}, .empty⟩ otherUser run.id missing := by
  obtain ⟨w, hr, hp⟩ := exists_reachable sample queuedActions
    (fun w => w.db.runs.any (fun run =>
        w.db.conversations.any fun c => c.id = run.conversationId && c.userId = runOwner)
      && w.db.runs.all (·.id ≠ (⟨1#128⟩ : Uuid)))
    (by decide +kernel)
  simp only [List.any_eq_true, List.all_eq_true, Bool.and_eq_true, decide_eq_true_eq] at hp
  obtain ⟨⟨run, hrun, c, hc, howned⟩, hmissing⟩ := hp
  refine ⟨w, hr, run, hrun, ⟨c, hc, howned⟩, ⟨1#128⟩, hmissing, fun h => ?_⟩
  have hby : run.OwnedBy w.db runOwner := ⟨c, hc, howned⟩
  obtain ⟨_, hget, _⟩ := (run_isolated_iff hr {} .empty (by decide) hrun hby hmissing .get).mp h
  cases hget

/-- A user cancels the run of another one. -/
theorem run_cancelled_by_other : ∃ w, Reachable sample w ∧ ∃ run ∈ w.db.runs,
    run.OwnedBy w.db runOwner ∧ otherUser.userId ≠ runOwner ∧ run.status = .queued ∧
      ∃ view s', RunCall.run ⟨w.db, {}, .empty⟩ otherUser run.id (.cancel (sampleEnv 3) true)
          = .ok (.run (some view), s') ∧
        ∃ r ∈ s'.db.runs, r.id = run.id ∧ r.status = .cancelled := by
  obtain ⟨w, hr, hp⟩ := exists_reachable sample queuedActions
    (fun w => w.db.runs.any fun run => run.status = .queued
      && (w.db.conversations.any fun c => c.id = run.conversationId && c.userId = runOwner)
      && (RunCall.run ⟨w.db, {}, .empty⟩ otherUser run.id
          (.cancel (sampleEnv 3) true)).toOption.any fun out =>
        (match out.1 with | .run view => view.isSome | _ => false) &&
        out.2.db.runs.any fun r => r.id = run.id && r.status = .cancelled)
    (by decide +kernel)
  simp only [List.any_eq_true, Bool.and_eq_true, decide_eq_true_eq, Option.any_eq_true,
    Prod.exists] at hp
  obtain ⟨run, hrun, ⟨hst, c, hc, howned⟩, reply, s', hcancel, hview, hrow⟩ := hp
  cases reply with
  | run view =>
      obtain ⟨view, rfl⟩ := Option.isSome_iff_exists.mp hview
      exact ⟨w, hr, run, hrun, ⟨c, hc, howned⟩, by decide, hst, view, s',
        toOption_eq_some hcancel, hrow⟩
  | evidence _ => cases hview
  | events _ _ => cases hview

end Sana.Orchestration
