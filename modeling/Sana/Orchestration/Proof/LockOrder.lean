import Sana.Orchestration.Locks

/-!
# The order of the locks

Everything that reports on a step locks the step first and the run last. The audit of the
model calls locks the run first. So the audit must not come to wait for the step: as long
as it does not, the run's lock is only ever held by transactions that wait for nothing,
attempts are taken under the lock of their step, and no cycle can close.
-/

namespace Sana.Orchestration

open Sana.Lib

/-! ## Scripts -/

section Scripts

variable {call : LockingCall} {pre post : List RowLock} {runId stepId attemptId invocationId : Uuid}

/-- What `make_ready` locks after the step belongs to the step. -/
theorem mem_released {lock : RowLock} {invocations : List (Uuid × Uuid)} {attempts : List Uuid}
    (h : lock ∈ (invocations.map fun i => RowLock.invocation stepId i.1 i.2)
      ++ attempts.map (RowLock.attempt stepId)) :
    (∃ a i, lock = .invocation stepId a i) ∨ ∃ a, lock = .attempt stepId a := by
  rcases List.mem_append.mp h with h | h
  · obtain ⟨i, _, rfl⟩ := List.mem_map.mp h
    exact .inl ⟨_, _, rfl⟩
  · obtain ⟨a, _, rfl⟩ := List.mem_map.mp h
    exact .inr ⟨_, rfl⟩

/-- Where a lock stands in the script of `make_ready`. -/
theorem makeReady_split {lock : RowLock} {invocations : List (Uuid × Uuid)} {attempts : List Uuid}
    (h : (LockingCall.makeReady stepId invocations attempts).script = pre ++ lock :: post) :
    (pre = [] ∧ lock = .step stepId) ∨ (RowLock.step stepId ∈ pre ∧
      ((∃ a i, lock = .invocation stepId a i) ∨ ∃ a, lock = .attempt stepId a)) := by
  cases pre with
  | nil =>
      simp only [LockingCall.script, List.cons_append, List.nil_append, List.cons.injEq] at h
      exact .inl ⟨rfl, h.1.symm⟩
  | cons x pre =>
      simp only [LockingCall.script, List.cons_append, List.cons.injEq] at h
      obtain ⟨rfl, h⟩ := h
      have hmem : lock ∈ pre ++ lock :: post := List.mem_append_right _ List.mem_cons_self
      rw [← h] at hmem
      exact .inr ⟨List.mem_cons_self, mem_released hmem⟩

/-- An attempt is locked under its step. -/
theorem step_before_attempt (h : call.script = pre ++ .attempt stepId attemptId :: post) :
    RowLock.step stepId ∈ pre := by
  cases call
  case makeReady s invocations attempts =>
    rcases makeReady_split h with ⟨_, hlock⟩ | ⟨hmem, ⟨a, i, hlock⟩ | ⟨a, hlock⟩⟩
    · cases hlock
    · cases hlock
    · cases hlock
      exact hmem
  all_goals
    simp only [LockingCall.script, LockingCall.lockReported, LockingCall.lockCurrent] at h
    rcases pre with _ | ⟨x, _ | ⟨y, _ | ⟨z, pre⟩⟩⟩ <;> simp at h <;> grind

/-- After the run comes nothing, unless it came first. -/
theorem after_run (h : call.script = pre ++ .run runId :: post) (hnot : call.runFirst = false) :
    post = [] := by
  cases call
  case makeReady s invocations attempts =>
    rcases makeReady_split h with ⟨_, hlock⟩ | ⟨_, ⟨a, i, hlock⟩ | ⟨a, hlock⟩⟩ <;> cases hlock
  case reuse => cases hnot
  case start => cases hnot
  all_goals
    simp only [LockingCall.script, LockingCall.lockReported] at h
    rcases pre with _ | ⟨x, _ | ⟨y, _ | ⟨z, pre⟩⟩⟩ <;> simp_all

/-- The step comes first, unless the run does. -/
theorem before_step (h : call.script = pre ++ .step stepId :: post) (hnot : call.runFirst = false) :
    pre = [] := by
  cases call
  case makeReady s invocations attempts =>
    rcases makeReady_split h with ⟨hpre, _⟩ | ⟨_, ⟨a, i, hlock⟩ | ⟨a, hlock⟩⟩
    · exact hpre
    · cases hlock
    · cases hlock
  case reuse => cases hnot
  case start => cases hnot
  all_goals
    simp only [LockingCall.script, LockingCall.lockReported] at h
    rcases pre with _ | ⟨x, _ | ⟨y, _ | ⟨z, pre⟩⟩⟩ <;> simp_all

/-- An invocation is locked under its step, or before a run and nothing else. -/
theorem around_invocation
    (h : call.script = pre ++ .invocation stepId attemptId invocationId :: post) :
    (pre = [] ∧ ∀ lock ∈ post, ∃ runId, lock = .run runId) ∨ RowLock.step stepId ∈ pre := by
  cases call
  case makeReady s invocations attempts =>
    rcases makeReady_split h with ⟨_, hlock⟩ | ⟨hmem, ⟨a, i, hlock⟩ | ⟨a, hlock⟩⟩
    · cases hlock
    · cases hlock
      exact .inr hmem
    · cases hlock
  all_goals
    simp only [LockingCall.script, LockingCall.lockReported, LockingCall.lockCurrent] at h
    rcases pre with _ | ⟨x, _ | ⟨y, _ | ⟨z, pre⟩⟩⟩ <;> simp at h <;> grind

/-- What comes after the run where that comes first. -/
theorem after_run_first (h : call.script = pre ++ .run runId :: post) (hfirst : call.runFirst = true) :
    ∀ lock ∈ post, (∃ s, lock = .step s) ∨ ∃ s a, lock = .attempt s a := by
  cases call
  case reuse =>
    simp only [LockingCall.script, LockingCall.lockCurrent] at h
    rcases pre with _ | ⟨x, _ | ⟨y, _ | ⟨z, pre⟩⟩⟩ <;> simp at h
    grind
  case start =>
    simp only [LockingCall.script, LockingCall.lockCurrent] at h
    rcases pre with _ | ⟨x, _ | ⟨y, _ | ⟨z, pre⟩⟩⟩ <;> simp at h
    grind
  all_goals cases hfirst

end Scripts

/-! ## What nobody waits for -/

/-- A transaction that locks the run first asks for its step's lock only when that is free. -/
def Unhindered (s : LockTable) : LockAction LockingCall → Prop
  | .ask i => ∀ t ∈ s[i]?, t.kind.runFirst = true →
      ∀ lock ∈ t.rest.head?, lock.isStep = true → s.Free i lock
  | _ => True

instance (s : LockTable) (a : LockAction LockingCall) : Decidable (Unhindered s a) := by
  cases a <;> unfold Unhindered <;> infer_instance

section Awaited

variable {s s' : LockTable} {t u : Locking LockingCall RowLock} {i j : Nat}

theorem awaits_eq_some {lock : RowLock} (h : t.awaits = some lock) :
    t.waiting = true ∧ ∃ rest, t.rest = lock :: rest := by
  unfold Locking.awaits at h
  split at h
  · rename_i hw
    obtain ⟨rest, hrest⟩ := List.head?_eq_some_iff.mp h
    exact ⟨hw, rest, hrest⟩
  · cases h

/-- A transaction that has something yet to take stands in the middle of its script. -/
theorem script_at (h : t.Follows LockingCall.script) {lock : RowLock} {rest : List RowLock}
    (hrest : t.rest = lock :: rest) : t.kind.script = t.held.reverse ++ lock :: rest := by
  rcases h with h | ⟨_, h⟩
  · rw [← h, hrest]
  · rw [h] at hrest
    cases hrest

/-- So does one that has a lock. -/
theorem script_around (h : t.Follows LockingCall.script) {lock : RowLock} (hheld : lock ∈ t.held) :
    ∃ pre mid, t.kind.script = pre ++ lock :: (mid ++ t.rest) ∧ ∀ l ∈ pre, l ∈ t.held := by
  rcases h with h | ⟨h, _⟩
  · obtain ⟨pre, mid, hsplit⟩ := List.append_of_mem (List.mem_reverse.mpr hheld)
    refine ⟨pre, mid, ?_, fun l hl => ?_⟩
    · rw [← h, hsplit, List.append_assoc, List.cons_append]
    · rw [← List.mem_reverse, hsplit]
      exact List.mem_append_left _ hl
  · rw [h] at hheld
    cases hheld

/-- Whoever has an attempt has its step. -/
theorem holds_step_of_attempt (h : t.Follows LockingCall.script) {stepId attemptId : Uuid}
    (hheld : RowLock.attempt stepId attemptId ∈ t.held) : RowLock.step stepId ∈ t.held := by
  obtain ⟨pre, mid, hscript, hpre⟩ := script_around h hheld
  exact hpre _ (step_before_attempt hscript)

/-- An attempt is free for whoever asks for it. -/
theorem attempt_free (hs : s.Sound LockingCall.script) (ht : s[i]? = some t)
    {stepId attemptId : Uuid} {rest : List RowLock}
    (hrest : t.rest = .attempt stepId attemptId :: rest) : s.Free i (.attempt stepId attemptId) := by
  intro j u hu hheld
  have hown := step_before_attempt (script_at (hs.follows t (List.mem_of_getElem? ht)) hrest)
  have hother := holds_step_of_attempt (hs.follows u (List.mem_of_getElem? hu)) hheld
  exact hs.exclusive j i u t hu ht _ hother (List.mem_reverse.mp hown)

/-- Nobody waits for an attempt, and nobody who has the run for a step. -/
structure Locking.Clear (t : Locking LockingCall RowLock) : Prop where
  attempt : ∀ stepId attemptId, t.awaits ≠ some (.attempt stepId attemptId)
  step : t.kind.runFirst = true → ∀ stepId, t.awaits ≠ some (.step stepId)

theorem clear_of_not_waiting (h : t.waiting = false) : Locking.Clear t := by
  have hnone : t.awaits = none := by simp [Locking.awaits, h]
  constructor
  · simp [hnone]
  · simp [hnone]

/-- One action. -/
theorem clear_act (hs : s.Sound LockingCall.script) {a : LockAction LockingCall}
    (hok : Unhindered s a) (hp : ∀ t ∈ s, Locking.Clear t)
    (h : s.act LockingCall.script a = some s') : ∀ t ∈ s', Locking.Clear t := by
  intro x hx
  rcases Sessions.act_cases h with ⟨kind, -, rfl⟩ | ⟨i, t, lock, rest, -, ht, hrest, -, rfl⟩ |
    ⟨i, t, lock, rest, rfl, ht, hrest, hbusy, rfl⟩ | ⟨i, t, -, ht, rfl⟩
  · rcases List.mem_append.mp hx with hx | hx
    · exact hp x hx
    · obtain rfl := List.mem_singleton.mp hx
      exact clear_of_not_waiting rfl
  · rcases List.mem_or_eq_of_mem_set hx with hx | rfl
    · exact hp x hx
    · exact clear_of_not_waiting rfl
  · rcases List.mem_or_eq_of_mem_set hx with hx | rfl
    · exact hp x hx
    · -- it waits because the lock was not free
      have hawaits : t.queue.awaits = some lock := by
        simp [Locking.awaits, Locking.queue, hrest]
      constructor
      · intro stepId attemptId heq
        rw [hawaits, Option.some.injEq] at heq
        subst heq
        exact hbusy (attempt_free hs ht hrest)
      · intro hfirst stepId heq
        rw [hawaits, Option.some.injEq] at heq
        subst heq
        exact hbusy (hok t ht hfirst (.step stepId) (by rw [hrest]; rfl) rfl)
  · rcases List.mem_or_eq_of_mem_set hx with hx | rfl
    · exact hp x hx
    · exact clear_of_not_waiting rfl

theorem clear_reachable (hr : Sessions.ReachableBy LockingCall.script Unhindered s) :
    ∀ t ∈ s, Locking.Clear t := by
  refine hr.invariant_of (P := fun s : LockTable => ∀ t ∈ s, Locking.Clear t)
    (Q := fun s => s.Sound LockingCall.script) (fun _ h => Sessions.sound_reachable h) ?_ ?_
  · rintro s rfl t ht
    cases ht
  · rintro s s' hs hp ⟨a, hok, h⟩
    exact clear_act hs hok hp h

end Awaited

/-! ## The rank -/

/-- Waiting for the run is nearest to getting on; waiting with empty hands is farthest. -/
def lockRank (t : Locking LockingCall RowLock) : Nat :=
  match t.awaits with
  | none => 0
  | some lock =>
      if t.held = [] then 3 else
        match lock with
        | .run _ => 1
        | _ => 2

section Rank

variable {s : LockTable} {t u : Locking LockingCall RowLock} {i j : Nat}

theorem lockRank_le_two (h : t.held ≠ []) : lockRank t ≤ 2 := by
  unfold lockRank
  split
  · omega
  · rw [if_neg h]
    split <;> omega

/-- Whoever has a run's lock waits for nothing. -/
theorem awaits_none_of_run (hf : u.Follows LockingCall.script) (hc : Locking.Clear u)
    {runId : Uuid} (hheld : RowLock.run runId ∈ u.held) : u.awaits = none := by
  rw [← Option.not_isSome_iff_eq_none, Option.isSome_iff_exists]
  rintro ⟨lock, hawaits⟩
  obtain ⟨-, rest, hrest⟩ := awaits_eq_some hawaits
  obtain ⟨pre, mid, hscript, -⟩ := script_around hf hheld
  rw [hrest] at hscript
  cases hfirst : u.kind.runFirst with
  | false =>
      have hnil := after_run hscript hfirst
      simp at hnil
  | true =>
      have hmem : lock ∈ mid ++ lock :: rest := List.mem_append_right _ List.mem_cons_self
      rcases after_run_first hscript hfirst lock hmem with ⟨stepId, rfl⟩ | ⟨stepId, attemptId, rfl⟩
      · exact hc.step hfirst stepId hawaits
      · exact hc.attempt stepId attemptId hawaits

/-- Waiting leads to somebody nearer to getting on. -/
theorem lockRank_lt (hs : s.Sound LockingCall.script) (hc : ∀ t ∈ s, Locking.Clear t) (hij : i ≠ j)
    (ht : s[i]? = some t) (hu : s[j]? = some u) {lock : RowLock} (hawaits : t.awaits = some lock)
    (hheld : lock ∈ u.held) : lockRank u < lockRank t := by
  have hune : u.held ≠ [] := List.ne_nil_of_mem hheld
  have hule := lockRank_le_two hune
  have hft := hs.follows t (List.mem_of_getElem? ht)
  have hfu := hs.follows u (List.mem_of_getElem? hu)
  have hct := hc t (List.mem_of_getElem? ht)
  have hcu := hc u (List.mem_of_getElem? hu)
  obtain ⟨-, rest, hrest⟩ := awaits_eq_some hawaits
  have hscript := script_at hft hrest
  by_cases hempty : t.held = []
  · have hrank : lockRank t = 3 := by
      simp [lockRank, hawaits, hempty]
    omega
  cases lock with
  | run runId =>
      have hrank : lockRank t = 1 := by
        simp [lockRank, hawaits, hempty]
      have hnone : lockRank u = 0 := by
        simp [lockRank, awaits_none_of_run hfu hcu hheld]
      omega
  | step stepId =>
      cases hfirst : t.kind.runFirst with
      | false => exact absurd (List.reverse_eq_nil_iff.mp (before_step hscript hfirst)) hempty
      | true => exact absurd hawaits (hct.step hfirst stepId)
  | attempt stepId attemptId => exact absurd hawaits (hct.attempt stepId attemptId)
  | invocation stepId attemptId invocationId =>
      have hrank : lockRank t = 2 := by
        simp [lockRank, hawaits, hempty]
      rcases around_invocation hscript with ⟨hnil, -⟩ | hstep
      · exact absurd (List.reverse_eq_nil_iff.mp hnil) hempty
      obtain ⟨pre, mid, hscript', hpre⟩ := script_around hfu hheld
      rcases around_invocation hscript' with ⟨-, hruns⟩ | hstep'
      · -- an invocation that is completed: the run is all that is left to take
        have hlow : lockRank u ≤ 1 := by
          unfold lockRank
          split
          · omega
          · rename_i l hl
            obtain ⟨-, rest', hrest'⟩ := awaits_eq_some hl
            obtain ⟨runId, rfl⟩ := hruns l (List.mem_append_right _ (hrest' ▸ List.mem_cons_self))
            rw [if_neg hune]
        omega
      · exact absurd (hs.exclusive i j t u ht hu _ (List.mem_reverse.mp hstep) (hpre _ hstep')) hij

end Rank

/--
**No deadlock, as long as the audit of the model calls never asks for the lock of a step
that somebody has.** For any number of transactions, in every order of their locks.
-/
theorem lock_order_acyclic {s : LockTable}
    (hr : Sessions.ReachableBy LockingCall.script Unhindered s) : ¬ s.Deadlocked := by
  have hs := Sessions.sound_reachable hr
  have hc := clear_reachable hr
  refine Sessions.not_deadlocked_of_rank (fun i => (s[i]?).elim 0 lockRank) ?_
  rintro i j ⟨hij, t, u, lock, ht, hawaits, hu, hheld⟩
  simp only [ht, hu, Option.elim_some]
  exact lockRank_lt hs hc hij ht hu hawaits hheld

/-! ## A worker that comes back -/

namespace LockSample

def runId : Uuid := ⟨1#128⟩

def stepId : Uuid := ⟨2#128⟩

/-- The attempt of the worker that has been superseded. -/
def staleAttempt : Uuid := ⟨3#128⟩

/-- The attempt that is current. -/
def attempt : Uuid := ⟨4#128⟩

/-- A stale worker starts a model call while the current attempt reports its success. -/
def acts : List (LockAction LockingCall) := [
  .start (.start runId stepId staleAttempt), .start (.succeed stepId attempt runId),
  .ask 0, .ask 1, .ask 1, .ask 0, .ask 1]

/-- The audit gets through first. -/
def orderly : List (LockAction LockingCall) := [
  .start (.start runId stepId staleAttempt), .start (.succeed stepId attempt runId),
  .ask 0, .ask 0, .ask 0, .ask 1]

/-- Each has what the other asks for. -/
def stuck : LockTable := [
  ⟨.start runId stepId staleAttempt, [.run runId], [.step stepId, .attempt stepId staleAttempt], true⟩,
  ⟨.succeed stepId attempt runId, [.attempt stepId attempt, .step stepId], [.run runId], true⟩]

/-- The stale worker comes first; the report waits for it. -/
def served : LockTable := [
  ⟨.start runId stepId staleAttempt, [.attempt stepId staleAttempt, .step stepId, .run runId], [],
    false⟩,
  ⟨.succeed stepId attempt runId, [], LockingCall.lockReported stepId attempt runId, true⟩]

end LockSample

/-- The audit gets all its locks while a report waits. -/
theorem lock_order_acyclic_sample :
    Sessions.ReachableBy LockingCall.script Unhindered LockSample.served ∧
      LockSample.served.Waits 1 0 ∧ ¬ LockSample.served.Deadlocked := by
  have hr : Sessions.ReachableBy LockingCall.script Unhindered LockSample.served :=
    Sessions.reachable_of_exec LockSample.orderly (by decide)
  exact ⟨hr, ⟨by decide, _, _, .step LockSample.stepId, rfl, rfl, rfl, by decide⟩,
    lock_order_acyclic hr⟩

/-- The audit has the run and waits for the step; the report has the step and waits for the run. -/
theorem audit_and_report_deadlock : ∃ s : LockTable,
    Sessions.ReachableBy LockingCall.script (fun _ _ => True) s ∧ s.Deadlocked := by
  have hr : Sessions.ReachableBy LockingCall.script (fun _ _ => True) LockSample.stuck :=
    Sessions.reachable_of_exec LockSample.acts (by decide)
  have h₁ : LockSample.stuck.Waits 0 1 :=
    ⟨by decide, _, _, .step LockSample.stepId, rfl, rfl, rfl, by decide⟩
  have h₂ : LockSample.stuck.Waits 1 0 :=
    ⟨by decide, _, _, .run LockSample.runId, rfl, rfl, rfl, by decide⟩
  exact ⟨_, hr, 0, .tail (.single h₁) h₂⟩

end Sana.Orchestration
