import Sana.Shadow.Lifecycle
import Sana.Shadow.Proof.Effect

/-!
# The lifecycle of a campaign

Every method checks before it changes anything, so a call that raises changes nothing.
What a call that returns has done is said once for each method, and the invariant
follows: a loaded campaign is valid, a running one was started and has its whole plan,
an aborted one has a reason to be. Two methods can be called where they break it.
`resume` moves a campaign that was never started to RUNNING, and `settle_stop` aborts
a campaign nobody asked to stop; where they are not, the invariant holds in every run.
-/

namespace Sana.Shadow

open Sana.Lib

namespace CampaignLifecycle

variable {l l' : CampaignLifecycle} {at' : Time}

/-! ## All or nothing -/

theorem reads_requireNotBeforeStart (at' : Time) (field : String) :
    (requireNotBeforeStart at' field).Reads := by
  intro l
  simp [requireNotBeforeStart, Method.call_bind]

theorem atomic_transition (target : CampaignStatus) : (transition target).Atomic := by
  refine .after_read Method.reads_get fun l => ?_
  exact .after_read (Method.reads_require _ _) fun _ => (Method.commits_modify _).atomic

/-- A method that ends with a transition and with changes that follow from it. -/
theorem atomic_transition_then (target : CampaignStatus) (f : CampaignLifecycle → CampaignLifecycle) :
    (do transition target; modify f).Atomic :=
  .then_commit (atomic_transition target) fun _ => Method.commits_modify f

/-- **A call that raises changes nothing.** -/
theorem atomic_method (m : Mutation) : m.method.Atomic := by
  cases m with
  | start now =>
      refine .after_read (reads_requireNotBeforeStart _ _) fun _ => ?_
      refine .after_read Method.reads_get fun _ => ?_
      exact .after_read (Method.reads_require _ _) fun _ => atomic_transition_then _ _
  | resume now =>
      exact .after_read (reads_requireNotBeforeStart _ _) fun _ => atomic_transition_then _ _
  | requestStop intent reason =>
      refine .after_read (Method.reads_require _ _) fun _ => ?_
      exact .after_read (Method.reads_require _ _) fun _ => atomic_transition_then _ _
  | escalateStop intent reason =>
      refine .after_read Method.reads_get fun _ => ?_
      refine .after_read (Method.reads_require _ _) fun _ => ?_
      refine .after_read (Method.reads_require _ _) fun _ => ?_
      exact .after_read (Method.reads_require _ _) fun _ => (Method.commits_modify _).atomic
  | settleStop now =>
      refine .after_read (reads_requireNotBeforeStart _ _) fun _ => ?_
      exact .after_read Method.reads_get fun _ => atomic_transition_then _ _
  | awaitReview now deadline =>
      refine .after_read (reads_requireNotBeforeStart _ _) fun _ => ?_
      exact .after_read (Method.reads_require _ _) fun _ => atomic_transition_then _ _
  | complete decision now =>
      refine .after_read (reads_requireNotBeforeStart _ _) fun _ => ?_
      exact .after_read (Method.reads_require _ _) fun _ => atomic_transition_then _ _
  | abort reason now =>
      refine .after_read (reads_requireNotBeforeStart _ _) fun _ => ?_
      exact .after_read (Method.reads_require _ _) fun _ => atomic_transition_then _ _

/-! ## What a call does -/

theorem requireNotBeforeStart_ok {field : String} {a : Unit}
    (h : (requireNotBeforeStart at' field).call l = (.ok a, l')) :
    (∀ s ∈ l.startedAt, s ≤ at') ∧ l = l' := by
  obtain ⟨l₁, l₂, hget, h⟩ := Method.bind_ok h
  obtain ⟨rfl, rfl⟩ := Method.get_ok hget
  obtain ⟨hall, rfl⟩ := Method.require_ok h
  refine ⟨?_, rfl⟩
  intro s hs
  rw [hs] at hall
  simpa using hall

theorem transition_then_ok {target : CampaignStatus} {f : CampaignLifecycle → CampaignLifecycle}
    {a : PUnit} (h : Method.call (do transition target; modify f) l = (.ok a, l')) :
    target ∈ l.status.targets ∧ l' = f { l with status := target, version := l.version + 1 } := by
  obtain ⟨_, l₃, htr, hlast⟩ := Method.bind_ok h
  obtain ⟨l₁, l₂, hget, hrest⟩ := Method.bind_ok htr
  obtain ⟨rfl, rfl⟩ := Method.get_ok hget
  obtain ⟨_, l₂, hreq, hmod⟩ := Method.bind_ok hrest
  obtain ⟨hmem, rfl⟩ := Method.require_ok hreq
  rw [Method.modify_ok hlast, Method.modify_ok hmod]
  exact ⟨hmem, rfl⟩

/-- What a mutation that returned has done. -/
inductive Called (l : CampaignLifecycle) : Mutation → CampaignLifecycle → Prop
  | start {now : Time} (hstart : ∀ s ∈ l.startedAt, s ≤ now) (hplanned : l.plannedCount = l.maxRuns)
      (hst : .running ∈ l.status.targets) :
      Called l (.start now) { l with
        status := .running, version := l.version + 1, startedAt := some (l.startedAt.getD now)
        stopIntent := .none, stopReason := none }
  | resume {now : Time} (hst : .running ∈ l.status.targets) :
      Called l (.resume now) { l with
        status := .running, version := l.version + 1, stopIntent := .none, stopReason := none
        reviewDeadlineAt := none }
  | requestStop {intent : StopIntent} {reason : String} (hintent : intent ≠ .none)
      (hreason : Text.isBlank reason = false) (hst : .stopping ∈ l.status.targets) :
      Called l (.requestStop intent reason) { l with
        status := .stopping, version := l.version + 1, stopIntent := intent
        stopReason := some (Text.strip reason) }
  | escalateStop {intent : StopIntent} {reason : String} (hst : l.status = .stopping)
      (hintent : intent ≠ .none) (hreason : Text.isBlank reason = false) :
      Called l (.escalateStop intent reason) { l with
        stopIntent := intent, stopReason := some (Text.strip reason), version := l.version + 1 }
  | paused {now : Time} (hpause : l.stopIntent = .pause) (hst : .paused ∈ l.status.targets) :
      Called l (.settleStop now) { l with status := .paused, version := l.version + 1 }
  | settled {now : Time} (hstart : ∀ s ∈ l.startedAt, s ≤ now) (hpause : l.stopIntent ≠ .pause)
      (hst : .aborted ∈ l.status.targets) :
      Called l (.settleStop now) { l with
        status := .aborted, version := l.version + 1, completedAt := some now }
  | awaitReview {now deadline : Time} (hst : .awaitingReview ∈ l.status.targets) :
      Called l (.awaitReview now deadline) { l with
        status := .awaitingReview, version := l.version + 1, reviewDeadlineAt := some deadline }
  | complete {decision : GateStatus} {now : Time} (hstart : ∀ s ∈ l.startedAt, s ≤ now)
      (hdecision : decision ≠ .pending) (hst : .completed ∈ l.status.targets) :
      Called l (.complete decision now) { l with
        status := .completed, version := l.version + 1, gateStatus := decision
        completedAt := some now }
  | abort {reason : String} {now : Time} (hstart : ∀ s ∈ l.startedAt, s ≤ now)
      (hst : .aborted ∈ l.status.targets) :
      Called l (.abort reason now) { l with
        status := .aborted, version := l.version + 1, stopIntent := .abort
        stopReason := some (Text.strip reason), completedAt := some now }

theorem called_of_ok {m : Mutation} {a : Unit} (h : m.method.call l = (.ok a, l')) :
    Called l m l' := by
  cases m with
  | start now =>
      obtain ⟨_, _, hreq, h⟩ := Method.bind_ok h
      obtain ⟨hstart, rfl⟩ := requireNotBeforeStart_ok hreq
      obtain ⟨_, _, hget, h⟩ := Method.bind_ok h
      obtain ⟨rfl, rfl⟩ := Method.get_ok hget
      obtain ⟨_, _, hreq, h⟩ := Method.bind_ok h
      obtain ⟨hplanned, rfl⟩ := Method.require_ok hreq
      obtain ⟨hst, rfl⟩ := transition_then_ok h
      exact .start hstart hplanned hst
  | resume now =>
      obtain ⟨_, _, hreq, h⟩ := Method.bind_ok h
      obtain ⟨-, rfl⟩ := requireNotBeforeStart_ok hreq
      obtain ⟨hst, rfl⟩ := transition_then_ok h
      exact .resume hst
  | requestStop intent reason =>
      obtain ⟨_, _, hreq, h⟩ := Method.bind_ok h
      obtain ⟨hintent, rfl⟩ := Method.require_ok hreq
      obtain ⟨_, _, hreq, h⟩ := Method.bind_ok h
      obtain ⟨hreason, rfl⟩ := Method.require_ok hreq
      obtain ⟨hst, rfl⟩ := transition_then_ok h
      exact .requestStop hintent hreason hst
  | escalateStop intent reason =>
      obtain ⟨_, _, hget, h⟩ := Method.bind_ok h
      obtain ⟨rfl, rfl⟩ := Method.get_ok hget
      obtain ⟨_, _, hreq, h⟩ := Method.bind_ok h
      obtain ⟨hst, rfl⟩ := Method.require_ok hreq
      obtain ⟨_, _, hreq, h⟩ := Method.bind_ok h
      obtain ⟨⟨-, hintent, -⟩, rfl⟩ := Method.require_ok hreq
      obtain ⟨_, _, hreq, h⟩ := Method.bind_ok h
      obtain ⟨hreason, rfl⟩ := Method.require_ok hreq
      rw [Method.modify_ok h]
      exact .escalateStop hst hintent hreason
  | settleStop now =>
      obtain ⟨_, _, hreq, h⟩ := Method.bind_ok h
      obtain ⟨hstart, rfl⟩ := requireNotBeforeStart_ok hreq
      obtain ⟨_, _, hget, h⟩ := Method.bind_ok h
      obtain ⟨rfl, rfl⟩ := Method.get_ok hget
      obtain ⟨hst, rfl⟩ := transition_then_ok h
      by_cases hpause : l.stopIntent = .pause
      · rw [if_pos hpause] at hst ⊢
        exact .paused hpause hst
      · rw [if_neg hpause] at hst ⊢
        exact .settled hstart hpause hst
  | awaitReview now deadline =>
      obtain ⟨_, _, hreq, h⟩ := Method.bind_ok h
      obtain ⟨-, rfl⟩ := requireNotBeforeStart_ok hreq
      obtain ⟨_, _, hreq, h⟩ := Method.bind_ok h
      obtain ⟨-, rfl⟩ := Method.require_ok hreq
      obtain ⟨hst, rfl⟩ := transition_then_ok h
      exact .awaitReview hst
  | complete decision now =>
      obtain ⟨_, _, hreq, h⟩ := Method.bind_ok h
      obtain ⟨hstart, rfl⟩ := requireNotBeforeStart_ok hreq
      obtain ⟨_, _, hreq, h⟩ := Method.bind_ok h
      obtain ⟨hdecision, rfl⟩ := Method.require_ok hreq
      obtain ⟨hst, rfl⟩ := transition_then_ok h
      exact .complete hstart hdecision hst
  | abort reason now =>
      obtain ⟨_, _, hreq, h⟩ := Method.bind_ok h
      obtain ⟨hstart, rfl⟩ := requireNotBeforeStart_ok hreq
      obtain ⟨_, _, hreq, h⟩ := Method.bind_ok h
      obtain ⟨-, rfl⟩ := Method.require_ok hreq
      obtain ⟨hst, rfl⟩ := transition_then_ok h
      exact .abort hstart hst

/-! ## The invariant -/

/-- What `_validate_loaded_state` asks for. -/
structure Valid (l : CampaignLifecycle) : Prop where
  counters : 1 ≤ l.maxRuns ∧ 0 ≤ l.plannedCount ∧ l.plannedCount ≤ l.maxRuns
  created : l.status = .created → l.startedAt = none ∧ l.completedAt = none
  started : l.status ≠ .created → l.status ≠ .aborted → l.startedAt.isSome = true
  stopping : l.status = .stopping → l.stopIntent ≠ .none ∧ Text.isBlank (l.stopReason.getD "") = false
  review : l.status = .awaitingReview → l.reviewDeadlineAt.isSome = true
  terminal : l.isTerminal = l.completedAt.isSome
  decided : l.status = .completed → l.gateStatus ≠ .pending
  forwards : ∀ s ∈ l.startedAt, ∀ e ∈ l.completedAt, s ≤ e

theorem validateLoadedState_iff : l.validateLoadedState = .ok () ↔ l.Valid := by
  simp only [validateLoadedState, bind_ok_iff, check_eq_ok, exists_and_left, exists_const,
    Bool.and_eq_true, Bool.or_eq_true, Bool.not_eq_true', decide_eq_true_eq, Option.isNone_iff_eq_none]
  constructor
  · rintro ⟨⟨⟨h₁, h₂⟩, h₃⟩, hc, hs, hst, hr, ht, hd, hf⟩
    refine ⟨⟨h₁, h₂, h₃⟩, ?_, ?_, ?_, ?_, ht, ?_, ?_⟩
    · intro h
      exact hc.resolve_left (not_not.mpr h)
    · intro hne hab
      exact hs.resolve_left (by simp [hne, hab])
    · intro h
      exact hst.resolve_left (not_not.mpr h)
    · intro h
      exact hr.resolve_left (not_not.mpr h)
    · intro h
      exact hd.resolve_left (not_not.mpr h)
    · intro s hs e he
      rw [hs, he] at hf
      simpa using hf
  · intro h
    refine ⟨⟨⟨h.counters.1, h.counters.2.1⟩, h.counters.2.2⟩, ?_, ?_, ?_, ?_, h.terminal, ?_, ?_⟩
    · by_cases hst : l.status = .created
      · exact .inr (h.created hst)
      · exact .inl hst
    · by_cases hst : l.status = .created
      · exact .inl (.inl hst)
      · by_cases hab : l.status = .aborted
        · exact .inl (.inr hab)
        · exact .inr (h.started hst hab)
    · by_cases hst : l.status = .stopping
      · exact .inr (h.stopping hst)
      · exact .inl hst
    · by_cases hst : l.status = .awaitingReview
      · exact .inr (h.review hst)
      · exact .inl hst
    · by_cases hst : l.status = .completed
      · exact .inr (h.decided hst)
      · exact .inl hst
    · cases hs : l.startedAt with
      | none => rfl
      | some s =>
          cases he : l.completedAt with
          | none => rfl
          | some e => simpa using h.forwards s hs e he

/-- The invariant: valid, started with a whole plan, and aborted for a reason. -/
structure Inv (l : CampaignLifecycle) : Prop extends l.Valid where
  planned : l.status ≠ .created → l.status ≠ .aborted → l.plannedCount = l.maxRuns
  paused : l.status = .paused → l.stopIntent = .pause
  aborted : l.status = .aborted → l.stopIntent ≠ .none

/-- Where `resume` and `settle_stop` do not go wrong. -/
def Meets (l : CampaignLifecycle) : Mutation → Prop
  | .resume _ => l.status ≠ .created
  | .settleStop now => l.stopIntent = .none → l.startedAt.all (· ≤ now) = true →
      l.status ≠ .created ∧ l.status ≠ .awaitingReview
  | _ => True

theorem ne_terminal_of_targets {s target : CampaignStatus} (h : target ∈ s.targets) :
    s ≠ .completed ∧ s ≠ .aborted := by
  revert h
  cases s <;> simp [CampaignStatus.targets]

theorem started_of_targets {s target : CampaignStatus} (h : target ∈ s.targets)
    (hne : target ≠ .running) (hab : target ≠ .aborted) : s ≠ .created ∧ s ≠ .aborted := by
  revert h
  cases s <;> simp [CampaignStatus.targets, hne, hab]

/-- A campaign that goes on has no end yet. -/
theorem Valid.completedAt_of_targets (h : l.Valid) {target : CampaignStatus}
    (ht : target ∈ l.status.targets) : l.completedAt = none := by
  obtain ⟨hc, ha⟩ := ne_terminal_of_targets ht
  have hterm := h.terminal
  simp only [isTerminal, hc, ha, decide_false, Bool.or_self] at hterm
  exact Option.isSome_eq_false_iff.mp hterm.symm |> Option.isNone_iff_eq_none.mp

theorem isBlank_strip {s : String} (h : Text.isBlank s = false) :
    Text.isBlank (Text.strip s) = false := by
  rw [Bool.eq_false_iff, ne_eq, ← Text.strip_eq_empty_iff] at h ⊢
  rwa [Text.strip_strip]

/-- A campaign that was started and goes on. -/
theorem inv_of_active
    (hcount : 1 ≤ l.maxRuns ∧ 0 ≤ l.plannedCount ∧ l.plannedCount ≤ l.maxRuns)
    (hst : l.status ≠ .created ∧ l.status ≠ .completed ∧ l.status ≠ .aborted)
    (hstart : l.startedAt.isSome = true) (hplan : l.plannedCount = l.maxRuns)
    (hopen : l.completedAt = none)
    (hstop : l.status = .stopping → l.stopIntent ≠ .none ∧ Text.isBlank (l.stopReason.getD "") = false)
    (hreview : l.status = .awaitingReview → l.reviewDeadlineAt.isSome = true)
    (hpause : l.status = .paused → l.stopIntent = .pause) : l.Inv where
  counters := hcount
  created h := absurd h hst.1
  started _ _ := hstart
  stopping := hstop
  review := hreview
  terminal := by simp [isTerminal, hst.2.1, hst.2.2, hopen]
  decided h := absurd h hst.2.1
  forwards s _ e he := by simp [hopen] at he
  planned _ _ := hplan
  paused := hpause
  aborted h := absurd h hst.2.2

/-- A campaign that has ended. -/
theorem inv_of_ended {now : Time}
    (hcount : 1 ≤ l.maxRuns ∧ 0 ≤ l.plannedCount ∧ l.plannedCount ≤ l.maxRuns)
    (hst : l.status = .completed ∨ l.status = .aborted) (hend : l.completedAt = some now)
    (hstart : ∀ s ∈ l.startedAt, s ≤ now)
    (hdone : l.status = .completed →
      l.gateStatus ≠ .pending ∧ l.startedAt.isSome = true ∧ l.plannedCount = l.maxRuns)
    (hwhy : l.status = .aborted → l.stopIntent ≠ .none) : l.Inv where
  counters := hcount
  created h := by rcases hst with hst | hst <;> rw [hst] at h <;> cases h
  started _ ha := (hdone (hst.resolve_right ha)).2.1
  stopping h := by rcases hst with hst | hst <;> rw [hst] at h <;> cases h
  review h := by rcases hst with hst | hst <;> rw [hst] at h <;> cases h
  terminal := by rcases hst with hst | hst <;> simp [isTerminal, hst, hend]
  decided h := (hdone h).1
  forwards s hs e he := by
    obtain rfl := Option.some.inj (hend.symm.trans he)
    exact hstart s hs
  planned _ ha := (hdone (hst.resolve_right ha)).2.2
  paused h := by rcases hst with hst | hst <;> rw [hst] at h <;> cases h
  aborted := hwhy

theorem aborted_of_targets {s : CampaignStatus} (h : .aborted ∈ s.targets) :
    s = .created ∨ s = .stopping ∨ s = .paused ∨ s = .awaitingReview := by
  revert h
  cases s <;> simp [CampaignStatus.targets]

/-- **What one call preserves.** -/
theorem Inv.called (h : l.Inv) {m : Mutation} (hok : l.Meets m) (hc : l.Called m l') : l'.Inv := by
  cases hc with
  | start hstart hplanned hst =>
      exact inv_of_active h.counters (by simp) rfl hplanned (h.completedAt_of_targets hst) (by simp)
        (by simp) (by simp)
  | resume hst =>
      have hne := ne_terminal_of_targets hst
      exact inv_of_active h.counters (by simp) (h.started hok hne.2) (h.planned hok hne.2)
        (h.completedAt_of_targets hst) (by simp) (by simp) (by simp)
  | requestStop hintent hreason hst =>
      have hne := started_of_targets hst (by simp) (by simp)
      exact inv_of_active h.counters (by simp) (h.started hne.1 hne.2) (h.planned hne.1 hne.2)
        (h.completedAt_of_targets hst) (fun _ => ⟨hintent, isBlank_strip hreason⟩) (by simp) (by simp)
  | escalateStop hst hintent hreason =>
      have hne : l.status ≠ .created ∧ l.status ≠ .completed ∧ l.status ≠ .aborted := by simp [hst]
      have hopen : l.completedAt = none := by
        have htarget : CampaignStatus.paused ∈ l.status.targets := by simp [hst, CampaignStatus.targets]
        exact h.completedAt_of_targets htarget
      exact inv_of_active h.counters hne (h.started hne.1 hne.2.2) (h.planned hne.1 hne.2.2) hopen
        (fun _ => ⟨hintent, isBlank_strip hreason⟩) (by simp [hst]) (by simp [hst])
  | paused hpause hst =>
      have hne := started_of_targets hst (by simp) (by simp)
      exact inv_of_active h.counters (by simp) (h.started hne.1 hne.2) (h.planned hne.1 hne.2)
        (h.completedAt_of_targets hst) (by simp) (by simp) fun _ => hpause
  | @settled now hstart hpause hst =>
      refine inv_of_ended h.counters (.inr rfl) rfl hstart (by simp) fun _ hnone => ?_
      have hall : l.startedAt.all (· ≤ now) = true := by
        cases hs : l.startedAt with
        | none => rfl
        | some s => simpa using hstart s hs
      obtain ⟨hcreated, hreview⟩ := hok hnone hall
      -- a campaign that is stopping or paused has an intent
      rcases aborted_of_targets hst with hst | hst | hst | hst
      · exact hcreated hst
      · exact (h.stopping hst).1 hnone
      · rw [h.paused hst] at hnone
        cases hnone
      · exact hreview hst
  | awaitReview hst =>
      have hne := started_of_targets hst (by simp) (by simp)
      exact inv_of_active h.counters (by simp) (h.started hne.1 hne.2) (h.planned hne.1 hne.2)
        (h.completedAt_of_targets hst) (by simp) (by simp) (by simp)
  | complete hstart hdecision hst =>
      have hne := started_of_targets hst (by simp) (by simp)
      exact inv_of_ended h.counters (.inl rfl) rfl hstart
        (fun _ => ⟨hdecision, h.started hne.1 hne.2, h.planned hne.1 hne.2⟩) (by simp)
  | abort hstart hst => exact inv_of_ended h.counters (.inr rfl) rfl hstart (by simp) (by simp)

/-! ## Runs -/

/-- A call that meets the condition, whether it returns or raises, or a save. -/
inductive Step : CampaignLifecycle → CampaignLifecycle → Prop
  | call {l : CampaignLifecycle} (m : Mutation) (hok : l.Meets m) : Step l (m.method.call l).2
  | saved {l : CampaignLifecycle} : Step l l.markPersisted

/-- A campaign as it is created: CREATED and valid. -/
def Initial (l : CampaignLifecycle) : Prop := l.status = .created ∧ l.validateLoadedState = .ok ()

/-- The states such calls lead to. -/
abbrev Reachable : CampaignLifecycle → Prop := Lib.Reachable Initial Step

theorem Inv.call (h : l.Inv) {m : Mutation} (hok : l.Meets m) : (m.method.call l).2.Inv := by
  rcases hcall : m.method.call l with ⟨r, l'⟩
  cases r with
  | ok a => exact h.called hok (called_of_ok hcall)
  | error e =>
      obtain rfl := atomic_method m l e l' hcall
      exact h

theorem inv_reachable (hr : Reachable l) : l.Inv := by
  refine hr.invariant ?_ ?_
  · rintro l ⟨hst, hvalid⟩
    refine { validateLoadedState_iff.mp hvalid with planned := ?_, paused := ?_, aborted := ?_ } <;>
      simp [hst]
  · intro l l' h hs
    cases hs with
    | call m hok => exact h.call hok
    | saved => exact { h with }

/-- What is promised of every state: it is valid, runs with a start and a plan, ends for a reason. -/
structure Promised (l : CampaignLifecycle) : Prop where
  valid : l.validateLoadedState = .ok ()
  running : l.status = .running → l.startedAt.isSome = true ∧ l.plannedCount = l.maxRuns
  aborted : l.status = .aborted → l.stopIntent ≠ .none

theorem Inv.promised (h : l.Inv) : l.Promised where
  valid := validateLoadedState_iff.mpr h.toValid
  running hst := by
    have hne : l.status ≠ .created ∧ l.status ≠ .aborted := by simp [hst]
    exact ⟨h.started hne.1 hne.2, h.planned hne.1 hne.2⟩
  aborted := h.aborted

/-- **A saved lifecycle is loaded as it was.** -/
theorem save_rehydrate (hvalid : l.validateLoadedState = .ok ()) {c : Campaign} (hid : c.id = l.id)
    (howner : c.createdByUserId = l.createdByUserId) (hruns : c.maxRuns = l.maxRuns)
    (hplanned : c.counts.planned = l.plannedCount) (hv : c.version = l.persistedVersion) :
    ∃ c', l.save c = .ok c' ∧ c'.rehydrate = .ok l.markPersisted := by
  have hload : (l.writeTo c).lifecycle = l.markPersisted := by
    simp [Campaign.lifecycle, writeTo, markPersisted, hid, howner, hruns, hplanned]
  refine ⟨l.writeTo c, ?_, ?_⟩
  · simp [save, hid, hv, check, bind, Except.bind, pure, Except.pure]
  · have hmarked : l.markPersisted.validateLoadedState = .ok () := hvalid
    simp only [Campaign.rehydrate, hload, hmarked, bind, Except.bind]
    rfl

/-- Where a call does not meet the condition, it returns and leaves a broken promise. -/
theorem not_promised_of_not_meets (h : l.Inv) {m : Mutation} (hbad : ¬ l.Meets m) :
    ¬ (m.method.call l).2.Promised := by
  intro hp
  cases m with
  | resume now =>
      have hst : l.status = .created := not_not.mp hbad
      have hstart := (h.created hst).1
      have htarget : CampaignStatus.running ∈ l.status.targets := by simp [hst, CampaignStatus.targets]
      have hcall : ((Mutation.resume now).method.call l).2 = { l with
          status := .running, version := l.version + 1, stopIntent := .none, stopReason := none
          reviewDeadlineAt := none } := by
        simp [Mutation.method, resume, requireNotBeforeStart, transition, Method.call_bind, hstart,
          htarget]
      rw [hcall] at hp
      have := (hp.running rfl).1
      simp [hstart] at this
  | settleStop now =>
      simp only [Meets, not_forall] at hbad
      obtain ⟨hnone, hall, hst⟩ := hbad
      have htarget : CampaignStatus.aborted ∈ l.status.targets := by
        by_cases hc : l.status = .created
        · simp [hc, CampaignStatus.targets]
        · have hr : l.status = .awaitingReview := not_not.mp fun hr => hst ⟨hc, hr⟩
          simp [hr, CampaignStatus.targets]
      have hcall : ((Mutation.settleStop now).method.call l).2 = { l with
          status := .aborted, version := l.version + 1, completedAt := some now } := by
        simp [Mutation.method, settleStop, requireNotBeforeStart, transition, Method.call_bind, hnone,
          hall, htarget]
      rw [hcall] at hp
      exact hp.aborted rfl hnone
  | start | requestStop | escalateStop | awaitReview | complete | abort => exact hbad trivial

end CampaignLifecycle

theorem transition_lifecycle {c c' : Campaign} {target : CampaignStatus}
    (h : c.transition target = .ok c') :
    (CampaignLifecycle.transition target).call c.lifecycle
      = (.ok ⟨⟩, { c'.lifecycle with persistedVersion := c.version }) := by
  obtain ⟨hmem, rfl⟩ := transition_ok h
  have hmem' : target ∈ c.lifecycle.status.targets := hmem
  simp only [CampaignLifecycle.transition, Method.call_bind, Method.call_get, Method.call_require,
    if_pos hmem', Method.call_modify]
  rfl

theorem requireNotBeforeStart_lifecycle {c : Campaign} {now : Time} {field : String} {u : PUnit}
    (h : c.requireNotBeforeStart now field = .ok u) :
    (CampaignLifecycle.requireNotBeforeStart now field).call c.lifecycle = (.ok (), c.lifecycle) := by
  have hall : c.lifecycle.startedAt.all (· ≤ now) = true := check_eq_ok.mp h
  simp only [CampaignLifecycle.requireNotBeforeStart, Method.call_bind, Method.call_get,
    Method.call_require, if_pos hall]

/-- **What a transaction does to the row, the method does to the object of the row.** -/
theorem method_of_apply {m : Mutation} {c c' : Campaign} (h : m.apply c = .ok c') :
    m.method.call c.lifecycle = (.ok (), { c'.lifecycle with persistedVersion := c.version }) := by
  cases m with
  | start now =>
      simp only [Mutation.apply, Campaign.start, bind_ok_iff, pure_ok_iff, check_eq_ok,
        decide_eq_true_eq] at h
      obtain ⟨_, hreq, _, hplanned, c₁, htr, rfl⟩ := h
      have hplanned' : c.lifecycle.plannedCount = c.lifecycle.maxRuns := hplanned
      simp only [Mutation.method, CampaignLifecycle.start, Method.call_bind,
        requireNotBeforeStart_lifecycle hreq, Method.call_get, Method.call_require, if_pos hplanned',
        transition_lifecycle htr, Method.call_modify]
      rfl
  | resume now =>
      simp only [Mutation.apply, Campaign.resume, bind_ok_iff, pure_ok_iff] at h
      obtain ⟨_, hreq, c₁, htr, rfl⟩ := h
      simp only [Mutation.method, CampaignLifecycle.resume, Method.call_bind,
        requireNotBeforeStart_lifecycle hreq, transition_lifecycle htr, Method.call_modify]
      rfl
  | requestStop intent reason =>
      simp only [Mutation.apply, Campaign.requestStop, bind_ok_iff, pure_ok_iff, check_eq_ok,
        decide_eq_true_eq, Bool.not_eq_true'] at h
      obtain ⟨_, hintent, _, hreason, c₁, htr, rfl⟩ := h
      simp only [Mutation.method, CampaignLifecycle.requestStop, Method.call_bind,
        Method.call_require, if_pos hintent, if_pos hreason, transition_lifecycle htr,
        Method.call_modify]
      rfl
  | escalateStop intent reason =>
      simp only [Mutation.apply, Campaign.escalateStop, bind_ok_iff, pure_ok_iff, check_eq_ok,
        decide_eq_true_eq, Bool.not_eq_true', Bool.and_eq_true] at h
      obtain ⟨_, hst, _, ⟨⟨hpause, hnone⟩, hintent⟩, _, hreason, rfl⟩ := h
      have hst' : c.lifecycle.status = .stopping := hst
      have hallowed : c.lifecycle.stopIntent = .pause ∧ intent ≠ .none ∧ intent ≠ .pause :=
        ⟨hpause, hnone, hintent⟩
      simp only [Mutation.method, CampaignLifecycle.escalateStop, Method.call_bind, Method.call_get,
        Method.call_require, if_pos hst', if_pos hallowed, if_pos hreason, Method.call_modify]
      rfl
  | settleStop now =>
      simp only [Mutation.apply, Campaign.settleStop, bind_ok_iff] at h
      obtain ⟨_, hreq, h⟩ := h
      by_cases hpause : c.stopIntent = .pause
      · rw [if_pos hpause] at h
        have hpause' : c.lifecycle.stopIntent = .pause := hpause
        simp only [Mutation.method, CampaignLifecycle.settleStop, Method.call_bind,
          requireNotBeforeStart_lifecycle hreq, Method.call_get, if_pos hpause',
          transition_lifecycle h, Method.call_modify]
        rfl
      · rw [if_neg hpause] at h
        simp only [bind_ok_iff, pure_ok_iff] at h
        obtain ⟨c₁, htr, rfl⟩ := h
        have hpause' : ¬ c.lifecycle.stopIntent = .pause := hpause
        simp only [Mutation.method, CampaignLifecycle.settleStop, Method.call_bind,
          requireNotBeforeStart_lifecycle hreq, Method.call_get, if_neg hpause',
          transition_lifecycle htr, Method.call_modify]
        rfl
  | awaitReview now deadline =>
      simp only [Mutation.apply, Campaign.awaitReview, bind_ok_iff, pure_ok_iff, check_eq_ok,
        decide_eq_true_eq] at h
      obtain ⟨_, hreq, _, hdeadline, c₁, htr, rfl⟩ := h
      simp only [Mutation.method, CampaignLifecycle.awaitReview, Method.call_bind,
        requireNotBeforeStart_lifecycle hreq, Method.call_require, if_pos hdeadline,
        transition_lifecycle htr, Method.call_modify]
      rfl
  | complete decision now =>
      simp only [Mutation.apply, Campaign.complete, bind_ok_iff, pure_ok_iff, check_eq_ok,
        decide_eq_true_eq] at h
      obtain ⟨_, hreq, _, hdecision, c₁, htr, rfl⟩ := h
      simp only [Mutation.method, CampaignLifecycle.complete, Method.call_bind,
        requireNotBeforeStart_lifecycle hreq, Method.call_require, if_pos hdecision,
        transition_lifecycle htr, Method.call_modify]
      rfl
  | abort reason now =>
      simp only [Mutation.apply, Campaign.abort, bind_ok_iff, pure_ok_iff, check_eq_ok,
        Bool.not_eq_true'] at h
      obtain ⟨_, hreq, _, hreason, c₁, htr, rfl⟩ := h
      simp only [Mutation.method, CampaignLifecycle.abort, Method.call_bind,
        requireNotBeforeStart_lifecycle hreq, Method.call_require, if_pos hreason,
        transition_lifecycle htr, Method.call_modify]
      rfl

/--
**The lifecycle invariant.** In every run of calls and saves that starts with a valid
CREATED campaign, and that never resumes a campaign that was not started nor settles a
stop nobody asked for: every state is valid, a running campaign has a start and its
whole plan, an aborted one has an intent, and what is saved is loaded again unchanged.
A call that does not meet the condition breaks this at once. A call that raises, in any
state, leaves the object as it was.
-/
theorem lifecycle_invariant (l : CampaignLifecycle) :
    (CampaignLifecycle.Reachable l →
      l.Promised ∧
      (∀ c : Campaign, c.id = l.id → c.createdByUserId = l.createdByUserId →
        c.maxRuns = l.maxRuns → c.counts.planned = l.plannedCount → c.version = l.persistedVersion →
        ∃ c', l.save c = .ok c' ∧ c'.rehydrate = .ok l.markPersisted) ∧
      ∀ m : Mutation, l.Meets m ↔ (m.method.call l).2.Promised) ∧
    ∀ (m : Mutation) (l' : CampaignLifecycle) (e : Exn),
      m.method.call l = (.error e, l') → l' = l := by
  refine ⟨?_, fun m l' e h => CampaignLifecycle.atomic_method m l e l' h⟩
  intro hr
  have hinv := CampaignLifecycle.inv_reachable hr
  refine ⟨hinv.promised, ?_, ?_⟩
  · intro c hid howner hruns hplanned hv
    exact CampaignLifecycle.save_rehydrate hinv.promised.valid hid howner hruns hplanned hv
  · intro m
    constructor
    · intro hok
      exact (hinv.call hok).promised
    · intro hp
      by_contra hbad
      exact CampaignLifecycle.not_promised_of_not_meets hinv hbad hp

/-- A campaign of six runs, all of them planned. -/
def plannedCampaign : CampaignLifecycle where
  id := Sample.campaignId
  createdByUserId := Sample.owner
  maxRuns := 6
  plannedCount := 6

/-- It is started and saved, paused on request and saved, and resumed. -/
def resumedCampaign : CampaignLifecycle :=
  let running := ((Mutation.start 5).method.call plannedCampaign).2.markPersisted
  let stopping := ((Mutation.requestStop .pause " operator_interrupt").method.call running).2
  let paused := ((Mutation.settleStop 8).method.call stopping).2.markPersisted
  ((Mutation.resume 9).method.call paused).2

/-- The row of the paused campaign. -/
def pausedRow : Campaign :=
  { Sample.campaign with
    status := .paused, stopIntent := .pause, stopReason := some "operator_interrupt"
    startedAt := some 5, counts := { planned := 6 }, version := 3 }

/-- A campaign that is paused and resumed is saved, and a call that comes too early changes nothing. -/
theorem lifecycle_invariant_started :
    (resumedCampaign.status = .running ∧ resumedCampaign.version = 4) ∧
    CampaignLifecycle.Promised resumedCampaign ∧
    (∃ c', resumedCampaign.save pausedRow = .ok c' ∧
      c'.rehydrate = .ok resumedCampaign.markPersisted) ∧
    ∃ e, ((Mutation.resume 4).method.call resumedCampaign) = (.error e, resumedCampaign) := by
  have hr : CampaignLifecycle.Reachable resumedCampaign := by
    refine .tail ?_ (.call (.resume 9) (by unfold CampaignLifecycle.Meets; decide +kernel))
    refine .tail ?_ .saved
    refine .tail ?_ (.call (.settleStop 8) (fun h => absurd h (by decide +kernel)))
    refine .tail ?_ (.call (.requestStop .pause " operator_interrupt") trivial)
    refine .tail ?_ .saved
    exact .tail (.init ⟨rfl, by decide⟩) (.call (.start 5) trivial)
  have hinvariant := lifecycle_invariant resumedCampaign
  obtain ⟨hpromised, hsaved, -⟩ := hinvariant.1 hr
  refine ⟨by decide +kernel, hpromised, hsaved pausedRow rfl rfl rfl rfl rfl, ?_⟩
  cases hearly : (Mutation.resume 4).method.call resumedCampaign with
  | mk result after =>
    cases result with
    | ok u =>
      have hraises : ((Mutation.resume 4).method.call resumedCampaign).1 ≠ .ok () := by
        decide +kernel
      exact absurd (congrArg Prod.fst hearly) hraises
    | error e =>
      obtain rfl := hinvariant.2 (.resume 4) after e hearly
      exact ⟨e, rfl⟩

/-- A campaign that was never started is resumed, and can never be loaded again. -/
theorem lifecycle_broken_by_resume :
    plannedCampaign.status = .created ∧ plannedCampaign.validateLoadedState = .ok () ∧
    ((Mutation.resume 5).method.call plannedCampaign).1 = .ok () ∧
    ((Mutation.resume 5).method.call plannedCampaign).2.status = .running ∧
    ((Mutation.resume 5).method.call plannedCampaign).2.startedAt = none ∧
    ((Mutation.resume 5).method.call plannedCampaign).2.validateLoadedState
      = .error (.invariant "Persisted active campaign has no started_at" "invariant_violation") := by
  decide

end Sana.Shadow
