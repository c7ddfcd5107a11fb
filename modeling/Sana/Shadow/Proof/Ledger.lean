import Sana.Shadow.Proof.Effect

/-!
# The ledger adds up

The repositories move the counters and the ledger of a campaign by increments; the
report computes them again from the results. Each result has a contribution of its
own, and a campaign's figures are the sum over its results. A transaction on two rows
keeps that if it moves the campaign by exactly what the result's contribution moves
by, which is a statement about two rows only (`Balanced`).

Two facts about rows go with it: a result that is not settled has nothing in the
columns a settlement writes, and only a collected result is marked degraded.
-/

namespace Sana.Shadow

open Sana.Lib

/-! ## Contributions -/

/-- One where a condition holds. -/
def one (b : Bool) : Int := if b then 1 else 0

/-- What a result adds to the counters of its campaign. -/
def RunResult.counted (r : RunResult) : Counts where
  planned := 1
  submitted := one r.searchRunId.isSome
  collected := one (r.schedulingState = .collected)
  failed := one (r.schedulingState = .failed)
  skipped := one (r.schedulingState = .skipped)
  degraded := one (r.isTerminal && r.degraded)

/-- A column of a result, where its reservation is in a given state. -/
def RunResult.column (r : RunResult) (state : ReservationState) (n : Nat) : Int :=
  if r.reservationState = state then n else 0

/-- What a result adds to the ledger of its campaign. -/
def RunResult.accounted (r : RunResult) : Ledger where
  observedProviderCalls := r.column .settled r.settledObservedProviderCalls
  possiblyBilledCallCharge := r.column .settled r.possiblyBilledCallCharge
  reservedProviderCalls := r.column .active r.reservedProviderCalls
  observedPromptTokens := r.column .settled r.promptTokens
  observedCompletionTokens := r.column .settled r.completionTokens
  observedEstimatedCost := r.column .settled r.settledObservedCost
  possiblyBilledCostCharge := r.column .settled r.possiblyBilledCostCharge
  reservedEstimatedCost := r.column .active r.reservedEstimatedCost
  possiblyBilledCount := one (r.reservationState = .settled
    && (0 < r.possiblyBilledCallCharge || 0 < r.possiblyBilledCostCharge))

@[simp] theorem one_true : one true = 1 := rfl

@[simp] theorem one_false : one false = 0 := rfl

/-- Counters that moved by a difference, field by field. -/
theorem counts_moved {a b x y : Counts} (h₁ : b.planned = a.planned + (y.planned - x.planned))
    (h₂ : b.submitted = a.submitted + (y.submitted - x.submitted))
    (h₃ : b.collected = a.collected + (y.collected - x.collected))
    (h₄ : b.failed = a.failed + (y.failed - x.failed))
    (h₅ : b.skipped = a.skipped + (y.skipped - x.skipped))
    (h₆ : b.degraded = a.degraded + (y.degraded - x.degraded)) : b = a + (y - x) :=
  Counts.ext h₁ h₂ h₃ h₄ h₅ h₆

/-- A ledger that moved by a difference, field by field. -/
theorem ledger_moved {a b x y : Ledger}
    (h₁ : b.observedProviderCalls
      = a.observedProviderCalls + (y.observedProviderCalls - x.observedProviderCalls))
    (h₂ : b.possiblyBilledCallCharge
      = a.possiblyBilledCallCharge + (y.possiblyBilledCallCharge - x.possiblyBilledCallCharge))
    (h₃ : b.reservedProviderCalls
      = a.reservedProviderCalls + (y.reservedProviderCalls - x.reservedProviderCalls))
    (h₄ : b.observedPromptTokens
      = a.observedPromptTokens + (y.observedPromptTokens - x.observedPromptTokens))
    (h₅ : b.observedCompletionTokens
      = a.observedCompletionTokens + (y.observedCompletionTokens - x.observedCompletionTokens))
    (h₆ : b.observedEstimatedCost
      = a.observedEstimatedCost + (y.observedEstimatedCost - x.observedEstimatedCost))
    (h₇ : b.possiblyBilledCostCharge
      = a.possiblyBilledCostCharge + (y.possiblyBilledCostCharge - x.possiblyBilledCostCharge))
    (h₈ : b.reservedEstimatedCost
      = a.reservedEstimatedCost + (y.reservedEstimatedCost - x.reservedEstimatedCost))
    (h₉ : b.possiblyBilledCount
      = a.possiblyBilledCount + (y.possiblyBilledCount - x.possiblyBilledCount)) :
    b = a + (y - x) :=
  Ledger.ext h₁ h₂ h₃ h₄ h₅ h₆ h₇ h₈ h₉

/-! ## Two rows -/

/-- What holds of every result row. -/
structure RunResult.Sound (r : RunResult) : Prop where
  /-- A settlement is the only thing that writes these columns. -/
  unsettled : r.reservationState ≠ .settled →
    r.settledObservedProviderCalls = 0 ∧ r.settledObservedCost = 0 ∧ r.promptTokens = 0
      ∧ r.completionTokens = 0 ∧ r.possiblyBilledCallCharge = 0 ∧ r.possiblyBilledCostCharge = 0
  /-- Only collection marks a result degraded. -/
  degraded : r.degraded = true → r.schedulingState = .collected

/-- The campaign moved by what the result's contribution moved by. -/
structure Balanced (c : Campaign) (r : RunResult) (c' : Campaign) (r' : RunResult) : Prop where
  counts : c'.counts = c.counts + (r'.counted - r.counted)
  ledger : c'.ledger = c.ledger + (r'.accounted - r.accounted)
  sound : r.Sound → r'.Sound

theorem Balanced.trans {c₁ c₂ c₃ : Campaign} {r₁ r₂ r₃ : RunResult} (h : Balanced c₁ r₁ c₂ r₂)
    (h' : Balanced c₂ r₂ c₃ r₃) : Balanced c₁ r₁ c₃ r₃ := by
  refine ⟨?_, ?_, fun hs => h'.sound (h.sound hs)⟩
  · rw [h'.counts, h.counts]
    abel
  · rw [h'.ledger, h.ledger]
    abel

/-- Neither side moved. -/
theorem unmoved {M : Type} [AddCommGroup M] {a b x y : M} (h : b = a) (h' : y = x) :
    b = a + (y - x) := by
  rw [h, h', sub_self, add_zero]

/-- An open result is not sealed in any way. -/
theorem RunResult.isOpen_ne {r : RunResult} (h : r.isOpen = true) :
    r.schedulingState ≠ .collected ∧ r.schedulingState ≠ .failed
      ∧ r.schedulingState ≠ .skipped := by
  unfold RunResult.isOpen RunResult.isLeased at h
  cases hst : r.schedulingState <;> simp_all

/-- The counters a result that is not sealed contributes to. -/
theorem counted_of_open {r : RunResult} (h : r.isOpen = true) :
    r.counted = { planned := 1, submitted := one r.searchRunId.isSome } := by
  obtain ⟨hc, hf, hs⟩ := RunResult.isOpen_ne h
  simp [RunResult.counted, RunResult.isTerminal, hc, hf, hs]

theorem sound_of_kept {r r' : RunResult} (h : r.Kept r') (hs : r.Sound) : r'.Sound := by
  refine ⟨?_, ?_⟩
  · rw [h.reservationState, h.settledObservedProviderCalls, h.settledObservedCost, h.promptTokens,
      h.completionTokens, h.possiblyBilledCallCharge, h.possiblyBilledCostCharge]
    exact hs.unsettled
  · rw [h.degraded]
    intro hd
    exact absurd (hs.degraded hd) (RunResult.isOpen_ne h.open_before).1

theorem kept_balanced {c : Campaign} {r r' : RunResult} (h : r.Kept r') : Balanced c r c r' := by
  refine ⟨unmoved rfl ?_, unmoved rfl ?_, sound_of_kept h⟩
  · rw [counted_of_open h.open_before, counted_of_open h.open_after, h.searchRunId]
  · simp only [RunResult.accounted, RunResult.column, h.reservationState,
      h.settledObservedProviderCalls, h.settledObservedCost, h.promptTokens, h.completionTokens,
      h.possiblyBilledCallCharge, h.possiblyBilledCostCharge, h.reservedProviderCalls,
      h.reservedEstimatedCost]

section TwoRows

variable {c c' : Campaign} {r r' : RunResult} {now : Time}

theorem reserved_balanced {request : ReservationRequest} (hnone : r.reservationState = .none) :
    Balanced c r (reserved now request c r).1 (reserved now request c r).2 := by
  refine ⟨unmoved rfl rfl, ?_, fun hs =>
    ⟨fun _ => hs.unsettled (by simp [hnone]), hs.degraded⟩⟩
  refine ledger_moved ?_ ?_ ?_ ?_ ?_ ?_ ?_ ?_ ?_
  all_goals simp [reserved, RunResult.accounted, RunResult.column, hnone]

theorem refused_balanced {intent : StopIntent} {reason : String} :
    Balanced c r (refused intent reason c r).1 (refused intent reason c r).2 :=
  ⟨unmoved rfl rfl, unmoved rfl rfl, fun hs => ⟨hs.unsettled, hs.degraded⟩⟩

/-- A reservation that leaves the ledger without a charge. -/
theorem unreserve_moved (hactive : r.reservationState = .active) (hs : r'.reservationState = .released) :
    c.ledger.unreserve r = c.ledger + (r'.accounted - r.accounted) := by
  refine ledger_moved ?_ ?_ ?_ ?_ ?_ ?_ ?_ ?_ ?_
  all_goals simp [Ledger.unreserve, RunResult.accounted, RunResult.column, hactive, hs]
  all_goals omega

theorem released_balanced (hactive : r.reservationState = .active) :
    Balanced c r { c with ledger := c.ledger.unreserve r, version := c.version + 1 }
      { r with
        reservationState := .released, reservationReleasedAt := some now
        version := r.version + 1 } :=
  ⟨unmoved rfl rfl, unreserve_moved hactive rfl, fun hs =>
    ⟨fun _ => hs.unsettled (by simp [hactive]), hs.degraded⟩⟩

theorem givenBack_balanced (hactive : r.reservationState = .active) :
    Balanced c r (givenBack now c r).1 (givenBack now c r).2 :=
  ⟨unmoved rfl rfl, unreserve_moved hactive rfl, fun hs =>
    ⟨fun _ => hs.unsettled (by simp [hactive]), hs.degraded⟩⟩

/-- Charging counts once, since an active reservation holds at least one call. -/
theorem charged_balanced {digest : String} (hs : r.Sound) (hactive : r.reservationState = .active)
    (hcalls : 0 < r.reservedProviderCalls) :
    Balanced c r (charged now digest c r).1 (charged now digest c r).2 := by
  obtain ⟨h₁, h₂, h₃, h₄, _, _⟩ := hs.unsettled (by simp [hactive])
  refine ⟨unmoved rfl rfl, ?_, fun hs => ⟨fun hne => absurd rfl hne, hs.degraded⟩⟩
  refine ledger_moved ?_ ?_ ?_ ?_ ?_ ?_ ?_ ?_ ?_
  all_goals simp [charged, Ledger.unreserve, RunResult.accounted, RunResult.column, hactive,
    h₁, h₂, h₃, h₄, hcalls]
  all_goals omega

theorem failReservation_isLeased {failure : RunnerFailure} {digest : String}
    (h : failReservation now failure digest c r = .ok (c', r')) : r'.isLeased = r.isLeased := by
  unfold failReservation at h
  split at h
  · split at h <;> cases h <;> rfl
  · cases h
    rfl
  · cases h
  · cases h

theorem failReservation_balanced {failure : RunnerFailure} {digest : String} (hs : r.Sound)
    (hcalls : r.reservationState = .active → 0 < r.reservedProviderCalls)
    (h : failReservation now failure digest c r = .ok (c', r')) : Balanced c r c' r' := by
  unfold failReservation at h
  split at h
  · rename_i hactive
    split at h
    · cases h
      exact charged_balanced hs hactive (hcalls hactive)
    · cases h
      exact givenBack_balanced hactive
  · cases h
    exact ⟨unmoved rfl rfl, unmoved rfl rfl, id⟩
  · cases h
  · cases h

/-- A result of a failed unit counts as failed, once. -/
theorem counted_failed (hopen : r.isOpen = true) (hsub : r'.searchRunId = r.searchRunId)
    (hst : r'.schedulingState = .failed) (hdeg : r'.degraded = false) :
    r'.counted = r.counted + { failed := 1 } := by
  rw [counted_of_open hopen]
  refine Counts.ext ?_ ?_ ?_ ?_ ?_ ?_
  · rfl
  · simp only [RunResult.counted, hsub]
    exact (add_zero _).symm
  all_goals
    simp only [RunResult.counted, RunResult.isTerminal, hst, hdeg]
    rfl

theorem failed_balanced (failure : RunnerFailure) (hs : r.Sound) (hopen : r.isOpen = true) :
    Balanced c r c.countFailed (r.seal failure) := by
  have hdeg : r.degraded = false := by
    by_contra h
    exact (RunResult.isOpen_ne hopen).1 (hs.degraded (by simpa using h))
  refine ⟨?_, unmoved rfl rfl, fun hs => ⟨hs.unsettled, ?_⟩⟩
  · have hrow : (r.seal failure).counted = r.counted + { failed := 1 } :=
      counted_failed hopen rfl rfl hdeg
    rw [hrow, add_sub_cancel_left]
    refine Counts.ext ?_ ?_ ?_ ?_ ?_ ?_
    · exact (add_zero _).symm
    · exact (add_zero _).symm
    · exact (add_zero _).symm
    · rfl
    · exact (add_zero _).symm
    · exact (add_zero _).symm
  · intro hd
    exact absurd (hs.degraded hd) (RunResult.isOpen_ne hopen).1

theorem submitted_balanced {receipt : CandidateSubmissionReceipt} (hst : r.schedulingState = .conversationBound)
    (hnone : r.searchRunId = none) :
    Balanced c r
      { c with
        counts := { c.counts with submitted := c.counts.submitted + 1 }
        version := c.version + 1 }
      { r with
        searchRunId := some receipt.searchRunId, schedulingState := .submitted
        leaseOwner := none, leaseExpiresAt := none, version := r.version + 1 } := by
  refine ⟨?_, unmoved rfl rfl, fun hs => ⟨hs.unsettled, ?_⟩⟩
  · refine counts_moved ?_ ?_ ?_ ?_ ?_ ?_
    all_goals simp [RunResult.counted, RunResult.isTerminal, hst, hnone]
  · intro hd
    have hcoll := hs.degraded hd
    rw [hst] at hcoll
    cases hcoll

theorem settling_schedulingState {digest : String} {usage : SettlementUsage}
    (h : Settling now digest usage c r c' r') : r'.schedulingState = r.schedulingState := by
  cases h <;> rfl

theorem settling_balanced {digest : String} {usage : SettlementUsage}
    (h : Settling now digest usage c r c' r') : Balanced c r c' r' := by
  cases h with
  | again _ => exact ⟨unmoved rfl rfl, unmoved rfl rfl, id⟩
  | first reservation hactive hcalls hcost =>
      obtain ⟨_, _, _, hcounts, hledger, _⟩ := stopOnBreach_frame
        { c with ledger := c.ledger.settle r usage } reservation usage
      refine ⟨unmoved hcounts rfl, ?_, fun hs => ⟨fun hne => absurd rfl hne, hs.degraded⟩⟩
      refine Eq.trans hledger (ledger_moved ?_ ?_ ?_ ?_ ?_ ?_ ?_ ?_ ?_)
      all_goals simp [settled, Ledger.settle, RunResult.accounted, RunResult.column, hactive,
        one, Nat.pos_iff_ne_zero]
      all_goals omega

theorem collected_balanced {outcome : CollectionOutcome} (hs : r.Sound)
    (hst : r.schedulingState = .submitted) :
    Balanced c r (collected now outcome c r).1 (collected now outcome c r).2 := by
  have hdeg : r.degraded = false := by
    by_contra h
    have hcoll := hs.degraded (by simpa using h)
    rw [hst] at hcoll
    cases hcoll
  refine ⟨?_, unmoved rfl rfl, fun hs => ⟨hs.unsettled, fun _ => rfl⟩⟩
  refine counts_moved ?_ ?_ ?_ ?_ ?_ ?_
  all_goals simp [collected, RunResult.counted, RunResult.isTerminal, hst, hdeg, one]
  -- whether a run was bound is left as it was
  exact sub_self _

/-- **Every change of two rows is balanced.** -/
theorem change_balanced {op : Op} (hs : r.Sound)
    (hcalls : r.reservationState = .active → 0 < r.reservedProviderCalls)
    (h : Change op now c r c' r') : Balanced c r c' r' := by
  cases h with
  | held h _ => exact kept_balanced h
  | bound _ hst _ =>
      refine ⟨unmoved rfl ?_, unmoved rfl rfl, fun hs => ⟨hs.unsettled, ?_⟩⟩
      · have hopen : r.isOpen = true := by simp [RunResult.isOpen, RunResult.isLeased, hst]
        rw [counted_of_open hopen, counted_of_open (by simp [RunResult.isOpen, RunResult.isLeased])]
      · intro hd
        have hcoll := hs.degraded hd
        rw [hst] at hcoll
        cases hcoll
  | attempted _ _ =>
      exact ⟨unmoved rfl rfl, unmoved rfl rfl, fun hs => ⟨hs.unsettled, hs.degraded⟩⟩
  | reserved _ hnone _ => exact reserved_balanced hnone
  | refused _ => exact refused_balanced
  | released hactive _ => exact released_balanced hactive
  | submitted _ hst hnone => exact submitted_balanced hst hnone
  | @failed c₁ _ r₁ lease failure digest _ hleased h =>
      -- the reservation first, then the seal
      have hres := failReservation_balanced hs hcalls h
      refine hres.trans ?_
      refine (failed_balanced failure (hres.sound hs) ?_).trans ?_
      · exact isOpen_of_leased (by rw [failReservation_isLeased h, hleased])
      · exact ⟨unmoved rfl rfl, unmoved rfl rfl, fun hs => ⟨hs.unsettled, hs.degraded⟩⟩
  | settled _ _ h => exact settling_balanced (settleRows_ok h)
  | @sealed c₁ _ r₁ usage digest completedAt failure calls _ hst _ _ h =>
      have hopen : r.isOpen = true := by simp [RunResult.isOpen, hst]
      have hseal := failed_balanced (c := c) failure hs hopen
      refine (hseal.trans ?_).trans (settling_balanced (settleRows_ok h))
      exact ⟨unmoved rfl rfl, unmoved rfl rfl, fun hs => ⟨hs.unsettled, hs.degraded⟩⟩
  | collected _ hst _ _ h =>
      have hterm : ∀ t, Balanced c r c { r with sourceTerminalAt := some t } := fun t =>
        ⟨unmoved rfl rfl, unmoved rfl rfl, fun hs => ⟨hs.unsettled, hs.degraded⟩⟩
      have hset := (hterm _).trans (settling_balanced (settleRows_ok h))
      refine hset.trans (collected_balanced (hset.sound hs) ?_)
      exact (settling_schedulingState (settleRows_ok h)).trans hst

end TwoRows

/-! ## The tables -/

/-- What a campaign's results add up to. -/
def Tables.Adds (t : Tables) (c : Campaign) : Prop :=
  c.counts = ((t.resultsOf c.id).map (·.counted)).sum
    ∧ c.ledger = ((t.resultsOf c.id).map (·.accounted)).sum

/-- **The ledger invariant.** -/
structure Reconciled (t : Tables) : Prop where
  sound : ∀ r ∈ t.results, r.Sound
  adds : ∀ c ∈ t.campaigns, t.Adds c

theorem reconciled_empty : Reconciled Db.empty.toTables :=
  ⟨by simp [Db.empty], by simp [Db.empty]⟩

/-- An active reservation holds at least one call. -/
theorem reserved_pos {db : Db} {r : RunResult} (hr : r ∈ db.results)
    (hactive : r.reservationState = .active) : 0 < r.reservedProviderCalls := by
  have hck := db.valid.result_checks r hr
  simp only [RunResult.constraints, RunResult.reservationLifecycle, hactive, Bool.and_eq_true,
    decide_eq_true_eq] at hck
  exact hck.1.1.2.1.1.1

section Tables

variable {ports : Orchestration.Ports} {db db' : Db}

/-- The sum over a campaign's results, of which one was rewritten. -/
theorem sum_put {M : Type} [AddCommGroup M] {c c' : Campaign} {r r' : RunResult}
    (g : RunResult → M) (hr : r ∈ db.results) (hcr : r.campaignId = c.id) (hsame : r.Same r') :
    (((db.toTables.put c' r').resultsOf c.id).map g).sum
      = ((db.toTables.resultsOf c.id).map g).sum + (g r' - g r) := by
  rw [resultsOf_put hr hsame]
  have hmem : r ∈ db.toTables.resultsOf c.id := by
    simp [Tables.resultsOf, hr, hcr]
  exact sum_update (resultsOf_nodup db c.id) hmem

theorem reconciled_put {c c' : Campaign} {r r' : RunResult} (h : Reconciled db.toTables)
    (hc : c ∈ db.campaigns) (hr : r ∈ db.results) (hcr : r.campaignId = c.id)
    (hf : Framed c r c' r') (hb : Balanced c r c' r') :
    Reconciled (db.toTables.put c' r') := by
  constructor
  · intro y hy
    rcases (mem_put_results hr hf.same.id).mp hy with rfl | ⟨hy, _⟩
    · exact hb.sound (h.sound r hr)
    · exact h.sound y hy
  · intro x hx
    rcases (mem_put_campaigns hc hf.id).mp hx with rfl | ⟨hx, hne⟩
    · obtain ⟨hcounts, hledger⟩ := h.adds c hc
      unfold Tables.Adds
      rw [hf.id, sum_put _ hr hcr hf.same, sum_put _ hr hcr hf.same, ← hcounts, ← hledger]
      exact ⟨hb.counts, hb.ledger⟩
    · -- another campaign has none of the rewritten rows
      unfold Tables.Adds
      rw [resultsOf_put_of_ne hr hf.same (by rw [hcr]; exact hne.symm)]
      exact h.adds x hx

/-- A campaign that moved on with the same figures. -/
theorem reconciled_moved {c c' : Campaign} (h : Reconciled db.toTables) (hc : c ∈ db.campaigns)
    (hm : c.Moved c') : Reconciled (db.toTables.putCampaign c') := by
  refine ⟨h.sound, fun x hx => ?_⟩
  rcases (mem_putCampaign hc hm.id).mp hx with rfl | ⟨hx, _⟩
  · have hadds := h.adds c hc
    unfold Tables.Adds at hadds ⊢
    rw [hm.counts, hm.ledger, hm.id]
    exact hadds
  · exact h.adds x hx

theorem reconciled_added {c : Campaign} (h : Reconciled db.toTables)
    (hdb : db'.toTables = { db.toTables with campaigns := db.campaigns ++ [c.fresh] }) :
    Reconciled db'.toTables := by
  have hnil := resultsOf_fresh hdb
  rw [hdb]
  refine ⟨h.sound, fun x hx => ?_⟩
  rcases List.mem_append.mp hx with hx | hx
  · exact h.adds x hx
  · rw [List.mem_singleton] at hx
    subst hx
    unfold Tables.Adds
    have hsame : Tables.resultsOf { db.toTables with campaigns := db.campaigns ++ [c.fresh] }
        c.fresh.id = db.toTables.resultsOf c.fresh.id := rfl
    rw [hsame, hnil]
    exact ⟨rfl, rfl⟩

/-- A planned result counts as planned and is in no other column. -/
theorem planned_figures {uuid5 : Uuid → String → Uuid} {campaignId : Uuid}
    {cases : List PlannedCase} {repetitions : Nat} {r : RunResult}
    (h : r ∈ materializeRunPlans uuid5 campaignId cases repetitions) :
    r.campaignId = campaignId ∧ r.counted = { planned := 1 } ∧ r.accounted = 0 ∧ r.Sound := by
  obtain ⟨id, caseId, repetition, ordinal, hash, selected, rfl⟩ := mem_materializeRunPlans h
  exact ⟨rfl, rfl, rfl, ⟨fun _ => ⟨rfl, rfl, rfl, rfl, rfl, rfl⟩, fun hd => by cases hd⟩⟩

theorem sum_planned {l : List RunResult} (h : ∀ r ∈ l, r.counted = { planned := 1 }) :
    (l.map (·.counted)).sum = { planned := l.length } := by
  induction l with
  | nil => rfl
  | cons a l ih =>
      have ih := ih fun r hr => h r (List.mem_cons_of_mem _ hr)
      rw [List.map_cons, List.sum_cons, h a List.mem_cons_self, ih]
      refine Counts.ext ?_ rfl rfl rfl rfl rfl
      -- one more than the rest
      show (1 : Int) + l.length = (l.length + 1 : Nat)
      omega

theorem sum_unaccounted {l : List RunResult} (h : ∀ r ∈ l, r.accounted = 0) :
    (l.map (·.accounted)).sum = 0 := by
  refine List.sum_eq_zero fun x hx => ?_
  obtain ⟨r, hr, rfl⟩ := List.mem_map.mp hx
  exact h r hr

theorem reconciled_materialized {c : Campaign} {cases : List PlannedCase} {repetitions : Nat}
    (h : Reconciled db.toTables) (hc : c ∈ db.campaigns) (hnone : db.resultsOf c.id = [])
    (hdb : db'.toTables = { db.toTables.putCampaign { c with
        counts := { c.counts with
          planned := (materializeRunPlans ports.uuid5 c.id cases repetitions).length }
        version := c.version + 1 } with
      results := db.results ++ materializeRunPlans ports.uuid5 c.id cases repetitions }) :
    Reconciled db'.toTables := by
  rw [hdb]
  set plans := materializeRunPlans ports.uuid5 c.id cases repetitions with hplans
  have hfig : ∀ r ∈ plans, r.campaignId = c.id ∧ r.counted = { planned := 1 }
      ∧ r.accounted = 0 ∧ r.Sound := fun r hr => planned_figures hr
  constructor
  · intro r hr
    rcases List.mem_append.mp hr with hr | hr
    · exact h.sound r hr
    · exact (hfig r hr).2.2.2
  · intro x hx
    unfold Tables.Adds
    rcases (mem_putCampaign hc (by rfl)).mp hx with rfl | ⟨hx, hne⟩
    · -- the campaign had no results, so it counted nothing
      obtain ⟨hcounts, hledger⟩ := h.adds c hc
      rw [hnone] at hcounts hledger
      have hof : Tables.resultsOf { db.toTables.putCampaign { c with
            counts := { c.counts with planned := plans.length }
            version := c.version + 1 } with results := db.results ++ plans } c.id = plans := by
        have hall : plans.filter (·.campaignId = c.id) = plans := by
          refine List.filter_eq_self.mpr fun r hr => ?_
          simpa using (hfig r hr).1
        have hnone' : db.results.filter (·.campaignId = c.id) = [] := hnone
        simp only [Tables.resultsOf, List.filter_append, hall, hnone', List.nil_append]
      rw [hof, sum_planned fun r hr => (hfig r hr).2.1, sum_unaccounted fun r hr => (hfig r hr).2.2.1]
      refine ⟨?_, hledger⟩
      show ({ c.counts with planned := plans.length } : Counts) = { planned := plans.length }
      rw [hcounts]
      rfl
    · have hof : Tables.resultsOf { db.toTables.putCampaign { c with
            counts := { c.counts with planned := plans.length }
            version := c.version + 1 } with results := db.results ++ plans } x.id
            = db.toTables.resultsOf x.id := by
        have hnil : plans.filter (·.campaignId = x.id) = [] := by
          refine List.filter_eq_nil_iff.mpr fun r hr heq => ?_
          exact hne (((hfig r hr).1.symm.trans (by simpa using heq)).symm)
        simp only [Tables.resultsOf, List.filter_append, hnil, List.append_nil]
      rw [hof]
      exact h.adds x hx

/-- Skipping moves results from nowhere to skipped. -/
theorem sum_skipped (id : Uuid) (reason : String) (l : List RunResult) :
    ((l.map fun r => if r.isPendingOf id then r.skipped reason else r).map (·.counted)).sum
      = (l.map (·.counted)).sum + { skipped := l.countP (RunResult.isPendingOf id) } := by
  induction l with
  | nil => rfl
  | cons a l ih =>
      simp only [List.map_cons, List.sum_cons, List.countP_cons] at ih ⊢
      rw [ih]
      by_cases hp : a.isPendingOf id = true
      · have hst : a.schedulingState = .pending := by
          simp only [RunResult.isPendingOf, Bool.and_eq_true, decide_eq_true_eq] at hp
          exact hp.2
        have hrow : (a.skipped reason).counted = a.counted + { skipped := 1 } := by
          refine Counts.ext rfl (add_zero _).symm ?_ ?_ ?_ ?_
          all_goals
            simp only [RunResult.counted, RunResult.skipped, RunResult.isTerminal, hst]
            rfl
        have hn : ({ skipped := ((l.countP (RunResult.isPendingOf id) + 1 : Nat) : Int) } : Counts)
            = { skipped := 1 } + { skipped := l.countP (RunResult.isPendingOf id) } := by
          refine Counts.ext rfl rfl rfl rfl ?_ rfl
          show ((l.countP (RunResult.isPendingOf id) + 1 : Nat) : Int)
            = 1 + l.countP (RunResult.isPendingOf id)
          omega
        simp only [hp, if_true]
        rw [hrow, hn]
        abel
      · simp only [hp, if_false, Bool.false_eq_true, add_zero]
        abel

theorem skipped_accounted (id : Uuid) (reason : String) (r : RunResult) :
    (if r.isPendingOf id then r.skipped reason else r).accounted = r.accounted := by
  split <;> rfl

theorem skipped_sound {r : RunResult} (id : Uuid) (reason : String) (h : r.Sound) :
    (if r.isPendingOf id then r.skipped reason else r).Sound := by
  split
  · rename_i hp
    simp only [RunResult.isPendingOf, Bool.and_eq_true, decide_eq_true_eq] at hp
    refine ⟨h.unsettled, fun hd => ?_⟩
    have hcoll := h.degraded hd
    rw [hp.2] at hcoll
    cases hcoll
  · exact h

theorem skipped_campaignId (id : Uuid) (reason : String) (r : RunResult) :
    (if r.isPendingOf id then r.skipped reason else r).campaignId = r.campaignId := by
  split <;> rfl

theorem resultsOf_skipped (id x : Uuid) (reason : String) (l : List RunResult) :
    (l.map fun r => if r.isPendingOf id then r.skipped reason else r).filter (·.campaignId = x)
      = (l.filter (·.campaignId = x)).map
        fun r => if r.isPendingOf id then r.skipped reason else r := by
  rw [List.filter_map]
  congr 1
  refine List.filter_congr fun r _ => ?_
  simp only [Function.comp, skipped_campaignId]

theorem reconciled_skipped {c : Campaign} {reason : String} (h : Reconciled db.toTables)
    (hc : c ∈ db.campaigns)
    (hdb : db'.toTables = { db.toTables.putCampaign { c with
        counts := { c.counts with
          skipped := c.counts.skipped + db.results.countP (RunResult.isPendingOf c.id) }
        version := c.version + 1 } with
      results := db.results.map fun r => if r.isPendingOf c.id then r.skipped reason else r }) :
    Reconciled db'.toTables := by
  rw [hdb]
  constructor
  · intro r hr
    obtain ⟨o, ho, rfl⟩ := List.mem_map.mp hr
    exact skipped_sound c.id reason (h.sound o ho)
  · intro x hx
    have hledger : ∀ l : List RunResult,
        ((l.map fun r => if r.isPendingOf c.id then r.skipped reason else r).map (·.accounted)).sum
          = (l.map (·.accounted)).sum := by
      intro l
      rw [List.map_map]
      congr 1
      exact List.map_congr_left fun r _ => skipped_accounted c.id reason r
    unfold Tables.Adds
    rcases (mem_putCampaign hc (by rfl)).mp hx with rfl | ⟨hx, hne⟩
    · obtain ⟨hcounts, hled⟩ := h.adds c hc
      -- what is pending in the whole table is pending among the campaign's results
      have hcount : db.results.countP (RunResult.isPendingOf c.id)
          = (db.resultsOf c.id).countP (RunResult.isPendingOf c.id) := by
        rw [Tables.resultsOf, List.countP_filter]
        refine List.countP_congr fun r _ => ?_
        simp only [RunResult.isPendingOf, Bool.and_eq_true, decide_eq_true_eq]
        tauto
      simp only [Tables.resultsOf, resultsOf_skipped, hledger, sum_skipped]
      refine ⟨?_, hled⟩
      rw [hcount, hcounts]
      exact Counts.ext (add_zero _).symm (add_zero _).symm (add_zero _).symm (add_zero _).symm rfl
        (add_zero _).symm
    · have hid : (db.resultsOf x.id).map
          (fun r => if r.isPendingOf c.id then r.skipped reason else r) = db.resultsOf x.id := by
        conv_rhs => rw [← List.map_id (db.resultsOf x.id)]
        refine List.map_congr_left fun r hr => ?_
        simp only [Tables.resultsOf, List.mem_filter, decide_eq_true_eq] at hr
        have hnot : r.isPendingOf c.id = false := by
          simp only [RunResult.isPendingOf, hr.2, Bool.and_eq_false_iff, decide_eq_false_iff_not]
          exact .inl hne
        simp [hnot]
      have hof := resultsOf_skipped c.id x.id reason db.results
      simp only [Tables.resultsOf] at hid ⊢
      rw [hof, hid]
      exact h.adds x hx

theorem reconciled_effect {op : Op} (h : Reconciled db.toTables) (he : Effect ports op now db db') :
    Reconciled db'.toTables := by
  cases he with
  | idle hdb => exact hdb ▸ h
  | added hdb => exact reconciled_added h hdb
  | materialized hc _ _ hnone hdb => exact reconciled_materialized h hc hnone hdb
  | moved hc hm _ hdb => exact hdb ▸ reconciled_moved h hc hm
  | skipped hc _ hdb => exact reconciled_skipped h hc hdb
  | rows hc hr hcr _ _ hch hdb =>
      rw [hdb]
      exact reconciled_put h hc hr hcr hch.framed
        (change_balanced (h.sound _ hr) (reserved_pos hr) hch)

end Tables

theorem reconciled_reachable {d : Orchestration.Deployment} {w : World} (h : Reachable d w) :
    Reconciled w.db.toTables := by
  refine tables_invariant (P := fun db => Reconciled db.toTables) reconciled_empty ?_ h
  intro w now op db' _ he hp
  exact reconciled_effect hp he

/-! ## What the report finds -/

theorem derivedCounts_eq (l : List RunResult) : derivedCounts l = (l.map (·.counted)).sum := by
  induction l with
  | nil => rfl
  | cons a l ih =>
      rw [List.map_cons, List.sum_cons, ← ih]
      refine Counts.ext ?_ ?_ ?_ ?_ ?_ ?_
      · show ((l.length + 1 : Nat) : Int) = 1 + l.length
        omega
      all_goals
        simp only [derivedCounts, tally, List.countP_cons, Nat.cast_add]
        rw [add_comm]
        refine congrArg₂ (· + ·) ?_ rfl
        simp only [RunResult.counted, one]
        split_ifs <;> rfl

/-- A column summed over the results in one state. -/
theorem total_cons (state : ReservationState) (column : RunResult → Nat) (a : RunResult)
    (l : List RunResult) :
    total ((a :: l).filter (·.reservationState = state)) column
      = a.column state (column a) + total (l.filter (·.reservationState = state)) column := by
  unfold RunResult.column
  rw [List.filter_cons]
  by_cases h : a.reservationState = state
  · simp [h, total]
  · simp [h]

theorem tally_cons (state : ReservationState) (p : RunResult → Bool) (a : RunResult)
    (l : List RunResult) :
    tally ((a :: l).filter (·.reservationState = state)) p
      = one (a.reservationState = state && p a)
        + tally (l.filter (·.reservationState = state)) p := by
  rw [List.filter_cons]
  by_cases h : a.reservationState = state
  · cases hp : p a
    · simp [h, hp, tally]
    · simp [h, hp, tally]
      omega
  · simp [h]

theorem derivedLedger_eq (l : List RunResult) : derivedLedger l = (l.map (·.accounted)).sum := by
  induction l with
  | nil => rfl
  | cons a l ih =>
      rw [List.map_cons, List.sum_cons, ← ih]
      refine Ledger.ext ?_ ?_ ?_ ?_ ?_ ?_ ?_ ?_ ?_
      all_goals
        first
          | exact total_cons _ _ a l
          | exact tally_cons _ _ a l

theorem disagreeing_self (fields : List (String × Int)) : disagreeing fields fields = [] := by
  unfold disagreeing
  refine List.filterMap_eq_nil_iff.mpr fun x hx => ?_
  rw [List.mem_iff_getElem] at hx
  obtain ⟨i, hi, rfl⟩ := hx
  simp [List.getElem_zip]

/-- What is found about a single result names the result. -/
theorem startsWith_failing {r : RunResult} {checks : List (Bool × String)} {n : String}
    (h : n ∈ failing r checks) : Text.startsWith n "result:" = true := by
  simp only [failing, List.mem_filterMap] at h
  obtain ⟨x, _, hx⟩ := h
  split at hx
  · cases hx
  · cases hx
    simp only [Text.startsWith, String.toList_append, List.append_assoc]
    exact List.isPrefixOf_iff_prefix.mpr (List.prefix_append _ _)

theorem startsWith_settledMismatches {rate : CostRate} {invocations : List ModelInvocation}
    {r : RunResult} {n : String} (h : n ∈ settledMismatches rate invocations r) :
    Text.startsWith n "result:" = true := by
  unfold settledMismatches at h
  split at h
  · exact startsWith_failing h
  · exact startsWith_failing h

theorem startsWith_sealedMismatches {r : RunResult} {n : String} (h : n ∈ sealedMismatches r) :
    Text.startsWith n "result:" = true := by
  unfold sealedMismatches at h
  split at h
  · exact startsWith_failing h
  split at h
  · exact startsWith_failing h
  · simp at h

/-- The names of the counters and of the ledger columns. -/
def figureNames : List String :=
  ((({} : Counts).fields ++ ({} : Ledger).fields)).map Prod.fst

theorem figureNames_distinct :
    ∀ n ∈ figureNames, Text.startsWith n "result:" = false ∧ n ≠ "orphan_started_model_invocations" := by
  decide

/--
**The stored figures are the derived ones.** Whatever has happened to a campaign, its
counters and its ledger are what its results add up to, and the report names none of
them as a mismatch, in whichever order it reads the results.
-/
theorem ledger_reconciles {d : Orchestration.Deployment} {w : World} (h : Reachable d w)
    {c : Campaign} (hc : c ∈ w.db.campaigns) {results : List RunResult}
    (hp : results.Perm (w.db.resultsOf c.id)) (invocations : List ModelInvocation) :
    c.counts = derivedCounts results ∧ c.ledger = derivedLedger results
      ∧ ∀ n ∈ figureNames, n ∉ ledgerReconciliation c results invocations := by
  obtain ⟨hcounts, hledger⟩ := (reconciled_reachable h).adds c hc
  have hc' : c.counts = derivedCounts results := by
    rw [hcounts, derivedCounts_eq, (hp.map _).sum_eq]
  have hl' : c.ledger = derivedLedger results := by
    rw [hledger, derivedLedger_eq, (hp.map _).sum_eq]
  refine ⟨hc', hl', ?_⟩
  intro n hn hmem
  obtain ⟨hres, horphan⟩ := figureNames_distinct n hn
  unfold ledgerReconciliation at hmem
  rw [← hc', ← hl', disagreeing_self, disagreeing_self] at hmem
  simp only [List.nil_append, List.mem_append, List.mem_flatMap] at hmem
  rcases hmem with (⟨r, _, hr⟩ | ⟨r, _, hr⟩) | hr
  · rw [startsWith_settledMismatches hr] at hres
    cases hres
  · rw [startsWith_sealedMismatches hr] at hres
    cases hres
  · split at hr
    · simp at hr
    · exact horphan (List.mem_singleton.mp hr)

theorem ledger_reconciles_sample : ∃ w, Reachable Sample.deployment w ∧
    ∃ c ∈ w.db.campaigns, c.counts.planned = 6 ∧ c.counts.submitted = 1
      ∧ c.ledger.reservedProviderCalls = 8 ∧ c.counts = derivedCounts (w.db.resultsOf c.id)
      ∧ c.ledger = derivedLedger (w.db.resultsOf c.id)
      ∧ ∀ n ∈ figureNames, n ∉ ledgerReconciliation c (w.db.resultsOf c.id) [] := by
  obtain ⟨w, hr, hp⟩ := exists_reachable Sample.deployment (fun _ _ => True)
    (Sample.started ++ Sample.submitted 0)
    (fun w => w.db.campaigns.any fun c => c.counts.planned = 6 && c.counts.submitted = 1
      && c.ledger.reservedProviderCalls = 8) (by decide +kernel)
  simp only [List.any_eq_true, Bool.and_eq_true, decide_eq_true_eq] at hp
  obtain ⟨c, hc, ⟨hplanned, hsubmitted⟩, hreserved⟩ := hp
  exact ⟨w, hr, c, hc, hplanned, hsubmitted, hreserved, ledger_reconciles hr hc .rfl []⟩

end Sana.Shadow
