import Mathlib.Tactic.Linarith
import Sana.Orchestration.Reservations
import Sana.Orchestration.Proof.Graph

/-!
# What a ledger has promised stays within the budget

The projected usage is what was used and what the outstanding reservations may use, and the
guard's checks are bounds on those sums. Seconds are floats, added in the order of the
reservations. A reservation is checked on the sum, and a release makes it no larger.

Completing a step is different. The reservation is gone before anything is checked, and what
is checked then is the usage without the other reservations. So a completion that costs more
than was reserved can leave a projection over the budget, and one that is refused has lost
the reservation and may have recorded the usage.
-/

namespace Sana.Orchestration.SearchWorkflow

open Sana.Lib Aggregate

/-! ## Sums -/

/-- The time after some costs in a phase, from what it was before them. -/
def secondsAfter (floats : FloatArithmetic) (phase : BudgetPhase) (start : Rat)
    (costs : List StepBudgetCost) : Rat :=
  floats.total start ((costs.filter (·.phase = phase)).map (·.estimatedSeconds))

/-- What was used and what may be used are together within the limits. -/
structure WithinLimits (floats : FloatArithmetic) (guard : BudgetGuard) (usage : Aggregate.BudgetUsage)
    (costs : List StepBudgetCost) : Prop where
  queries : usage.queryCount + (costs.map (·.queries)).sum ≤ guard.snapshot.maxQueries
  providers : usage.providerCount + (costs.map (·.providers)).sum ≤ guard.snapshot.maxProviders
  fetches : usage.fetchCount + (costs.map (·.fetches)).sum ≤ guard.snapshot.maxFetches
  llmCalls : usage.llmCallCount ≤ guard.snapshot.maxLlmCalls
  expansionRounds : usage.expansionRounds ≤ guard.snapshot.maxExpansionRounds
  used : ∀ e ∈ usage.phaseSeconds, ∀ maximum,
    guard.snapshot.phaseSeconds.lookup e.1 = some maximum → e.2 ≤ maximum
  seconds : ∀ (phase : BudgetPhase) (maximum : Rat),
    guard.snapshot.phaseSeconds.lookup phase.value = some maximum →
      secondsAfter floats phase (usage.secondsIn phase.value) costs ≤ maximum

section Sums

variable {floats : FloatArithmetic} {guard : BudgetGuard} {usage usage' : Aggregate.BudgetUsage}
  {cost : StepBudgetCost} {costs costs' : List StepBudgetCost} {phase : BudgetPhase} {start : Rat}

theorem StepBudgetCost.nonneg (cost : StepBudgetCost) :
    0 ≤ cost.estimatedSeconds ∧ 0 ≤ cost.queries ∧ 0 ≤ cost.providers ∧ 0 ≤ cost.fetches := by
  have h := cost.valid
  simp only [CostFields.postInit, check_eq_ok, Bool.not_eq_true', Bool.or_eq_false_iff,
    decide_eq_false_iff_not, not_lt] at h
  obtain ⟨⟨⟨⟨hest, hq⟩, hp⟩, hf⟩, -⟩ := h
  exact ⟨hest, hq, hp, hf⟩

theorem usage_valid_iff {f : UsageFields} : f.postInit = .ok () ↔
    (0 ≤ f.queryCount ∧ 0 ≤ f.providerCount ∧ 0 ≤ f.fetchCount ∧ 0 ≤ f.llmCallCount
      ∧ 0 ≤ f.promptTokenCount ∧ 0 ≤ f.completionTokenCount ∧ 0 ≤ f.expansionRounds)
    ∧ ∀ e ∈ f.phaseSeconds, 0 ≤ e.2 := by
  simp only [UsageFields.postInit, bind_ok_iff, check_eq_ok, Bool.and_eq_true, decide_eq_true_eq,
    List.all_eq_true, exists_const, and_assoc]

theorem limit_nonneg {guard : BudgetGuard} {name : String} {maximum : Rat}
    (h : guard.snapshot.phaseSeconds.lookup name = some maximum) : 0 ≤ maximum := by
  have hv := guard.snapshot.valid
  simp only [BudgetFields.postInit, bind_ok_iff, check_eq_ok, List.all_eq_true,
    decide_eq_true_eq] at hv
  obtain ⟨-, -, -, -, -, -, hall⟩ := hv
  obtain ⟨l, l', hl, -⟩ := List.lookup_eq_some_iff.mp h
  exact hall (name, maximum) (by simp [hl])

theorem secondsIn_nonneg (usage : Aggregate.BudgetUsage) (name : String) :
    0 ≤ usage.secondsIn name := by
  unfold UsageFields.secondsIn
  cases h : usage.phaseSeconds.lookup name with
  | none => exact le_refl _
  | some s =>
      obtain ⟨l, l', hl, -⟩ := List.lookup_eq_some_iff.mp h
      exact (usage_valid_iff.mp usage.valid).2 (name, s) (by simp [hl])

theorem secondsAfter_cons : secondsAfter floats phase start (cost :: costs)
    = secondsAfter floats phase
        (if cost.phase = phase then floats.plus start cost.estimatedSeconds else start) costs := by
  unfold secondsAfter
  by_cases h : cost.phase = phase
  · rw [List.filter_cons_of_pos (by simp [h]), if_pos h]
    rfl
  · rw [List.filter_cons_of_neg (by simp [h]), if_neg h]

theorem forall_estimate_nonneg (phase : BudgetPhase) (costs : List StepBudgetCost) :
    ∀ x ∈ (costs.filter (·.phase = phase)).map (·.estimatedSeconds), 0 ≤ x := by
  intro x hx
  obtain ⟨c, -, rfl⟩ := List.mem_map.mp hx
  exact c.nonneg.1

theorem le_secondsAfter : start ≤ secondsAfter floats phase start costs :=
  FloatArithmetic.le_total start (forall_estimate_nonneg phase costs)

theorem BudgetPhase.value_injective : Function.Injective BudgetPhase.value := by
  intro p q h
  cases p <;> cases q <;> first | rfl | (exact absurd h (by decide))

/-! ## Adding a cost -/

/-- A cost can always be applied, and it counts as if it were still reserved. -/
theorem StepBudgetCost.apply_ok (cost : StepBudgetCost) (usage : Aggregate.BudgetUsage) :
    ∃ usage', cost.apply floats usage = .ok usage' ∧
      ∀ guard costs, WithinLimits floats guard usage' costs ↔
        WithinLimits floats guard usage (cost :: costs) := by
  obtain ⟨hest, hq, hp, hf⟩ := cost.nonneg
  obtain ⟨⟨hq', hp', hf', hl', ht', hc', he'⟩, hs'⟩ := usage_valid_iff.mp usage.valid
  have hsec := secondsIn_nonneg usage cost.phase.value
  let fields : UsageFields := {
    queryCount := usage.queryCount + cost.queries
    providerCount := usage.providerCount + cost.providers
    fetchCount := usage.fetchCount + cost.fetches
    llmCallCount := usage.llmCallCount
    promptTokenCount := usage.promptTokenCount
    completionTokenCount := usage.completionTokenCount
    expansionRounds := usage.expansionRounds
    phaseSeconds := Dict.set cost.phase.value
      (floats.plus (usage.secondsIn cost.phase.value) cost.estimatedSeconds) usage.phaseSeconds }
  have hvalid : fields.postInit = .ok () := by
    refine usage_valid_iff.mpr ⟨⟨?_, ?_, ?_, hl', ht', hc', he'⟩, fun e he => ?_⟩
    · exact add_nonneg hq' hq
    · exact add_nonneg hp' hp
    · exact add_nonneg hf' hf
    · rcases Dict.mem_set he with rfl | he
      · exact hsec.trans (floats.le_plus _ hest)
      · exact hs' e he
  have hsecondsIn : ∀ phase : BudgetPhase, fields.secondsIn phase.value
      = if cost.phase = phase
          then floats.plus (usage.secondsIn phase.value) cost.estimatedSeconds
          else usage.secondsIn phase.value := by
    intro phase
    show ((Dict.set _ _ _).lookup _).getD 0 = _
    rw [Dict.lookup_set]
    by_cases h : cost.phase = phase
    · rw [h, if_pos rfl, if_pos rfl, Option.getD_some]
    · rw [if_neg fun hv => h (BudgetPhase.value_injective hv).symm, if_neg h]
      rfl
  refine ⟨⟨fields, hvalid⟩, ?_, fun guard costs => ⟨fun h => ?_, fun h => ?_⟩⟩
  · simp only [apply, BudgetUsage.add, Option.getD_none, Option.isSome_some, Bool.true_or, hest, hq,
      hp, hf, decide_true, Bool.and_self, le_refl, add_zero]
    exact checked_of_valid hvalid
  · refine ⟨?_, ?_, ?_, h.llmCalls, h.expansionRounds, fun e he m hm => ?_, fun phase m hm => ?_⟩
    · rw [List.map_cons, List.sum_cons, ← add_assoc]
      exact h.queries
    · rw [List.map_cons, List.sum_cons, ← add_assoc]
      exact h.providers
    · rw [List.map_cons, List.sum_cons, ← add_assoc]
      exact h.fetches
    · rcases Dict.mem_set_of_mem he with hmem | ⟨hkey, hlook⟩
      · exact h.used e hmem m hm
      · -- the entry that was rewritten has grown
        have hnew := h.used _ Dict.mem_set_self m (hkey ▸ hm)
        have hold : usage.secondsIn cost.phase.value = e.2 := by
          rw [UsageFields.secondsIn, hlook, Option.getD_some]
        rw [hold] at hnew
        exact (floats.le_plus _ hest).trans hnew
    · rw [secondsAfter_cons, ← hsecondsIn phase]
      exact h.seconds phase m hm
  · have hcons : ∀ f : StepBudgetCost → Int,
        ((cost :: costs).map f).sum = f cost + (costs.map f).sum := fun f => by simp
    refine ⟨?_, ?_, ?_, h.llmCalls, h.expansionRounds, fun e he m hm => ?_, fun phase m hm => ?_⟩
    · have := h.queries
      rw [hcons, ← add_assoc] at this
      exact this
    · have := h.providers
      rw [hcons, ← add_assoc] at this
      exact this
    · have := h.fetches
      rw [hcons, ← add_assoc] at this
      exact this
    · rcases Dict.mem_set he with rfl | he
      · have hsum := h.seconds cost.phase m hm
        rw [secondsAfter_cons, if_pos rfl] at hsum
        exact le_secondsAfter.trans hsum
      · exact h.used e he m hm
    · have hsum := h.seconds phase m hm
      rw [secondsAfter_cons, ← hsecondsIn phase] at hsum
      exact hsum

/-! ## The guard's checks -/

theorem validatePhase_ok_iff {e : String × Rat} : guard.validatePhase e = .ok () ↔
    ∀ maximum, guard.snapshot.phaseSeconds.lookup e.1 = some maximum → e.2 ≤ maximum := by
  unfold BudgetGuard.validatePhase
  cases h : guard.snapshot.phaseSeconds.lookup e.1 <;> simp

theorem validate_ok_iff : guard.validate usage = .ok () ↔ WithinLimits floats guard usage [] := by
  simp only [BudgetGuard.validate, bind_ok_iff, check_eq_ok, decide_eq_true_eq, forM_ok_iff,
    validatePhase_ok_iff, exists_const]
  constructor
  · rintro ⟨hq, hp, hf, hl, he, hs⟩
    refine ⟨by simpa using hq, by simpa using hp, by simpa using hf, hl, he, hs, fun phase m hm => ?_⟩
    show usage.secondsIn phase.value ≤ m
    rw [UsageFields.secondsIn]
    cases hlook : usage.phaseSeconds.lookup phase.value with
    | none => exact limit_nonneg hm
    | some s =>
        obtain ⟨l, l', hl, -⟩ := List.lookup_eq_some_iff.mp hlook
        exact hs (phase.value, s) (by simp [hl]) m hm
  · intro h
    exact ⟨by simpa using h.queries, by simpa using h.providers, by simpa using h.fetches,
      h.llmCalls, h.expansionRounds, h.used⟩

/-- **The projection can always be computed, and bounds on it are bounds on the sums.** -/
theorem project_ok (floats : FloatArithmetic) (costs : List StepBudgetCost)
    (usage : Aggregate.BudgetUsage) :
    ∃ projected,
      costs.foldlM (fun projected (cost : StepBudgetCost) => cost.apply floats projected) usage
        = .ok projected ∧
      ∀ guard rest, WithinLimits floats guard projected rest ↔
        WithinLimits floats guard usage (costs ++ rest) := by
  induction costs generalizing usage with
  | nil => exact ⟨usage, rfl, fun _ _ => Iff.rfl⟩
  | cons cost costs ih =>
      obtain ⟨usage', happly, hcost⟩ := cost.apply_ok usage
      obtain ⟨projected, hfold, hrest⟩ := ih usage'
      refine ⟨projected, ?_, fun guard rest => ?_⟩
      · rw [List.foldlM_cons, happly]
        exact hfold
      · rw [hrest guard rest, hcost guard (costs ++ rest), List.cons_append]

/-- With fewer reservations the sums are no larger. -/
theorem WithinLimits.sublist (h : WithinLimits floats guard usage costs)
    (hsub : costs'.Sublist costs) : WithinLimits floats guard usage costs' := by
  have hint : ∀ f : StepBudgetCost → Int, (∀ c, 0 ≤ f c) →
      (costs'.map f).sum ≤ (costs.map f).sum := by
    intro f hf
    refine (hsub.map f).sum_le_sum fun x hx => ?_
    obtain ⟨c, -, rfl⟩ := List.mem_map.mp hx
    exact hf c
  have hseconds : ∀ phase start,
      secondsAfter floats phase start costs' ≤ secondsAfter floats phase start costs :=
    fun phase start =>
      FloatArithmetic.total_sublist start ((hsub.filter _).map _) (forall_estimate_nonneg phase costs)
  refine ⟨?_, ?_, ?_, h.llmCalls, h.expansionRounds, h.used, fun phase m hm => ?_⟩
  · have := hint (·.queries) fun c => c.nonneg.2.1
    have := h.queries
    omega
  · have := hint (·.providers) fun c => c.nonneg.2.2.1
    have := h.providers
    omega
  · have := hint (·.fetches) fun c => c.nonneg.2.2.2
    have := h.fetches
    omega
  · exact (hseconds phase _).trans (h.seconds phase m hm)

/-- The actual cost of a step and the time it took. -/
def StepBudgetCost.lasting (cost : StepBudgetCost) (seconds : Rat) (h : 0 ≤ seconds) :
    StepBudgetCost where
  toCostFields := { cost.toCostFields with estimatedSeconds := seconds }
  valid := by
    have hvalid := cost.valid
    simp only [CostFields.postInit, check_eq_ok, Bool.not_eq_true', Bool.or_eq_false_iff,
      decide_eq_false_iff_not, not_lt] at hvalid ⊢
    exact ⟨⟨⟨⟨h, hvalid.1.1.1.2⟩, hvalid.1.1.2⟩, hvalid.1.2⟩, hvalid.2⟩

theorem secondsAfter_lasting {seconds : Rat} {h : 0 ≤ seconds} :
    secondsAfter floats phase start (cost.lasting seconds h :: costs)
      = secondsAfter floats phase
          (if cost.phase = phase then floats.plus start seconds else start) costs := secondsAfter_cons

end Sums

/-! ## The methods of the ledger -/

namespace BudgetReservationLedger

variable {floats : FloatArithmetic} {ledger : BudgetReservationLedger} {stepKey : String}
  {cost actual : StepBudgetCost} {now : DateTime} {elapsedSeconds : Rat}

/-- What the outstanding reservations may use. -/
def costs (ledger : BudgetReservationLedger) : List StepBudgetCost := ledger.reservations.map (·.2)

/-- What the reservations of other steps may use. -/
def othersThan (ledger : BudgetReservationLedger) (stepKey : String) : List StepBudgetCost :=
  (Dict.erase stepKey ledger.reservations).map (·.2)

variable (floats) in
/-- The projection is within the limits. -/
def Sound (ledger : BudgetReservationLedger) : Prop :=
  WithinLimits floats ledger.guard ledger.usage ledger.costs

variable (floats) in
/-- The projected usage passes the guard's checks. -/
def Passes (ledger : BudgetReservationLedger) : Prop :=
  (ledger.projectedUsage floats >>= ledger.guard.validate) = .ok ()

theorem passes_iff : ledger.Passes floats ↔ ledger.Sound floats := by
  obtain ⟨projected, hproject, hiff⟩ := project_ok floats ledger.costs ledger.usage
  have hcall : ledger.projectedUsage floats = .ok projected := hproject
  rw [Passes, hcall]
  have hbind : ((.ok projected : Except Exn Aggregate.BudgetUsage) >>= ledger.guard.validate)
      = ledger.guard.validate projected := rfl
  rw [hbind, validate_ok_iff, hiff, List.append_nil]
  exact Iff.rfl

theorem sound_of_new {guard : BudgetGuard} {usage : Aggregate.BudgetUsage}
    {pending : List BudgetReservation} (h : new floats guard usage pending = .ok ledger) :
    ledger.Sound floats := by
  simp only [new, bind_ok_iff, pure_ok_iff] at h
  obtain ⟨reservations, -, projected, hproject, ⟨⟩, hvalid, rfl⟩ := h
  refine passes_iff.mp ?_
  rw [Passes, hproject]
  exact hvalid

variable (floats) in
/-- What `reserve` asks. -/
structure Reservable (ledger : BudgetReservationLedger) (stepKey : String) (cost : StepBudgetCost)
    (now : DateTime) : Prop where
  named : Text.isBlank stepKey = false
  fresh : stepKey ∉ ledger.keys
  aware : now.aware = true
  inTime : now.instant + timedelta floats cost.estimatedSeconds < ledger.guard.deadlineFor floats cost.phase
  within : WithinLimits floats ledger.guard ledger.usage (ledger.costs ++ [cost])

/-- **A reservation is entered if it passes every check, and otherwise nothing changes.** -/
theorem reserve_cases (floats : FloatArithmetic) (ledger : BudgetReservationLedger)
    (stepKey : String) (cost : StepBudgetCost) (now : DateTime) :
    (ledger.Reservable floats stepKey cost now ∧ (reserve floats stepKey cost now).call ledger
        = (.ok ⟨stepKey, cost⟩, { ledger with
            reservations := ledger.reservations ++ [(stepKey, cost)] })) ∨
    (¬ ledger.Reservable floats stepKey cost now ∧
      ∃ e, (reserve floats stepKey cost now).call ledger = (.error e, ledger)) := by
  obtain ⟨projected, hproject, hlimits⟩ := project_ok floats ledger.costs ledger.usage
  obtain ⟨usage', happly, hadded⟩ : ∃ usage', cost.apply floats projected = .ok usage' ∧
      ∀ guard costs, WithinLimits floats guard usage' costs ↔
        WithinLimits floats guard projected (cost :: costs) := cost.apply_ok projected
  have hcall : ledger.projectedUsage floats = .ok projected := hproject
  have hvalid : ledger.guard.validate usage' = .ok () ↔
      WithinLimits floats ledger.guard ledger.usage (ledger.costs ++ [cost]) := by
    rw [validate_ok_iff, hadded, hlimits]
  unfold reserve
  simp only [Method.call_bind, Method.call_get, Method.call_require, Method.call_ofExcept]
  by_cases hfree : Text.isBlank stepKey = false ∧ ledger.reservations.lookup stepKey = none
  case neg =>
    rw [if_neg hfree]
    refine .inr ⟨fun h => hfree ⟨h.named, ?_⟩, _, rfl⟩
    exact Dict.lookup_eq_none_iff.mpr h.fresh
  rw [if_pos hfree]
  by_cases haware : now.aware = true
  case neg =>
    have hstart : ledger.guard.canStart floats cost.phase now cost.estimatedSeconds
        = .error (.valueError "now must be timezone-aware") := by
      rw [Bool.not_eq_true] at haware
      rw [BudgetGuard.canStart, haware]
      rfl
    rw [hstart]
    exact .inr ⟨fun h => haware h.aware, _, rfl⟩
  have hstart : ledger.guard.canStart floats cost.phase now cost.estimatedSeconds
      = .ok (decide (now.instant + timedelta floats cost.estimatedSeconds
          < ledger.guard.deadlineFor floats cost.phase)) := by
    rw [BudgetGuard.canStart, haware, decide_eq_true cost.nonneg.1]
    rfl
  rw [hstart]
  by_cases htime : now.instant + timedelta floats cost.estimatedSeconds
      < ledger.guard.deadlineFor floats cost.phase
  case neg =>
    dsimp only
    rw [if_neg (by simpa using htime)]
    exact .inr ⟨fun h => htime h.inTime, _, rfl⟩
  dsimp only
  rw [if_pos (by simpa using htime), hcall]
  dsimp only
  rw [happly]
  dsimp only
  cases hcheck : ledger.guard.validate usage' with
  | error e =>
      refine .inr ⟨fun h => ?_, _, rfl⟩
      rw [hvalid.mpr h.within] at hcheck
      cases hcheck
  | ok u =>
      refine .inl ⟨⟨hfree.1, ?_, haware, htime, hvalid.mp hcheck⟩, ?_⟩
      · exact Dict.lookup_eq_none_iff.mp hfree.2
      · dsimp only [Method.call_modify, Method.call_pure]
        rw [Dict.set_of_lookup_eq_none hfree.2]

@[simp]
theorem call_releaseIfPresent (ledger : BudgetReservationLedger) (stepKey : String) :
    (releaseIfPresent stepKey).call ledger
      = (.ok (ledger.reservations.lookup stepKey).isSome,
          { ledger with reservations := Dict.erase stepKey ledger.reservations }) := rfl

/-- A smaller projection is within the limits. -/
theorem Sound.erase (h : ledger.Sound floats) (stepKey : String) :
    Sound floats { ledger with reservations := Dict.erase stepKey ledger.reservations } :=
  WithinLimits.sublist h (List.filter_sublist.map _)

/-- What `complete` leaves when it has a reservation to take out. -/
theorem complete_cases (floats : FloatArithmetic) (elapsedSeconds : Rat) {reserved : StepBudgetCost}
    (hlook : ledger.reservations.lookup stepKey = some reserved)
    (hphase : actual.phase = reserved.phase) :
    let taken := { ledger with reservations := Dict.erase stepKey ledger.reservations }
    (elapsedSeconds < 0 ∧
      ∃ e, (complete floats stepKey actual elapsedSeconds).call ledger = (.error e, taken)) ∨
    ∃ (helapsed : 0 ≤ elapsedSeconds) (usage : Aggregate.BudgetUsage),
      (∀ guard costs, WithinLimits floats guard usage costs ↔
        WithinLimits floats guard ledger.usage
          (actual.lasting elapsedSeconds helapsed :: costs)) ∧
      ((WithinLimits floats ledger.guard usage [] ∧ (complete floats stepKey actual elapsedSeconds).call ledger
          = (.ok usage, { taken with usage })) ∨
        (¬ WithinLimits floats ledger.guard usage [] ∧
          ∃ e, (complete floats stepKey actual elapsedSeconds).call ledger
            = (.error e, { taken with usage }))) := by
  intro taken
  have hcall : (complete floats stepKey actual elapsedSeconds).call ledger
      = match actual.apply floats ledger.usage (some elapsedSeconds) with
        | .ok usage => (ledger.guard.validate usage |>.map fun _ => usage, { taken with usage })
        | .error e => (.error e, taken) := by
    unfold complete
    simp only [Method.call_bind, Method.call_get, hlook, Method.call_require, if_pos hphase,
      Method.call_modify, Method.call_ofExcept]
    cases actual.apply floats ledger.usage (some elapsedSeconds) with
    | error e => rfl
    | ok usage =>
        dsimp only [Method.call_modify]
        cases ledger.guard.validate usage <;> rfl
  rw [hcall]
  by_cases helapsed : 0 ≤ elapsedSeconds
  · obtain ⟨usage, happly, hlimits⟩ :=
      (actual.lasting elapsedSeconds helapsed).apply_ok ledger.usage
    have happly' : actual.apply floats ledger.usage (some elapsedSeconds) = .ok usage := happly
    refine .inr ⟨helapsed, usage, hlimits, ?_⟩
    rw [happly', ← validate_ok_iff]
    dsimp only
    cases hcheck : ledger.guard.validate usage with
    | ok u => exact .inl ⟨rfl, rfl⟩
    | error e => exact .inr ⟨by simp, e, rfl⟩
  · have happly : actual.apply floats ledger.usage (some elapsedSeconds)
        = .error (.valueError "Usage increments cannot be negative") := by
      simp only [StepBudgetCost.apply, BudgetUsage.add, Option.getD_some, helapsed, decide_false,
        Bool.and_false]
      rfl
    rw [happly]
    exact .inl ⟨not_le.mp helapsed, _, rfl⟩

/-! ## The law -/

variable (floats) in
/--
A completion that keeps the projection within the limits: the time is not negative, and what
was used, what the step cost and what the other reservations may use stay together below
every limit. The seconds are added in this order.
-/
structure Fits (ledger : BudgetReservationLedger) (stepKey : String) (actual : StepBudgetCost)
    (elapsedSeconds : Rat) : Prop where
  elapsed : 0 ≤ elapsedSeconds
  queries : ledger.usage.queryCount + actual.queries
    + ((ledger.othersThan stepKey).map (·.queries)).sum ≤ ledger.guard.snapshot.maxQueries
  providers : ledger.usage.providerCount + actual.providers
    + ((ledger.othersThan stepKey).map (·.providers)).sum ≤ ledger.guard.snapshot.maxProviders
  fetches : ledger.usage.fetchCount + actual.fetches
    + ((ledger.othersThan stepKey).map (·.fetches)).sum ≤ ledger.guard.snapshot.maxFetches
  seconds : ∀ maximum,
    ledger.guard.snapshot.phaseSeconds.lookup actual.phase.value = some maximum →
      secondsAfter floats actual.phase
        (floats.plus (ledger.usage.secondsIn actual.phase.value) elapsedSeconds)
        (ledger.othersThan stepKey) ≤ maximum

theorem Sound.others (h : ledger.Sound floats) (stepKey : String) :
    WithinLimits floats ledger.guard ledger.usage (ledger.othersThan stepKey) := h.erase stepKey

theorem fits_iff (h : ledger.Sound floats) (helapsed : 0 ≤ elapsedSeconds) :
    ledger.Fits floats stepKey actual elapsedSeconds ↔
      WithinLimits floats ledger.guard ledger.usage
        (actual.lasting elapsedSeconds helapsed :: ledger.othersThan stepKey) := by
  have hrest := h.others stepKey
  have hcons : ∀ f : StepBudgetCost → Int, ((actual.lasting elapsedSeconds helapsed
      :: ledger.othersThan stepKey).map f).sum
        = f (actual.lasting elapsedSeconds helapsed)
          + ((ledger.othersThan stepKey).map f).sum := fun f => by simp
  constructor
  · intro hf
    refine ⟨?_, ?_, ?_, h.llmCalls, h.expansionRounds, h.used, fun phase m hm => ?_⟩
    · rw [hcons, ← add_assoc]
      exact hf.queries
    · rw [hcons, ← add_assoc]
      exact hf.providers
    · rw [hcons, ← add_assoc]
      exact hf.fetches
    · rw [secondsAfter_lasting]
      by_cases hp : actual.phase = phase
      · subst hp
        rw [if_pos rfl]
        exact hf.seconds m hm
      · rw [if_neg hp]
        exact hrest.seconds phase m hm
  · intro hw
    refine ⟨helapsed, ?_, ?_, ?_, fun m hm => ?_⟩
    · have := hw.queries
      rwa [hcons, ← add_assoc] at this
    · have := hw.providers
      rwa [hcons, ← add_assoc] at this
    · have := hw.fetches
      rwa [hcons, ← add_assoc] at this
    · have := hw.seconds actual.phase m hm
      rwa [secondsAfter_lasting, if_pos rfl] at this

variable (floats) in
/-- A call that returns leaves a projection that passes, and one that raises changes nothing. -/
def Lawful (ledger : BudgetReservationLedger) (call : LedgerCall) : Prop :=
  match (call.method floats).call ledger with
  | (.ok (), after) => after.Passes floats
  | (.error _, after) => after.usage = ledger.usage ∧ after.reservations = ledger.reservations

instance (ledger : BudgetReservationLedger) : Decidable (ledger.Passes floats) :=
  inferInstanceAs (Decidable (_ = _))

instance (ledger : BudgetReservationLedger) (call : LedgerCall) :
    Decidable (ledger.Lawful floats call) :=
  match h : (call.method floats).call ledger with
  | (.ok (), after) => decidable_of_iff (after.Passes floats) (by rw [Lawful, h])
  | (.error _, after) =>
      decidable_of_iff (after.usage = ledger.usage ∧ after.reservations = ledger.reservations)
        (by rw [Lawful, h])

variable (floats) in
/-- A step that is completed in the phase it reserved fits. -/
def Meets (ledger : BudgetReservationLedger) : LedgerCall → Prop
  | .complete stepKey actual elapsedSeconds =>
      ∀ reserved, ledger.reservations.lookup stepKey = some reserved →
        actual.phase = reserved.phase → ledger.Fits floats stepKey actual elapsedSeconds
  | _ => True

variable (floats) in
/-- Every call of a sequence has a property, of the ledger it is made on. -/
def Throughout (P : BudgetReservationLedger → LedgerCall → Prop) :
    List LedgerCall → BudgetReservationLedger → Prop
  | [], _ => True
  | call :: rest, ledger => P ledger call ∧ Throughout P rest ((call.method floats).call ledger).2

/-- A reservation that is taken out was there. -/
theorem erase_ne {reserved : StepBudgetCost}
    (hlook : ledger.reservations.lookup stepKey = some reserved) :
    Dict.erase stepKey ledger.reservations ≠ ledger.reservations := by
  intro h
  rw [Dict.lookup_eq_none_iff.mpr (Dict.erase_eq_self_iff.mp h)] at hlook
  cases hlook

/-- **One call.** It keeps the law if and only if it meets the condition. -/
theorem lawful_iff (h : ledger.Sound floats) (call : LedgerCall) :
    ledger.Lawful floats call ↔ ledger.Meets floats call := by
  unfold Lawful LedgerCall.method
  cases call with
  | reserve stepKey cost now =>
      refine iff_of_true ?_ trivial
      rcases reserve_cases floats ledger stepKey cost now with ⟨hr, hcall⟩ | ⟨-, e, hcall⟩
      · simp only [Method.call_bind, hcall, Method.call_pure]
        refine passes_iff.mpr ?_
        have hwithin := hr.within
        unfold Sound costs at *
        rwa [List.map_append]
      · simp only [Method.call_bind, hcall]
        exact ⟨trivial, trivial⟩
  | complete stepKey actual elapsedSeconds =>
      cases hlook : ledger.reservations.lookup stepKey with
      | none =>
          have hcall : (complete floats stepKey actual elapsedSeconds).call ledger
              = (.error (.valueError "Step has no budget reservation"), ledger) := by
            simp only [complete, Method.call_bind, Method.call_get, hlook]
            rfl
          simp only [Method.call_bind, hcall]
          refine iff_of_true ⟨trivial, trivial⟩ fun reserved hres => ?_
          rw [hlook] at hres
          cases hres
      | some reserved =>
          by_cases hphase : actual.phase = reserved.phase
          case neg =>
            have hcall : (complete floats stepKey actual elapsedSeconds).call ledger
                = (.error (.valueError "Actual usage phase differs from reservation"), ledger) := by
              simp only [complete, Method.call_bind, Method.call_get, hlook, Method.call_require,
                if_neg hphase]
            simp only [Method.call_bind, hcall]
            refine iff_of_true ⟨trivial, trivial⟩ fun reserved' hres hphase' => ?_
            rw [hlook] at hres
            obtain rfl := Option.some.inj hres
            exact absurd hphase' hphase
          have hmeets : ledger.Meets floats (.complete stepKey actual elapsedSeconds) ↔
              ledger.Fits floats stepKey actual elapsedSeconds := by
            refine ⟨fun hm => hm reserved hlook hphase, fun hf _ _ _ => hf⟩
          rw [hmeets]
          rcases complete_cases floats elapsedSeconds hlook hphase with
            ⟨hneg, e, hcall⟩ | ⟨helapsed, usage, hlimits, ⟨-, hcall⟩ | ⟨hover, e, hcall⟩⟩
          · simp only [Method.call_bind, hcall]
            refine iff_of_false (fun hsame => erase_ne hlook hsame.2) fun hf => ?_
            exact absurd hf.elapsed (not_le.mpr hneg)
          · simp only [Method.call_bind, hcall, Method.call_pure]
            rw [passes_iff, fits_iff h helapsed, ← hlimits]
            exact Iff.rfl
          · simp only [Method.call_bind, hcall]
            refine iff_of_false (fun hsame => erase_ne hlook hsame.2) fun hf => ?_
            have hall := (hlimits _ _).mpr ((fits_iff h helapsed).mp hf)
            exact hover (hall.sublist (List.nil_sublist _))
  | release stepKey =>
      refine iff_of_true ?_ trivial
      simp only [release, Method.call_bind, call_releaseIfPresent, Method.call_require]
      cases hlook : ledger.reservations.lookup stepKey with
      | none => exact ⟨rfl, Dict.erase_of_lookup_eq_none hlook⟩
      | some reserved => exact passes_iff.mpr (h.erase stepKey)
  | releaseIfPresent stepKey =>
      refine iff_of_true ?_ trivial
      simp only [Method.call_bind, call_releaseIfPresent, Method.call_pure]
      exact passes_iff.mpr (h.erase stepKey)

/-- No call changes the guard. -/
theorem guard_call (call : LedgerCall) :
    ((call.method floats).call ledger).2.guard = ledger.guard := by
  unfold LedgerCall.method
  cases call with
  | reserve stepKey cost now =>
      rcases reserve_cases floats ledger stepKey cost now with ⟨-, hcall⟩ | ⟨-, e, hcall⟩ <;>
        simp only [Method.call_bind, hcall, Method.call_pure]
  | complete stepKey actual elapsedSeconds =>
      have hkeeps : Method.Ensures (fun l => l.guard = ledger.guard)
          (complete floats stepKey actual elapsedSeconds) (fun _ l => l.guard = ledger.guard)
          (fun l => l.guard = ledger.guard) := by
        refine Method.Ensures.bind Method.ensures_get fun l => ?_
        split
        · exact Method.ensures_throw fun _ hl => hl.1
        · refine Method.Ensures.bind (Method.ensures_require fun _ hl => hl.1) fun _ => ?_
          refine Method.Ensures.bind (Method.ensures_modify (S := fun l => l.guard = ledger.guard)
            fun _ hl => hl.1.1) fun _ => ?_
          refine Method.Ensures.bind (Method.ensures_ofExcept fun _ hl => hl) fun usage => ?_
          refine Method.Ensures.bind (Method.ensures_modify (S := fun l => l.guard = ledger.guard)
            fun _ hl => hl.1) fun _ => ?_
          refine Method.Ensures.bind (Method.ensures_ofExcept fun _ hl => hl) fun _ => ?_
          exact Method.ensures_pure fun _ hl => hl.1
      have hcall := hkeeps ledger rfl
      simp only [Method.call_bind, Method.call_pure]
      rcases hres : (complete floats stepKey actual elapsedSeconds).call ledger with ⟨r | r, after⟩ <;>
        rw [hres] at hcall <;> exact hcall
  | release stepKey => simp only [release, Method.call_bind, call_releaseIfPresent, Method.call_require]
  | releaseIfPresent stepKey => rfl

/-- A call that keeps the law leaves a sound ledger. -/
theorem sound_of_lawful (h : ledger.Sound floats) {call : LedgerCall}
    (hl : ledger.Lawful floats call) : ((call.method floats).call ledger).2.Sound floats := by
  have hguard : ((call.method floats).call ledger).2.guard = ledger.guard := guard_call call
  unfold Lawful at hl
  rcases hcall : (call.method floats).call ledger with ⟨r, after⟩
  rw [hcall] at hl hguard
  cases r with
  | ok u => exact passes_iff.mp hl
  | error e =>
      obtain ⟨husage, hres⟩ := hl
      unfold Sound costs
      rw [hguard, husage, hres]
      exact h

/-- A sequence keeps the law if and only if every call of it meets the condition. -/
theorem throughout_iff (h : ledger.Sound floats) (calls : List LedgerCall) :
    Throughout floats (Lawful floats) calls ledger ↔
      Throughout floats (Meets floats) calls ledger := by
  induction calls generalizing ledger with
  | nil => exact Iff.rfl
  | cons call calls ih =>
      constructor
      · rintro ⟨hl, hrest⟩
        exact ⟨(lawful_iff h call).mp hl, (ih (sound_of_lawful h hl)).mp hrest⟩
      · rintro ⟨hm, hrest⟩
        have hl := (lawful_iff h call).mpr hm
        exact ⟨hl, (ih (sound_of_lawful h hl)).mpr hrest⟩

end BudgetReservationLedger

/-! ## Every sequence of calls -/

open BudgetReservationLedger in
/--
**The ledger keeps its law exactly where completions fit.** Of every ledger that can be
built and every sequence of calls: each call that returns leaves a projection the guard
accepts, and each call that raises leaves usage and reservations as they were, if and only if
every completion of a reservation in its phase takes a time that is not negative and stays,
together with what was used and what the other reservations may use, within the limits. Seconds
are added as floats are.
-/
theorem reservations_lawful_iff (floats : FloatArithmetic) {guard : BudgetGuard}
    {usage : Aggregate.BudgetUsage} {pending : List BudgetReservation}
    {ledger : BudgetReservationLedger}
    (hnew : BudgetReservationLedger.new floats guard usage pending = .ok ledger)
    (calls : List LedgerCall) :
    Throughout floats (Lawful floats) calls ledger ↔
      Throughout floats (Meets floats) calls ledger :=
  throughout_iff (sound_of_new hnew) calls

open FloatArithmetic (binary64 toFloat)

/-- The budget of a FAST run that was created at the epoch. -/
def fastGuard : BudgetGuard := ⟨{
  policyVersion := "search-v12", createdAt := 0, softDeadlineAt := seconds 14
  hardDeadlineAt := seconds 15, synthesisReserveSeconds := 1, maxQueries := 4, maxProviders := 2
  maxFetches := 4, maxLlmCalls := 4, maxExpansionRounds := 1
  phaseSeconds := [("route_plan", toFloat (12 / 10)), ("discovery", toFloat (42 / 10)),
    ("fetch_extract", toFloat (36 / 10)), ("verify", 2), ("synthesize", 1)]
  valid := by decide +kernel }⟩

/-- What one query may cost. -/
def queryCost : StepBudgetCost :=
  ⟨{ phase := .discovery, estimatedSeconds := 1, queries := 1, providers := 1 }, by decide +kernel⟩

/-- What a query costs that asks two providers. -/
def queryCostTwice : StepBudgetCost :=
  ⟨{ phase := .discovery, estimatedSeconds := 1, queries := 1, providers := 2 }, by decide +kernel⟩

theorem postInit_unused : ({} : UsageFields).postInit = .ok () := by decide

/-- Two queries are pending. -/
def queryLedger : BudgetReservationLedger where
  guard := fastGuard
  usage := ⟨{}, postInit_unused⟩
  reservations := [("discover:a", queryCost), ("discover:b", queryCost)]

open BudgetReservationLedger in
theorem reservations_lawful_iff_query :
    new binary64 fastGuard ⟨{}, by decide⟩ [⟨"discover:a", queryCost⟩, ⟨"discover:b", queryCost⟩]
      = .ok queryLedger ∧
    (Throughout binary64 (Lawful binary64) [.complete "discover:a" queryCost (1 / 4)] queryLedger ↔
      Throughout binary64 (Meets binary64) [.complete "discover:a" queryCost (1 / 4)]
        queryLedger) := by
  have hnew : new binary64 fastGuard ⟨{}, by decide⟩
      [⟨"discover:a", queryCost⟩, ⟨"discover:b", queryCost⟩] = .ok queryLedger := by decide +kernel
  exact ⟨hnew, reservations_lawful_iff binary64 hnew _⟩

open BudgetReservationLedger in
/--
**A completion breaks the law.** A query that asked one provider more than it had reserved is
completed, and the projection is over the limit; one that took longer than the phase may is
refused, and its reservation is gone.
-/
theorem completion_over_budget :
    new binary64 fastGuard ⟨{}, by decide⟩ [⟨"discover:a", queryCost⟩, ⟨"discover:b", queryCost⟩]
      = .ok queryLedger ∧
    (((LedgerCall.complete "discover:a" queryCostTwice (1 / 4)).method binary64).call
      queryLedger).1 = .ok () ∧
    (((LedgerCall.complete "discover:a" queryCostTwice (1 / 4)).method binary64).call
      queryLedger).2.keys = ["discover:b"] ∧
    ¬ queryLedger.Lawful binary64 (.complete "discover:a" queryCostTwice (1 / 4)) ∧
    (((LedgerCall.complete "discover:a" queryCost 5).method binary64).call queryLedger).1
      = .error (budgetExceeded "phase:discovery") ∧
    (((LedgerCall.complete "discover:a" queryCost 5).method binary64).call queryLedger).2.keys
      = ["discover:b"] ∧
    ¬ queryLedger.Lawful binary64 (.complete "discover:a" queryCost 5) := by
  decide +kernel

/-- What fetching a page may cost. -/
def fetchCost : StepBudgetCost :=
  ⟨{ phase := .fetchExtract, estimatedSeconds := 1, fetches := 1 }, by decide +kernel⟩

/-- What extracting a page may cost. -/
def extractCost : StepBudgetCost :=
  ⟨{ phase := .fetchExtract, estimatedSeconds := toFloat (2 / 10) }, by decide +kernel⟩

/-- One page is to be fetched and three are to be extracted. -/
def fetchLedger : BudgetReservationLedger where
  guard := fastGuard
  usage := ⟨{}, postInit_unused⟩
  reservations := [("fetch:a", fetchCost), ("extract:a", extractCost), ("extract:b", extractCost),
    ("extract:c", extractCost)]

-- 3.0 + 0.2 + 0.2 + 0.2 is more than 3.6 in binary64, and the exact sum is less
example : ¬ fetchLedger.Lawful binary64 (.complete "fetch:a" fetchCost 3) ∧
    fetchLedger.Lawful .exact (.complete "fetch:a" fetchCost 3) := by
  decide +kernel

end Sana.Orchestration.SearchWorkflow
