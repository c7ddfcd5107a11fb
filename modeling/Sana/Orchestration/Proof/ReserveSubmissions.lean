import Sana.Orchestration.Proof.Advance
import Sana.Orchestration.Proof.Reservations

/-!
# Reserving for a decision

A refused reservation takes back every one the same call has made before it. The released
reservations are given back first and outside the rollback, so they stay released: the call
is all or nothing exactly if none of them is outstanding or nothing is refused.
-/

namespace Sana.Orchestration.SearchWorkflow

open Sana.Lib Aggregate

namespace BudgetReservationLedger

variable {floats : FloatArithmetic} {ledger : BudgetReservationLedger} {clock : Nat → DateTime}
  {k : Nat} {nodes reserved : List WorkflowStepSpec} {base : List (String × StepBudgetCost)}

/-! ## Releasing many -/

/-- The reservations of steps that are not in a list. -/
def without (keys : List String) (reservations : List (String × StepBudgetCost)) :
    List (String × StepBudgetCost) :=
  reservations.filter (·.1 ∉ keys)

theorem without_eq_self_iff {keys : List String} :
    without keys ledger.reservations = ledger.reservations ↔ ∀ key ∈ keys, key ∉ ledger.keys := by
  rw [without, List.filter_eq_self]
  constructor
  · intro h key hkey hmem
    obtain ⟨e, he, rfl⟩ := List.mem_map.mp hmem
    exact of_decide_eq_true (h e he) hkey
  · intro h e he
    exact decide_eq_true fun hkey => h e.1 hkey (List.mem_map_of_mem he)

theorem release_all {α : Type} (keyOf : α → String) (l : List α) (ledger : BudgetReservationLedger) :
    (l.forM fun x => do let _ ← releaseIfPresent (keyOf x)).call ledger
      = (.ok (), { ledger with reservations := without (l.map keyOf) ledger.reservations }) := by
  induction l generalizing ledger with
  | nil =>
      have hall : without [] ledger.reservations = ledger.reservations :=
        without_eq_self_iff.mpr (by simp)
      show ((.ok (), ledger) : Except Exn PUnit × BudgetReservationLedger) = _
      rw [List.map_nil, hall]
  | cons x l ih =>
      have hcons : ((x :: l).forM fun x => do let _ ← releaseIfPresent (keyOf x))
          = ((do let _ ← releaseIfPresent (keyOf x)) >>= fun _ =>
              l.forM fun x => do let _ ← releaseIfPresent (keyOf x) :
            Method Exn BudgetReservationLedger PUnit) := rfl
      rw [hcons, Method.call_bind]
      simp only [Method.call_bind, call_releaseIfPresent, Method.call_pure]
      rw [ih]
      have hfilter : without (l.map keyOf) (Dict.erase (keyOf x) ledger.reservations)
          = without ((x :: l).map keyOf) ledger.reservations := by
        unfold without Dict.erase
        rw [List.filter_filter]
        refine List.filter_congr fun e _ => ?_
        by_cases hx : e.1 = keyOf x <;> by_cases hl : e.1 ∈ l.map keyOf <;> simp_all
      rw [hfilter]

/-- Taking back the last reservations leaves the first ones. -/
theorem without_append (hfresh : ∀ node ∈ reserved, node.key ∉ base.map (·.1)) :
    without (reserved.map (·.key)) (base ++ reserved.map fun node => (node.key, node.budget))
      = base := by
  unfold without
  rw [List.filter_append]
  have hkept : base.filter (fun e => decide (e.1 ∉ reserved.map (·.key))) = base := by
    refine List.filter_eq_self.mpr fun e he => decide_eq_true fun hkey => ?_
    obtain ⟨node, hnode, heq⟩ := List.mem_map.mp hkey
    exact hfresh node hnode (heq ▸ List.mem_map_of_mem he)
  have hgone : (reserved.map fun node => (node.key, node.budget)).filter
      (fun e => decide (e.1 ∉ reserved.map (·.key))) = [] := by
    refine List.filter_eq_nil_iff.mpr fun e he => ?_
    obtain ⟨node, hnode, rfl⟩ := List.mem_map.mp he
    simpa using ⟨node, hnode, rfl⟩
  rw [hkept, hgone, List.append_nil]

/-! ## Reserving many -/

/-- Enter the reservation of a node. -/
def enter (ledger : BudgetReservationLedger) (node : WorkflowStepSpec) : BudgetReservationLedger :=
  { ledger with reservations := ledger.reservations ++ [(node.key, node.budget)] }

variable (floats) in
/-- Node after node can be reserved. -/
def AllReservable (clock : Nat → DateTime) :
    Nat → List WorkflowStepSpec → BudgetReservationLedger → Prop
  | _, [], _ => True
  | k, node :: rest, ledger =>
      ledger.Reservable floats node.key node.budget (clock k)
        ∧ AllReservable clock (k + 1) rest (ledger.enter node)

/-- **The loop reserves for every node, or it takes all its reservations back.** -/
theorem reserveNodes_cases (floats : FloatArithmetic) (clock : Nat → DateTime)
    (nodes : List WorkflowStepSpec)
    (hres : ledger.reservations = base ++ reserved.map fun node => (node.key, node.budget))
    (hfresh : ∀ node ∈ reserved, node.key ∉ base.map (·.1)) :
    (AllReservable floats clock reserved.length nodes ledger ∧
      ∃ r, (reserveNodes floats clock reserved nodes).call ledger
        = (.ok r, nodes.foldl enter ledger)) ∨
    (¬ AllReservable floats clock reserved.length nodes ledger ∧
      ∃ e, (reserveNodes floats clock reserved nodes).call ledger
        = (.error e, { ledger with reservations := base })) := by
  induction nodes generalizing ledger reserved with
  | nil => exact .inl ⟨trivial, reserved, rfl⟩
  | cons node rest ih =>
      rw [reserveNodes, Method.call_bind, Method.call_tryCatch]
      rcases reserve_cases floats ledger node.key node.budget (clock reserved.length) with
        ⟨hok, hcall⟩ | ⟨hrefused, e, hcall⟩
      · have hres' : (ledger.enter node).reservations
            = base ++ (reserved ++ [node]).map fun node => (node.key, node.budget) := by
          rw [enter, hres, List.map_append, List.append_assoc]
          rfl
        have hfresh' : ∀ n ∈ reserved ++ [node], n.key ∉ base.map (·.1) := by
          intro n hn
          rcases List.mem_append.mp hn with hn | hn
          · exact hfresh n hn
          · obtain rfl := List.mem_singleton.mp hn
            intro hmem
            refine hok.fresh ?_
            rw [keys, hres, List.map_append]
            exact List.mem_append_left _ hmem
        have hlength : (reserved ++ [node]).length = reserved.length + 1 := by simp
        simp only [Method.call_bind, hcall, Method.call_pure]
        rcases ih hres' hfresh' with ⟨hall, r, hrest⟩ | ⟨hnot, e, hrest⟩
        · rw [hlength] at hall
          exact .inl ⟨⟨hok, hall⟩, r, hrest⟩
        · rw [hlength] at hnot
          exact .inr ⟨fun h => hnot h.2, e, hrest⟩
      · have hback : ((do
            rollBack reserved
            throw e) : Method Exn BudgetReservationLedger Unit).call ledger
            = (.error e, { ledger with reservations := base }) := by
          have hroll : (rollBack reserved).call ledger
              = (.ok (), { ledger with reservations := base }) := by
            rw [rollBack, release_all (fun node : WorkflowStepSpec => node.key), hres,
              without_append hfresh]
          rw [Method.call_bind, hroll]
          rfl
        simp only [Method.call_bind, hcall]
        refine .inr ⟨fun h => hrefused h.1, e, ?_⟩
        simp only [Method.call_bind] at hback
        rw [hback]

/-! ## What the loop asks, in sums -/

variable (floats) in
/--
Some nodes can be reserved from the `k`th reading of the clock on: their keys are new, each
can end before the deadline of its phase, and all of them together stay within the limits.
-/
structure Submittable (clock : Nat → DateTime) (k : Nat) (nodes : List WorkflowStepSpec)
    (ledger : BudgetReservationLedger) : Prop where
  distinct : (nodes.map (·.key)).Nodup
  fresh : ∀ node ∈ nodes, node.key ∉ ledger.keys
  inTime : ∀ i node, nodes[i]? = some node →
    (clock (k + i)).aware = true ∧ (clock (k + i)).instant + timedelta floats node.budget.estimatedSeconds
      < ledger.guard.deadlineFor floats node.budget.phase
  within : nodes ≠ [] → WithinLimits floats ledger.guard ledger.usage
    (ledger.costs ++ nodes.map fun node => node.budget)

theorem WorkflowStepSpec.named (node : WorkflowStepSpec) : Text.isBlank node.key = false := by
  have h := node.valid
  simp only [SpecFields.postInit, bind_ok_iff, check_eq_ok, Bool.not_eq_true',
    Bool.or_eq_false_iff] at h
  exact h.choose_spec.1.1

theorem costs_enter (node : WorkflowStepSpec) :
    (ledger.enter node).costs = ledger.costs ++ [node.budget] := by
  rw [costs, enter, List.map_append]
  rfl

theorem keys_enter (node : WorkflowStepSpec) :
    (ledger.enter node).keys = ledger.keys ++ [node.key] := by
  rw [keys, enter, List.map_append]
  rfl

theorem allReservable_iff :
    AllReservable floats clock k nodes ledger ↔ Submittable floats clock k nodes ledger := by
  induction nodes generalizing ledger k with
  | nil => exact iff_of_true trivial ⟨by simp, by simp, by simp, fun h => absurd rfl h⟩
  | cons node rest ih =>
      have happend : (ledger.enter node).costs ++ (rest.map fun node => node.budget)
          = ledger.costs ++ ((node :: rest).map fun node => node.budget) := by
        rw [costs_enter, List.append_assoc]
        rfl
      rw [AllReservable, ih]
      constructor
      · rintro ⟨hok, hrest⟩
        refine ⟨?_, ?_, ?_, fun _ => ?_⟩
        · rw [List.map_cons, List.nodup_cons]
          refine ⟨fun hmem => ?_, hrest.distinct⟩
          obtain ⟨n, hn, hkey⟩ := List.mem_map.mp hmem
          refine hrest.fresh n hn ?_
          rw [keys_enter, hkey]
          exact List.mem_append_right _ (List.mem_singleton_self _)
        · intro n hn
          rcases List.mem_cons.mp hn with rfl | hn
          · exact hok.fresh
          · intro hmem
            refine hrest.fresh n hn ?_
            rw [keys_enter]
            exact List.mem_append_left _ hmem
        · intro i n hi
          cases i with
          | zero =>
              obtain rfl := Option.some.inj hi
              exact ⟨hok.aware, hok.inTime⟩
          | succ i =>
              have := hrest.inTime i n hi
              rwa [Nat.add_assoc, Nat.add_comm 1 i] at this
        · by_cases hnil : rest = []
          · subst hnil
            exact hok.within
          · have := hrest.within hnil
            rwa [happend] at this
      · intro h
        have hwithin := h.within (List.cons_ne_nil _ _)
        have hdistinct := h.distinct
        rw [List.map_cons, List.nodup_cons] at hdistinct
        have hfirst := h.inTime 0 node rfl
        refine ⟨⟨WorkflowStepSpec.named node, h.fresh node List.mem_cons_self, hfirst.1, hfirst.2, ?_⟩,
          hdistinct.2, ?_, ?_, fun _ => ?_⟩
        · refine hwithin.sublist ?_
          rw [List.map_cons]
          exact (List.Sublist.refl _).append (List.cons_sublist_cons.mpr (List.nil_sublist _))
        · intro n hn hmem
          rw [keys_enter, List.mem_append, List.mem_singleton] at hmem
          rcases hmem with hmem | hkey
          · exact h.fresh n (List.mem_cons_of_mem _ hn) hmem
          · exact hdistinct.1 (hkey ▸ List.mem_map_of_mem hn)
        · intro i n hi
          have := h.inTime (i + 1) n hi
          rwa [Nat.add_assoc, Nat.add_comm 1 i]
        · rw [happend]
          exact hwithin

end BudgetReservationLedger

/-! ## All or nothing -/

open BudgetReservationLedger in
/--
**A refused submission restores the ledger exactly where nothing was released.** Of every
ledger, every decision and every clock: a call of `reserve_submissions` that raises leaves the
ledger as it was, if and only if no step whose reservation the decision releases holds one, or
the submitted steps can all be reserved for once those have been released. Seconds are added as
floats are.
-/
theorem submission_all_or_nothing_iff (floats : FloatArithmetic) (ledger : BudgetReservationLedger)
    (advance : WorkflowAdvance) (clock : Nat → DateTime) :
    (∀ e after, (reserveSubmissions floats advance clock).call ledger = (.error e, after) →
        after = ledger) ↔
      (∀ key ∈ advance.releaseReservations, key ∉ ledger.keys) ∨
      Submittable floats clock 0 advance.submit { ledger with
        reservations := without advance.releaseReservations ledger.reservations } := by
  let released : BudgetReservationLedger := { ledger with
    reservations := without advance.releaseReservations ledger.reservations }
  have hcall : (reserveSubmissions floats advance clock).call ledger
      = (reserveNodes floats clock [] advance.submit).call released := by
    have hall := release_all (fun key : String => key) advance.releaseReservations ledger
    rw [List.map_id'] at hall
    rw [reserveSubmissions, Method.call_bind, hall]
  rw [hcall, ← allReservable_iff]
  have hbase : released.reservations = released.reservations ++
      ([] : List WorkflowStepSpec).map fun node => (node.key, node.budget) := by simp
  rcases reserveNodes_cases floats clock advance.submit hbase (by simp) with
    ⟨hok, r, hres⟩ | ⟨hrefused, e, hres⟩
  · refine iff_of_true (fun e after herr => ?_) (.inr hok)
    rw [hres] at herr
    cases herr
  · rw [hres, ← without_eq_self_iff]
    constructor
    · intro h
      exact .inl (congrArg BudgetReservationLedger.reservations (h e _ rfl))
    · rintro (hkept | hok) e' after herr
      · obtain ⟨-, rfl⟩ := Prod.mk.inj herr
        have hsame : released.reservations = ledger.reservations := hkept
        rw [hsame]
      · exact absurd hok hrefused

namespace Sample

/-- What is decided half a second before the hard deadline, when a query is still ready. -/
def lateDecision : WorkflowAdvance where
  submit := (graph.node "synthesize").toList
  cancel := worthless
  skip := []
  releaseReservations := worthless
  deadlineFallback := true

/-- The ledger that holds the reservation of the query. -/
def pendingLedger : BudgetReservationLedger where
  guard := fastGuard
  usage := ⟨{}, postInit_unused⟩
  reservations := [("discover:query", queryCost)]

end Sample

/--
**A submission is refused and the ledger is not restored.** Half a second before the hard
deadline synthesis would take too long; the query's reservation has been released by then and
stays so.
-/
theorem submission_not_restored :
    Sample.graph.advance [("route", .succeeded), ("plan", .succeeded)] Aggregate.Sample.builtins
        Sample.guard (seconds 14 + 500000) = .ok Sample.lateDecision ∧
    BudgetReservationLedger.new .binary64 fastGuard ⟨{}, by decide⟩ [⟨"discover:query", queryCost⟩]
      = .ok Sample.pendingLedger ∧
    (reserveSubmissions .binary64 Sample.lateDecision fun _ => ⟨seconds 14 + 500000, true⟩).call
        Sample.pendingLedger
      = (.error (budgetExceeded "deadline"), { Sample.pendingLedger with reservations := [] }) := by
  decide +kernel

end Sana.Orchestration.SearchWorkflow
