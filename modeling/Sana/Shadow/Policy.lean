import Sana.Shadow.Canonical
import Sana.Shadow.Evaluator

/-!
# Frozen gate policies

A gate policy is frozen as its canonical snapshot and built again from it when a report is
generated. The cost threshold is a `Decimal` here, with its special values, as the source
has it.
-/

namespace Sana.Shadow

open Sana.Lib Orchestration

def GateKind.value : GateKind → String
  | .smoke => "SMOKE"
  | .full => "FULL"

namespace Policy

variable {φ : Type}

/-- `not s.strip()`: there are only blanks, and a surrogate is none. -/
def isBlank (s : PyStr) : Bool :=
  s.all fun
    | .scalar c => Text.isSpace c
    | .lone _ => false

/-- The fields of a `GatePolicy`. -/
structure PolicyFields where
  version : PyStr
  kind : GateKind
  minTerminalResults : Int
  minActualFastResults : Int
  minActualResearchResults : Int
  minDistinctCases : Int
  minUnanswerableCases : Int
  minUnanswerableResults : Int
  requiredReviews : Int
  requiredGoldCases : Int
  fastLatencyP95Ms : Int
  researchLatencyP95Ms : Int
  minModeAccuracyBps : Int
  minCoverageMacroBps : Int
  minCoverageStratumBps : Int
  minGoldPassBps : Int
  minReviewCorrectBps : Int
  minReviewCitationBps : Int
  minReviewSourceBps : Int
  minReviewFreshnessBps : Int
  minReviewCompletenessBps : Int
  minUnanswerableGapBps : Int
  maxDegradedBps : Int
  maxInfrastructureFailureBps : Int
  maxProjectedFullCostUsd : Option Decimal := none
  requireEveryRunWithinDeadline : Bool := false
  requireExactSampleCounts : Bool := false
deriving DecidableEq, Repr

namespace PolicyFields

variable (f : PolicyFields)

/-- `count_values`. -/
def countValues : List Int :=
  [f.minTerminalResults, f.minActualFastResults, f.minActualResearchResults, f.minDistinctCases,
    f.minUnanswerableCases, f.minUnanswerableResults, f.requiredReviews, f.requiredGoldCases]

/-- `basis_points`. -/
def basisPoints : List Int :=
  [f.minModeAccuracyBps, f.minCoverageMacroBps, f.minCoverageStratumBps, f.minGoldPassBps,
    f.minReviewCorrectBps, f.minReviewCitationBps, f.minReviewSourceBps, f.minReviewFreshnessBps,
    f.minReviewCompletenessBps, f.minUnanswerableGapBps, f.maxDegradedBps,
    f.maxInfrastructureFailureBps]

/-- The check of the cost threshold: a comparison, which an infinity passes. -/
def checkCost : Except Exn Unit :=
  match f.maxProjectedFullCostUsd with
  | none => .ok ()
  | some cost =>
      match cost.nonpos with
      | none => .error (.valueError "decimal.InvalidOperation")
      | some true => .error (.valueError "Projected cost threshold must be positive")
      | some false => .ok ()

/-- `__post_init__`. -/
def postInit : Except Exn Unit := do
  if isBlank f.version then .error (.valueError "Gate policy version cannot be empty")
  else if f.countValues.any (· < 0) then
    .error (.valueError "Gate sample counts cannot be negative")
  else if f.fastLatencyP95Ms ≤ 0 ∨ f.researchLatencyP95Ms ≤ 0 then
    .error (.valueError "Gate latency thresholds must be positive")
  else if f.basisPoints.any (fun v => ¬(0 ≤ v ∧ v ≤ 10000)) then
    .error (.valueError "Gate ratios must use basis points between zero and 10000")
  else f.checkCost

/-- The fields by their names. -/
def entries : List (String × PyValue φ) :=
  [("version", .str f.version), ("kind", .strEnum (PyStr.ofString f.kind.value)),
    ("min_terminal_results", .int f.minTerminalResults),
    ("min_actual_fast_results", .int f.minActualFastResults),
    ("min_actual_research_results", .int f.minActualResearchResults),
    ("min_distinct_cases", .int f.minDistinctCases),
    ("min_unanswerable_cases", .int f.minUnanswerableCases),
    ("min_unanswerable_results", .int f.minUnanswerableResults),
    ("required_reviews", .int f.requiredReviews),
    ("required_gold_cases", .int f.requiredGoldCases),
    ("fast_latency_p95_ms", .int f.fastLatencyP95Ms),
    ("research_latency_p95_ms", .int f.researchLatencyP95Ms),
    ("min_mode_accuracy_bps", .int f.minModeAccuracyBps),
    ("min_coverage_macro_bps", .int f.minCoverageMacroBps),
    ("min_coverage_stratum_bps", .int f.minCoverageStratumBps),
    ("min_gold_pass_bps", .int f.minGoldPassBps),
    ("min_review_correct_bps", .int f.minReviewCorrectBps),
    ("min_review_citation_bps", .int f.minReviewCitationBps),
    ("min_review_source_bps", .int f.minReviewSourceBps),
    ("min_review_freshness_bps", .int f.minReviewFreshnessBps),
    ("min_review_completeness_bps", .int f.minReviewCompletenessBps),
    ("min_unanswerable_gap_bps", .int f.minUnanswerableGapBps),
    ("max_degraded_bps", .int f.maxDegradedBps),
    ("max_infrastructure_failure_bps", .int f.maxInfrastructureFailureBps),
    ("max_projected_full_cost_usd", f.maxProjectedFullCostUsd.elim .none .decimal),
    ("require_every_run_within_deadline", .bool f.requireEveryRunWithinDeadline),
    ("require_exact_sample_counts", .bool f.requireExactSampleCounts)]

/-- The object, as `_canonical_value` sees it. -/
def toPy : PyValue φ :=
  .dataclass "GatePolicy" (f.entries.map fun m => (PyStr.ofString m.1, m.2))

end PolicyFields

/-- `GatePolicy`. -/
structure GatePolicy extends PolicyFields where
  valid : toPolicyFields.postInit = .ok ()

namespace GatePolicy

def make : PolicyFields → Except Exn GatePolicy := Aggregate.checked PolicyFields.postInit mk

/-- `==` of two policies: all fields are equal, the thresholds by their values. -/
def Equals (p q : GatePolicy) : Prop :=
  { p.toPolicyFields with maxProjectedFullCostUsd := none } =
      { q.toPolicyFields with maxProjectedFullCostUsd := none } ∧
    Option.Rel (fun c d => c.eq d = true) p.maxProjectedFullCostUsd q.maxProjectedFullCostUsd

variable (b : SnapshotBuiltins φ) (p : GatePolicy)

/-- `snapshot`. -/
def snapshot : Except Exn (PyValue φ) := b.canonicalSnapshot p.toPy

/-- `sha256`. -/
def sha256 : Except Exn String := do b.snapshotHash (← p.snapshot b)

end GatePolicy

/-- `SHADOW_SMOKE_GATE_V1`. -/
def shadowSmokeGateV1 : GatePolicy where
  version := PyStr.ofString "shadow-smoke-gate-v1"
  kind := .smoke
  minTerminalResults := 6
  minActualFastResults := 3
  minActualResearchResults := 3
  minDistinctCases := 6
  minUnanswerableCases := 1
  minUnanswerableResults := 1
  requiredReviews := 0
  requiredGoldCases := 0
  fastLatencyP95Ms := 15000
  researchLatencyP95Ms := 120000
  minModeAccuracyBps := 0
  minCoverageMacroBps := 0
  minCoverageStratumBps := 0
  minGoldPassBps := 0
  minReviewCorrectBps := 0
  minReviewCitationBps := 0
  minReviewSourceBps := 0
  minReviewFreshnessBps := 0
  minReviewCompletenessBps := 0
  minUnanswerableGapBps := 0
  maxDegradedBps := 10000
  maxInfrastructureFailureBps := 0
  maxProjectedFullCostUsd := some (.finite false 10 (-2))
  requireEveryRunWithinDeadline := true
  requireExactSampleCounts := true
  valid := by decide

/-! ## From a snapshot -/

/-- `fields(GatePolicy)`. -/
def fieldNames : List String :=
  ["version", "kind", "min_terminal_results", "min_actual_fast_results",
    "min_actual_research_results", "min_distinct_cases", "min_unanswerable_cases",
    "min_unanswerable_results", "required_reviews", "required_gold_cases", "fast_latency_p95_ms",
    "research_latency_p95_ms", "min_mode_accuracy_bps", "min_coverage_macro_bps",
    "min_coverage_stratum_bps", "min_gold_pass_bps", "min_review_correct_bps",
    "min_review_citation_bps", "min_review_source_bps", "min_review_freshness_bps",
    "min_review_completeness_bps", "min_unanswerable_gap_bps", "max_degraded_bps",
    "max_infrastructure_failure_bps", "max_projected_full_cost_usd",
    "require_every_run_within_deadline", "require_exact_sample_counts"]

/-- The snapshot is refused. -/
def snapshotInvalid (message : String) : Exn := .invariant message "gate_policy_snapshot_invalid"

/-- `GateKind(str(value))`. -/
def kindOf : PyValue φ → Except Exn GateKind
  | .str s | .strEnum s =>
      if s = PyStr.ofString GateKind.smoke.value then .ok .smoke
      else if s = PyStr.ofString GateKind.full.value then .ok .full
      else .error (.valueError "not a valid GateKind")
  | _ => .error (.valueError "not a valid GateKind")

/-- `Decimal(text)`: without the blanks around it and its underscores; a surrogate is no digit. -/
def decimalOfText (text : PyStr) : Except Exn Decimal :=
  match text.chars?.bind fun cs => Decimal.ofText ((Text.stripChars cs).filter (· ≠ '_')) with
  | some d => .ok d
  | none => .error (.valueError "decimal.InvalidOperation")

/-- The cost threshold: `Decimal(str(value))` unless it is `None`. -/
def costOf (b : SnapshotBuiltins φ) : PyValue φ → Except Exn (Option Decimal)
  | .none => .ok none
  | .str s | .strEnum s => do return some (← decimalOfText s)
  | .int n =>
      if isPrintable n then do return some (← decimalOfText (PyStr.ascii (JsonText.intText n)))
      else .error (.valueError "Exceeds the limit (4300 digits) for integer string conversion")
  | .float x => do return some (← decimalOfText (PyStr.ascii (b.repr x)))
  | .decimal d => .ok (some d)
  | _ => .error (.valueError "decimal.InvalidOperation")

/-- A field that is annotated as a string. -/
def strOf : PyValue φ → Except Exn PyStr
  | .str s | .strEnum s => .ok s
  | _ => .error (.typeError "not a str")

/-- A field that is annotated as an integer. -/
def intOf : PyValue φ → Except Exn Int
  | .int n => .ok n
  | _ => .error (.typeError "not an int")

/-- A field that is annotated as a flag. -/
def boolOf : PyValue φ → Except Exn Bool
  | .bool x => .ok x
  | _ => .error (.typeError "not a bool")

/-- The arguments of `GatePolicy(**converted)`. -/
def fieldsOf (b : SnapshotBuiltins φ) (get : String → PyValue φ) : Except Exn PolicyFields := do
  let kind ← kindOf (get "kind")
  let cost ← costOf b (get "max_projected_full_cost_usd")
  return {
    version := ← strOf (get "version")
    kind := kind
    minTerminalResults := ← intOf (get "min_terminal_results")
    minActualFastResults := ← intOf (get "min_actual_fast_results")
    minActualResearchResults := ← intOf (get "min_actual_research_results")
    minDistinctCases := ← intOf (get "min_distinct_cases")
    minUnanswerableCases := ← intOf (get "min_unanswerable_cases")
    minUnanswerableResults := ← intOf (get "min_unanswerable_results")
    requiredReviews := ← intOf (get "required_reviews")
    requiredGoldCases := ← intOf (get "required_gold_cases")
    fastLatencyP95Ms := ← intOf (get "fast_latency_p95_ms")
    researchLatencyP95Ms := ← intOf (get "research_latency_p95_ms")
    minModeAccuracyBps := ← intOf (get "min_mode_accuracy_bps")
    minCoverageMacroBps := ← intOf (get "min_coverage_macro_bps")
    minCoverageStratumBps := ← intOf (get "min_coverage_stratum_bps")
    minGoldPassBps := ← intOf (get "min_gold_pass_bps")
    minReviewCorrectBps := ← intOf (get "min_review_correct_bps")
    minReviewCitationBps := ← intOf (get "min_review_citation_bps")
    minReviewSourceBps := ← intOf (get "min_review_source_bps")
    minReviewFreshnessBps := ← intOf (get "min_review_freshness_bps")
    minReviewCompletenessBps := ← intOf (get "min_review_completeness_bps")
    minUnanswerableGapBps := ← intOf (get "min_unanswerable_gap_bps")
    maxDegradedBps := ← intOf (get "max_degraded_bps")
    maxInfrastructureFailureBps := ← intOf (get "max_infrastructure_failure_bps")
    maxProjectedFullCostUsd := cost
    requireEveryRunWithinDeadline := ← boolOf (get "require_every_run_within_deadline")
    requireExactSampleCounts := ← boolOf (get "require_exact_sample_counts") }

/-- `gate_policy_from_snapshot`. -/
def gatePolicyFromSnapshot (b : SnapshotBuiltins φ) : PyValue φ → Except Exn GatePolicy
  | .mapping members =>
      let names := members.map (·.1)
      let expected := fieldNames.map PyStr.ofString
      if names.all expected.contains ∧ expected.all names.contains then
        match fieldsOf b (fun name => (members.lookup (PyStr.ofString name)).getD .none) >>=
          GatePolicy.make with
        | .ok policy => .ok policy
        | .error _ => .error (snapshotInvalid "Frozen GatePolicy snapshot is invalid")
      else .error (snapshotInvalid "Frozen GatePolicy snapshot has an unexpected schema")
  | _ => .error (.typeError "not a mapping")

end Policy

end Sana.Shadow
