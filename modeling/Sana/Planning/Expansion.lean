import Sana.Lib.Dict
import Sana.Planning.QueryCompiler

/-!
# Expansion rounds

After a round of research `ExpansionPlanner.plan` decides whether another one is worth it, and for
which facts. A round that goes on has new queries, one discovery step for each, and the gain that is
expected of it.
-/

namespace Sana.Planning

open Sana.Lib Sana.Orchestration

/-- `ExpansionStopReason`. -/
inductive ExpansionStopReason
  | expand | maxRounds | lowExpectedGain | queryBudgetExhausted | noRequiredGaps
deriving DecidableEq, Repr

/-- `ExpectedEvidenceGain`, less its reasons. -/
structure ExpectedEvidenceGain where
  factKey : String
  score : Rat
  range : 0 ≤ score ∧ score ≤ 1

/-- `RevisionStep`. -/
structure RevisionStep where
  stepKey : String
  stepType : StepType
  planRevision : Nat
  queryKey : String
deriving DecidableEq, Repr

/-- `ExpansionDecision`. -/
structure ExpansionDecision where
  shouldExpand : Bool
  planRevision : Nat
  queries : List QuerySpec
  steps : List RevisionStep
  expectedGain : Rat
  reason : ExpansionStopReason
  gainByFact : List (String × Rat)
deriving DecidableEq

/-- The checks of its constructor. -/
def ExpansionDecision.make (d : ExpansionDecision) : Except Exn ExpansionDecision :=
  if d.planRevision < 1 then .error (.valueError "Expansion revision must be positive")
  else if ¬(0 ≤ d.expectedGain ∧ d.expectedGain ≤ 1) then
    .error (.valueError "Expansion expected gain must be between zero and one")
  else if d.shouldExpand ≠ (!d.queries.isEmpty && !d.steps.isEmpty) then
    .error (.valueError "Expansion decision does not match generated work")
  else if d.shouldExpand ∧ d.reason ≠ .expand then
    .error (.valueError "Expanding decision requires EXPAND reason")
  else if ¬d.shouldExpand ∧ d.reason = .expand then
    .error (.valueError "Stopped decision cannot use EXPAND reason")
  else if d.queries.length ≠ d.steps.length then
    .error (.valueError "Every expansion query requires one discovery Step")
  else if d.queries.any (·.planRevision ≠ d.planRevision) then
    .error (.valueError "Expansion query belongs to another revision")
  else if (d.steps.zip d.queries).any fun p =>
      p.1.planRevision ≠ d.planRevision || p.1.queryKey ≠ p.2.key then
    .error (.valueError "Expansion Step does not match its query")
  else if d.gainByFact.any fun g => ¬(0 ≤ g.2 ∧ g.2 ≤ 1) then
    .error (.valueError "Per-fact evidence gain must be between zero and one")
  else .ok d

/-- `ExpansionPlanner`, less its compiler. -/
structure ExpansionPlanner where
  minimumExpectedGain : Rat := 2 / 5
  maxExpansionRounds : Nat := 2
  range : (0 ≤ minimumExpectedGain ∧ minimumExpectedGain ≤ 1) ∧ 1 ≤ maxExpansionRounds

namespace ExpansionPlanner

/-- `_stop`. -/
def stop (nextRevision : Nat) (reason : ExpansionStopReason) (gainByFact : List (String × Rat)) :
    Except Exn ExpansionDecision :=
  ExpansionDecision.make ⟨false, nextRevision, [], [], 0, reason, gainByFact⟩

/-- What a round is given besides the queries there are. -/
structure Round where
  intent : NormalizedIntent
  currentRevision : Nat
  completedExpansionRounds : Nat
  gapFactKeys : Finset String
  gains : List ExpectedEvidenceGain

/-- `gain_by_fact`. -/
def gainByFact (r : Round) : List (String × Rat) :=
  (r.gains.filter fun gain => decide (gain.factKey ∈ r.gapFactKeys)).foldl
    (fun d gain => Dict.set gain.factKey gain.score d) []

/-- `selected_facts`. -/
def selectedFacts (planner : ExpansionPlanner) (r : Round) : List FactRequirement :=
  r.intent.facts.filter fun fact => fact.required &&
    (gainByFact r).any fun g => g.1 = fact.key && decide (planner.minimumExpectedGain ≤ g.2)

/-- `narrowed_intent`. -/
def narrowedIntent (intent : NormalizedIntent) (facts : List FactRequirement)
    (hne : facts ≠ []) (hsub : facts.Sublist intent.facts) : NormalizedIntent where
  entity := intent.entity
  aliases := intent.aliases
  locale := intent.locale
  facts
  requiresComparison := intent.requiresComparison
  requiresCompleteSources := intent.requiresCompleteSources
  given := ⟨intent.given.1, intent.given.2.1, hne⟩
  entity_term := intent.entity_term
  alias_terms := intent.alias_terms
  keys := intent.keys.sublist (hsub.map _)

/-- The gain that is expected of some facts: the mean of theirs. -/
def meanGain (gains : List (String × Rat)) (facts : List FactRequirement) : Rat :=
  (facts.map fun fact => (gains.lookup fact.key).getD 0).sum / facts.length

variable (py : CompilerText) (policy : SearchPlanningPolicy)

/-- `plan`. -/
def plan (planner : ExpansionPlanner) (r : Round) (existingQueries : List QuerySpec) :
    Except Exn ExpansionDecision :=
  let nextRevision := r.currentRevision + 1
  let gains := gainByFact r
  if r.currentRevision < 1 then
    .error (.valueError "Expansion revision and round counters are invalid")
  else if r.completedExpansionRounds ≥ planner.maxExpansionRounds then
    stop nextRevision .maxRounds []
  else if r.gapFactKeys = ∅ then stop nextRevision .noRequiredGaps []
  else if (gains.any fun g => decide (planner.minimumExpectedGain ≤ g.2)) = false then
    stop nextRevision .lowExpectedGain gains
  else if hne : selectedFacts planner r = [] then stop nextRevision .noRequiredGaps gains
  else do
    let facts := selectedFacts planner r
    let queries ← compile py policy (narrowedIntent r.intent facts hne List.filter_sublist)
      .research nextRevision true (existingQueries.map (·.signature)).toFinset
    if queries.isEmpty then stop nextRevision .queryBudgetExhausted gains
    else
      ExpansionDecision.make {
        shouldExpand := true
        planRevision := nextRevision
        queries
        steps := queries.map fun query =>
          ⟨"discover:" ++ query.key, .discovery, nextRevision, query.key⟩
        expectedGain := meanGain gains facts
        reason := .expand
        gainByFact := gains }

end ExpansionPlanner

end Sana.Planning
