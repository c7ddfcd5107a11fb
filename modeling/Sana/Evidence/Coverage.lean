import Sana.Evidence.Domain

/-!
# How well a fact is covered

`CoverageEvaluator.evaluate` looks at the accepted evidence of one fact. Both
directions together are a conflict and leave the fact PARTIAL. Otherwise what
counts is how many sources there are and how authoritative they are; in which of
the two directions they speak does not.
-/

namespace Sana.Evidence

open Sana.Lib Sana.Planning

/-- `FactCoverage`. -/
inductive FactCoverage
  | opened | covered | verified | partially
deriving DecidableEq, Repr

def FactCoverage.value : FactCoverage → String
  | .opened => "OPEN"
  | .covered => "COVERED"
  | .verified => "VERIFIED"
  | .partially => "PARTIAL"

/-- `CoverageAssessment`. -/
structure CoverageAssessment where
  tenantId : Uuid
  runId : Uuid
  factRequirementId : Uuid
  factKey : String
  status : FactCoverage
  level : Option EvidenceLevel
  evidenceIds : List Uuid
  supportingIds : List Uuid
  contradictingIds : List Uuid
  reasonCodes : List String
  requiresResearchUpgrade : Bool
deriving DecidableEq, Repr

/-- The item is accepted evidence of this fact of this run. -/
def IsAccepted (tenantId runId factId : Uuid) (e : VerifiedEvidence) : Prop :=
  e.tenantId = tenantId ∧ e.runId = runId ∧ e.factRequirementId = factId ∧ e.verdict = .accepted

instance (tenantId runId factId : Uuid) : DecidablePred (IsAccepted tenantId runId factId) :=
  fun _ => inferInstanceAs (Decidable (_ ∧ _ ∧ _ ∧ _))

section Evaluate

variable (tenantId runId factId : Uuid) (evidence : List VerifiedEvidence)

/-- `accepted`: the first accepted item of every identifier. -/
def accepted : List VerifiedEvidence :=
  distinctBy (·.id) (evidence.filter (IsAccepted tenantId runId factId ·))

def supports : List VerifiedEvidence :=
  (accepted tenantId runId factId evidence).filter (·.supportType = .supports)

def contradicts : List VerifiedEvidence :=
  (accepted tenantId runId factId evidence).filter (·.supportType = .contradicts)

/-- The fact has accepted evidence in both directions. -/
def Conflicted : Prop :=
  supports tenantId runId factId evidence ≠ [] ∧ contradicts tenantId runId factId evidence ≠ []

instance : Decidable (Conflicted tenantId runId factId evidence) :=
  inferInstanceAs (Decidable (_ ∧ _))

/-- An official source, or two independent ones. -/
def isAuthoritative (items : List VerifiedEvidence) : Bool :=
  items.any (·.source.authority = .official) ||
    2 ≤ (distinctBy id ((items.filter (·.source.authority = .independent)).map
      (·.source.sourceIdentity))).length

/-- `CoverageEvaluator.evaluate`. -/
def evaluate (fact : FactRequirement) : CoverageAssessment :=
  let all := accepted tenantId runId factId evidence
  let pro := supports tenantId runId factId evidence
  let con := contradicts tenantId runId factId evidence
  let assessment : CoverageAssessment := {
    tenantId, runId, factRequirementId := factId, factKey := fact.key
    status := .opened, level := none, evidenceIds := all.map (·.id)
    supportingIds := pro.map (·.id), contradictingIds := con.map (·.id)
    reasonCodes := ["no_grounded_evidence"], requiresResearchUpgrade := false }
  if Conflicted tenantId runId factId evidence then
    { assessment with
      status := .partially, level := some .l1Grounded, reasonCodes := ["support_contradiction"]
      requiresResearchUpgrade := fact.freshness ≠ .stable || fact.consequence = .high }
  else if all = [] then assessment
  else
    let official := all.any (·.source.authority = .official)
    let isL2 := isAuthoritative all
    { assessment with
      status := if isL2 then .verified else .covered
      level := some (if isL2 then .l2Verified else .l1Grounded)
      reasonCodes := [if official then "official_source"
        else if isL2 then "two_independent_sources" else "single_grounded_source"] }

/-- The assessment of every fact of a plan. -/
def coverageOf (facts : List (Uuid × FactRequirement)) (id : Uuid) : Option CoverageAssessment :=
  (lookup (·.1) id facts).map fun f => evaluate tenantId runId id evidence f.2

end Evaluate

/-! ## What an assessment says -/

section Spec

variable {tenantId runId factId : Uuid} {evidence : List VerifiedEvidence} {fact : FactRequirement}

@[simp] theorem evaluate_tenantId :
    (evaluate tenantId runId factId evidence fact).tenantId = tenantId := by
  simp only [evaluate]
  split_ifs <;> rfl

@[simp] theorem evaluate_runId : (evaluate tenantId runId factId evidence fact).runId = runId := by
  simp only [evaluate]
  split_ifs <;> rfl

@[simp] theorem evaluate_evidenceIds : (evaluate tenantId runId factId evidence fact).evidenceIds
    = (accepted tenantId runId factId evidence).map (·.id) := by
  simp only [evaluate]
  split_ifs <;> rfl

@[simp] theorem evaluate_supportingIds :
    (evaluate tenantId runId factId evidence fact).supportingIds
      = (supports tenantId runId factId evidence).map (·.id) := by
  simp only [evaluate]
  split_ifs <;> rfl

theorem evaluate_status : (evaluate tenantId runId factId evidence fact).status =
    if Conflicted tenantId runId factId evidence then .partially
    else if accepted tenantId runId factId evidence = [] then .opened
    else if isAuthoritative (accepted tenantId runId factId evidence) then .verified
    else .covered := by
  simp only [evaluate]
  split_ifs <;> rfl

/-- PARTIAL means a conflict. -/
theorem evaluate_partially :
    (evaluate tenantId runId factId evidence fact).status = .partially ↔
      Conflicted tenantId runId factId evidence := by
  rw [evaluate_status]
  split_ifs with h1 h2 h3 <;> simp [h1]

/-- A fact counts as covered if it has accepted evidence, all in one direction. -/
theorem evaluate_covered :
    ((evaluate tenantId runId factId evidence fact).status = .covered ∨
      (evaluate tenantId runId factId evidence fact).status = .verified) ↔
      accepted tenantId runId factId evidence ≠ [] ∧
        ¬ Conflicted tenantId runId factId evidence := by
  rw [evaluate_status]
  split_ifs with h1 h2 h3
  · simp [h1]
  · simp [h2]
  · simp [h1, h2]
  · simp [h1, h2]

end Spec

end Sana.Evidence
