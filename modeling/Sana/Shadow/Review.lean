import Sana.Shadow.Store

/-!
# Reviews

A result that was selected when the campaign was planned is reviewed once it is
collected: by the campaign's owner, or by the system where there is nothing to
review. A review is given once and only inside the review window; giving the same
review again is a replay.
-/

namespace Sana.Shadow

open Sana.Lib

/-- `ReviewSubmission`. -/
structure ReviewSubmission where
  campaignId : Uuid
  resultId : Uuid
  rubricVersion : String
  correctnessVerdict : ReviewVerdict
  citationRelevance : ReviewScore
  sourceAppropriateness : ReviewScore
  freshness : ReviewScore
  completeness : ReviewScore
  reasonCodes : List String
  actorType : ReviewActor
  reviewerUserId : Option Uuid
deriving DecidableEq, Repr

/-- `HUMAN_REVIEW_REASON_CODES`. -/
def humanReviewReasonCodes : List String := [
  "citation_irrelevant", "contradiction", "incomplete_answer", "incorrect_fact",
  "material_missing", "missing_detail", "source_inappropriate", "stale_source",
  "unsupported_claim"]

/-- `_REASON_CODE`. -/
def isReasonCode (s : String) : Bool :=
  let letters := "abcdefghijklmnopqrstuvwxyz".toList
  s.length ≤ 100 && match s.toList with
    | [] => false
    | first :: rest => first ∈ letters && rest.all (· ∈ letters ++ "0123456789_".toList)

namespace ReviewSubmission

/-- The scores of a review. -/
def scores (s : ReviewSubmission) : List ReviewScore :=
  [s.citationRelevance, s.sourceAppropriateness, s.freshness, s.completeness]

/-- `expected_shape`: the verdict and the scores of a system review with a reason. -/
def expectedShape (reason : String) : Option (ReviewVerdict × List ReviewScore) :=
  if reason = "expected_answer_missing" then
    some (.majorError, [.notApplicable, .notApplicable, .notApplicable, .fail])
  else if reason = "review_material_unavailable" then
    some (.unreviewable, List.replicate 4 .notApplicable)
  else none

/-- The constructor of `ReviewSubmission`. -/
def make (s : ReviewSubmission) : Except Exn ReviewSubmission := do
  let rubric := Text.strip s.rubricVersion
  check (rubric ≠ "" && rubric.length ≤ 100)
    (.valueError "rubric_version must contain between 1 and 100 characters")
  let reasons := s.reasonCodes.map Text.strip |>.reverse.dedup.reverse
  check (reasons.length ≤ 20 && reasons.all isReasonCode)
    (.valueError "Review reason codes must be unique stable identifiers")
  match s.actorType with
  | .human => do
      check s.reviewerUserId.isSome (.valueError "Human review requires a reviewer principal")
      check (reasons.all (· ∈ humanReviewReasonCodes))
        (.valueError "Human review reason is not allowlisted by the rubric")
      check (s.correctnessVerdict = .correct || !reasons.isEmpty)
        (.valueError "Non-correct human review requires a reason code")
  | .system => do
      check s.reviewerUserId.isNone
        (.valueError "System review cannot carry a reviewer principal")
      match reasons with
      | [reason] =>
          check (expectedShape reason).isSome
            (.valueError "System review reason is not allowlisted")
          check (expectedShape reason = some (s.correctnessVerdict, s.scores))
            (.valueError "System review must use its canonical verdict and scores")
      | _ => .error (.valueError "System review reason is not allowlisted")
  check (s.correctnessVerdict ≠ .unreviewable || s.scores.all (· = .notApplicable))
    (.valueError "Unreviewable records must use NOT_APPLICABLE scores")
  return { s with rubricVersion := rubric, reasonCodes := reasons }

/-- The row of a submission. -/
def row (s : ReviewSubmission) (id : Uuid) : Review where
  id := id
  resultId := s.resultId
  rubricVersion := s.rubricVersion
  correctnessVerdict := s.correctnessVerdict
  citationRelevance := s.citationRelevance
  sourceAppropriateness := s.sourceAppropriateness
  freshness := s.freshness
  completeness := s.completeness
  reasonCodes := s.reasonCodes
  actorType := s.actorType
  reviewerUserId := s.reviewerUserId

end ReviewSubmission

/-- `SqlShadowReviewRepository.add`. -/
def addReview (uuid5 : Uuid → String → Uuid) (db : Db) (now : Time) (s : ReviewSubmission) :
    Except Exn Db := do
  let s ← s.make
  let (c, r) ← db.lockedRows s.campaignId s.resultId
    (.invariant "Campaign is missing" "campaign_not_found")
    (.invariant "Result is missing" "campaign_result_not_found")
  check (r.manualReviewSelected && r.schedulingState = .collected)
    (.invariant "Result is not an eligible preselected review unit" "review_result_not_eligible")
  check (s.rubricVersion = c.reviewRubricVersion)
    (.invariant "Review rubric does not match the frozen Campaign" "review_rubric_mismatch")
  check (s.actorType ≠ .human || s.reviewerUserId = some c.createdByUserId)
    (.invariant "Only the Campaign owner may submit a human review" "review_owner_mismatch")
  check (s.reasonCodes ≠ ["expected_answer_missing"]
      || r.metrics.all (·.answerQuality = "NONE"))
    (.invariant "Expected-answer-missing review conflicts with the Result"
      "system_review_evidence_mismatch")
  match c.reviews.find? fun v => v.resultId = s.resultId && v.rubricVersion = s.rubricVersion with
  | some existing =>
      check (existing = s.row existing.id)
        (.invariant "Review was already submitted with different values" "review_conflict")
      return db
  | none =>
      check (c.status = .awaitingReview && c.reviewDeadlineAt.any (now ≤ ·))
        (.invariant "Campaign is outside its review window" "review_window_closed")
      let id := uuid5 r.id ("shadow-review:" ++ s.rubricVersion)
      (db.toTables.putCampaign { c with
        reviews := c.reviews ++ [s.row id], version := c.version + 1 }).commit

end Sana.Shadow
