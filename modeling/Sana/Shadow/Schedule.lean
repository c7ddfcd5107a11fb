import Mathlib.Data.Prod.Lex
import Mathlib.Data.String.Basic
import Sana.Lib.Ranking
import Sana.Shared.Json
import Sana.Shadow.Manifest

/-!
# Run plans

The plan of a campaign has one run for every case and repetition. The cases of a stratum are
taken in the order of their identifiers, the strata in turn. Which runs are reviewed by hand
is decided by digests: within each stratum the answerable runs are ranked by them, and the
first run of each case is taken until there are enough cases.
-/

namespace Sana.Shadow

open Sana.Lib Orchestration Manifest

/-- `CampaignProfile`: the limits a plan depends on. -/
structure CampaignProfile where
  maxRuns : Nat
  repetitions : Nat
  smokeOnly : Bool
  positive : 1 ≤ maxRuns ∧ 1 ≤ repetitions
  divides : maxRuns % repetitions = 0
deriving DecidableEq, Repr

/-- The cases a profile plans. -/
def CampaignProfile.selectedCases (profile : CampaignProfile) (m : ShadowManifest) :
    List ShadowCase :=
  if profile.smokeOnly then m.smokeCases else m.cases

namespace Schedule

/-! ## The order of the cases -/

/-- The cases of a stratum, by their identifiers. -/
def grouped (cases : List ShadowCase) (s : Stratum) : List ShadowCase :=
  rank (·.id) (cases.filter (·.stratum = s))

/-- The first of every list, then the second of every list, and so on up to `n`. -/
def interleave {α : Type} (n : Nat) (lists : List (List α)) : List α :=
  (List.range n).flatMap fun index => lists.filterMap (·[index]?)

/-- `_ordered_cases`. -/
def orderedCases (cases : List ShadowCase) : Except Exn (List ShadowCase) := do
  let groups := strata.map (grouped cases)
  check ((groups.map List.length).sum = cases.length)
    (.valueError "Campaign cases contain an unsupported mode/locale stratum")
  return interleave ((groups.map List.length).foldr max 0) groups

/-! ## Reviews -/

/-- `ReviewUnit`. -/
structure ReviewUnit where
  caseId : String
  repetition : Nat
  expectedMode : SearchMode
  locale : String
  sortDigest : String
deriving DecidableEq, Repr

/-- `(item.sort_digest, item.case_id, item.repetition)`, as tuples are compared. -/
def ReviewUnit.key (u : ReviewUnit) : String ×ₗ (String ×ₗ Nat) :=
  toLex (u.sortDigest, toLex (u.caseId, u.repetition))

section Plans

variable (b : Builtins) (campaignId : Uuid)

/--
The digest of `canonical_json_bytes([str(campaign_id), case.id, repetition])`. An identifier
of a case has nothing in it that JSON escapes.
-/
def sortDigest (caseId : String) (repetition : Nat) : String :=
  b.sha256 ("[\"" ++ campaignId.str ++ "\",\"" ++ caseId ++ "\"," ++ toString repetition ++ "]")

/-- A run that may be reviewed. -/
def reviewUnit (c : ShadowCase) (repetition : Nat) : ReviewUnit where
  caseId := c.id
  repetition := repetition
  expectedMode := c.expectedMode
  locale := c.locale
  sortDigest := sortDigest b campaignId c.id repetition

/-- The answerable runs of a stratum. -/
def candidates (cases : List ShadowCase) (repetitions : Nat) (s : Stratum) : List ReviewUnit :=
  (cases.filter fun c => c.stratum = s && c.isAnswerable).flatMap fun c =>
    (List.range' 1 repetitions).map (reviewUnit b campaignId c)

/-- The loop over the ranked candidates: the first run of each case, up to `perStratum` cases. -/
def choose (perStratum : Nat) : List String → List ReviewUnit → List ReviewUnit
  | _, [] => []
  | chosen, u :: rest =>
      if u.caseId ∈ chosen then choose perStratum chosen rest
      else if chosen.length + 1 = perStratum then [u]
      else u :: choose perStratum (u.caseId :: chosen) rest

/-- What `select_review_units` takes from one stratum. -/
def selectStratum (cases : List ShadowCase) (repetitions perStratum : Nat) (s : Stratum) :
    Except Exn (List ReviewUnit) := do
  let ranked := rank ReviewUnit.key (candidates b campaignId cases repetitions s)
  let chosen := choose perStratum [] ranked
  check (chosen.length = perStratum)
    (.valueError ("Stratum " ++ printStratum s ++ " cannot provide " ++ toString perStratum
      ++ " review cases"))
  return chosen

/-- `select_review_units`. -/
def selectReviewUnits (cases : List ShadowCase) (repetitions perStratum : Nat) :
    Except Exn (List ReviewUnit) := do
  check (!(repetitions < 1 || perStratum < 1))
    (.valueError "Review selection limits must be positive")
  return (← stratumPairs.mapM (selectStratum b campaignId cases repetitions perStratum)).flatten

/-! ## Plans -/

/-- `RunPlan`. -/
structure RunPlan where
  id : Uuid
  caseId : String
  repetition : Nat
  scheduleOrdinal : Nat
  manualReviewSelected : Bool
  prompt : String
  locale : String
  category : CaseCategory
  answerability : Answerability
  expectedMode : SearchMode
  conversationIdempotencyKey : String
  messageIdempotencyKey : String
  submissionRequestHash : String
deriving DecidableEq, Repr

/--
One turn of the loop. The prompt of a case is not blank, so its hash can be computed; a prompt with a
surrogate on its own, which UTF-8 cannot encode, is no `String`.
-/
def runPlan (selected : List (String × Nat)) (repetition : Nat) (c : ShadowCase) (ordinal : Nat) :
    RunPlan where
  id := b.uuid5 campaignId ("shadow-run-result:" ++ c.id ++ ":" ++ toString repetition)
  caseId := c.id
  repetition := repetition
  scheduleOrdinal := ordinal
  manualReviewSelected := (c.id, repetition) ∈ selected
  prompt := c.prompt
  locale := c.locale
  category := c.category
  answerability := c.answerability
  expectedMode := c.expectedMode
  conversationIdempotencyKey :=
    "shadow-conversation:" ++ campaignId.str ++ ":" ++ c.id ++ ":" ++ toString repetition
  messageIdempotencyKey := "shadow:" ++ campaignId.str ++ ":" ++ c.id ++ ":" ++ toString repetition
  submissionRequestHash := b.sha256 (Text.strip c.prompt)

/-- The runs in their order: repetition by repetition, and in each the cases. -/
def runs (repetitions : Nat) (ordered : List ShadowCase) : List (Nat × ShadowCase) :=
  (List.range' 1 repetitions).flatMap fun repetition => ordered.map (repetition, ·)

/-- `selected_reviews`: the runs to review, none if none are required. -/
def selectedReviews (cases : List ShadowCase) (repetitions : Nat) (requiredReviews : Int) :
    Except Exn (List (String × Nat)) :=
  if requiredReviews = 0 then .ok []
  else do
    let units ← selectReviewUnits b campaignId cases repetitions (requiredReviews / 4).toNat
    return units.map fun u => (u.caseId, u.repetition)

/-- `materialize_run_plans`. -/
def materializeRunPlans (m : ShadowManifest) (profile : CampaignProfile) (requiredReviews : Int) :
    Except Exn (List RunPlan) := do
  let ordered ← orderedCases (profile.selectedCases m)
  check (ordered.length * profile.repetitions = profile.maxRuns)
    (.invariant "Manifest selection does not match campaign max_runs" "manifest_profile_mismatch")
  check (!(requiredReviews < 0 || requiredReviews % 4 ≠ 0))
    (.invariant "Required manual reviews must divide evenly across four strata"
      "invalid_review_sample_size")
  let selected ← selectedReviews b campaignId m.cases profile.repetitions requiredReviews
  return (runs profile.repetitions ordered).zipIdx.map fun x =>
    runPlan b campaignId selected x.1.1 x.1.2 (x.2 + 1)

end Plans

end Schedule

end Sana.Shadow
