import Mathlib.Data.Finset.Card
import Mathlib.Data.Prod.Lex
import Mathlib.Data.String.Basic
import Mathlib.Algebra.Order.Ring.Rat
import Sana.Discovery.Service
import Sana.Evidence.Domain
import Sana.Lib.Dict
import Sana.Lib.Greedy
import Sana.Lib.Ranking
import Sana.Orchestration.Domain

/-!
# Selecting hits

The select step reads the outputs of the discovery steps, merges the hits of one canonical URL into
one candidate, and selects some of the candidates to be fetched. FAST takes one official source, or
two that can stand in for each other; RESEARCH covers the facts of the plan first and looks for a
second publisher then.
-/

namespace Sana.Search

open Sana.Discovery Sana.Evidence Sana.Lib Sana.Orchestration

/-! ## Hits and candidates -/

/-- A hit in the output of a discovery step. -/
structure DiscoveredHit extends Discovery.SearchHit where
  id : String
  queryId : String
  factId : String
deriving DecidableEq, Repr

/-- One provider's part of the output of a discovery step. -/
structure DiscoveryResponse where
  provider : String
  queryKey : String
  failed : Bool
  hits : List DiscoveredHit
deriving DecidableEq, Repr

/-- The output of a discovery step. -/
structure DiscoveryOutput where
  responses : List DiscoveryResponse
deriving DecidableEq, Repr

/-- A merged hit, with the facts of all the hits it was merged of. -/
structure Candidate extends DiscoveredHit where
  factIds : List String
deriving DecidableEq, Repr

namespace Candidate

/-- The facts as a set. -/
def facts (c : Candidate) : Finset String := c.factIds.toFinset

def direct (c : Candidate) : Bool := c.provider == "direct"

end Candidate

/-! ## Ranked selection -/

/-- `SourceAuthorityPolicy.classify`, of a URL and an entity; `none` where it raises `ValueError`. -/
abbrev Classify := String → String → Option (String × SourceAuthority)

section Select

variable (classify : Classify) (entity : String)

/-- The identity and the authority of a candidate; a URL that cannot be classified is its own
publisher. -/
def classified (c : Candidate) : String × SourceAuthority :=
  (classify c.canonicalUrl entity).getD (c.canonicalUrl, .independent)

def identity (c : Candidate) : String := (classified classify entity c).1

def official (c : Candidate) : Bool := (classified classify entity c).2 == .official

/-- An official page that planning has named itself. -/
def trustedDirect (c : Candidate) : Bool := official classify entity c && c.direct

/-- The key candidates are sorted by. -/
def rankKey (c : Candidate) : Nat ×ₗ Nat ×ₗ Rat ×ₗ Nat ×ₗ String :=
  toLex (if official classify entity c then 0 else 1, toLex (if c.direct then 0 else 1,
    toLex (-c.score, toLex (c.rank, c.canonicalUrl))))

def ranked (candidates : List Candidate) : List Candidate :=
  rank (rankKey classify entity) candidates

/-- What the loops remember: the facts that are covered, and the publishers that are there. -/
structure Selected where
  covered : Finset String := ∅
  seen : Finset String := ∅
deriving DecidableEq

def Selected.note (s : Selected) (c : Candidate) : Selected where
  covered := s.covered ∪ c.facts
  seen := insert (identity classify entity c) s.seen

/-- How many facts a candidate would add. -/
def gain (s : Selected) (c : Candidate) : Nat := (c.facts \ s.covered).card

/-- FAST, with two trusted pages: the greatest gain, and the first of those. -/
def chooseMost (s : Selected) (remaining : List Candidate) : Option Nat :=
  (remaining.zipIdx.argmax fun v =>
    (toLex (gain s v.1, OrderDual.toDual v.2) : Nat ×ₗ Natᵒᵈ)).map Prod.snd

/-- The candidates of publishers that have come before are put off. -/
def spread (seen : Finset String) : List Candidate → List Candidate × List Candidate
  | [] => ([], [])
  | c :: rest =>
      if identity classify entity c ∈ seen then
        ((spread seen rest).1, c :: (spread seen rest).2)
      else
        let further := spread (insert (identity classify entity c) seen) rest
        (c :: further.1, further.2)

/-- The FAST branch, on the ranked candidates. -/
def selectFast (limit : Nat) (ranked : List Candidate) : List Candidate :=
  let directOfficial := ranked.filter (trustedDirect classify entity)
  let pages := (directOfficial.map (·.canonicalUrl)).toFinset
  if pages.card ≥ 2 then
    greedy chooseMost (Selected.note classify entity) (fun _ _ => false) (min limit 2) {}
      directOfficial
  else
    let selectionLimit :=
      if ranked.any (official classify entity) then min limit (if pages.card ≥ 2 then 2 else 1)
      else min 2 limit
    let parts := spread classify entity ∅ ranked
    (parts.1 ++ parts.2).take selectionLimit

/-- The greatest gain of some candidates. -/
def maximumGain (s : Selected) (l : List (Candidate × Nat)) : Nat :=
  (l.map fun v => gain s v.1).foldr max 0

/-- RESEARCH, while there is something to gain: trusted pages first, then the greatest gain, then
the fewest facts, authority, a new publisher and the place. -/
def chooseGain (s : Selected) (remaining : List Candidate) : Option Nat :=
  let gaining := remaining.zipIdx.filter fun v => decide (gain s v.1 > 0)
  let trusted := gaining.filter fun v => trustedDirect classify entity v.1
  let pool := if trusted.isEmpty then gaining else trusted
  let best := pool.filter fun v => gain s v.1 == maximumGain s pool
  (best.argmin fun v =>
    (toLex (v.1.facts.card, toLex (if official classify entity v.1 then 0 else 1,
      toLex (if identity classify entity v.1 ∈ s.seen then 1 else 0, v.2))) :
      Nat ×ₗ Nat ×ₗ Nat ×ₗ Nat)).map Prod.snd

/-- RESEARCH, with nothing to gain: a new publisher first. -/
def chooseNew (s : Selected) (remaining : List Candidate) : Option Nat :=
  (remaining.zipIdx.argmin fun v =>
    (toLex (if identity classify entity v.1 ∈ s.seen then 1 else 0,
      toLex (if official classify entity v.1 then 0 else 1, v.2)) : Nat ×ₗ Nat ×ₗ Nat)).map Prod.snd

/-- The next candidate of the RESEARCH loop. -/
def chooseNext (s : Selected) (remaining : List Candidate) : Option Nat :=
  if maximumGain s remaining.zipIdx ≠ 0 then chooseGain classify entity s remaining
  else chooseNew classify entity s remaining

/-- The RESEARCH loop ends early: every fact is covered, and there are two publishers or no other
one is left. -/
def enough (target : Finset String) (s : Selected) (remaining : List Candidate) : Bool :=
  let coverageComplete := decide (target.Nonempty ∧ target ⊆ s.covered)
  let unseenIdentityRemains := remaining.any fun c => decide (identity classify entity c ∉ s.seen)
  coverageComplete && (decide (s.seen.card ≥ 2) || !unseenIdentityRemains)

/-- The facts that some candidate covers. -/
def targetFacts (candidates : List Candidate) : Finset String :=
  candidates.foldr (fun c s => c.facts ∪ s) ∅

/-- The RESEARCH branch, on the ranked candidates. -/
def selectResearch (limit : Nat) (ranked : List Candidate) : List Candidate :=
  greedy (chooseNext classify entity) (Selected.note classify entity)
    (enough classify entity (targetFacts ranked)) limit {} ranked

/-- `_select_ranked_hits`. -/
def selectRankedHits (mode : SearchMode) (maxSelectedHits : Nat) (candidates : List Candidate) :
    List Candidate :=
  match mode with
  | .fast => selectFast classify entity maxSelectedHits (ranked classify entity candidates)
  | .research => selectResearch classify entity maxSelectedHits (ranked classify entity candidates)

/-! ## The select step -/

/-- One hit is merged into the candidates: the first of the hits with the best score stands for
its URL. -/
def mergeHit (candidates : List (String × Candidate)) (hit : DiscoveredHit) :
    List (String × Candidate) :=
  match candidates.lookup hit.canonicalUrl with
  | none => Dict.set hit.canonicalUrl { hit with factIds := [hit.factId] } candidates
  | some previous =>
      let factIds := if hit.factId ∈ previous.factIds then previous.factIds
        else previous.factIds ++ [hit.factId]
      if hit.score > previous.score then
        Dict.set hit.canonicalUrl { hit with factIds } candidates
      else Dict.set hit.canonicalUrl { previous with factIds } candidates

/-- The hits of an output, in order. -/
def DiscoveryOutput.hits (output : DiscoveryOutput) : List DiscoveredHit :=
  output.responses.flatMap (·.hits)

/-- The candidates that the outputs merge to. -/
def mergedCandidates (discoveries : List DiscoveryOutput) : List (String × Candidate) :=
  (discoveries.flatMap (·.hits)).foldl mergeHit []

def providerFailures (discoveries : List DiscoveryOutput) : Nat :=
  (discoveries.flatMap (·.responses)).countP (·.failed)

/-- What the select step stores, less the reference of the plan. -/
structure Selection where
  selected : List Candidate
  providerFailures : Nat
deriving DecidableEq, Repr

/-- `SearchStepOperations.select`, on the outputs its references name. -/
def select (mode : SearchMode) (maxSelectedHits : Nat) (discoveries : List DiscoveryOutput) :
    Selection where
  selected := selectRankedHits classify entity mode maxSelectedHits
    ((mergedCandidates discoveries).map (·.2))
  providerFailures := providerFailures discoveries

end Select

end Sana.Search
