import Sana.Shared.Json

/-!
# What a run has to find out

A plan is a list of fact requirements. Evidence is collected, judged and cited
per fact.
-/

namespace Sana.Planning

/-- `FactType`. -/
inductive FactType
  | characterChanges | version | patchNotes | teamMeta | currentValue | comparison | background
deriving DecidableEq, Repr

def FactType.value : FactType → String
  | .characterChanges => "character_changes"
  | .version => "version"
  | .patchNotes => "patch_notes"
  | .teamMeta => "team_meta"
  | .currentValue => "current_value"
  | .comparison => "comparison"
  | .background => "background"

/-- `Freshness`. -/
inductive Freshness
  | stable | recent | current
deriving DecidableEq, Repr

/-- `Consequence`. -/
inductive Consequence
  | low | medium | high
deriving DecidableEq, Repr

/-- `re.I` does not tell a letter of a text from the small ASCII letter it matches. -/
def ignoreCase (c : Char) : Char :=
  if c = '\u0130' ∨ c = '\u0131' then 'i' else if c = '\u017f' then 's'
  else if c = '\u212a' then 'k' else c.toLower

/-- The alternatives of `_CONVERSATIONAL_TERM`. -/
def conversationalTerms : List String :=
  ["可以告诉我", "你不是", "我好久", "请问一下", "please tell me", "could you", "i haven't",
    "i havent"]

/-- `_validate_search_term` accepts the text. -/
def isSearchTerm (value : String) (maxLength : Nat) : Bool :=
  let normalized := Text.strip value
  !normalized.isEmpty && normalized.length ≤ maxLength
    && !normalized.toList.any (· ∈ ['!', '?', '！', '？', '。', '\r', '\n'])
    && !conversationalTerms.any (Text.contains (String.ofList (normalized.toList.map ignoreCase)))

/-- `FactRequirement`, with the checks of its constructor. -/
structure FactRequirement where
  key : String
  factType : FactType
  description : String
  subject : String
  required : Bool := true
  freshness : Freshness := .stable
  consequence : Consequence := .low
  preferredSourceKinds : List String := []
  /-- Key, description and subject are given. -/
  given : Text.isBlank key = false ∧ Text.isBlank description = false
    ∧ Text.isBlank subject = false
  subject_term : isSearchTerm subject 48 = true
deriving DecidableEq, Repr

/-- `NormalizedIntent`, with the checks of its constructor. -/
structure NormalizedIntent where
  entity : String
  aliases : List String
  locale : String
  facts : List FactRequirement
  requiresComparison : Bool := false
  requiresCompleteSources : Bool := false
  /-- Entity, locale and facts are given. -/
  given : Text.isBlank entity = false ∧ Text.isBlank locale = false ∧ facts ≠ []
  entity_term : isSearchTerm entity 64 = true
  alias_terms : ∀ a ∈ aliases, isSearchTerm a 48 = true
  keys : (facts.map (·.key)).Nodup

end Sana.Planning
