import Mathlib.Data.String.Basic
import Sana.Lib.Ranking
import Sana.Planning.FactCount

/-!
# The fallback planner

`HeuristicIntentPlanner` plans without a model: an entity is cut out of the message by one of three
routes, and every fact is about that entity. Where the message asks for more facts than there are
types of them, more facts are made up, with a number behind the entity. `ModelIntentPlanner` falls
back on it when the model's planner fails.
-/

namespace Sana.Planning

open Sana.Lib

/-! ## Checked values -/

/-- What `_validate_search_term` raises. -/
def searchTermError (fieldName value : String) (maxLength : Nat) : Exn :=
  if (Text.strip value).isEmpty || decide (maxLength < (Text.strip value).length) then
    .valueError (fieldName ++ " must be a short semantic term")
  else .valueError (fieldName ++ " contains conversational text")

/-- The constructor of `FactRequirement`. -/
def FactRequirement.make (key : String) (factType : FactType) (description subject : String)
    (freshness : Freshness) (consequence : Consequence) (preferredSourceKinds : List String) :
    Except Exn FactRequirement :=
  if given : Text.isBlank key = false ∧ Text.isBlank description = false
      ∧ Text.isBlank subject = false then
    if subject_term : isSearchTerm subject 48 = true then
      .ok { key, factType, description, subject, freshness, consequence, preferredSourceKinds
            given, subject_term }
    else .error (searchTermError "Fact subject" subject 48)
  else .error (.valueError "Fact key, description and subject are required")

/-- The constructor of `NormalizedIntent`, without aliases and flags. -/
def NormalizedIntent.make (entity locale : String) (facts : List FactRequirement) :
    Except Exn NormalizedIntent :=
  if entity_given : Text.isBlank entity = false then
    if locale_given : Text.isBlank locale = false then
      if facts_given : facts ≠ [] then
        if entity_term : isSearchTerm entity 64 = true then
          if keys : (facts.map (·.key)).Nodup then
            .ok { entity, aliases := [], locale, facts
                  given := ⟨entity_given, locale_given, facts_given⟩, entity_term
                  alias_terms := fun _ h => absurd h List.not_mem_nil
                  keys }
          else .error (.valueError "Fact keys must be unique")
        else .error (searchTermError "Normalized entity" entity 64)
      else .error (.valueError "At least one fact requirement is required")
    else .error (.valueError "Locale cannot be empty")
  else .error (.valueError "Normalized entity cannot be empty")

/-- `IntentPlanningResult`. -/
structure IntentPlanningResult where
  intent : NormalizedIntent
  llmCalls : Nat
  degraded : Bool := false
  strategy : String := "model"
  strategyVersion : String := "model-normalization-v1"

/-! ## The entity -/

/-- `_LATIN_ENTITY`. -/
def latinEntity : Pattern where
  text := "(?:[A-Z][A-Za-z0-9+.-]*)" ++
    "(?:\\s+(?:[A-Z][A-Za-z0-9+.-]*|[0-9][A-Za-z0-9+.-]*))\x7b0,4\x7d"
  ignoreCase := false

/-- `_QUESTION_WORDS`. -/
def questionWords : List String :=
  ["according", "compare", "explain", "find", "give", "hey", "how", "list", "name", "please",
    "prove", "research", "sana", "state", "tell", "under", "what", "when", "where", "which", "who",
    "why"]

/-- `_QUOTED_ENTITY`. -/
def quotedEntity : Pattern where
  text := "[《\"“](.\x7b1,48\x7d?)[》\"”]"
  ignoreCase := false

/-- `_FILLER`. -/
def filler : Pattern where
  text := "(请问|请告诉我|告诉我|帮我|查一下|搜索|联网|最新|最近|当前|" ++
    "是什么|有哪些|怎么样|如何|please|tell me|search|latest|current)"

/-- The punctuation that `_entity` leaves out. -/
def entityPunctuation : Pattern where
  text := "[!?！？。,.，:：;；\\r\\n]+"
  ignoreCase := false

/-- `[\u3400-\u9fff]`. -/
def hanPattern : Pattern where
  text := "[\\u3400-\\u9fff]"
  ignoreCase := false

section Planner

variable (py : PlannerText) (message : String)

/-- What comes before the first blank of a candidate, folded and without the punctuation behind. -/
def firstWord (candidate : String) : String :=
  String.ofList ((py.casefold ((Text.split candidate).head?.getD "")).toList.rdropWhile
    (· ∈ ['.', ',', ':', ';', '!', '?']))

/-- The message without fillers and punctuation. -/
def cleanedMessage : String :=
  Text.squeeze (py.blanked entityPunctuation (py.blanked filler message))

/-- `_entity`. -/
def entityOf : String :=
  match (py.groups quotedEntity message).head? with
  | some quoted => Text.squeeze quoted
  | none =>
      match ((py.finditer latinEntity message).map fun latin =>
          Text.slice (Text.squeeze latin) 0 64).find? fun candidate =>
            decide (firstWord py candidate ∉ questionWords) with
      | some candidate => candidate
      | none =>
          if cleanedMessage py message = "" then "公开信息"
          else Text.slice (cleanedMessage py message) 0 48

/-! ## Facts -/

/-- `_FACT_LABELS`. -/
def factLabel : FactType → String × List String
  | .characterChanges => ("角色改动", ["official", "patch_notes"])
  | .version => ("当前版本", ["official", "patch_notes"])
  | .patchNotes => ("补丁说明", ["official", "patch_notes"])
  | .teamMeta => ("当前阵容", ["guide", "official"])
  | .currentValue => ("当前数值", ["official"])
  | .comparison => ("方案比较", ["official", "independent"])
  | .background => ("背景资料", ["official", "independent"])

def currentPattern : Pattern where
  text := "(最新|最近|当前|today|latest|current)"

def consequencePattern : Pattern where
  text := "(医疗|诊断|法律|诉讼|投资|税务|medical|legal|investment|tax)"

def freshnessOf : Freshness := if py.search currentPattern message then .current else .stable

def consequenceOf : Consequence := if py.search consequencePattern message then .high else .low

/-- The types of the facts: those inferred, or background. -/
def factTypesOf : List FactType :=
  if inferFactTypes py message = [] then [.background] else inferFactTypes py message

/-- The fact of a type. -/
def typedFact (factType : FactType) : Except Exn FactRequirement :=
  FactRequirement.make factType.value factType
    (entityOf py message ++ "的" ++ (factLabel factType).1) (entityOf py message)
    (freshnessOf py message) (consequenceOf py message) (factLabel factType).2

/-- What the subject of a fact that was asked for has behind the entity. -/
def itemSuffix (index : Nat) : String :=
  if py.search hanPattern message then " 第" ++ toString index ++ "项"
  else " item " ++ toString index

/-- A fact that was asked for. -/
def requestedFact (index : Nat) : Except Exn FactRequirement :=
  FactRequirement.make ("requested_fact_" ++ toString index) .background
    (entityOf py message ++ " requested fact " ++ toString index)
    (entityOf py message ++ itemSuffix py message index)
    (freshnessOf py message) (consequenceOf py message) ["official", "independent"]

/-! ## Plans -/

/-- The plan of a reviewed request. -/
def reviewedResult (intent : NormalizedIntent) : IntentPlanningResult where
  intent := intent
  llmCalls := 0
  strategy := "reviewed_template"
  strategyVersion := "reviewed-intents-v2"

/-- `HeuristicIntentPlanner.plan`. -/
def HeuristicIntentPlanner.plan (policyVersion : String) : Except Exn IntentPlanningResult :=
  match py.reviewed message with
  | some intent => .ok (reviewedResult intent)
  | none => do
      let facts ← (rank FactType.value (factTypesOf py message)).mapM (typedFact py message)
      let minimumFacts ← minimumFactCount py message
      let requested ← (List.range (minimumFacts - facts.length)).mapM fun i =>
        requestedFact py message (facts.length + i + 1)
      let locale := if py.search hanPattern message then "zh-CN" else "en"
      let intent ← NormalizedIntent.make (entityOf py message) locale (facts ++ requested)
      return { intent, llmCalls := 0, strategy := "heuristic", strategyVersion := policyVersion }

/-- `ModelIntentPlanner.plan`, given what the model's planner comes to and the calls it used. -/
def ModelIntentPlanner.plan (policyVersion : String) (usedCalls : Nat)
    (planned : Except Exn NormalizedIntent) : Except Exn IntentPlanningResult :=
  match py.reviewed message with
  | some intent => .ok (reviewedResult intent)
  | none =>
      match planned with
      | .ok intent => .ok { intent, llmCalls := usedCalls }
      | .error (.typed _) => do
          let fallback ← HeuristicIntentPlanner.plan py message policyVersion
          return { fallback with llmCalls := usedCalls, degraded := true }
      | .error e => .error e

end Planner

end Sana.Planning
