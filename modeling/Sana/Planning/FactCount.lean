import Sana.Planning.QueryCompiler

/-!
# How many facts a message asks for

`minimum_fact_count` is the number of facts that a plan must keep. It looks for words that ask for
several things, and for counts. Patterns are written as in Python; what they match is left to `re`.
-/

namespace Sana.Planning

open Sana.Lib

/-- A compiled pattern: `re.I` and `re.S` are flags of it. -/
structure Pattern where
  text : String
  ignoreCase : Bool := true
  dotAll : Bool := false
deriving DecidableEq, Repr

/-- What planning uses of `re` and of Unicode's tables, and the table of reviewed requests. -/
structure PlannerText where
  /-- `pattern.search(text) is not None`. -/
  search : Pattern → String → Bool
  /-- `pattern.search(text).group(0)`. -/
  found : Pattern → String → Option String
  /-- Of every match, in order, the first group that is not empty. -/
  groups : Pattern → String → List String
  /-- Of every match, in order, all of it. -/
  finditer : Pattern → String → List String
  /-- `text[pattern.search(text).end():]`. -/
  behind : Pattern → String → Option String
  /-- `pattern.split(text, maxsplit=1)[0]`. -/
  front : Pattern → String → String
  /-- `pattern.sub(" ", text)`. -/
  blanked : Pattern → String → String
  casefold : String → String
  /-- `int(text) if text.isdecimal()`. -/
  decimal : String → Option Nat
  /-- `reviewed_intent_template`. -/
  reviewed : String → Option NormalizedIntent

/-! ## Patterns -/

/-- `_EXPLICIT_COUNT`. -/
def explicitCount : Pattern where
  text := "(?:列出|列举|说明|解释|比较|对比).\x7b0,16\x7d?(?P<zh>[二两三四五六七八2-8])(?:种|" ++
    "个|项|类|条)?|(?:list|name|explain|compare).\x7b0,16\x7d?(?P<en>two|three|four|five|" ++
    "six|seven|eight|[2-8])(?:\\s+(?:types?|items?|facts?|objects?|options?))?|" ++
    "(?P<zh_noun>[二两三四五六七八2-8])(?:种|个|项|类|条)(?:性质|状态|类型|术语|值|协议)" ++
    "?|(?:the\\s+)?(?P<en_noun>two|three|four|five|six|seven|eight|[2-8])(?:\\s+[a-z-]+)" ++
    "\x7b0,2\x7d\\s+(?:types?|items?|facts?|objects?|options?|properties|states?|" ++
    "literals?|protocols?|levels?|terms?|representations?)"

/-- `_EXPLICIT_CROSS_CHECK`. -/
def explicitCrossCheck : Pattern where
  text := "(交叉核实|交叉验证|多源核实|cross[- ]?check|verify across|multiple sources?)"

/-- `_BOTH`. -/
def both : Pattern where
  text := "\\bboth\\b"

/-- `_SCALAR_PLUS_ENUMERATION`. -/
def scalarPlusEnumeration : Pattern where
  text := "\\b(?:which|what)\\b.\x7b0,64\x7d?(?:,|\\band\\b).\x7b0,48\x7d?\\b(?:two|three|four|" ++
    "five|six|seven|eight|[2-8])\\b"

/-- `_OPEN_SUPPORTED_VERSION_SET`. -/
def openSupportedVersionSet : Pattern where
  text := "(?:当前仍受支持|currently supported).\x7b0,48\x7d(?:版本|versions?)" ++
    ".\x7b0,96\x7d(?:停止支持|end[- ]of[- ]support|eol|final release)"

/-- `_EXPLICIT_SOURCE_COUNT`. -/
def explicitSourceCount : Pattern where
  text := "(?P<zh>[\\u4e8c\\u4e24\\u4e09\\u56db\\u4e94\\u516d\\u4e03\\u516b2-8])(?:\\u4e2a|" ++
    "\\u6761|\\u4efd)?(?:\\u53ef\\u9760|\\u72ec\\u7acb|\\u6743\\u5a01)?(?:\\u7684)" ++
    "?(?:\\u6765\\u6e90|\\u5206\\u6790\\u6765\\u6e90)|(?P<en>two|three|four|five|six|" ++
    "seven|eight|[2-8])\\s+(?:reliable\\s+|independent\\s+|authoritative\\s+)?sources?"

/-- `_SOURCE_PERSPECTIVE_SPLIT`. -/
def sourcePerspectiveSplit : Pattern where
  text := "(?:separate|distinguish|\\u533a\\u5206).\x7b0,80\x7d(?:official|confirmed|" ++
    "\\u5b98\\u65b9|\\u786e\\u8ba4).\x7b0,80\x7d(?:community|independent|\\u793e\\u533a|" ++
    "\\u72ec\\u7acb)|(?:official|confirmed|\\u5b98\\u65b9|\\u786e\\u8ba4)" ++
    ".\x7b0,80\x7d(?:community|independent|\\u793e\\u533a|\\u72ec\\u7acb)" ++
    ".\x7b0,80\x7d(?:separate|distinguish|\\u533a\\u5206)"

/-- `_MULTI_CONTEXT_UNIVERSAL`. -/
def multiContextUniversal : Pattern where
  text := "(?:universally|universal|every|all|\\u6240\\u6709|\\u5168\\u90e8)" ++
    ".\x7b0,120\x7d(?:rank|map|region|skill|\\u6bb5\\u4f4d|\\u5730\\u56fe|\\u5730\\u533a|" ++
    "\\u6c34\\u5e73)"

/-- `_ENUMERATION_PLUS_RELATION`. -/
def enumerationPlusRelation : Pattern where
  text := "(?:three|four|five|six|seven|eight|[3-8]).\x7b0,48\x7d(?:properties|states?|types?|" ++
    "levels?).\x7b0,48\x7d(?:and|plus).\x7b0,48\x7d(?:tradeoff|relationship|constraint)|" ++
    "(?:\\u4e09|\\u56db|\\u4e94|\\u516d|\\u4e03|\\u516b|[3-8])(?:\\u79cd|\\u4e2a|\\u9879|" ++
    "\\u7c7b|\\u6761).\x7b0,48\x7d(?:\\u6027\\u8d28|\\u72b6\\u6001|\\u7c7b\\u578b|" ++
    "\\u5c42\\u7ea7).\x7b0,48\x7d(?:\\u4ee5\\u53ca|\\u548c|\\u5e76)" ++
    ".\x7b0,48\x7d(?:\\u53d6\\u820d|\\u5173\\u7cfb|\\u7ea6\\u675f)"

/-- `_MAP_RANK_WITH_ANALYSIS_SOURCES`. -/
def mapRankWithAnalysisSources : Pattern where
  text := "(?=.*(?:map\\s+rotation|\\u5730\\u56fe\\u8f6e\\u6362))(?=.*(?:ranked\\s+rules?|" ++
    "\\u6392\\u540d\\u89c4\\u5219|\\u6392\\u4f4d\\u89c4\\u5219))(?=.*(?:(?:two|2|\\u4e8c|" ++
    "\\u4e24).\x7b0,32\x7d(?:analysis\\s+sources?|" ++
    "evidence-backed\\s+team-composition\\s+perspectives?|\\u5206\\u6790\\u6765\\u6e90)))"
  dotAll := true

/-- `_SCALAR_ONLY`. -/
def scalarOnly : Pattern where
  text := "(?:\\u53ea(?:\\u56de\\u7b54|\\u6838\\u5bf9|\\u544a\\u8bc9)|\\u4ec5(?:\\u56de\\u7b54|" ++
    "\\u6838\\u5bf9)|only\\s+(?:return|answer|report|check)|return\\s+one|" ++
    "give\\s+(?:only\\s+)?(?:one|a\\s+single))"

/-- `_ORIGIN_PAIR`. -/
def originPair : Pattern where
  text := "(?:\\u7531\\u8c01\\u521b\\u5efa|who\\s+created)" ++
    ".\x7b0,100\x7d(?:\\u9996\\u6b21\\u516c\\u5f00|first\\s+public\\s+release|" ++
    "\\u54ea\\u4e00\\u5e74|what\\s+year)|(?:\\u9996\\u6b21\\u516c\\u5f00|" ++
    "first\\s+public\\s+release).\x7b0,100\x7d(?:\\u7531\\u8c01\\u521b\\u5efa|" ++
    "who\\s+created)"

/-- `_HTTP_TWO_STATUS_DIMENSIONS`. -/
def httpTwoStatusDimensions : Pattern where
  text := "(?:compare|\\u6bd4\\u8f83).\x7b0,80\x7d(?<!\\d)\\d\x7b3\x7d(?!\\d)" ++
    ".\x7b0,40\x7d(?<!\\d)\\d\x7b3\x7d(?!\\d).\x7b0,100\x7d(?:semantics?|meaning|" ++
    "\\u8bed\\u4e49).\x7b0,80\x7d(?:content|response|\\u54cd\\u5e94\\u5185\\u5bb9)" ++
    ".\x7b0,40\x7d(?:constraint|\\u7ea6\\u675f)"

/-- `_PUBLIC_DOMAIN_OPTION_PAIR`. -/
def publicDomainOptionPair : Pattern where
  text := "public\\s+domain.\x7b0,160\x7d(?:what\\s+option|option|\\u4ec0\\u4e48\\u9009\\u9879|" ++
    "\\u63d0\\u4f9b\\u4e86\\u4ec0\\u4e48)"

/-- `_CHECKLIST_CUE`. -/
def checklistCue : Pattern where
  text := "(?:\\u6838\\u5bf9|(?:table|documentation|\\u8d44\\u6599)\\s*[:\\uff1a])"

/-- `_TWO_ENTITIES_FOR_EACH`. -/
def twoEntitiesForEach : Pattern where
  text := "(?:two\\s+(?:newest|latest)|\\u4e24(?:\\u4e2a|\\u6761)?(?:\\u6700\\u65b0|" ++
    "\\u5f53\\u524d)).\x7b0,180\x7d(?:for\\s+each|\\u5404\\u81ea|\\u6bcf\\u4e2a)"

/-- The count in a match of `_SCALAR_PLUS_ENUMERATION`. -/
def scalarCountWord : Pattern where
  text := "\\b(two|three|four|five|six|seven|eight|[2-8])\\b"

/-- The count in a match of `_ENUMERATION_PLUS_RELATION`. -/
def relationCountWord : Pattern where
  text := "\\b(three|four|five|six|seven|eight|[3-8])\\b|" ++
    "([\\u4e09\\u56db\\u4e94\\u516d\\u4e03\\u516b3-8])"

/-- Where a checklist ends. -/
def checklistEnd : Pattern where
  text := "(?:\\u9010\\u9879|\\u5206\\u522b|\\u5e76\\u5f15\\u7528|" ++
    "\\u8bf7\\u5f15\\u7528|[.\\u3002;\\uff1b])"

/-! ## Fact types -/

/-- `AutomaticModeRouter._FACT_PATTERNS`. -/
def factPatterns : List (FactType × Pattern) :=
  [(.characterChanges, { text := "(改动|调整|削弱|加强|changes?|buff|nerf)" }),
    (.version, { text := "(当前版本|版本号|current version|season)" }),
    (.patchNotes, { text := "(补丁|更新说明|patch notes?|changelog)" }),
    (.teamMeta, { text := "(配队|阵容|meta|team comp|lineup)" }),
    (.comparison, { text := "(比较|对比|versus|\\bvs\\.?\\b|compare)" }),
    (.currentValue, { text := "(价格|汇率|比分|current price|exchange rate|score)" })]

/-! ## Counts -/

/-- `_COUNT_WORDS`. -/
def countWords : List (String × Nat) :=
  [("二", 2), ("两", 2), ("三", 3), ("四", 4), ("五", 5), ("六", 6), ("七", 7), ("八", 8), ("two", 2),
    ("three", 3), ("four", 4), ("five", 5), ("six", 6), ("seven", 7), ("eight", 8)]

section Count

variable (py : PlannerText) (message : String)

/-- `infer_fact_types`. -/
def inferFactTypes : List FactType :=
  (factPatterns.filter fun entry => py.search entry.2 message).map (·.1)

/-- `int(raw) if raw.isdecimal() else _COUNT_WORDS[raw]`, of the folded group. -/
def countOf (group : String) : Except Exn Nat :=
  match py.decimal (py.casefold group) with
  | some n => .ok n
  | none =>
      match countWords.lookup (py.casefold group) with
      | some n => .ok n
      | none => .error (.keyError (py.casefold group))

/-- The pieces between separators that are not blank, stripped. -/
def pieces (separator : Char) (text : String) : List String :=
  ((text.toList.splitOnP (· == separator)).map fun piece =>
    Text.strip (String.ofList piece)).filter (· ≠ "")

/-- `_explicit_checklist_count`. -/
def explicitChecklistCount : Nat :=
  match py.behind checklistCue message with
  | none => 1
  | some rest =>
      let segment := py.front checklistEnd rest
      let count :=
        if Text.contains segment "、" then
          let parts := pieces '、' segment
          match parts.getLast? with
          | some last => if (pieces '和' last).length = 2 then parts.length + 1 else parts.length
          | none => 0
        else if Text.contains segment "," then (pieces ',' segment).length
        else 1
      if 2 ≤ count ∧ count ≤ 8 then count else 1

/-- A count that a pattern adds, if it is found. -/
def countIf (pattern : Pattern) (count : Nat) : Nat := if py.search pattern message then count else 1

/-- One more than the count in what a pattern matches. -/
def countWithin (pattern word : Pattern) : Except Exn Nat :=
  match (py.found pattern message).bind fun text => (py.groups word text).head? with
  | none => .ok 1
  | some group => do return 1 + (← countOf py group)

/-- `minimum_fact_count`. -/
def minimumFactCount : Except Exn Nat :=
  let policy : SearchPlanningPolicy := {}
  if py.search scalarOnly message then .ok 1
  else do
    let routerCount := (inferFactTypes py message).length
    let explicitCounts ← (py.groups explicitCount message).mapM (countOf py)
    let explicitSourceCounts ← (py.groups explicitSourceCount message).mapM (countOf py)
    let scalarEnumerationCount ← countWithin py message scalarPlusEnumeration scalarCountWord
    let checklistCount := explicitChecklistCount py message
    let checklistMatrixCount :=
      if checklistCount > 1 && py.search twoEntitiesForEach message then
        min policy.maxFacts (checklistCount * 2)
      else 1
    let enumerationRelationCount ←
      countWithin py message enumerationPlusRelation relationCountWord
    let sourceAdditiveCount :=
      match explicitSourceCounts.max? with
      | some most => if routerCount ≥ 2 then most + 2 else 1
      | none => 1
    return min policy.maxFacts (([1, routerCount, countIf py message explicitCrossCheck 2,
      countIf py message both 2, scalarEnumerationCount,
      countIf py message openSupportedVersionSet 5, countIf py message originPair 2,
      countIf py message httpTwoStatusDimensions 4, countIf py message publicDomainOptionPair 2,
      checklistCount, checklistMatrixCount, countIf py message sourcePerspectiveSplit 4,
      countIf py message mapRankWithAnalysisSources 4, countIf py message multiContextUniversal 3,
      enumerationRelationCount, sourceAdditiveCount] ++ explicitCounts
        ++ explicitSourceCounts).foldl max 1)

end Count

end Sana.Planning
