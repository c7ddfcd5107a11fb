import Sana.Lib.Turns
import Sana.Orchestration.Domain
import Sana.Planning.Domain
import Sana.Shared.Words

/-!
# Compiling queries

`QueryCompiler.compile` turns the facts of an intent into query texts. A text is put together from
the entity, a few words of the fact's key and fixed keywords, and is cut to a length. Queries whose
signature has been seen are left out; a signature is a digest of the fact's key and the text, both
normalised.
-/

namespace Sana.Planning

open Sana.Lib Sana.Orchestration

/-- `SearchPlanningPolicy`, less the version. -/
structure SearchPlanningPolicy where
  maxFacts : Nat := 8
  maxQueryCharacters : Nat := 64
  fastMaxQueriesPerFact : Nat := 1
  researchMaxQueriesPerFact : Nat := 3
  fastMaxQueries : Nat := 4
  researchInitialMaxQueries : Nat := 8
  researchTotalMaxQueries : Nat := 12

/-- `query_limit`. -/
def SearchPlanningPolicy.queryLimit (policy : SearchPlanningPolicy) (mode : SearchMode)
    (expansion : Bool) : Nat :=
  match mode with
  | .fast => policy.fastMaxQueries
  | .research =>
      if expansion then policy.researchTotalMaxQueries else policy.researchInitialMaxQueries

/-- `per_fact_limit`. -/
def SearchPlanningPolicy.perFactLimit (policy : SearchPlanningPolicy) : SearchMode → Nat
  | .fast => policy.fastMaxQueriesPerFact
  | .research => policy.researchMaxQueriesPerFact

/-- `QuerySpec`, with the checks of its constructor. -/
@[ext]
structure QuerySpec where
  key : String
  factKey : String
  text : String
  signature : String
  locale : String
  freshnessDays : Option Nat
  planRevision : Nat
  factType : FactType
  sourceKind : String
  given : Text.isBlank key = false ∧ Text.isBlank factKey = false ∧ Text.isBlank text = false
  revision_pos : 1 ≤ planRevision
deriving Repr

instance : DecidableEq QuerySpec := fun _ _ => decidable_of_iff _ QuerySpec.ext_iff.symm

/-- What the compiler uses of `re`, of Unicode's tables and of `hashlib`. -/
structure CompilerText where
  /-- `re.search(pattern, text, re.I) is not None`. -/
  search : (pattern text : String) → Bool
  casefold : String → String
  lower : String → String
  /-- `unicodedata.normalize("NFKC", text)`. -/
  nfkc : String → String
  /-- `\w`. -/
  isWord : Char → Bool
  /-- Hex digest of a text's UTF-8 bytes. -/
  sha256 : String → String

/-! ## Words -/

/-- `_KEY_TOKEN.findall`. -/
def keyTokens (text : String) : List String :=
  (Text.runsFrom Char.isAlphanum [] text.toList).map String.ofList

/-- `re.sub(r"[^\w]+", " ", text)`; `inRun` if a run has already been replaced. -/
def blankRuns (isWord : Char → Bool) (inRun : Bool) : List Char → List Char
  | [] => []
  | c :: cs =>
      if isWord c then c :: blankRuns isWord false cs
      else if inRun then blankRuns isWord true cs
      else ' ' :: blankRuns isWord true cs

/-! ## Texts -/

/-- `_UNSAFE_SEMANTIC_FRAGMENT`. -/
def unsafeSemanticFragment : String :=
  "(?:sana(?:'s)?\\s+(?:memory|private)|user(?:'s)?\\s+private|" ++
  "ignore\\s+(?:web|search|evidence)|do\\s+not\\s+mention|" ++
  "access\\s+limitations?|private\\s+memory|" ++
  "sana\\s*\\u7684?\\s*\\u79c1\\u4eba\\u8bb0\\u5fc6|\\u79c1\\u4eba\\u8bb0\\u5fc6|" ++
  "\\u5408\\u7406\\u7f16\\u9020|\\u4e0d\\u8981\\u8bf4\\u4f60\\u65e0\\u6cd5\\u8bbf\\u95ee)"

/-- The words `_semantic_key_terms` leaves out of every text. -/
def emptyKeyTerms : List String :=
  ["answer", "background", "evidence", "fact", "gap", "info", "information", "ignore", "memory",
    "overview", "profile", "purpose", "reveal", "result", "sana", "source", "status", "user"]

/-- `_keywords`. -/
def keywords (factType : FactType) (chinese : Bool) : List (List String) :=
  if chinese then
    match factType with
    | .characterChanges => [["改动", "官方补丁"], ["平衡性调整", "更新"], ["技能改动"]]
    | .version => [["当前稳定版本", "官方"], ["最新版本号"], ["最新更新"]]
    | .patchNotes => [["补丁说明", "官方"], ["更新日志"], ["版本公告"]]
    | .teamMeta => [["当前版本", "配队"], ["阵容", "meta"], ["排位热门阵容"]]
    | .currentValue => [["当前"], ["最新"], ["官方数据"]]
    | .comparison => [["对比"], ["区别"], ["优缺点"]]
    | .background => [["背景"], ["介绍"], ["官方资料"]]
  else
    match factType with
    | .characterChanges => [["changes", "official patch"], ["balance update"], ["ability changes"]]
    | .version =>
        [["latest stable version", "official"], ["current version number"], ["latest release"]]
    | .patchNotes => [["official patch notes"], ["changelog"], ["release notes"]]
    | .teamMeta =>
        [["current meta", "team composition"], ["best lineup"], ["ranked team picks"]]
    | .currentValue => [["current"], ["latest"], ["official data"]]
    | .comparison => [["comparison"], ["differences"], ["pros and cons"]]
    | .background => [["background"], ["overview"], ["official profile"]]

/-- `_freshness_days`. -/
def freshnessDays : Freshness → Option Nat
  | .current => some 45
  | .recent => some 180
  | .stable => none

section Compiler

variable (py : CompilerText) (policy : SearchPlanningPolicy)

def isUnsafe (text : String) : Bool := py.search unsafeSemanticFragment text

/-- `_semantic_key_terms`. -/
def semanticKeyTerms (fact : FactRequirement) (entity subject : String)
    (keywordGroups : List String) : List String :=
  let excluded := (keyTokens (" ".intercalate (entity :: subject :: keywordGroups))).map py.casefold
    ++ emptyKeyTerms
  (distinctBy id (((keyTokens fact.key).map py.casefold).filter fun term =>
    decide (2 ≤ term.length) && decide (term ∉ excluded))).take 4

/-- The loop of `_fit`: components are dropped from behind as long as two parts are left. -/
def shorten : Nat → List String → List String
  | 0, parts => parts
  | n + 1, parts =>
      if (" ".intercalate parts).length > policy.maxQueryCharacters ∧ parts.length > 2 then
        shorten n parts.dropLast
      else parts

/-- `_fit`. -/
def fit (entity : String) (components : List String) : Except Exn String :=
  let query := " ".intercalate (shorten policy components.length (entity :: components))
  if query.length > policy.maxQueryCharacters then
    if entity.length > policy.maxQueryCharacters then
      .error (.valueError "Canonical entity exceeds query character limit")
    else .ok (Text.rstrip (String.ofList (query.toList.take policy.maxQueryCharacters)))
  else .ok query

/-- `_safe_entity`. -/
def safeEntity (intent : NormalizedIntent) (fact : FactRequirement) : String :=
  let candidates := (intent.entity :: intent.aliases ++ [fact.subject]).map
    fun candidate => Text.strip (Text.squeeze candidate)
  (candidates.find? fun normalized => !normalized.isEmpty && !isUnsafe py normalized).getD
    "public evidence"

/--
`signature`. A fact's key has no surrogate on its own here; with one, `encode` raises where the digest
is taken.
-/
def signature (query : String) (factKey : Option String) : String :=
  let normalized := Text.strip
    (String.ofList (blankRuns py.isWord false (py.casefold (py.nfkc query)).toList))
  let scope := match factKey with
    | none => normalized
    | some key => py.casefold (py.nfkc key) ++ "\x00" ++ normalized
  py.sha256 scope

/-! ## The compiler -/

/-- A fact with one of its variants of keywords. -/
structure Variant where
  fact : FactRequirement
  index : Nat
  keywords : List String
deriving DecidableEq

/-- The first variant of every fact, then the second one, and so on. -/
def variantsOf (intent : NormalizedIntent) (mode : SearchMode) : List Variant :=
  let chinese := Text.startsWith (py.lower intent.locale) "zh"
  roundRobin (policy.perFactLimit mode) (intent.facts.map fun fact =>
    (keywords fact.factType chinese).zipIdx.map fun v => ⟨fact, v.2, v.1⟩)

/-- The text of a variant. -/
def variantText (intent : NormalizedIntent) (v : Variant) : Except Exn String :=
  let entity := safeEntity py intent v.fact
  let subject := Text.strip v.fact.subject
  let subject := if isUnsafe py subject then entity else subject
  let subjects := if py.casefold subject ≠ py.casefold entity then [subject] else []
  fit policy entity
    (subjects ++ semanticKeyTerms py v.fact entity subject v.keywords ++ v.keywords)

/-- `QuerySpec(...)` of a variant. -/
def querySpec (intent : NormalizedIntent) (planRevision : Nat) (v : Variant) (text : String) :
    Except Exn QuerySpec :=
  let key := "q:" ++ toString planRevision ++ ":" ++ v.fact.key ++ ":" ++ toString (v.index + 1)
  if given : Text.isBlank key = false ∧ Text.isBlank v.fact.key = false ∧
      Text.isBlank text = false then
    if revision_pos : 1 ≤ planRevision then .ok {
      key, text, planRevision, given, revision_pos
      factKey := v.fact.key
      signature := signature py text (some v.fact.key)
      locale := intent.locale
      freshnessDays := freshnessDays v.fact.freshness
      factType := v.fact.factType
      sourceKind := v.fact.preferredSourceKinds.headD "web" }
    else .error (.valueError "plan_revision must be positive")
  else .error (.valueError "Query key, fact key and text are required")

/-- The loop over the variants; `room` is how many queries may still be added. -/
def compileVariants (intent : NormalizedIntent) (planRevision : Nat) :
    (room : Nat) → (signatures : Finset String) → List Variant → Except Exn (List QuerySpec)
  | _, _, [] => .ok []
  | room, signatures, v :: rest => do
      let text ← variantText py policy intent v
      let found := signature py text (some v.fact.key)
      if found ∈ signatures then compileVariants intent planRevision room signatures rest
      else do
        let query ← querySpec py intent planRevision v text
        if room ≤ 1 then return [query]
        else
          let queries ← compileVariants intent planRevision (room - 1) (insert found signatures) rest
          return query :: queries

/-- `compile`. -/
def compile (intent : NormalizedIntent) (mode : SearchMode) (planRevision : Nat)
    (expansion : Bool) (existingSignatures : Finset String) : Except Exn (List QuerySpec) :=
  let totalLimit := policy.queryLimit mode expansion
  let limit := if expansion then totalLimit - existingSignatures.card else totalLimit
  if limit = 0 then .ok []
  else compileVariants py policy intent planRevision limit existingSignatures
    (variantsOf py policy intent mode)

end Compiler

end Sana.Planning
