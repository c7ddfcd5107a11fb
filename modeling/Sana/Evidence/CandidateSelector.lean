import Mathlib.Data.Finset.Dedup
import Mathlib.Data.Prod.Lex
import Mathlib.Data.String.Basic
import Mathlib.Algebra.Order.Field.Rat
import Sana.Evidence.ModelVerifier
import Sana.Lib.Turns

/-!
# Candidates for verification

`CandidateSelector` looks for chunks of the extracted documents that may say something about a
fact, cuts a quote out of each, and takes a few of them for each fact. Terms and anchors are sets
of strings, and a set is gone through in an order that differs from process to process; that order
is an argument here. What patterns match is left to `re`.
-/

namespace Sana.Evidence

open Sana.Lib Sana.Planning

/-! ## Python's texts and sets -/

/-- What the selector uses of `re` and of Unicode's tables. Patterns are written as in Python. -/
structure PyText where
  /-- `re.search(pattern, text, re.I | re.S) is not None`; without `re.S` if `dotAll` is false. -/
  search : (pattern text : String) → (dotAll : Bool) → Bool
  /-- The spans of `re.finditer(pattern, text)`, with `re.I` if `ignoreCase`. -/
  finditer : (pattern text : String) → (ignoreCase : Bool) → List (Nat × Nat)
  /-- `re.sub(pattern, repl, text)`, with `re.I` if `ignoreCase`. -/
  sub : (pattern repl text : String) → (ignoreCase : Bool) → String
  findall : (pattern text : String) → List String
  /-- `re.escape`. -/
  escape : String → String
  casefold : String → String
  isdecimal : String → Bool
  isalpha : String → Bool

/-- The order in which the sets of a process are gone through. -/
structure Enumeration where
  list : Finset String → List String
  nodup : ∀ s, (list s).Nodup
  mem_list : ∀ s t, t ∈ list s ↔ t ∈ s

/-- `text.isascii()`. -/
def isascii (text : String) : Bool := text.toList.all fun c => decide (c.toNat < 128)

/-- `text.endswith(suffix)`. -/
def endswith (text suffix : String) : Bool := suffix.toList.isSuffixOf text.toList

/-- `text.find(term, offset)`, on code points. -/
def findFrom (text term : List Char) (offset : Nat) : Option Nat :=
  if offset ≤ text.length then (Text.indexChars term (text.drop offset)).map (· + offset) else none

/-- The positions the loop over `find` collects. -/
def positionsFrom (text term : List Char) : (fuel offset : Nat) → List Nat
  | 0, _ => []
  | fuel + 1, offset =>
      match findFrom text term offset with
      | none => []
      | some position => position :: positionsFrom text term fuel (position + max 1 term.length)

/-- All of them: every turn goes on behind the last position. -/
def positionsOf (text term : List Char) : List Nat := positionsFrom text term (text.length + 2) 0

/-- `text.count(term)`. -/
def count (text term : List Char) : Nat := (positionsOf text term).length

/-! ## Terms and anchors -/

/-- `_GENERIC_ANCHORS`. -/
def genericAnchors : Finset String :=
  ["advice", "answer", "background", "code", "composition", "current", "description", "detail",
    "evidence", "exact", "fact", "gap", "information", "media", "object", "official", "overview",
    "parameter", "phrase", "private", "purpose", "recommendation", "recent", "reason", "result",
    "source", "status", "suggestion", "tradeoff", "type"].toFinset

/-- `_CONTEXT_STOPWORDS`. -/
def contextStopwords : Finset String :=
  genericAnchors ∪ ["according", "and", "are", "cite", "for", "from", "include", "into", "preserve",
    "specifie", "specify", "the", "this", "using", "version", "what", "whether", "which",
    "with"].toFinset

section Terms

variable (py : PyText)

/-- The form a word is counted in; `none` for a single letter. -/
def normalizeToken (value : String) : Option String :=
  if value.length ≤ 1 then none
  else
    let value := if isascii value && decide (value.length > 4) && endswith value "s" &&
        !(endswith value "is" || endswith value "ss" || endswith value "us") then
        String.ofList value.toList.dropLast
      else value
    let value := if value ∈ ["created", "creator", "creates", "creation"] then "creat" else value
    let value := if value = "length" then "size" else value
    some (if value = "bits" then "bit" else value)

/-- `_tokens`. -/
def tokens (values : List String) : Finset String :=
  let normalized := Text.replace (Text.replace (" ".intercalate values) "_" " ") "-" " "
  let normalized := py.sub "\\btls\\s*(\\d)[.]?([0-9])\\b" "tls \\1.\\2" normalized true
  let normalized := py.sub "(?<=[A-Za-z])(?=\\d)|(?<=\\d)(?=[A-Za-z])" " " normalized false
  let decimalIdentifiers := py.findall "\\b\\d+(?:\\.\\d+)+\\b" normalized
  let withoutDecimals := py.sub "\\b\\d+(?:\\.\\d+)+\\b" " " normalized false
  (decimalIdentifiers ++ (py.findall "[\\w\\u3400-\\u9fff]+"
    (py.casefold withoutDecimals)).filterMap normalizeToken).toFinset

/-- `_term_sets`: the terms of the context, and the anchors. -/
def termSets (entity : String) (fact : FactRequirement) : Finset String × Finset String :=
  let entityTerms := tokens py [entity, fact.factType.value]
  let context := tokens py [entity, fact.subject, fact.description] \ contextStopwords
  let anchors := (tokens py [fact.key] \ entityTerms) \ genericAnchors
  let anchors := if py.casefold fact.subject ≠ py.casefold entity then
      anchors ∪ (tokens py [fact.subject] \ tokens py [entity])
    else anchors
  (context, anchors ∪ (tokens py [fact.description]).filter (py.isdecimal ·))

/-- `_exact_spans`. -/
def exactSpans (text term : String) : List (Nat × Nat) :=
  if !isascii term then py.finditer (py.escape term) text false
  else
    let plural := if py.isalpha term && !endswith term "s" then "(?:s)?" else ""
    py.finditer ("(?<![A-Za-z0-9_])" ++ py.escape term ++ plural ++ "(?![A-Za-z0-9_])") text true

/-- `_exact_occurrences`. -/
def exactOccurrences (text term : String) : Nat := (exactSpans py text term).length

variable (e : Enumeration)

/-- `_numeric_relation_score`. -/
def numericRelationScore (text : String) (anchors : Finset String) : Rat :=
  let numeric := (e.list anchors).filter (py.isdecimal ·)
  let semantic := (e.list anchors).filter fun term => !py.isdecimal term
  if numeric = [] ∨ semantic = [] then 0
  else
    let denominator := min 2 semantic.length
    let best := numeric.foldl (fun best number =>
      (exactSpans py text number).foldl (fun best span =>
        let windowStart := span.1 - 80
        let windowEnd := min text.length (span.2 + 80)
        let nearby := semantic.countP fun term =>
          decide (exactSpans py (Text.slice text windowStart windowEnd) term ≠ [])
        max best (min denominator nearby)) best) 0
    best / denominator

/-- `reviewed_release_patterns`. -/
def reviewedReleasePatterns : List (String × String) :=
  [("rust_latest_stable_version",
      "\\bRust\\s+\\d+[.]\\d+[.]\\d+\\b.*?" ++
      "\\bVersion\\s+\\d+[.]\\d+[.]\\d+\\s*\\(\\d\x7b4\x7d-\\d\x7b2\x7d-\\d\x7b2\x7d\\)"),
    ("python_latest_stable_version", "\\bDownload\\s+Python\\s+\\d+[.]\\d+[.]\\d+\\b"),
    ("node_active_lts_release_line",
      "\\bNode[.]js\\s+Codename\\s+First released\\s+Last updated\\s+Status\\b" ++
      ".*?\\bv\\s*\\d+\\s+[A-Za-z][A-Za-z0-9-]*\\s+" ++
      "[A-Za-z]+\\s+\\d\x7b1,2\x7d,\\s+\\d\x7b4\x7d\\s+" ++
      "[A-Za-z]+\\s+\\d\x7b1,2\x7d,\\s+\\d\x7b4\x7d\\s+LTS\\b"),
    ("git_latest_stable_release",
      "\\bLatest\\s+(?:stable\\s+)?(?:source\\s+)?release\\b" ++
      ".\x7b0,100\x7d\\b\\d+[.]\\d+[.]\\d+\\b"),
    ("current_season_or_release",
      "\\bApex Legends(?:\\u2122)?\\s*:\\s*[^\\n]\x7b1,100\x7d?Patch Notes\\b|" ++
      "\\bWelcome back to\\s+[^.!]\x7b1,80\x7d"),
    ("current_release", "\\bWelcome back to\\s+[^.!]\x7b1,80\x7d")]

/-- `apex_runtime_patterns`. -/
def apexRuntimePatterns : List (String × String) :=
  [("bloodhound_tactical_changes",
      "\\bBLOODHOUND\\b.*?\\bTactical\\b.*?" ++
      "Total scan duration up to\\s+\\d+(?:[.]\\d+)?s"),
    ("bloodhound_ultimate_changes",
      "\\bBLOODHOUND\\b.*?\\bUltimate\\s*:\\s*Cooldown reduced"),
    ("community_bloodhound_meta",
      "\\bBloodhound\\s+[+]\\d+(?:[.]\\d+)?\\s+Win\\s+\\d+(?:[.]\\d+)?%"),
    ("current_map_rotation",
      "This split(?:'|\\u2019)s map rotations are as follows:.*?\\bRanked\\b"),
    ("ranked_rules_changes",
      "\\bRANKED\\b.*?Removing\\s+[\\\"\\u201c]Champion Squad[\\\"\\u201d]\\s+Screen"),
    ("community_team_composition_frequency", "Most Common Trio Compositions\\s+1\\b"),
    ("community_team_composition_performance", "Highest Earning Trio Compositions\\s+1\\b")]

/-- `_definition_relation_score`: a definition is as good as can be, or there is none. -/
def definitionRelationScore (text : String) (anchors : Finset String) (fact : FactRequirement) :
    Bool :=
  let factText := py.casefold (fact.key ++ " " ++ fact.description)
  let has := Text.contains factText
  let numeric := (e.list anchors).filter (py.isdecimal ·)
  if (reviewedReleasePatterns ++ apexRuntimePatterns).any fun marker =>
      has marker.1 && py.search marker.2 text true then true
  else if has "git" && has "object_types" && py.search
      ("(?:Objects\\s*:\\s*|There are 4 types of objects:\\s*)" ++
        "commits\\s*,\\s*trees\\s*,\\s*blobs\\s*,\\s*and\\s+tag objects") text false then true
  else if has "git" && has "_purpose" then
    match ["blob", "tree", "commit", "tag"].find? fun value => has (value ++ "_purpose") with
    | none => false
    | some objectName => py.search ("\\b" ++ objectName ++ "\\b.\x7b0,80\x7d" ++
        "\\b(?:contains?|represents?|records?|stores?)\\b") text true
  else if has "cap" && has "tradeoff" && py.search
      ("The CAP theorem says that a distributed system can deliver " ++
        "only two of three desired characteristics") text false then true
  else if has "postgresql" && !numeric.isEmpty &&
      ["support", "final release", "eol"].any has &&
      numeric.any fun number => py.search
        ("(?<![.\\d])" ++ py.escape number ++ "\\s+" ++ py.escape number ++ "[.]\\d+" ++
          "\\s+Yes\\s+[A-Za-z]+\\s+\\d\x7b1,2\x7d,\\s+\\d\x7b4\x7d\\s+" ++
          "[A-Za-z]+\\s+\\d\x7b1,2\x7d,\\s+\\d\x7b4\x7d") text false then true
  else if !numeric.isEmpty && ["meaning", "semantic", "constraint", "语义", "约束"].any has &&
      numeric.any fun number => py.search
        ("\\bThe\\s+" ++ py.escape number ++ "\\s*\\([^)]\x7b1,80\x7d\\)\\s+" ++
          "status code indicates\\b") text false then true
  else if !has "purpose" && !has "用途" then false
  else (e.list anchors).any fun anchor => (exactSpans py text anchor).any fun span =>
    py.search ("(?:\\b(?:contains?|represents?|records?|stores?|points?\\s+to|" ++
      "refers?\\s+to|used\\s+for|required\\s+fields)\\b|" ++
      "\\u5305\\u542b|\\u8868\\u793a|\\u8bb0\\u5f55|\\u5b58\\u50a8|\\u5f15\\u7528|\\u7528\\u4e8e)")
      (Text.slice text (span.1 - 48) (min text.length (span.2 + 140))) false

/-! ## Quotes -/

/-- The score of a window; of two, the greater one in this order is the better. -/
abbrev WindowScore := Nat ×ₗ Nat ×ₗ Nat ×ₗ Nat

/-- Where the window around a position starts. -/
def windowStart (quoteChars length position : Nat) : Nat :=
  min (length - quoteChars) (position - quoteChars / 3)

/-- The score of the window of the folded text that starts there. -/
def windowScore (quoteChars : Nat) (folded : List Char) (terms anchors : Finset String)
    (start : Nat) : WindowScore :=
  let window := (folded.drop start).take quoteChars
  let inWindow : String → Bool := fun term => (Text.indexChars term.toList window).isSome
  let density : List String → Nat := fun l => (l.map fun term => count window term.toList).sum
  toLex ((e.list anchors).countP inWindow, toLex (density (e.list anchors),
    toLex ((e.list terms).countP inWindow, density (e.list terms))))

/-- The best window so far, with its score; at first there is none. -/
def betterWindow (score : Nat → WindowScore) (best : Option Nat) (start : Nat) : Option Nat :=
  match best with
  | none => some start
  | some found => if score start > score found then some start else some found

/-- `_quote_window`. -/
def quoteWindow (quoteChars : Nat) (text : String) (terms anchors : Finset String) : String :=
  if text.length ≤ quoteChars then text
  else
    let folded := (py.casefold text).toList
    let positionTerms := if anchors = ∅ then terms else anchors
    let positions := (e.list positionTerms).flatMap fun term => positionsOf folded term.toList
    let starts := positions.map (windowStart quoteChars text.length)
    match starts.foldl (betterWindow (windowScore e quoteChars folded terms anchors)) none with
    | none => Text.slice text 0 quoteChars
    | some start => Text.slice text start (start + quoteChars)

end Terms

/-! ## Candidates -/

/-- A chunk with its place in the document. -/
structure OrdinalChunk extends DocumentChunk where
  ordinal : Nat
deriving DecidableEq, Repr

/-- `CandidateDocument`; the facts it is mapped to are there once each. -/
structure CandidateDocument where
  documentId : Uuid
  version : DocumentVersion
  chunks : List (Uuid × OrdinalChunk)
  url : String
  title : String
  mappedFactIds : List Uuid
  bound : mappedFactIds ≠ []
  distinct : mappedFactIds.Nodup

/-- A candidate with the place of its chunk and the title of its document. -/
structure Selectable extends SelectedCandidate where
  ordinal : Nat
  title : String

/-- `CandidateSelector`. -/
structure CandidateSelector where
  /-- `authority.classify`, of a URL and an entity. -/
  classify : String → String → Except Exn (String × SourceAuthority)
  perFact : Nat
  total : Nat
  quoteChars : Nat
  positive : 1 ≤ perFact ∧ 1 ≤ total ∧ 1 ≤ quoteChars

/-- What a run of `select` is given besides facts and documents. -/
structure SelectionRun where
  py : PyText
  builtins : Builtins
  runId : Uuid
  entity : String

section Matching

variable (run : SelectionRun) (e : Enumeration) (quoteChars : Nat)

/-- A term is in the chunk, in its folded text or among its tokens. -/
def occursIn (text term : String) : Bool :=
  Text.contains (run.py.casefold text) term || decide (term ∈ tokens run.py [text])

/-- The score of a chunk for a fact; `none` where the chunk is passed over. -/
def chunkScore (fact : FactRequirement) (text : String) : Option Rat :=
  let terms := (termSets run.py run.entity fact).1
  let anchors := (termSets run.py run.entity fact).2
  let matched := terms.filter (occursIn run text ·)
  let definition := definitionRelationScore run.py e text anchors fact
  if matched = ∅ ∧ definition = false then none
  else
    let matchedAnchors := anchors.filter (occursIn run text ·)
    if anchors ≠ ∅ ∧ matchedAnchors = ∅ ∧ definition = false then none
    else
      let contextScore : Rat := matched.card / (max 1 terms.card : Nat)
      if anchors = ∅ then some contextScore
      else
        let anchorScore : Rat := matchedAnchors.card / anchors.card
        let exactAnchorScore : Rat := ((e.list anchors).countP fun term =>
          decide (exactOccurrences run.py text term > 0) : Nat) / anchors.card
        let lexicalScore : Rat :=
          45 / 100 * anchorScore + 35 / 100 * exactAnchorScore + 20 / 100 * contextScore
        let relationScore := numericRelationScore run.py e text anchors
        let isPurpose :=
          Text.contains (run.py.casefold (fact.key ++ " " ++ fact.description)) "purpose" ||
            Text.contains fact.description "用途"
        some (if definition then 1
          else if isPurpose then 85 / 100 * lexicalScore + 15 / 100 * relationScore
          else 90 / 100 * lexicalScore + 10 / 100 * relationScore)

/-- The quote that is cut out of a chunk for a fact. -/
def chunkQuote (fact : FactRequirement) (text : String) : String :=
  quoteWindow run.py e quoteChars text (termSets run.py run.entity fact).1
    (termSets run.py run.entity fact).2

/-- What the identifier of a candidate is derived from. -/
def candidateName (factId chunkId : Uuid) (quote : String) : String :=
  "candidate:" ++ factId.str ++ ":" ++ chunkId.str ++ ":" ++ run.builtins.sha256 quote

/-- The identifier of a candidate. -/
def candidateId (factId chunkId : Uuid) (quote : String) : Uuid :=
  run.builtins.uuid5 run.runId (candidateName run factId chunkId quote)

/-- The candidate that a chunk gives for a fact. -/
def chunkCandidate (document : CandidateDocument) (source : String × SourceAuthority)
    (factId : Uuid) (fact : FactRequirement) (chunk : Uuid × OrdinalChunk) : Option Selectable :=
  (chunkScore run e fact chunk.2.text).map fun score => {
    id := candidateId run factId chunk.1 (chunkQuote run e quoteChars fact chunk.2.text)
    factId, fact
    documentId := document.documentId
    version := document.version
    chunkId := chunk.1
    chunk := chunk.2.toDocumentChunk
    url := document.url
    sourceIdentity := source.1
    sourceAuthority := source.2
    quote := chunkQuote run e quoteChars fact chunk.2.text
    score
    ordinal := chunk.2.ordinal
    title := document.title }

/-- The candidates of a document for a fact. -/
def documentCandidates (factId : Uuid) (fact : FactRequirement)
    (classified : CandidateDocument × String × SourceAuthority) : List Selectable :=
  if factId ∈ classified.1.mappedFactIds then
    classified.1.chunks.filterMap
      (chunkCandidate run e quoteChars classified.1 classified.2 factId fact)
  else []

end Matching

/-! ## Selection -/

/-- The key the candidates of a fact are sorted by. -/
def candidateKey (c : Selectable) : Nat ×ₗ Rat ×ₗ String ×ₗ Nat :=
  toLex (if c.sourceAuthority = .official then 0 else 1,
    toLex (-c.score, toLex (c.sourceIdentity, c.ordinal)))

/-- The candidates of a fact, best first; sources that have come before are deferred. -/
def rankedCandidates (perFact : Nat) (candidates : List Selectable) : List Selectable :=
  (newFirst (·.sourceIdentity) (rank candidateKey candidates)).take perFact

namespace CandidateSelector

variable (selector : CandidateSelector) (run : SelectionRun) (e : Enumeration)

/-- The candidates of each fact, in the order of the documents. -/
def byFact (facts : List (Uuid × FactRequirement))
    (classified : List (CandidateDocument × String × SourceAuthority)) : List (List Selectable) :=
  facts.map fun fact =>
    classified.flatMap (documentCandidates run e selector.quoteChars fact.1 fact.2)

/-- Every document with its source. -/
def classifyAll (documents : List CandidateDocument) :
    Except Exn (List (CandidateDocument × String × SourceAuthority)) :=
  documents.mapM fun document =>
    (selector.classify document.url run.entity).map fun source => (document, source)

/-- `CandidateSelector.select`. -/
def select (facts : List (Uuid × FactRequirement)) (documents : List CandidateDocument) :
    Except Exn (List Selectable) := do
  let classified ← selector.classifyAll run documents
  let ranked := (selector.byFact run e facts classified).map (rankedCandidates selector.perFact)
  return (roundRobin selector.perFact ranked).take selector.total

end CandidateSelector

end Sana.Evidence
