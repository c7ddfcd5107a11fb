import Sana.Answer.ModelSynthesizer
import Sana.Lib.Regex

/-!
# Identifiers of a claim

`_self_contained_text`: a claim names the identifiers of its fact, and where it leaves some out the
parser puts them in front, if the citations say them.
-/

namespace Sana.Answer

open Sana.Lib Sana.Evidence Sana.Planning Lib.Regex

/-- What `re` takes from Unicode's tables. -/
structure PatternText where
  /-- `\s`. -/
  space : Char → Bool
  /-- `\d`. -/
  digit : Char → Bool
  /-- `\w`. -/
  word : Char → Bool
  /-- The code points are the same but for their case. -/
  same : Char → Char → Bool

namespace PatternText

variable (t : PatternText)

/-- A literal as it stands. -/
def exactly (text : String) : Regex := lit (· == ·) text.toList

/-- `_NUMERIC_IDENTIFIER`. -/
def numericIdentifier : Regex :=
  .seq (plus (.one t.digit))
    (.star (.seq (.one fun c => c = '.' || c = '-') (plus (.one t.digit))))

/-- A text of at most 64 code points between two quotation marks of one kind. -/
def quotedBy (quote : Char) : Regex :=
  let inner : Regex := .one fun c => c ≠ '\'' && c ≠ '"'
  .seq (.one (· = quote)) (.seq inner (.seq (upTo inner 63) (.one (· = quote))))

/-- `_QUOTED_IDENTIFIER`. -/
def quotedIdentifier : Regex := .alt (quotedBy '\'') (quotedBy '"')

/-- `_STANDARD_IDENTIFIER`. -/
def standardIdentifier : Regex :=
  let spaces : Regex := .star (.one t.space)
  let digits := plus (.one t.digit)
  let names : Regex :=
    .alt (.seq (exactly "RFC") (.seq spaces digits))
      (.alt (.seq (exactly "TLS") (.seq spaces (.seq digits (.star (.seq (exactly ".") digits)))))
        (.alt (.seq (exactly "SHA") (.seq (upTo (exactly "-") 1) digits))
          (.seq (exactly "HTTP") (.seq (plus (.one t.space))
            (.seq (.one Char.isUpper) (plus (.one fun c => c.isUpper || c = '-')))))))
  .seq (boundary t.word) (.seq names (boundary t.word))

/-- `_TITLE_PHRASE`. -/
def titlePhrase : Regex :=
  let word : Regex := .seq (.one Char.isUpper)
    (.seq (.one Char.isLower) (plus (.one Char.isLower)))
  .seq (boundary t.word)
    (.seq word (.seq (plus (.seq (plus (.one t.space)) word)) (boundary t.word)))

/-- `_TITLE_WORD`. -/
def titleWord : Regex :=
  let word : Regex := .seq (.one Char.isUpper)
    (.seq (.one Char.isLower) (.seq (.one Char.isLower) (plus (.one Char.isLower))))
  .seq (boundary t.word) (.seq word (boundary t.word))

/-- `_GENERIC_TITLE_WORDS`. -/
def genericTitleWords : List (List Char) :=
  ["Anomaly", "Definition", "Example", "Guarantees", "Launch", "Semantics", "Standard",
    "Whether"].map String.toList

/-- `[A-Za-z0-9]` where case is ignored, which takes four letters outside ASCII too. -/
def isAlphanum (c : Char) : Bool :=
  c.isAlphanum || [0x130, 0x131, 0x17F, 0x212A].contains c.toNat

/-- `_contains_identifier`. -/
def containsIdentifier (text identifier : List Char) : Bool :=
  found (token t.same isAlphanum identifier) text

/-- `_contains_identifier`, with `case_sensitive`. -/
def containsExactly (text identifier : List Char) : Bool :=
  found (token (· == ·) Char.isAlphanum identifier) text

variable (fact : FactRequirement)

/-- `_numeric_identifiers`. -/
def numericIdentifiers : List (List Char) :=
  let material := fact.description.toList ++ ' ' :: fact.subject.toList
  let material := sub quotedIdentifier [' '] material
  let material := sub t.standardIdentifier [' '] material
  distinctBy id (findall t.numericIdentifier material)

local instance lawfulBEqIdentifier : LawfulBEq (List Char) := inferInstance

/-- The candidates of `_symbolic_identifiers` in one text of a fact. -/
def symbolicCandidates (material : List Char) : List (List Char) :=
  (findall quotedIdentifier material).map (fun quoted => quoted.tail.dropLast)
    ++ findall t.standardIdentifier material
    ++ findall t.titlePhrase material
    ++ (findall t.titleWord material).filter (· ∉ genericTitleWords)

/-- `_symbolic_identifiers`: none that another one contains. -/
def symbolicIdentifiers : List (List Char) :=
  let values := t.symbolicCandidates fact.description.toList
    ++ t.symbolicCandidates fact.subject.toList
  let deduplicated := distinctBy id ((values.map Text.stripChars).filter (· ≠ []))
  deduplicated.filter fun value =>
    !deduplicated.any fun other => value ≠ other && containsExactly other value

/-- The group of `RFC\s*(\d+)`, if it matches the whole identifier. -/
def rfcNumber : List Char → Option (List Char)
  | r :: f :: c :: rest =>
      let number := rest.dropWhile t.space
      if t.same 'R' r && t.same 'F' f && t.same 'C' c && number ≠ [] && number.all t.digit then
        some number
      else none
  | _ => none

/-- `_identifier_grounded`, by the quote and the URL of a cited item. -/
def identifierGrounded (cited : String × String) (identifier : List Char) : Bool :=
  t.containsIdentifier cited.1.toList identifier ||
    (t.rfcNumber identifier).any fun number =>
      found (.seq (lit t.same ("/rfc/rfc".toList ++ number))
        (.alt (.one fun c => c = '.' || c = '/') atEnd)) cited.2.toList

/-- `_self_contained_text`. -/
def selfContainedText (claimText : String) (cited : List (String × String)) :
    Except Exn String := do
  let missingNumeric := (t.numericIdentifiers fact).filter fun identifier =>
    !t.containsIdentifier claimText.toList identifier
  check (missingNumeric.all fun identifier =>
      cited.any fun c => t.containsIdentifier c.1.toList identifier)
    (.valueError "claim omitted a numeric identifier not grounded by citations")
  let missingSymbolic := (t.symbolicIdentifiers fact).filter fun identifier =>
    !containsExactly claimText.toList identifier && cited.any (t.identifierGrounded · identifier)
  let missing := distinctBy id (missingNumeric ++ missingSymbolic)
  if missing = [] then
    return claimText
  let normalized := [',', ' '].intercalate missing ++ ':' :: ' ' :: claimText.toList
  check (normalized.length ≤ 1200) (.valueError "self-contained claim is too long")
  return String.ofList normalized

/-- The rules of the parser, with its own text. -/
def rules (rest : ClaimRules) : ClaimRules :=
  { rest with selfContainedText := t.selfContainedText }

end PatternText

end Sana.Answer
