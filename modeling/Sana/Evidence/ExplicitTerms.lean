import Sana.Evidence.ModelVerifier

/-!
# Explicitly listed terms

`_deterministic_explicit_terms` accepts an official quote without a model when the fact's
description lists two to eight terms and the quote has all of them. It looks for the terms in the
folded quote and cuts the proposed quote out of the quote itself. What the patterns find in a
description is left to `re`.
-/

namespace Sana.Evidence

open Sana.Lib Sana.Planning

/-- A token of a list: it is not empty and has no blanks. -/
def IsToken (value : String) : Prop := value ≠ "" ∧ ∀ c ∈ value.toList, Text.isSpace c = false

/-- What the patterns find in a description. -/
structure ListPatterns where
  /-- The groups of `_BOTH_TERMS.search(description)`. -/
  bothTerms : String → Option (String × String)
  /-- The group of `_EXPLICIT_LIST.search(description)`. -/
  explicitList : String → Option String
  /-- `re.split(r"\s*,\s*(?:(?:and|or)\s+)?|\s+(?:and|or)\s+", text, flags=re.I)`. -/
  splitList : String → List String
  /-- `_EXPLICIT_TOKEN.findall(piece)`. -/
  explicitTokens : String → List String
  bothTerms_token : ∀ d t, bothTerms d = some t → IsToken t.1 ∧ IsToken t.2
  explicitTokens_token : ∀ d, ∀ t ∈ explicitTokens d, IsToken t

/-- `_NON_VALUE_TERMS`. -/
def nonValueTerms : List String :=
  ["answer", "current", "evidence", "fact", "official", "source", "standard", "support"]

section Terms

variable (patterns : ListPatterns)

/-- The tokens of the pieces of a list; none if a piece has more or less than one. -/
def parsePieces : List String → Option (List String)
  | [] => some []
  | piece :: pieces =>
      match patterns.explicitTokens piece with
      | [token] => (parsePieces pieces).map (token :: ·)
      | _ => none

/-- The terms that a description lists. -/
def listedTerms (description : String) : List String :=
  match patterns.bothTerms description with
  | some both => [both.1, both.2]
  | none =>
      match patterns.explicitList description with
      | none => []
      | some listed =>
          distinctBy id ((parsePieces patterns (patterns.splitList (Text.strip listed))).getD [])

end Terms

/-- The text has the term at this place, with no ASCII letter or digit next to it. -/
def isTermAt (text term : List Char) (p : Nat) : Bool :=
  term.isPrefixOf (text.drop p) && (text.take p).getLast?.all (!·.isAlphanum) &&
    (text.drop (p + term.length)).head?.all (!·.isAlphanum)

/-- `re.search(rf"(?<![A-Za-z0-9])\x7bre.escape(term)\x7d(?![A-Za-z0-9])", text).span()`. -/
def termSpan (text term : List Char) : Option (Nat × Nat) :=
  ((List.range (text.length + 1)).find? (isTermAt text term)).map fun p => (p, p + term.length)

section Proposal

variable (patterns : ListPatterns) (casefold : String → String)

/-- The spans of the terms in the folded quote; `none` if one is not there. -/
def termSpans (quote : String) (values : List String) : Option (List (Nat × Nat)) :=
  values.mapM fun value => termSpan (casefold quote).toList (casefold value).toList

/-- `start`. -/
def proposalStart (spans : List (Nat × Nat)) : Nat := ((spans.map (·.1)).min?).getD 0 - 120

/-- `end`. -/
def proposalEnd (quote : String) (spans : List (Nat × Nat)) : Nat :=
  min quote.length (((spans.map (·.2)).max?).getD 0 + 120)

/-- `_deterministic_explicit_terms`. -/
def deterministicExplicitTerms (candidate : SelectedCandidate) : Option ProposedVerification :=
  if candidate.sourceAuthority ≠ .official ∨ candidate.score < 4 / 5 then none
  else
    let values := listedTerms patterns candidate.fact.description
    if ¬(2 ≤ values.length ∧ values.length ≤ 8) then none
    else if values.any fun value => decide (casefold value ∈ nonValueTerms) then none
    else
      match termSpans casefold candidate.quote values with
      | none => none
      | some spans => some {
          factId := candidate.factId
          candidateId := candidate.id
          supportType := .supports
          quote := Text.strip
            (Text.slice candidate.quote (proposalStart spans) (proposalEnd candidate.quote spans))
          confidence := 99 / 100
          reasonCodes := ["direct_support", "explicit_value"] }

end Proposal

end Sana.Evidence
