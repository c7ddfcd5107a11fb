import Sana.Answer.FallbackText
import Sana.Evidence.Proof.Offsets
import Sana.Evidence.Proof.Provenance

/-!
# The registry's verdict and its sentence

The adapter accepts a row whatever its cells are, and the fallback's sentence goes by the version
the adapter leaves and by a word of the fact. Putting the two together, the sentence is about `GET`
and is never a denial. It is right exactly where that happens to be what the row has.
-/

namespace Sana.Answer

open Sana.Lib Sana.Evidence Sana.Planning

/-- The properties that the registry has columns for. -/
inductive HttpProperty
  | safe | idempotent
deriving DecidableEq, Repr

def HttpProperty.value : HttpProperty → String
  | .safe => "safe"
  | .idempotent => "idempotent"

/-- The cell of a row in the column of the property. -/
def HttpProperty.cell : HttpProperty → Bool × Bool → Bool
  | .safe, row => row.1
  | .idempotent, row => row.2

/-- The text has it that the method has the property. -/
def Asserts (text method : String) (property : HttpProperty) : Prop :=
  "HTTP ".toList ++ method.toList ++ (" is " ++ property.value).toList <:+: text.toList

/-- The text has it that the method does not have the property. -/
def Denies (text method : String) (property : HttpProperty) : Prop :=
  "HTTP ".toList ++ method.toList ++ (" is not " ++ property.value).toList <:+: text.toList

/-- What a text and the verdict it cites may be, by the cell. -/
def Agrees (text : String) (verdict : SupportType) (method : String) (property : HttpProperty)
    (cell : Bool) : Prop :=
  if cell then Asserts text method property
  else Denies text method property ∨ verdict = .contradicts

/-! ## Naming a property -/

section Naming

variable {casefold : String → String}

/-- What has no separator occurs on one side of it. -/
theorem infix_of_notMem {α : Type*} {sep : α} {g a b : List α} (h : g <:+: a ++ sep :: b)
    (hg : sep ∉ g) : g <:+: a ∨ g <:+: b := by
  obtain ⟨pre, post, h⟩ := h
  rcases List.append_eq_append_iff.mp h with ⟨c, ha, hpost⟩ | ⟨c, hpre, hsep⟩
  · exact .inl ⟨pre, c, ha.symm⟩
  · cases c with
    | nil =>
        rw [List.append_nil] at hpre
        exact .inl ⟨pre, [], by rw [List.append_nil, hpre]⟩
    | cons d c =>
        obtain ⟨rfl, hb⟩ := List.cons.inj hsep
        rcases List.append_eq_append_iff.mp hpre with ⟨c', ha, hg'⟩ | ⟨c', hpre', hc⟩
        · exact absurd (hg' ▸ List.mem_append_right c' List.mem_cons_self) hg
        · cases c' with
          | nil =>
              rw [List.nil_append] at hc
              exact absurd (hc ▸ List.mem_cons_self) hg
          | cons d' c' =>
              obtain ⟨-, hc⟩ := List.cons.inj hc
              refine .inr ⟨c', post, ?_⟩
              rw [hb, hc]
              rfl

/-- The group of a property occurs in the text. -/
theorem propertyMatch_infix {text group : String} (h : propertyMatch text = some group) :
    group.toList <:+: text.toList := by
  obtain ⟨found, hfound, rfl⟩ := Option.map_eq_some_iff.mp h
  obtain ⟨p, -, hp⟩ := List.exists_of_findSome?_eq_some hfound
  rw [propertyAt] at hp
  split at hp
  · cases hp
  · obtain ⟨word, -, hword⟩ := List.exists_of_findSome?_eq_some hp
    split at hword
    · cases hword
      rw [String.toList_ofList]
      exact (List.take_prefix _ _).isInfix.trans (List.drop_suffix _ _).isInfix
    · cases hword

/-- A fact that names a property has its name in the folded text, in whatever order the parts of
the fact stand there. -/
theorem named_in_folded (folding : CaseFolding casefold) {fact : FactRequirement}
    {property : HttpProperty}
    (h : (propertyMatch (registryFactText fact)).map casefold = some property.value) :
    property.value.toList <:+: (casefold (derivedFactText fact)).toList := by
  obtain ⟨group, hgroup, hfold⟩ := Option.map_eq_some_iff.mp h
  have hin := propertyMatch_infix hgroup
  have hblank : ' ' ∉ group.toList := by
    intro hmem
    have : ' ' ∈ property.value.toList := by
      rw [← hfold, folding.folds]
      exact List.mem_flatMap.mpr ⟨' ', hmem, folding.blank ' ' (by decide) ▸ List.mem_singleton_self _⟩
    revert this
    cases property <;> decide
  have hparts : group.toList <:+: (derivedFactText fact).toList := by
    simp only [registryFactText, derivedFactText, String.toList_append] at hin ⊢
    rw [show " ".toList = [' '] from rfl] at hin ⊢
    rw [List.append_assoc, List.append_assoc, List.append_assoc] at hin ⊢
    rcases infix_of_notMem hin hblank with hkey | hrest
    · exact hkey.trans (List.prefix_append _ _).isInfix
    · rcases infix_of_notMem hrest hblank with hsubject | hdescription
      · refine hsubject.trans (List.IsSuffix.isInfix ?_)
        exact ⟨fact.key.toList ++ ([' '] ++ (fact.description.toList ++ [' '])), by simp⟩
      · exact hdescription.trans
          ⟨fact.key.toList ++ [' '], [' '] ++ fact.subject.toList, by simp⟩
  obtain ⟨pre, post, hparts⟩ := hparts
  rw [folding.folds, ← hparts, List.flatMap_append, List.flatMap_append, ← folding.folds, hfold]
  exact ⟨_, _, rfl⟩

end Naming

/-! ## Evidence of the adapter -/

section Adapter

variable {t : RegistryText} {candidate : SelectedCandidate} {proposal : ProposedVerification}

/-- What the adapter accepts has a row for the method, and always supports the fact. -/
theorem deterministicRegistryBoolean_some
    (h : deterministicRegistryBoolean t candidate = some proposal) :
    (∃ method row, registryMethod t candidate.fact = some method ∧
        registryCells method candidate.quote = some row) ∧
      proposal.supportType = .supports := by
  rw [deterministicRegistryBoolean] at h
  split at h
  · cases h
  · split at h
    · rename_i method _ hmethod
      split at h
      · cases h
      · rename_i row hrow
        cases h
        exact ⟨⟨method, row, hmethod, hrow⟩, rfl⟩
    · cases h

/-- A record carries the version and the proposed support. -/
theorem record_carries {b : Builtins} {runId : Uuid} {verifiedAt : Time} {version : String}
    {verdict : EvidenceVerdict} {e : VerifiedEvidence}
    (h : ModelEvidenceVerifier.record b runId verifiedAt version verdict candidate proposal = .ok e) :
    e.verifierVersion = version ∧ e.supportType = proposal.supportType := by
  rw [ModelEvidenceVerifier.record] at h
  split at h
  · rw [bind_ok_iff] at h
    obtain ⟨grounded, hgrounded, h⟩ := h
    simp only [Evidence.record, VerifiedEvidence.make, bind_ok_iff, pure_ok_iff] at h
    obtain ⟨_, _, _, _, rfl⟩ := h
    refine ⟨rfl, ?_⟩
    simp only [build, bind_ok_iff] at hgrounded
    obtain ⟨_, _, _, _, _, _, _, _, _, _, _, _, hmake⟩ := hgrounded
    rw [VerifiedEvidence.supportType, (candidate_make_ok hmake).1]
  · cases h

end Adapter

/-! ## The sentence -/

section Sentence

variable {py : FallbackPatterns} {fact : FactRequirement} {e : VerifiedEvidence}

/-- What is said of this adapter's evidence. -/
theorem derivedFallbackText_registry (hversion : e.verifierVersion = registryVersion)
    {property : HttpProperty}
    (hnamed : property.value.toList <:+: (foldedFactText py fact).toList) :
    derivedFallbackText py fact [e] = some (if Text.contains (foldedFactText py fact) "idempotent"
      then "HTTP GET is idempotent." else "HTTP GET is safe.") := by
  have hother : ∀ version, registryVersion ≠ version → hasVersion [e] version = false := by
    intro version hne
    rw [hasVersion, List.any_cons, List.any_nil, Bool.or_false, hversion]
    exact decide_eq_false hne
  have hdns : dnsText py fact [e] = none := by
    rw [dnsText, hother _ (by decide)]
    rfl
  have hpython : pythonText py fact [e] = none := by
    rw [pythonText, hother _ (by decide)]
    rfl
  have hjson : jsonText [e] = none := by
    rw [jsonText, hother _ (by decide)]
    rfl
  have hstatus : statusText [e] = none := by
    rw [statusText, hother _ (by decide)]
    rfl
  have hregistry : registryText py fact [e]
      = some (if Text.contains (foldedFactText py fact) "idempotent" then "HTTP GET is idempotent."
        else "HTTP GET is safe.") := by
    have hthis : hasVersion [e] registryVersion = true := by
      rw [hasVersion, List.any_cons, decide_eq_true hversion, Bool.true_or]
    rw [registryText, hthis]
    by_cases hidempotent : Text.contains (foldedFactText py fact) "idempotent" = true
    · simp [hidempotent]
    · have hsafe : Text.contains (foldedFactText py fact) "safe" = true := by
        cases property with
        | safe => exact Text.indexChars_isSome_iff.mpr hnamed
        | idempotent => exact absurd (Text.indexChars_isSome_iff.mpr hnamed) hidempotent
      simp [hidempotent, hsafe]
  rw [derivedFallbackText, hdns, hpython, hjson, hstatus, hregistry]
  rfl

/-- What stands between two pieces of a text is a piece of the text. -/
theorem between_infix {front middle back text : List Char} (h : front ++ middle ++ back <:+: text) :
    ∃ p ≤ text.length, ∃ n ≤ text.length, front.isPrefixOf (text.drop p) = true ∧
      back.isPrefixOf (text.drop (p + front.length + n)) = true ∧
      middle = (text.drop (p + front.length)).take n := by
  obtain ⟨pre, post, rfl⟩ := h
  have hdrop : ∀ l : List Char, (pre ++ (front ++ l)).drop (pre.length + front.length) = l := by
    intro l
    rw [← List.append_assoc, List.drop_left' (by rw [List.length_append])]
  have hshape : pre ++ (front ++ middle ++ back) ++ post
      = pre ++ (front ++ (middle ++ (back ++ post))) := by
    simp only [List.append_assoc]
  refine ⟨pre.length, ?_, middle.length, ?_, ?_, ?_, ?_⟩
  · simp only [List.length_append]
    omega
  · simp only [List.length_append]
    omega
  · rw [hshape, List.drop_left, List.isPrefixOf_iff_prefix]
    exact List.prefix_append _ _
  · rw [hshape, ← List.drop_drop, hdrop, List.drop_left, List.isPrefixOf_iff_prefix]
    exact List.prefix_append _ _
  · rw [hshape, hdrop, List.take_left]

/-- The sentence about `GET`. -/
def getSentence (said : HttpProperty) : List Char :=
  ['H', 'T', 'T', 'P', ' ', 'G', 'E', 'T', ' ', 'i', 's', ' '] ++ said.value.toList ++ ['.']

/-- A sentence about `GET` is a sentence about nothing else. -/
theorem asserts_get_iff {method text : String} {property said : HttpProperty}
    (htext : text.toList = getSentence said) :
    Asserts text method property ↔ method = "GET" ∧ property = said := by
  rw [Asserts, htext]
  constructor
  · intro h
    obtain ⟨p, hp, n, hn, hfront, hback, hmethod⟩ := between_infix h
    have hplace : ∀ property said : HttpProperty, ∀ p ∈ List.range 25, ∀ n ∈ List.range 25,
        "HTTP ".toList.isPrefixOf ((getSentence said).drop p) = true →
          (" is " ++ property.value).toList.isPrefixOf
            ((getSentence said).drop (p + "HTTP ".toList.length + n)) = true →
          p = 0 ∧ n = 3 ∧ property = said := by
      intro property said
      cases property <;> cases said <;> decide
    have hlength : (getSentence said).length ≤ 24 := by cases said <;> decide
    obtain ⟨rfl, rfl, rfl⟩ := hplace property said p (List.mem_range.mpr (by omega)) n
      (List.mem_range.mpr (by omega)) hfront hback
    refine ⟨String.toList_inj.mp (hmethod.trans ?_), rfl⟩
    cases property <;> decide
  · rintro ⟨rfl, rfl⟩
    cases property <;> exact ⟨[], ['.'], by decide⟩

/-- A sentence about `GET` denies nothing. -/
theorem not_denies_get {method text : String} {property said : HttpProperty}
    (htext : text.toList = getSentence said) : ¬Denies text method property := by
  rw [Denies, htext]
  intro h
  obtain ⟨p, -, n, -, -, hback, -⟩ := between_infix h
  have hnone : ∀ property said : HttpProperty, ∀ p ∈ List.range 25,
      (" is not " ++ property.value).toList.isPrefixOf ((getSentence said).drop p) = false := by
    intro property said
    cases property <;> cases said <;> decide
  by_cases hin : p + "HTTP ".toList.length + n < 25
  · rw [hnone property said _ (List.mem_range.mpr hin)] at hback
    cases hback
  · have hlength : (getSentence said).length ≤ 24 := by cases said <;> decide
    rw [List.drop_eq_nil_of_le (by omega)] at hback
    cases property <;> simp at hback

end Sentence

/-- **The sentence agrees with the table exactly if it is about `GET`, the cell is `yes` and the
word it goes by is the property's.** -/
theorem registry_sentence_iff (t : RegistryText) (py : FallbackPatterns)
    (folding : CaseFolding py.casefold) (b : Builtins) (runId : Uuid) (verifiedAt : Time)
    {candidate : SelectedCandidate} {proposal : ProposedVerification} {e : VerifiedEvidence}
    {property : HttpProperty}
    (haccepted : deterministicRegistryBoolean t candidate = some proposal)
    (hrecord : ModelEvidenceVerifier.record b runId verifiedAt registryVersion .accepted candidate
      proposal = .ok e)
    (hproperty : (propertyMatch (registryFactText candidate.fact)).map py.casefold
      = some property.value) :
    ∃ method row, registryMethod t candidate.fact = some method ∧
      registryCells method candidate.quote = some row ∧
      ((∃ text, derivedFallbackText py candidate.fact [e] = some text ∧
          Agrees text e.supportType method property (property.cell row))
        ↔ method = "GET" ∧ property.cell row = true ∧ (property = .idempotent ∨
            Text.contains (foldedFactText py candidate.fact) "idempotent" = false)) := by
  obtain ⟨hversion, hsupport⟩ := record_carries hrecord
  obtain ⟨⟨method, row, hmethod, hrow⟩, hsupports⟩ := deterministicRegistryBoolean_some haccepted
  rw [hsupports] at hsupport
  refine ⟨method, row, hmethod, hrow, ?_⟩
  have hnamed := named_in_folded folding hproperty
  have hderived := derivedFallbackText_registry hversion hnamed
  -- what the sentence is about
  obtain ⟨said, htext, hsaid⟩ : ∃ said : HttpProperty,
      (if Text.contains (foldedFactText py candidate.fact) "idempotent" then
        "HTTP GET is idempotent." else "HTTP GET is safe.").toList = getSentence said ∧
      (property = said ↔ (property = .idempotent ∨
        Text.contains (foldedFactText py candidate.fact) "idempotent" = false)) := by
    cases hidempotent : Text.contains (foldedFactText py candidate.fact) "idempotent" with
    | true => exact ⟨.idempotent, by decide, by simp⟩
    | false =>
        have hsafe : property = .safe := by
          cases property with
          | safe => rfl
          | idempotent =>
              have hin : Text.contains (foldedFactText py candidate.fact) "idempotent" = true :=
                Text.indexChars_isSome_iff.mpr hnamed
              rw [hidempotent] at hin
              cases hin
        exact ⟨.safe, by decide, by simp [hsafe]⟩
  rw [hderived, ← hsaid]
  constructor
  · rintro ⟨text, hsome, hagrees⟩
    obtain rfl := Option.some.inj hsome
    rw [Agrees] at hagrees
    split at hagrees
    · rename_i hcell
      obtain ⟨hget, hproperty⟩ := (asserts_get_iff htext).mp hagrees
      exact ⟨hget, hcell, hproperty⟩
    · rcases hagrees with hdenied | hcontradicts
      · exact absurd hdenied (not_denies_get htext)
      · rw [hsupport] at hcontradicts
        cases hcontradicts
  · rintro ⟨hget, hcell, hproperty⟩
    refine ⟨_, rfl, ?_⟩
    rw [Agrees, if_pos hcell]
    exact (asserts_get_iff htext).mpr ⟨hget, hproperty⟩

/-! ## Two facts -/

namespace RegistrySample

/-- Letters are words, and small letters have capitals. -/
def text : RegistryText := ⟨Char.isAlphanum, fun s => String.ofList (s.toList.map Char.toUpper)⟩

/-- Texts of small letters fold to themselves. -/
def py : FallbackPatterns where
  casefold s := s
  mediaType _ := none
  tlsVersion _ := none
  rfcNumber _ := none
  namesSha256 _ := false
  hasDigests _ := false
  timestamp _ := none

def folding : CaseFolding py.casefold where
  fold c := [c]
  folds text := (List.flatMap_singleton' text.toList).symm
  remains _ := List.cons_ne_nil _ _
  blank _ _ := rfl
  plain _ h _ hd := List.mem_singleton.mp hd ▸ h

def builtins : Builtins where
  strOf _ := ""
  floatOf _ := none
  lower s := s
  isoformat _ := ""
  fromisoformat _ := none
  uuid5 ns _ := ns
  sha256 text := text

def getFact : FactRequirement where
  key := "get_safe"
  factType := .background
  description := "http get is safe"
  subject := "methods"
  given := by decide
  subject_term := by decide

def putFact : FactRequirement where
  key := "put_idempotent"
  factType := .background
  description := "http put is idempotent"
  subject := "methods"
  given := by decide
  subject_term := by decide

/-- The registry's page. -/
def registryUrl : String := "https://www.iana.org/assignments/http-methods/http-methods.xhtml"

/-- A candidate of the registry's page. -/
def candidate (fact : FactRequirement) (quote : String) : SelectedCandidate where
  id := ⟨1⟩
  factId := ⟨2⟩
  fact := fact
  documentId := ⟨3⟩
  version := ⟨⟨4⟩, ⟨5⟩, ⟨3⟩, quote⟩
  chunkId := ⟨6⟩
  chunk := ⟨quote, 0, quote.length + 1, by omega⟩
  url := registryUrl
  sourceIdentity := "iana.org"
  sourceAuthority := .official
  quote := quote
  score := 1

def getQuote : String := "Method Name Safe Idempotent Reference GET yes yes [RFC9110]"

def putQuote : String := "Method Name Safe Idempotent Reference PUT no yes [RFC9110]"

/-- What the adapter proposes of it. -/
def proposalFor (quote : String) : ProposedVerification where
  factId := ⟨2⟩
  candidateId := ⟨1⟩
  supportType := .supports
  quote := quote
  confidence := 99 / 100
  reasonCodes := ["direct_support", "explicit_value"]

/-- A candidate whose quote is all of its document is recorded. -/
theorem recorded (fact : FactRequirement) {quote : String} (proposal : ProposedVerification)
    (hquote : quote.isEmpty = false) (hsame : proposal.quote = quote)
    (hconfidence : proposal.confidence = 99 / 100) :
    ∃ e, ModelEvidenceVerifier.record builtins ⟨9⟩ 0 registryVersion .accepted
      (candidate fact quote) proposal = .ok e := by
  have hindex : Text.index quote quote = some 0 := by
    rw [Text.index]
    cases quote.toList with
    | nil => rfl
    | cons c l => simp [Text.indexChars]
  have hslice : Text.slice quote 0 quote.length = quote := by
    rw [Text.slice, List.drop_zero, ← String.length_toList, List.take_length, String.ofList_toList]
  have hslice' : Text.slice quote 0 (quote.length + 1) = quote := by
    rw [Text.slice, List.drop_zero, ← String.length_toList,
      List.take_of_length_le (Nat.le_succ _), String.ofList_toList]
  have hpos : 0 < quote.length := by
    rw [Nat.pos_iff_ne_zero]
    intro hzero
    simp_all
  have hhttp : Url.isHttp registryUrl = true := by decide
  have hident : Text.isBlank "iana.org" = false := by decide
  have hversion : Text.isBlank registryVersion = false := by decide
  rw [ModelEvidenceVerifier.record, hsame]
  simp only [candidate, hindex, build, Nat.zero_add, hslice, hslice', EvidenceSource.make, hhttp,
    hident, EvidenceCandidate.make, Evidence.record, VerifiedEvidence.make, hconfidence, hversion]
  have hconfident : (0 : Rat) ≤ 99 / 100 ∧ (99 : Rat) / 100 ≤ 1 := by norm_num
  simp [check, builtins, hquote, hpos, hconfident.1, hconfident.2, ok_bind]

/-- An adapter's evidence for a fact, by what the patterns find. -/
theorem accepted {fact : FactRequirement} {quote method found : String} {row : Bool × Bool}
    (hquote : quote.isEmpty = false)
    (hproperty : propertyMatch (registryFactText fact) = some found)
    (hmethod : registryMethod text fact = some method)
    (hrow : registryCells method quote = some row) :
    ∃ proposal e, deterministicRegistryBoolean text (candidate fact quote) = some proposal ∧
      ModelEvidenceVerifier.record builtins ⟨9⟩ 0 registryVersion .accepted
        (candidate fact quote) proposal = .ok e := by
  have hurl : urlBase registryUrl = registryUrl := by decide
  have hsome : deterministicRegistryBoolean text (candidate fact quote)
      = some (proposalFor quote) := by
    have hchecks : ¬((candidate fact quote).sourceAuthority ≠ .official ∨
        (candidate fact quote).score < 4 / 5 ∨ urlBase (candidate fact quote).url
          ≠ "https://www.iana.org/assignments/http-methods/http-methods.xhtml") := by
      refine not_or.mpr ⟨not_not.mpr rfl, not_or.mpr ⟨?_, not_not.mpr hurl⟩⟩
      show ¬(1 : Rat) < 4 / 5
      norm_num
    rw [deterministicRegistryBoolean, if_neg hchecks]
    simp only [candidate, hproperty, hmethod, hrow]
    rfl
  obtain ⟨e, he⟩ := recorded fact (proposalFor quote) hquote rfl rfl
  exact ⟨_, e, hsome, he⟩

theorem get_row : registryMethod text getFact = some "GET" ∧
    registryCells "GET" getQuote = some (true, true) ∧
    propertyMatch (registryFactText getFact) = some "safe" := by
  refine ⟨?_, ?_, ?_⟩ <;> decide

theorem put_row : registryMethod text putFact = some "PUT" ∧
    registryCells "PUT" putQuote = some (false, true) ∧
    propertyMatch (registryFactText putFact) = some "idempotent" := by
  refine ⟨?_, ?_, ?_⟩ <;> decide

/-- `PUT` is idempotent in the table, and the sentence is about `GET`. -/
theorem put_sentence : ∃ proposal e,
    deterministicRegistryBoolean text (candidate putFact putQuote) = some proposal ∧
      ModelEvidenceVerifier.record builtins ⟨9⟩ 0 registryVersion .accepted
        (candidate putFact putQuote) proposal = .ok e ∧
      registryMethod text putFact = some "PUT" ∧
      propertyMatch (registryFactText putFact) = some HttpProperty.idempotent.value ∧
      registryCells "PUT" putQuote = some (false, true) ∧
      derivedFallbackText py putFact [e] = some "HTTP GET is idempotent." ∧
      ¬Agrees "HTTP GET is idempotent." e.supportType "PUT" .idempotent true := by
  obtain ⟨hmethod, hrow, hproperty⟩ := put_row
  obtain ⟨proposal, e, haccepted, hrecord⟩ := accepted (by decide) hproperty hmethod hrow
  have hfolded : (propertyMatch (registryFactText putFact)).map py.casefold
      = some HttpProperty.idempotent.value := by
    rw [hproperty]
    rfl
  have hsentence : "HTTP GET is idempotent.".toList = getSentence .idempotent := by decide
  refine ⟨proposal, e, haccepted, hrecord, hmethod, hproperty, hrow, ?_, ?_⟩
  · rw [derivedFallbackText_registry (record_carries hrecord).1
      (named_in_folded folding hfolded), if_pos (by decide)]
  · rw [Agrees, if_pos rfl, asserts_get_iff hsentence]
    rintro ⟨hget, -⟩
    revert hget
    decide

/-- `GET` is safe in the table, and the sentence has it. -/
theorem registry_sentence_iff_get : ∃ e sentence,
    derivedFallbackText py getFact [e] = some sentence ∧
      Agrees sentence e.supportType "GET" .safe true := by
  obtain ⟨hmethod, hrow, hproperty⟩ := get_row
  obtain ⟨proposal, e, haccepted, hrecord⟩ := accepted (by decide) hproperty hmethod hrow
  have hfolded : (propertyMatch (registryFactText (candidate getFact getQuote).fact)).map
      py.casefold = some HttpProperty.safe.value := by
    show (propertyMatch (registryFactText getFact)).map py.casefold = _
    rw [hproperty]
    rfl
  obtain ⟨method, row, hmethod', hrow', hiff⟩ :=
    registry_sentence_iff text py folding builtins ⟨9⟩ 0 haccepted hrecord hfolded
  obtain rfl := Option.some.inj (hmethod'.symm.trans hmethod)
  obtain rfl := Option.some.inj (hrow'.symm.trans hrow)
  exact ⟨e, hiff.mpr ⟨rfl, rfl, .inr (by decide)⟩⟩

end RegistrySample

end Sana.Answer
