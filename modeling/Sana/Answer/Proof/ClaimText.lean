import Sana.Answer.ClaimText
import Sana.Answer.Proof.Claims

/-!
# What the parser of claims guarantees

An identifier that a text names still stands alone when something ending in a blank is put in front of
it, and what is put in front stands alone by its commas and its colon. So the text that is kept names
every number of its fact, whatever the patterns found; and each identifier that was put in front was
looked up in a citation before.
-/

namespace Sana.Answer

open Sana.Lib Sana.Evidence Sana.Planning Lib.Regex

variable {t : PatternText}

/-! ## Tokens -/

/-- The identifier stands in the text but for its case, with no letter or digit at either side. -/
def Stands (t : PatternText) (text identifier : List Char) : Prop :=
  ∃ pre m post, text = pre ++ (m ++ post) ∧
    List.Forall₂ (fun c d => t.same c d = true) identifier m ∧
      pre.getLast?.any PatternText.isAlphanum = false ∧
        post.head?.any PatternText.isAlphanum = false

theorem containsIdentifier_iff {text identifier : List Char} :
    t.containsIdentifier text identifier = true ↔ Stands t text identifier := found_token_iff

/-- The identifier is the number of an RFC, and the URL is one of this RFC. -/
def NamesRfc (t : PatternText) (url identifier : List Char) : Prop :=
  ∃ number, t.rfcNumber identifier = some number ∧ ∃ pre m post, url = pre ++ (m ++ post) ∧
    List.Forall₂ (fun c d => t.same c d = true) ("/rfc/rfc".toList ++ number) m ∧
      (post = [] ∨ post = ['\n'] ∨ post.head? = some '.' ∨ post.head? = some '/')

theorem rfcUrl_iff {url number : List Char} :
    found (.seq (lit t.same ("/rfc/rfc".toList ++ number))
        (.alt (.one fun c => c = '.' || c = '/') atEnd)) url = true ↔
      ∃ pre m post, url = pre ++ (m ++ post) ∧
        List.Forall₂ (fun c d => t.same c d = true) ("/rfc/rfc".toList ++ number) m ∧
          (post = [] ∨ post = ['\n'] ∨ post.head? = some '.' ∨ post.head? = some '/') := by
  have hend : ∀ place : Place, (∃ next, next ∈ run (.alt (.one fun c => c = '.' || c = '/') atEnd)
      place) ↔ (place.2 = [] ∨ place.2 = ['\n'] ∨ place.2.head? = some '.' ∨
        place.2.head? = some '/') := by
    rintro ⟨before, after⟩
    cases after with
    | nil => simp [run, atEnd]
    | cons c after =>
      by_cases hc : c = '.' ∨ c = '/'
      · simp [run, atEnd, hc]
      · simp [run, atEnd, hc]
  generalize "/rfc/rfc".toList ++ number = text
  rw [found_iff]
  constructor
  · rintro ⟨pre, after, rfl, next, h⟩
    obtain ⟨mid, hmid, h⟩ := mem_run_seq.mp h
    obtain ⟨m, post, rfl, hm, rfl⟩ := mem_run_lit.mp hmid
    exact ⟨pre, m, post, rfl, hm, (hend _).mp ⟨next, h⟩⟩
  · rintro ⟨pre, m, post, rfl, hm, hpost⟩
    obtain ⟨next, h⟩ := (hend (m.reverse ++ pre.reverse, post)).mpr hpost
    exact ⟨pre, m ++ post, rfl, next, mem_run_seq.mpr
      ⟨_, mem_run_lit.mpr ⟨m, post, rfl, hm, rfl⟩, h⟩⟩

/-- **An identifier is grounded** where it stands in the quote, or names the RFC of the URL. -/
theorem identifierGrounded_iff {cited : String × String} {identifier : List Char} :
    t.identifierGrounded cited identifier = true ↔
      Stands t cited.1.toList identifier ∨ NamesRfc t cited.2.toList identifier := by
  rw [PatternText.identifierGrounded, Bool.or_eq_true, containsIdentifier_iff,
    Option.any_eq_true]
  refine or_congr_right ?_
  simp only [NamesRfc, rfcUrl_iff]

/-- What stands in a text stands in it with something in front that ends in a blank. -/
theorem Stands.behind {text identifier : List Char} (h : Stands t text identifier)
    (front : List Char) : Stands t (front ++ ' ' :: text) identifier := by
  obtain ⟨pre, m, post, rfl, hm, hpre, hpost⟩ := h
  refine ⟨front ++ ' ' :: pre, m, post, ?_, hm, ?_, hpost⟩
  · simp only [List.append_assoc, List.cons_append]
  · cases pre with
    | nil =>
      rw [List.getLast?_append_cons, List.getLast?_singleton]
      decide
    | cons c pre =>
      rw [List.getLast?_append_cons, List.getLast?_cons_cons]
      exact hpre

/-- A part of a joined text has the separator, or nothing, at either side. -/
theorem exists_split_intercalate (sep : List Char) {x : List Char} {texts : List (List Char)}
    (h : x ∈ texts) :
    ∃ pre post, sep.intercalate texts = pre ++ (x ++ post) ∧
      (pre = [] ∨ ∃ p, pre = p ++ sep) ∧ (post = [] ∨ ∃ q, post = sep ++ q) := by
  induction texts with
  | nil => exact absurd h List.not_mem_nil
  | cons y texts ih =>
    cases texts with
    | nil =>
      obtain rfl := List.mem_singleton.mp h
      exact ⟨[], [], by simp, .inl rfl, .inl rfl⟩
    | cons z texts =>
      rw [List.intercalate_cons_cons]
      by_cases hxy : x = y
      · subst hxy
        exact ⟨[], sep ++ sep.intercalate (z :: texts), by simp, .inl rfl, .inr ⟨_, rfl⟩⟩
      · obtain ⟨pre, post, hsplit, hpre, hpost⟩ := ih ((List.mem_cons.mp h).resolve_left hxy)
        refine ⟨y ++ sep ++ pre, post, ?_, .inr ?_, hpost⟩
        · rw [hsplit, List.append_assoc, List.append_assoc, List.append_assoc]
        · rcases hpre with rfl | ⟨p, rfl⟩
          · exact ⟨y, by rw [List.append_nil]⟩
          · exact ⟨y ++ sep ++ p, by rw [List.append_assoc (y ++ sep)]⟩

/-- What is put in front stands there. -/
theorem stands_front (hsame : ∀ c, t.same c c = true) {identifier : List Char}
    {missing : List (List Char)} (h : identifier ∈ missing) (text : List Char) :
    Stands t ([',', ' '].intercalate missing ++ ':' :: ' ' :: text) identifier := by
  obtain ⟨pre, post, hsplit, hpre, hpost⟩ := exists_split_intercalate [',', ' '] h
  refine ⟨pre, identifier, post ++ ':' :: ' ' :: text, ?_, ?_, ?_, ?_⟩
  · rw [hsplit, List.append_assoc, List.append_assoc]
  · exact List.forall₂_same.mpr fun c _ => hsame c
  · rcases hpre with rfl | ⟨p, rfl⟩
    · rfl
    · rw [List.getLast?_append_cons]
      decide
  · rcases hpost with rfl | ⟨q, rfl⟩ <;> rfl

/-! ## The text of a claim -/

section Text

variable {fact : FactRequirement} {text out : String} {cited : List (String × String)}

/-- **The text that is kept** is not longer than the model's or than 1200, stands for every number of
its fact, and has only grounded identifiers in front. -/
theorem selfContainedText_ok (hsame : ∀ c, t.same c c = true)
    (h : t.selfContainedText fact text cited = .ok out) :
    (text.length ≤ 1200 → out.length ≤ 1200) ∧
      (∀ identifier ∈ t.numericIdentifiers fact, Stands t out.toList identifier) ∧
      ∃ added : List (List Char),
        out.toList = (if added = [] then text.toList
          else [',', ' '].intercalate added ++ ':' :: ' ' :: text.toList) ∧
        ∀ identifier ∈ added, ∃ c ∈ cited,
          Stands t c.1.toList identifier ∨ NamesRfc t c.2.toList identifier := by
  obtain ⟨_, hnumeric, h⟩ := bind_ok_iff.mp h
  rw [check_eq_ok, List.all_eq_true] at hnumeric
  simp only at h
  generalize hmissing : distinctBy id ((t.numericIdentifiers fact).filter (fun identifier =>
      !t.containsIdentifier text.toList identifier) ++
    (t.symbolicIdentifiers fact).filter fun identifier =>
      !PatternText.containsExactly text.toList identifier &&
        cited.any (t.identifierGrounded · identifier)) = missing at h
  have hmem : ∀ identifier, identifier ∈ missing ↔
      (identifier ∈ t.numericIdentifiers fact ∧
          t.containsIdentifier text.toList identifier = false) ∨
        (identifier ∈ t.symbolicIdentifiers fact ∧
          PatternText.containsExactly text.toList identifier = false ∧
          cited.any (t.identifierGrounded · identifier) = true) := by
    intro identifier
    have hdistinct : ∀ {l : List (List Char)}, identifier ∈ distinctBy id l ↔ identifier ∈ l :=
      mem_distinctBy fun _ _ _ _ h => h
    rw [← hmissing, hdistinct, List.mem_append, List.mem_filter, List.mem_filter,
      Bool.not_eq_true', Bool.and_eq_true, Bool.not_eq_true']
  have hgrounded : ∀ identifier ∈ missing, ∃ c ∈ cited,
      Stands t c.1.toList identifier ∨ NamesRfc t c.2.toList identifier := by
    intro identifier hidentifier
    rcases (hmem identifier).mp hidentifier with ⟨hfact, hnot⟩ | ⟨-, -, hany⟩
    · have hany := hnumeric identifier
        (List.mem_filter.mpr ⟨hfact, by rw [hnot]; rfl⟩)
      obtain ⟨c, hc, hcontains⟩ := List.any_eq_true.mp hany
      exact ⟨c, hc, .inl (containsIdentifier_iff.mp hcontains)⟩
    · obtain ⟨c, hc, hcontains⟩ := List.any_eq_true.mp hany
      exact ⟨c, hc, identifierGrounded_iff.mp hcontains⟩
  by_cases hnil : missing = []
  · -- the model's text names every number itself
    rw [if_pos hnil] at h
    obtain rfl := pure_ok_iff.mp h
    refine ⟨id, fun identifier hidentifier => ?_, [], (if_pos rfl).symm, List.forall_mem_nil _⟩
    rw [← containsIdentifier_iff]
    by_contra hnot
    have : identifier ∈ missing :=
      (hmem identifier).mpr (.inl ⟨hidentifier, Bool.eq_false_of_not_eq_true hnot⟩)
    rw [hnil] at this
    exact List.not_mem_nil this
  · rw [if_neg hnil] at h
    obtain ⟨_, hlength, h⟩ := bind_ok_iff.mp h
    rw [check_eq_ok, decide_eq_true_eq] at hlength
    obtain rfl := pure_ok_iff.mp h
    refine ⟨fun _ => by rwa [String.length_ofList], fun identifier hidentifier => ?_, missing, ?_,
      hgrounded⟩
    · rw [String.toList_ofList]
      by_cases hcontains : t.containsIdentifier text.toList identifier = true
      · have hbehind := (containsIdentifier_iff.mp hcontains).behind
          ([',', ' '].intercalate missing ++ [':'])
        rwa [List.append_assoc] at hbehind
      · exact stands_front hsame ((hmem identifier).mpr
          (.inl ⟨hidentifier, Bool.eq_false_of_not_eq_true hcontains⟩)) _
    · rw [String.toList_ofList, if_neg hnil]

end Text

/-! ## The parser -/

section Parser

variable {b : Builtins} {rules : ClaimRules} {facts : Facts} {evidence : List VerifiedEvidence}

/-- An accepted item of the evidence, by its identifier. -/
structure Cited (evidence : List VerifiedEvidence) (id : Uuid) (e : VerifiedEvidence) : Prop where
  mem : e ∈ evidence
  named : e.id = id
  accepted : e.verdict = .accepted

/-- What is guaranteed of a claim that was made of a raw one. -/
structure Guaranteed (b : Builtins) (t : PatternText) (facts : Facts)
    (evidence : List VerifiedEvidence) (raw : Json) (p : ProposedClaim) : Prop where
  key : Text.isBlank p.claimKey = false
  cites : p.evidenceIds ≠ []
  length : p.text.length ≤ 1200
  fact : ∃ f fact, p.factRequirementId = some f ∧ (f, fact) ∈ facts ∧
    (∀ id ∈ p.evidenceIds, ∃ e, Cited evidence id e ∧ e.factRequirementId = f) ∧
      ∀ identifier ∈ t.numericIdentifiers fact, Stands t p.text.toList identifier
  /-- What was put in front of the model's text is grounded. -/
  added : ∃ added text, raw.member "text" = .ok text ∧
    p.text.toList = (if added = [] then (Text.strip (text.text b)).toList
      else [',', ' '].intercalate added ++ ':' :: ' ' :: (Text.strip (text.text b)).toList) ∧
    ∀ identifier ∈ added, ∃ id ∈ p.evidenceIds, ∃ e, Cited evidence id e ∧
      (Stands t e.candidate.quote.toList identifier ∨ NamesRfc t e.source.url.toList identifier)

theorem acceptedById_some {id : Uuid} {e : VerifiedEvidence}
    (h : ProposedClaimParser.acceptedById evidence id = some e) : Cited evidence id e := by
  obtain ⟨hmem, hid⟩ := lookup_eq_some h
  obtain ⟨hmem, haccepted⟩ := List.mem_filter.mp (List.mem_reverse.mp hmem)
  exact ⟨hmem, hid, of_decide_eq_true haccepted⟩

/-- The text of a claim, with what is cited looked up. -/
theorem selfContained_lookup (hsame : ∀ c, t.same c c = true) {fact : FactRequirement}
    {text out : String} {ids : List Uuid}
    (h : ProposedClaimParser.selfContainedText (t.rules rules) evidence fact text ids = .ok out) :
    (text.length ≤ 1200 → out.length ≤ 1200) ∧
      (∀ identifier ∈ t.numericIdentifiers fact, Stands t out.toList identifier) ∧
      ∃ added : List (List Char),
        out.toList = (if added = [] then text.toList
          else [',', ' '].intercalate added ++ ':' :: ' ' :: text.toList) ∧
        ∀ identifier ∈ added, ∃ id ∈ ids, ∃ e, Cited evidence id e ∧
          (Stands t e.candidate.quote.toList identifier ∨
            NamesRfc t e.source.url.toList identifier) := by
  obtain ⟨cited, hcited, h⟩ := bind_ok_iff.mp h
  obtain ⟨hlength, hnumeric, added, hout, hadded⟩ := selfContainedText_ok hsame h
  refine ⟨hlength, hnumeric, added, hout, fun identifier hidentifier => ?_⟩
  obtain ⟨c, hc, hgrounded⟩ := hadded identifier hidentifier
  obtain ⟨id, hid, hlook⟩ := mapM_ok hcited hc
  split at hlook
  case h_1 e he =>
    obtain rfl := Except.ok.inj hlook
    exact ⟨id, hid, e, acceptedById_some he, hgrounded⟩
  case h_2 => exact nomatch hlook

/-- **One claim.** -/
theorem parseClaim_guaranteed (hsame : ∀ c, t.same c c = true) {parsed : List ProposedClaim}
    {raw : Json} {p : ProposedClaim}
    (h : ProposedClaimParser.parseClaim b (t.rules rules) facts evidence parsed raw = .ok p) :
    Guaranteed b t facts evidence raw p ∧ ∀ q ∈ parsed, q.claimKey ≠ p.claimKey := by
  unfold ProposedClaimParser.parseClaim at h
  split at h
  case h_2 => cases h
  case h_1 members =>
    simp only [bind_ok_iff, check_eq_ok] at h
    obtain ⟨_, _, keyValue, _, _, hkey, factValue, _, f, _, h⟩ := h
    split at h
    case h_2 => cases h
    case h_1 fact hfact =>
      simp only [bind_ok_iff, check_eq_ok, ProposedClaim.make, pure_ok_iff] at h
      obtain ⟨said, hsaid, _, hlength, ids, _, _, hne, _, hids, text, htext, _, _, _, _, _, _, rfl⟩ := h
      rw [Bool.and_eq_true, Bool.not_eq_true', Bool.not_eq_true', List.any_eq_false] at hkey
      rw [Bool.and_eq_true, decide_eq_true_eq] at hlength
      obtain ⟨hmem, hf⟩ := lookup_eq_some hfact
      obtain ⟨hlength', hnumeric, added, hout, hadded⟩ := selfContained_lookup hsame htext
      refine ⟨⟨hkey.1, by simpa using hne, hlength' hlength.2,
        ⟨f, fact.2, rfl, by rwa [← hf], fun id hid => ?_, hnumeric⟩,
        ⟨added, said, hsaid, hout, hadded⟩⟩, fun q hq heq => ?_⟩
      · have hid := List.all_eq_true.mp hids id hid
        rw [decide_eq_true_eq] at hid
        obtain ⟨e, he, heq⟩ := Option.map_eq_some_iff.mp hid
        exact ⟨e, acceptedById_some he, heq⟩
      · exact hkey.2 q hq (decide_eq_true heq)

/-- **All claims of a reply**, one after the other. -/
theorem parseClaims_guaranteed (hsame : ∀ c, t.same c c = true) {raws : List Json}
    {parsed claims : List ProposedClaim}
    (h : ProposedClaimParser.parseClaims b (t.rules rules) facts evidence parsed raws = .ok claims)
    (hkeys : (parsed.map (·.claimKey)).Nodup) :
    (claims.map (·.claimKey)).Nodup ∧
      ∃ new, claims = parsed ++ new ∧ List.Forall₂ (Guaranteed b t facts evidence) raws new := by
  induction raws generalizing parsed with
  | nil =>
    obtain rfl := Except.ok.inj h
    exact ⟨hkeys, [], (List.append_nil _).symm, .nil⟩
  | cons raw raws ih =>
    obtain ⟨p, hp, h⟩ := bind_ok_iff.mp h
    obtain ⟨hguaranteed, hfresh⟩ := parseClaim_guaranteed hsame hp
    have hkeys' : ((parsed ++ [p]).map (·.claimKey)).Nodup := by
      rw [List.map_append, List.nodup_append]
      refine ⟨hkeys, List.nodup_singleton _, fun key hkey other hother => ?_⟩
      obtain ⟨q, hq, rfl⟩ := List.mem_map.mp hkey
      obtain rfl := List.mem_singleton.mp hother
      exact hfresh q hq
    obtain ⟨hnodup, new, rfl, hnew⟩ := ih h hkeys'
    refine ⟨hnodup, p :: new, ?_, .cons hguaranteed hnew⟩
    rw [List.append_assoc, List.singleton_append]

/-- **What the parser of claims guarantees.** -/
theorem parse_guarantees (hsame : ∀ c, t.same c c = true) {payload : Json}
    {claims : List ProposedClaim}
    (h : ProposedClaimParser.parse b (t.rules rules) facts evidence payload = .ok claims) :
    (∃ raws, payload.member "claims" = .ok (.arr raws) ∧
        List.Forall₂ (Guaranteed b t facts evidence) raws claims) ∧
      (claims.map (·.claimKey)).Nodup ∧
      (∀ id f, ProposedClaimParser.evidenceFact evidence id = some f →
        ∃ p ∈ claims, p.factRequirementId = some f) ∧
      (Identified evidence → ∀ e ∈ evidence, e.verdict = .accepted →
        ∃ p ∈ claims, p.factRequirementId = some e.factRequirementId) := by
  simp only [ProposedClaimParser.parse, bind_ok_iff] at h
  obtain ⟨value, hvalue, h⟩ := h
  split at h
  case h_2 => exact nomatch h
  case h_1 raws =>
    simp only [bind_ok_iff, check_eq_ok, pure_ok_iff] at h
    obtain ⟨_, _, parsed, hparsed, _, hall, rfl⟩ := h
    obtain ⟨hnodup, new, hnew, hall₂⟩ := parseClaims_guaranteed hsame hparsed List.nodup_nil
    rw [List.nil_append] at hnew
    subst hnew
    have hclaimed : ∀ id f, ProposedClaimParser.evidenceFact evidence id = some f →
        ∃ p ∈ parsed, p.factRequirementId = some f := by
      intro id f hf
      obtain ⟨e, he, rfl⟩ := Option.map_eq_some_iff.mp hf
      have hcited := acceptedById_some he
      have hany := List.all_eq_true.mp hall e
        (List.mem_filter.mpr ⟨hcited.mem, decide_eq_true hcited.accepted⟩)
      obtain ⟨p, hp, hpf⟩ := List.any_eq_true.mp hany
      rw [Bool.and_eq_true, decide_eq_true_eq, hcited.named, hf] at hpf
      exact ⟨p, hp, hpf.1⟩
    refine ⟨⟨raws, hvalue, hall₂⟩, hnodup, hclaimed, fun hidentified e he haccepted => ?_⟩
    refine hclaimed e.id _ ?_
    rw [ProposedClaimParser.evidenceFact]
    cases hlook : ProposedClaimParser.acceptedById evidence e.id with
    | none =>
      exact absurd rfl (lookup_eq_none.mp hlook e
        (List.mem_reverse.mpr (List.mem_filter.mpr ⟨he, decide_eq_true haccepted⟩)))
    | some found =>
      have hcited := acceptedById_some hlook
      rw [hidentified found hcited.mem e he hcited.named, Option.map_some]

end Parser

/-! ## A sample -/

namespace Sample

/-- Tables that know ASCII only. -/
def patternText : PatternText where
  space := Text.isSpace
  digit := Char.isDigit
  word c := c.isAlphanum || c = '_'
  same c d := c.toLower = d.toLower

theorem countFact_subject : Planning.isSearchTerm "city" 48 = true := by decide +kernel

def countFact : FactRequirement where
  key := "size"
  factType := .background
  description := "the 20 districts"
  subject := "city"
  given := by decide
  subject_term := countFact_subject

def countCandidate : SelectedCandidate where
  id := ⟨7#128⟩
  factId := ⟨3#128⟩
  fact := countFact
  documentId := ⟨4#128⟩
  version := ⟨⟨5#128⟩, ⟨1#128⟩, ⟨4#128⟩, "Paris has 20 districts."⟩
  chunkId := ⟨6#128⟩
  chunk := ⟨"Paris has 20 districts.", 0, 23, by decide⟩
  url := "https://example.org/"
  sourceIdentity := "example.org"
  sourceAuthority := .independent
  quote := "20 districts"
  score := 1

/-- The evidence, with the quote the verifier chose. -/
def countEvidence : Except Exn (List VerifiedEvidence) := do
  let reply : ModelReply := .answered (.obj [("verdicts", .arr [.obj [
    ("candidate_id", .str "00000000-0000-0000-0000-000000000007"),
    ("fact_id", .str "00000000-0000-0000-0000-000000000003"), ("quote", .str "20 districts"),
    ("support_type", .str "SUPPORTS"), ("confidence", .number 1),
    ("reason_codes", .arr [.str "direct_support"])]])])
  let batch ← ModelEvidenceVerifier.verify builtins verifierRules ⟨2#128⟩ 0 [countCandidate] reply
  batch.evidence.mapM fun e => fromPayload builtins ⟨1#128⟩ ⟨2#128⟩ (toPayload builtins e)

/-- A claim that leaves the number out. -/
def countReply : Json :=
  .obj [("claims", .arr [.obj [
    ("claim_key", .str "size"), ("text", .str "Paris has districts"),
    ("fact_id", .str "00000000-0000-0000-0000-000000000003"),
    ("evidence_ids", .arr [.str "2bc60f3d-a4de-5efc-9828-b94b8ed668e5"])]])]

/-- The claims, with their evidence. -/
def countClaims : Except Exn (List VerifiedEvidence × List ProposedClaim) := do
  let evidence ← countEvidence
  let claims ← ProposedClaimParser.parse builtins (patternText.rules claimRules)
    [(⟨3#128⟩, countFact)] evidence countReply
  return (evidence, claims)

end Sample

/-- The number is put in front. -/
theorem parse_guarantees_sample : ∃ evidence claims, Sample.countClaims = .ok (evidence, claims) ∧
    claims.map (·.text) = ["20: Paris has districts"] ∧
    (claims.map (·.claimKey)).Nodup ∧
    ∃ raws, List.Forall₂ (Guaranteed Sample.builtins Sample.patternText
      [(⟨3#128⟩, Sample.countFact)] evidence) raws claims := by
  have hany : Sample.countClaims.toOption.any
      (fun r => r.2.map (·.text) = ["20: Paris has districts"]) = true := by decide +kernel
  obtain ⟨⟨evidence, claims⟩, hresult, htext⟩ := exists_ok_of_any hany
  refine ⟨evidence, claims, hresult, of_decide_eq_true htext, ?_⟩
  obtain ⟨items, -, h⟩ := bind_ok_iff.mp hresult
  obtain ⟨parsed, hparsed, h⟩ := bind_ok_iff.mp h
  obtain ⟨rfl, rfl⟩ := Prod.mk.inj (Except.ok.inj h)
  have hsame : ∀ c, Sample.patternText.same c c = true := fun c => decide_eq_true rfl
  obtain ⟨⟨raws, -, hall⟩, hnodup, -⟩ := parse_guarantees hsame hparsed
  exact ⟨hnodup, raws, hall⟩

end Sana.Answer
