import Sana.Answer.ModelSynthesizer
import Sana.Evidence.Proof.Provenance

/-!
# Citations are grounded

The validator writes the citations, and it writes them from the items it has just
checked. So nothing has to be known about the proposals: a model may name any
identifier, repeat it, move it between facts or invent it. What is needed of the
evidence is that it spans its document, which is `Spans` from the builder on.
-/

namespace Sana.Answer

open Sana.Lib Sana.Evidence

section Gate

variable {b : Builtins} {rules : ClaimRules} {tenantId runId : Uuid} {facts : Facts}
  {coverage : Uuid → Option CoverageAssessment} {evidence : List VerifiedEvidence}
  {policy : UnsupportedClaimPolicy}

/-- The item an identifier stands for has that identifier. -/
theorem evidenceById_some {id : Uuid} {e : VerifiedEvidence}
    (h : CitationValidator.evidenceById evidence id = some e) : e ∈ evidence ∧ e.id = id := by
  obtain ⟨hmem, hid⟩ := lookup_eq_some h
  exact ⟨List.mem_reverse.mp hmem, hid⟩

/-- The citation refers to this accepted item of the claim's own fact. -/
structure CitesItem (cl : AnswerClaim) (c : Citation) (e : VerifiedEvidence) : Prop where
  id : c.verifiedEvidenceId = e.id
  listed : e.id ∈ cl.evidenceIds
  accepted : e.verdict = .accepted
  tenantId : e.tenantId = cl.tenantId ∧ c.tenantId = cl.tenantId
  runId : e.runId = cl.runId ∧ c.runId = cl.runId
  fact : cl.factRequirementId = some e.factRequirementId
  claim : c.answerClaimId = cl.id
  version : c.documentVersionId = e.source.documentVersionId
  chunk : c.documentChunkId = e.source.documentChunkId
  quote : c.quote = e.candidate.quote
  startOffset : c.startOffset = e.candidate.startOffset
  endOffset : c.endOffset = e.candidate.endOffset

/-- The citations of one claim. -/
structure Cites (evidence : List VerifiedEvidence) (cl : AnswerClaim) (cs : List Citation) :
    Prop where
  cited : cl.kind = .factual → cs ≠ []
  uncited : cl.kind ≠ .factual → cs = []
  items : ∀ c ∈ cs, ∃ e ∈ evidence, CitesItem cl c e
  ordinals : cs.map (·.ordinal) = (List.range cs.length).map (· + 1)

/-- The labels of the citations `n + 1` to `n + k`. -/
def labels (n k : Nat) : List String := (List.range k).map fun i => "[" ++ toString (n + i + 1) ++ "]"

theorem labels_add (n k m : Nat) : labels n (k + m) = labels n k ++ labels (n + k) m := by
  unfold labels
  rw [List.range_add, List.map_append, List.map_map]
  congr 1
  refine List.map_congr_left fun i _ => ?_
  simp [Nat.add_assoc]

namespace CitationValidator

/-- What passes `_valid_evidence` is accepted evidence of the claim's fact. -/
theorem mem_validEvidence {cl : AnswerClaim} {e : VerifiedEvidence}
    (h : e ∈ validEvidence evidence cl) :
    e ∈ evidence ∧ e.verdict = .accepted ∧ e.tenantId = cl.tenantId ∧ e.runId = cl.runId ∧
      cl.factRequirementId = some e.factRequirementId ∧ e.id ∈ cl.evidenceIds := by
  obtain ⟨id, hid, hsome⟩ := List.mem_filterMap.mp h
  obtain ⟨hby, hcond⟩ := Option.filter_eq_some_iff.mp hsome
  simp only [Bool.and_eq_true, decide_eq_true_eq] at hcond
  obtain ⟨⟨⟨⟨hx, hv⟩, ht⟩, hr⟩, hf⟩ := hcond
  have hmem : id ∈ cl.evidenceIds := mem_of_mem_distinctBy hid
  exact ⟨(evidenceById_some hby).1, hv, ht, hr, hf.symm, hx ▸ hmem⟩

/-- A citation is written from its item. -/
theorem citation_ok {n : Nat} {claimId : Uuid} {x : VerifiedEvidence × Nat} {c : Citation}
    (h : citation b tenantId runId n claimId x = .ok c) :
    c.ordinal = x.2 + 1 ∧ c.label = "[" ++ toString (n + x.2 + 1) ++ "]" ∧
      c.verifiedEvidenceId = x.1.id ∧ c.answerClaimId = claimId ∧ c.tenantId = tenantId ∧
      c.runId = runId ∧ c.documentVersionId = x.1.source.documentVersionId ∧
      c.documentChunkId = x.1.source.documentChunkId ∧ c.quote = x.1.candidate.quote ∧
      c.startOffset = x.1.candidate.startOffset ∧ c.endOffset = x.1.candidate.endOffset := by
  simp only [citation, Citation.make, bind_ok_iff, pure_ok_iff] at h
  obtain ⟨_, _, _, _, _, _, rfl⟩ := h
  exact ⟨rfl, rfl, rfl, rfl, rfl, rfl, rfl, rfl, rfl, rfl, rfl⟩

/-- The numbers `zipIdx` gives are the positions. -/
theorem map_zipIdx {α β : Type} (l : List α) (f : Nat → β) :
    l.zipIdx.map (fun x => f x.2) = (List.range l.length).map f := by
  have hsnd := congrArg (List.map f) (List.zipIdx_map_snd 0 l)
  rw [List.map_map, ← List.range_eq_range'] at hsnd
  exact hsnd

/-- The citations of a claim that is kept, from the evidence that passed. -/
theorem cites_of_valid {n : Nat} {claim : AnswerClaim} {cs : List Citation}
    (hcs : (validEvidence evidence claim).zipIdx.mapM (citation b tenantId runId n claim.id)
      = .ok cs)
    (ht : claim.tenantId = tenantId) (hr : claim.runId = runId)
    (hne : validEvidence evidence claim ≠ []) (hkind : claim.kind = .factual)
    (support : ClaimSupport) :
    Cites evidence { claim with evidenceIds := (validEvidence evidence claim).map (·.id), support }
      cs ∧ cs.map (·.label) = labels n cs.length := by
  have hlen : cs.length = (validEvidence evidence claim).length := by
    have := congrArg List.length (map_of_mapM_ok (g := fun _ => ()) (k := fun _ => ()) hcs
      fun _ _ _ => rfl)
    simpa using this
  have hord : cs.map (·.ordinal) = (List.range cs.length).map (· + 1) := by
    rw [map_of_mapM_ok hcs fun x y hxy => (citation_ok hxy).1, hlen]
    exact map_zipIdx _ (· + 1)
  have hlab : cs.map (·.label) = labels n cs.length := by
    rw [map_of_mapM_ok hcs fun x y hxy => (citation_ok hxy).2.1, labels, hlen]
    exact map_zipIdx _ fun i => "[" ++ toString (n + i + 1) ++ "]"
  refine ⟨⟨?_, fun hk => absurd hkind hk, ?_, hord⟩, hlab⟩
  · intro _ hnil
    rw [hnil, List.length_nil] at hlen
    exact hne (List.length_eq_zero_iff.mp hlen.symm)
  · intro c hc
    obtain ⟨x, hx, hfx⟩ := mapM_ok hcs hc
    obtain ⟨-, -, hev, hclaim, hten, hrun, hver, hchunk, hquote, hstart, hend⟩ := citation_ok hfx
    have hmem : x.1 ∈ validEvidence evidence claim := List.fst_mem_of_mem_zipIdx hx
    obtain ⟨hin, hacc, het, her, hfact, -⟩ := mem_validEvidence hmem
    exact ⟨x.1, hin, hev, List.mem_map_of_mem hmem, hacc, ⟨het, hten.trans ht.symm⟩,
      ⟨her, hrun.trans hr.symm⟩, hfact, hclaim, hver, hchunk, hquote, hstart, hend⟩

/-- **One claim.** What is kept is cited, and nothing is cited for what is dropped. -/
theorem validateClaim_ok {n : Nat} {claim : AnswerClaim} {o : Outcome}
    (h : validateClaim b tenantId runId evidence policy n claim = .ok o) :
    (∀ cl, o.claim = some cl → Cites evidence cl o.citations) ∧
      (o.claim = none → o.citations = []) ∧
      o.citations.map (·.label) = labels n o.citations.length := by
  simp only [validateClaim, bind_ok_iff, check_eq_ok, Bool.and_eq_true, decide_eq_true_eq] at h
  obtain ⟨_, ⟨ht, hr⟩, h⟩ := h
  split at h
  · rename_i hkind
    obtain rfl := pure_ok_iff.mp h
    refine ⟨?_, by simp, rfl⟩
    intro cl hcl
    obtain rfl := Option.some.inj hcl
    exact ⟨fun hk => absurd hk hkind, fun _ => rfl, by simp, rfl⟩
  · rename_i hkind
    rw [not_not] at hkind
    split at h
    · obtain rfl := pure_ok_iff.mp h
      refine ⟨?_, fun _ => rfl, rfl⟩
      intro cl hcl
      -- an unsupported claim is kept as an uncertainty, without citations
      have hunc : cl.kind = .uncertainty := by
        cases policy with
        | drop => simp [handleUnsupported] at hcl
        | weaken => simp only [handleUnsupported, Option.some.injEq] at hcl; rw [← hcl]
        | markUnconfirmed => simp only [handleUnsupported, Option.some.injEq] at hcl; rw [← hcl]
      exact ⟨fun hk => by simp [hunc] at hk, fun _ => rfl, by simp, rfl⟩
    · rename_i hne
      simp only [AnswerClaim.make, bind_ok_iff, pure_ok_iff] at h
      obtain ⟨_, ⟨_, _, _, _, _, _, rfl⟩, cs, hcs, rfl⟩ := h
      have hcites := cites_of_valid hcs ht hr hne hkind
        (validatedSupport (validEvidence evidence claim))
      refine ⟨?_, by simp, hcites.2⟩
      intro cl hcl
      obtain rfl := Option.some.inj hcl
      exact hcites.1

/-- **The whole draft.** Labels run on from claim to claim. -/
theorem validateClaims_ok {n : Nat} {draft : List AnswerClaim} {os : List Outcome}
    (h : validateClaims b tenantId runId evidence policy n draft = .ok os) :
    (∃ groups, List.Forall₂ (Cites evidence) (os.filterMap (·.claim)) groups ∧
        groups.flatten = os.flatMap (·.citations)) ∧
      (os.flatMap (·.citations)).map (·.label) = labels n (os.flatMap (·.citations)).length := by
  induction draft generalizing n os with
  | nil =>
      obtain rfl := Except.ok.inj h
      exact ⟨⟨[], .nil, rfl⟩, rfl⟩
  | cons claim rest ih =>
      simp only [validateClaims, bind_ok_iff, pure_ok_iff] at h
      obtain ⟨o, ho, os', hos, rfl⟩ := h
      obtain ⟨hkept, hdropped, hlabels⟩ := validateClaim_ok ho
      obtain ⟨⟨groups, hgroups, hflat⟩, hrest⟩ := ih hos
      constructor
      · cases hc : o.claim with
        | none =>
            refine ⟨groups, ?_, ?_⟩
            · rwa [List.filterMap_cons_none hc]
            · rw [List.flatMap_cons, hdropped hc, hflat]
              rfl
        | some cl =>
            refine ⟨o.citations :: groups, ?_, ?_⟩
            · rw [List.filterMap_cons_some hc]
              exact .cons (hkept cl hc) hgroups
            · rw [List.flatMap_cons, List.flatten_cons, hflat]
      · rw [List.flatMap_cons, List.map_append, List.length_append, labels_add, hlabels, hrest]

end CitationValidator

/-- The answer's citations, claim by claim. -/
def Grounded (evidence : List VerifiedEvidence) (answer : ValidatedAnswer) : Prop :=
  (∃ groups, List.Forall₂ (Cites evidence) answer.claims groups ∧
      groups.flatten = answer.citations) ∧
    answer.citations.map (·.label) = labels 0 answer.citations.length

namespace ConstrainedModelSynthesizer

theorem validated_ok {proposals : List ProposedClaim} {answer : ValidatedAnswer}
    (h : validated b tenantId runId coverage evidence proposals = .ok answer) :
    Grounded evidence answer := by
  simp only [validated, CitationValidator.validate, bind_ok_iff, pure_ok_iff] at h
  obtain ⟨draft, -, os, hos, rfl⟩ := h
  exact CitationValidator.validateClaims_ok hos

theorem deterministic_grounded {result : ConstrainedSynthesisResult}
    (h : deterministic b rules tenantId runId facts coverage evidence = .ok result) :
    Grounded evidence result.answer := by
  simp only [deterministic, bind_ok_iff, pure_ok_iff] at h
  obtain ⟨proposals, -, answer, ha, rfl⟩ := h
  exact validated_ok ha

theorem synthesize_grounded {reply : ModelReply} {result : ConstrainedSynthesisResult}
    (h : synthesize b rules tenantId runId facts coverage evidence reply = .ok result) :
    Grounded evidence result.answer := by
  unfold synthesize at h
  split at h
  · exact deterministic_grounded h
  · split at h
    · simp only [bind_ok_iff, pure_ok_iff] at h
      obtain ⟨answer, ha, rfl⟩ := h
      exact validated_ok ha
    · split at h
      · simp only [bind_ok_iff, pure_ok_iff] at h
        obtain ⟨proposals, -, answer, ha, rfl⟩ := h
        exact validated_ok ha
      · simp at h

end ConstrainedModelSynthesizer

/-! ## From the chunk to the citation -/

/-- The citation's quote is the text of the document version at its offsets, inside the chunk. -/
structure InSource (candidates : List SelectedCandidate) (c : Citation) (s : SelectedCandidate) :
    Prop where
  mem : s ∈ candidates
  version : c.documentVersionId = s.version.id
  chunk : c.documentChunkId = s.chunkId
  quote : c.quote = Text.slice s.version.text c.startOffset c.endOffset
  inside : s.chunk.startOffset ≤ c.startOffset ∧ c.endOffset ≤ s.chunk.endOffset

/-- What the verifier produced, read back from its artifact, spans the candidates. -/
theorem decoded_spans {vrules : VerifierRules} {verifiedAt : Time}
    {candidates : List SelectedCandidate} {verification : ModelReply} {batch : VerifiedBatch}
    (hbatch : ModelEvidenceVerifier.verify b vrules runId verifiedAt candidates verification
        = .ok batch ∨
      ModelEvidenceVerifier.deterministic b vrules runId verifiedAt candidates = .ok batch)
    (hdecoded : batch.evidence.mapM (fun e => fromPayload b tenantId runId (toPayload b e))
      = .ok evidence)
    {e : VerifiedEvidence} (he : e ∈ evidence) : ∃ s ∈ candidates, Spans s e.candidate := by
  have hfrom : ModelEvidenceVerifier.FromCandidates candidates batch.evidence := by
    rcases hbatch with h | h
    · exact (ModelEvidenceVerifier.verify_ok h).spans
    · exact (ModelEvidenceVerifier.deterministic_ok h).spans
  obtain ⟨o, ho, hpayload⟩ := mapM_ok hdecoded he
  have d := fromPayload_toPayload hpayload
  obtain ⟨s, hs, hspan⟩ := hfrom o ho
  refine ⟨s, hs, d.factId.trans hspan.factId, d.versionId.trans hspan.versionId,
    d.chunkId.trans hspan.chunkId, ?_, ?_, ?_⟩
  · rw [d.startOffset, d.endOffset, d.quote]
    exact hspan.quote
  · rw [d.startOffset]
    exact hspan.start_in_chunk
  · rw [d.endOffset]
    exact hspan.end_in_chunk

/--
**Citations are grounded.** Take any facts and coverage, evidence as the verifier
produced it for any candidates under any reply, read back from its artifact, and
any reply to the synthesizer. In the answer the citations come claim by claim:
every factual claim has some, each of them refers to an accepted item of the same
tenant, run and fact, quotes the document version at its offsets inside the cited
chunk, and is numbered from 1 within the claim. The labels are `[1]` to `[n]` over
the whole answer.
-/
theorem citations_grounded {vrules : VerifierRules} {verifiedAt : Time}
    {candidates : List SelectedCandidate} {verification reply : ModelReply} {batch : VerifiedBatch}
    {result : ConstrainedSynthesisResult}
    (hbatch : ModelEvidenceVerifier.verify b vrules runId verifiedAt candidates verification
        = .ok batch ∨
      ModelEvidenceVerifier.deterministic b vrules runId verifiedAt candidates = .ok batch)
    (hdecoded : batch.evidence.mapM (fun e => fromPayload b tenantId runId (toPayload b e))
      = .ok evidence)
    (hresult :
      ConstrainedModelSynthesizer.synthesize b rules tenantId runId facts coverage evidence reply
        = .ok result ∨
      ConstrainedModelSynthesizer.deterministic b rules tenantId runId facts coverage evidence
        = .ok result) :
    (∃ groups, groups.flatten = result.answer.citations ∧
      List.Forall₂ (fun cl cs =>
        (cl.kind = .factual → cs ≠ []) ∧
        (∀ c ∈ cs, (∃ e ∈ evidence, CitesItem cl c e) ∧ ∃ s, InSource candidates c s) ∧
        cs.map (·.ordinal) = (List.range cs.length).map (· + 1))
        result.answer.claims groups) ∧
    result.answer.citations.map (·.label)
      = (List.range result.answer.citations.length).map fun i => "[" ++ toString (i + 1) ++ "]" := by
  have hg : Grounded evidence result.answer := by
    rcases hresult with h | h
    · exact ConstrainedModelSynthesizer.synthesize_grounded h
    · exact ConstrainedModelSynthesizer.deterministic_grounded h
  obtain ⟨⟨groups, hgroups, hflat⟩, hlabels⟩ := hg
  refine ⟨⟨groups, hflat, hgroups.imp ?_⟩, ?_⟩
  · intro cl cs hcites
    refine ⟨hcites.cited, ?_, hcites.ordinals⟩
    intro c hc
    obtain ⟨e, he, hitem⟩ := hcites.items c hc
    obtain ⟨s, hs, hspan⟩ := decoded_spans hbatch hdecoded he
    refine ⟨⟨e, he, hitem⟩, s, hs, hitem.version.trans hspan.versionId,
      hitem.chunk.trans hspan.chunkId, ?_, ?_, ?_⟩
    · rw [hitem.startOffset, hitem.endOffset, hitem.quote]
      exact hspan.quote.symm
    · rw [hitem.startOffset]
      exact hspan.start_in_chunk
    · rw [hitem.endOffset]
      exact hspan.end_in_chunk
  · rw [hlabels]
    simp [labels]

end Gate

/-! ## One quote, from the chunk to the citation -/

namespace Sample

/-- The digests and conversions of the values below. -/
def builtins : Builtins where
  strOf _ := ""
  floatOf _ := none
  lower := Text.lowerAscii
  isoformat _ := "2026-08-15T00:00:00+00:00"
  fromisoformat _ := some 1786752000000000
  uuid5 _ name :=
    if name = "verified:deepseek-verifier-v2" then ⟨0x2bc60f3da4de5efc9828b94b8ed668e5#128⟩
    else if name = "00000000-0000-0000-0000-000000000002:answer-claims:uuid:1" then
      ⟨0xfdd12459577f54f09f005294dc974a02#128⟩
    else ⟨0x328fd2b82d91548684b54034e16a71d8#128⟩
  sha256 _ := "5dd272b4f316b776a7b8e3d0894b37e1e42be3d5d3b204b8a5836cc50597a6b1"

/-- No reviewed adapter knows the source. -/
def verifierRules : VerifierRules where
  deterministicProposal _ := none
  isAdmissible _ _ := true
  requiresSourceSetAbsence _ := false
  isStale _ := false

/-- The fact names no identifier that a claim would have to repeat. -/
def claimRules : ClaimRules where
  selfContainedText _ text _ := .ok text
  validateRequestedRelationship _ _ := .ok ()
  derivedFallbackText _ _ := none

def fact : Planning.FactRequirement where
  key := "size"
  factType := .background
  description := "big city"
  subject := "city"
  given := by decide
  subject_term := by decide +kernel

def facts : Facts := [(⟨3#128⟩, fact)]

def candidate : SelectedCandidate where
  id := ⟨7#128⟩
  factId := ⟨3#128⟩
  fact := fact
  documentId := ⟨4#128⟩
  version := ⟨⟨5#128⟩, ⟨1#128⟩, ⟨4#128⟩, "Paris is big."⟩
  chunkId := ⟨6#128⟩
  chunk := ⟨"Paris is big.", 0, 13, by decide⟩
  url := "https://example.org/"
  sourceIdentity := "example.org"
  sourceAuthority := .independent
  quote := "Paris"
  score := 1

/-- The verifier's reply: one verdict on the candidate, in this direction. -/
def verdict (direction : String) : ModelReply :=
  .answered (.obj [("verdicts", .arr [.obj [
    ("candidate_id", .str "00000000-0000-0000-0000-000000000007"),
    ("fact_id", .str "00000000-0000-0000-0000-000000000003"), ("quote", .str "Paris"),
    ("support_type", .str direction), ("confidence", .number 1),
    ("reason_codes", .arr [.str "direct_support"])]])])

/-- The synthesizer's reply: one claim that cites the evidence. -/
def claim : ModelReply :=
  .answered (.obj [("claims", .arr [.obj [
    ("claim_key", .str "size"), ("text", .str "Paris is big"),
    ("fact_id", .str "00000000-0000-0000-0000-000000000003"),
    ("evidence_ids", .arr [.str "2bc60f3d-a4de-5efc-9828-b94b8ed668e5"])]])])

/-- The evidence the verifier produces. -/
def batch (direction : String) : Except Exn VerifiedBatch :=
  ModelEvidenceVerifier.verify builtins verifierRules ⟨2#128⟩ 0 [candidate] (verdict direction)

/-- The evidence as the synthesis step reads it. -/
def evidence (direction : String) : Except Exn (List VerifiedEvidence) := do
  (← batch direction).evidence.mapM fun e =>
    fromPayload builtins ⟨1#128⟩ ⟨2#128⟩ (toPayload builtins e)

/-- The answer. -/
def answer (direction : String) : Except Exn ConstrainedSynthesisResult := do
  let items ← evidence direction
  ConstrainedModelSynthesizer.synthesize builtins claimRules ⟨1#128⟩ ⟨2#128⟩ facts
    (coverageOf ⟨1#128⟩ ⟨2#128⟩ items facts) items claim

end Sample

theorem citations_grounded_sample : ∃ result, Sample.answer "SUPPORTS" = .ok result ∧
    (∃ cl ∈ result.answer.claims, cl.kind = .factual) ∧
    result.answer.citations.map (·.label)
      = (List.range result.answer.citations.length).map fun i => "[" ++ toString (i + 1) ++ "]" := by
  have hany : (Sample.answer "SUPPORTS").toOption.any
      (fun r => r.answer.claims.any fun cl => cl.kind = .factual) = true := by decide +kernel
  obtain ⟨result, hresult, hfactual⟩ := exists_ok_of_any hany
  refine ⟨result, hresult, by simpa using hfactual, ?_⟩
  simp only [Sample.answer, Sample.evidence, bind_ok_iff] at hresult
  obtain ⟨items, ⟨batch, hbatch, hdecoded⟩, hsyn⟩ := hresult
  exact (citations_grounded (.inl hbatch) hdecoded (.inl hsyn)).2

end Sana.Answer
