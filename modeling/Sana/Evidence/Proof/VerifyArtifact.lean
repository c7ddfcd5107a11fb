import Sana.Evidence.Proof.Provenance
import Sana.Evidence.VerifyArtifact

/-!
# Evidence survives its artifact

What the verifier records went through the constructors of the evidence, and they accept their own
results: an identity that was stripped and lowered stays as it is. Every member of the document is
found under its name again, so the evidence that is loaded is the evidence that was stored, and what is
computed from it is the same.
-/

namespace Sana.Evidence

open Sana.Lib

/-- What `str.lower` does to case and to blanks. -/
structure LowerCase (b : Builtins) : Prop where
  lower_lower : ∀ s, b.lower (b.lower s) = b.lower s
  /-- Blanks have no case, and no other character is lowered to one. -/
  strip_lower : ∀ s, Text.strip (b.lower s) = b.lower (Text.strip s)
  eq_empty : ∀ s, b.lower s = "" → s = ""

variable {b : Builtins} {c : Coercions} {rules : VerifierRules} {tenantId runId : Uuid}
  {verifiedAt : Time}

/-! ## Constructors accept what they made -/

theorem source_make_again (hlower : LowerCase b) {doc version chunk : Uuid} {url identity : String}
    {a : SourceAuthority} {s : EvidenceSource}
    (h : EvidenceSource.make b doc version chunk url identity a = .ok s) :
    EvidenceSource.make b s.documentId s.documentVersionId s.documentChunkId s.url s.sourceIdentity
      s.authority = .ok s := by
  simp only [EvidenceSource.make, bind_ok_iff, pure_ok_iff, check_eq_ok] at h ⊢
  obtain ⟨_, hhttp, _, hblank, rfl⟩ := h
  have hsame : Text.strip (b.lower (Text.strip identity)) = b.lower (Text.strip identity) := by
    rw [hlower.strip_lower, Text.strip_strip]
  refine ⟨(), hhttp, (), ?_, ?_⟩
  · rw [Bool.not_eq_true', Bool.eq_false_iff] at hblank ⊢
    rw [ne_eq, ← Text.strip_eq_empty_iff] at hblank ⊢
    rw [hsame]
    exact fun hempty => hblank (hlower.eq_empty _ hempty)
  · rw [hsame, hlower.lower_lower]

theorem candidate_make_again {x y : EvidenceCandidate} (h : EvidenceCandidate.make b x = .ok y) :
    EvidenceCandidate.make b y = .ok y := by
  obtain ⟨rfl, -⟩ := candidate_make_ok h
  exact h

theorem evidence_make_again {x y : VerifiedEvidence} (h : x.make = .ok y) : y.make = .ok y := by
  have hsame : y = x := by
    simp only [VerifiedEvidence.make, bind_ok_iff, pure_ok_iff] at h
    obtain ⟨_, _, _, _, rfl⟩ := h
    rfl
  rw [hsame] at h ⊢
  exact h

/-- The evidence went through its constructors, for this tenant and run at this time. -/
structure Made (b : Builtins) (tenantId runId : Uuid) (verifiedAt : Time) (e : VerifiedEvidence) :
    Prop where
  tenantId : e.tenantId = tenantId
  runId : e.runId = runId
  verifiedAt : e.verifiedAt = verifiedAt
  source : EvidenceSource.make b e.source.documentId e.source.documentVersionId
    e.source.documentChunkId e.source.url e.source.sourceIdentity e.source.authority = .ok e.source
  candidate : EvidenceCandidate.make b e.candidate = .ok e.candidate
  evidence : e.make = .ok e

theorem build_made (hlower : LowerCase b) {id : Uuid} {r : BuildRequest} {x : EvidenceCandidate}
    (h : build b id r = .ok x) : x.tenantId = r.tenantId ∧ x.runId = r.runId ∧
      EvidenceSource.make b x.source.documentId x.source.documentVersionId x.source.documentChunkId
        x.source.url x.source.sourceIdentity x.source.authority = .ok x.source ∧
      EvidenceCandidate.make b x = .ok x := by
  simp only [build, bind_ok_iff] at h
  obtain ⟨_, _, _, _, _, _, _, _, _, _, s, hs, h⟩ := h
  have hmade := candidate_make_again h
  obtain ⟨rfl, -⟩ := candidate_make_ok h
  exact ⟨rfl, rfl, source_make_again hlower hs, hmade⟩

theorem record_made (hlower : LowerCase b) {version : String} {verdict : EvidenceVerdict}
    {x : SelectedCandidate} {p : ProposedVerification} {e : VerifiedEvidence}
    (h : ModelEvidenceVerifier.record b runId verifiedAt version verdict x p = .ok e)
    (htenant : x.version.tenantId = tenantId) : Made b tenantId runId verifiedAt e := by
  unfold ModelEvidenceVerifier.record at h
  split at h
  · rw [bind_ok_iff] at h
    obtain ⟨grounded, hbuild, hrecord⟩ := h
    obtain ⟨htenant', hrun, hsource, hcandidate⟩ := build_made hlower hbuild
    have hmade := evidence_make_again hrecord
    simp only [Evidence.record, VerifiedEvidence.make, bind_ok_iff, pure_ok_iff] at hrecord
    obtain ⟨_, _, _, _, rfl⟩ := hrecord
    exact ⟨htenant'.trans htenant, hrun, rfl, hsource, hcandidate, hmade⟩
  · cases h

/-- **What the verifier produces went through the constructors.** -/
theorem batch_made (hlower : LowerCase b) {candidates : List SelectedCandidate} {reply : ModelReply}
    {batch : VerifiedBatch}
    (h : ModelEvidenceVerifier.verify b rules runId verifiedAt candidates reply = .ok batch ∨
      ModelEvidenceVerifier.deterministic b rules runId verifiedAt candidates = .ok batch)
    (htenant : ∀ x ∈ candidates, x.version.tenantId = tenantId) :
    ∀ e ∈ batch.evidence, Made b tenantId runId verifiedAt e := by
  have hrecorded : ModelEvidenceVerifier.Recorded b runId verifiedAt candidates batch.evidence := by
    rcases h with h | h
    · exact (ModelEvidenceVerifier.verify_recorded h).1
    · exact (ModelEvidenceVerifier.deterministic_recorded h).1
  intro e he
  obtain ⟨x, hx, version, verdict, p, hrecord⟩ := hrecorded e he
  exact record_made hlower hrecord (htenant x hx)

/-! ## The payload -/

/-- What was made is made again of its payload. -/
theorem fromPayload_of_made (hiso : b.fromisoformat (b.isoformat verifiedAt) = some verifiedAt)
    {e : VerifiedEvidence} (h : Made b tenantId runId verifiedAt e) :
    fromPayload b tenantId runId (toPayload b e) = .ok e := by
  obtain ⟨rfl, rfl, rfl, hsource, hcandidate, hevidence⟩ := h
  have hsupport : SupportType.ofValue e.candidate.supportType.value = .ok e.candidate.supportType := by
    cases e.candidate.supportType <;> rfl
  have hauth : SourceAuthority.ofValue e.candidate.source.authority.value =
      .ok e.candidate.source.authority := by
    cases e.candidate.source.authority <;> rfl
  have hverdict : EvidenceVerdict.ofValue e.verdict.value = .ok e.verdict := by
    cases e.verdict <;> rfl
  have hoffset : ∀ n : Nat, offsetOf n = .ok n := by
    intro n
    simp [offsetOf]
  have hbind : ∀ {α β : Type} (a : α) (f : α → Except Exn β), (Except.ok a >>= f) = f a :=
    fun _ _ => rfl
  rw [VerifiedEvidence.source] at hsource
  simp only [fromPayload, toPayload, uuidOf_str, hsupport, hauth, hverdict, hoffset, hbind, hiso,
    hsource]
  show (EvidenceCandidate.make b e.candidate >>= fun candidate =>
    VerifiedEvidence.make { e with candidate }) = _
  rw [hcandidate, hbind]
  exact hevidence

/-! ## The document -/

/-- A member of a record that was written is read under its name. -/
theorem get_record {ms : List (String × Document)} (hnodup : (ms.map (·.1)).Nodup) {name : String}
    {v : Document} (h : (name, v) ∈ ms) :
    Coercions.get (PyJson.record ms).sortKeys name = .ok v.sortKeys := by
  rw [Coercions.get, PyJson.field_sortKeys_record hnodup h]

theorem textOf_text (s : String) : c.textOf (PyJson.text s) = s := by
  have hchars : (PyStr.ofString s).chars? = some s.toList := PyJson.chars?_eq_some_iff.mpr rfl
  rw [PyJson.text, Coercions.textOf, hchars]
  exact String.ofList_toList

theorem textAt_record {ms : List (String × Document)} (hnodup : (ms.map (·.1)).Nodup)
    {name s : String} (h : (name, PyJson.text s) ∈ ms) :
    c.textAt (PyJson.record ms).sortKeys name = .ok s := by
  rw [Coercions.textAt, get_record hnodup h]
  exact congrArg Except.ok (textOf_text s)

/-- The texts of a list are the same after sorting. -/
theorem sortKeys_texts (texts : List String) : (PyJson.arr (texts.map PyJson.text) : Document).sortKeys =
    .arr (texts.map PyJson.text) := by
  rw [PyJson.sortKeys, PyJson.sortItems_eq, List.map_map]
  rfl

/-- Any list of rows is sorted row by row. -/
theorem sortKeys_arr (vs : List Document) : (PyJson.arr vs).sortKeys = .arr (vs.map PyJson.sortKeys) := by
  rw [PyJson.sortKeys, PyJson.sortItems_eq]

/-- **The members of a payload are read from its document.** -/
theorem read_document (p : EvidencePayload) : EvidencePayload.read c p.document.sortKeys = .ok p := by
  have hnodup : (p.members.map (·.1)).Nodup := by simp [EvidencePayload.members]
  have get : ∀ (i : Nat) (name : String) (v : Document), p.members[i]? = some (name, v) →
      Coercions.get p.document.sortKeys name = .ok v.sortKeys := fun _ _ _ h =>
    get_record hnodup (List.mem_of_getElem? h)
  have text : ∀ i name s, p.members[i]? = some (name, PyJson.text s) →
      c.textAt p.document.sortKeys name = .ok s := fun _ _ _ h =>
    textAt_record hnodup (List.mem_of_getElem? h)
  have hbind : ∀ {α β : Type} (a : α) (f : α → Except Exn β), (Except.ok a >>= f) = f a :=
    fun _ _ => rfl
  have hcodes : Coercions.get p.document.sortKeys "reason_codes" =
      .ok (.arr (p.reasonCodes.map PyJson.text)) := by
    rw [get 16 "reason_codes" _ rfl, sortKeys_texts]
  have htexts : (p.reasonCodes.map PyJson.text).map c.textOf = p.reasonCodes := by
    rw [List.map_map]
    exact (List.map_congr_left fun s _ => textOf_text s).trans (List.map_id _)
  simp only [EvidencePayload.read, hbind, text 0 "candidate_id" _ rfl, text 1 "verified_id" _ rfl,
    text 2 "fact_id" _ rfl, text 3 "document_id" _ rfl, text 4 "document_version_id" _ rfl,
    text 5 "document_chunk_id" _ rfl, text 6 "quote" _ rfl, text 7 "quote_hash" _ rfl,
    get 8 "start_offset" _ rfl, get 9 "end_offset" _ rfl, text 10 "support_type" _ rfl,
    get 11 "candidate_score" _ rfl, text 12 "source_identity" _ rfl,
    text 13 "source_authority" _ rfl, text 14 "verdict" _ rfl, get 15 "confidence" _ rfl,
    text 17 "verifier_version" _ rfl, text 18 "verified_at" _ rfl, text 19 "url" _ rfl, hcodes,
    PyJson.sortKeys, Coercions.intOf, Coercions.floatOf, Coercions.itemsOf, htexts]
  rfl

section Writing

variable {isFloat : Rat → Prop}

theorem writable_texts (texts : List String) :
    (PyJson.arr (texts.map PyJson.text) : Document).Writable isFloat :=
  PyJson.writable_arr (List.forall_mem_map.mpr fun s _ => PyJson.writable_text s)

theorem writable_document {p : EvidencePayload} (hscore : isFloat p.candidateScore)
    (hconfidence : isFloat p.confidence) : p.document.Writable isFloat := by
  refine PyJson.writable_record (by simp [EvidencePayload.members]) ?_
  have hint : ∀ n, (PyJson.int n : Document).Writable isFloat := fun _ => ⟨trivial, trivial, trivial⟩
  have hreal : ∀ x, isFloat x → (PyJson.real x : Document).Writable isFloat := fun _ h =>
    ⟨trivial, h, trivial⟩
  simp [EvidencePayload.members, PyJson.writable_text, writable_texts, hint, hreal, hscore,
    hconfidence]

theorem writable_option (s : Option String) :
    ((s.map PyJson.text).getD .null : Document).Writable isFloat := by
  cases s with
  | none => exact ⟨trivial, trivial, trivial⟩
  | some s => exact PyJson.writable_text s

theorem writable_assessment (factId : Uuid) (a : CoverageAssessment) :
    (assessmentDocument factId a).Writable isFloat := by
  refine PyJson.writable_record (by simp [assessmentMembers]) ?_
  have hids : ∀ ids, (idsDocument ids).Writable isFloat := by
    intro ids
    have htexts : (PyJson.arr ((ids.map Uuid.str).map PyJson.text) : Document).Writable isFloat :=
      writable_texts _
    rwa [List.map_map] at htexts
  have hlevel : (((a.level.map EvidenceLevel.value).map PyJson.text).getD .null :
      Document).Writable isFloat := writable_option _
  rw [Option.map_map] at hlevel
  simp only [assessmentMembers, List.forall_mem_cons]
  exact ⟨PyJson.writable_text _, PyJson.writable_text _, PyJson.writable_text _, hlevel, hids _, hids _,
    hids _, writable_texts _, List.forall_mem_nil _⟩

/-- The document of a step can be written. -/
theorem writable_verifyDocument {planRef : Document} (hplan : planRef.Writable isFloat)
    (facts : List (Uuid × Planning.FactRequirement)) {batch : VerifiedBatch}
    (hfloat : ∀ e ∈ batch.evidence, isFloat e.candidate.candidateScore ∧ isFloat e.confidence) :
    (verifyDocument b tenantId runId planRef facts batch).Writable isFloat := by
  refine PyJson.writable_record (by simp [verifyMembers]) ?_
  have hevidence : (PyJson.arr (batch.evidence.map (evidenceToPayload b))).Writable isFloat :=
    PyJson.writable_arr (List.forall_mem_map.mpr fun e he =>
      writable_document (hfloat e he).1 (hfloat e he).2)
  have hcoverage : ∀ rows, (coverageDocument rows).Writable isFloat := fun rows =>
    PyJson.writable_arr (List.forall_mem_map.mpr fun row _ => writable_assessment row.1 row.2)
  simp only [verifyMembers, List.forall_mem_cons]
  exact ⟨PyJson.writable_text _, hplan, hevidence, hcoverage _, ⟨trivial, trivial, trivial⟩,
    writable_option _, List.forall_mem_nil _⟩

end Writing

/-! ## Both steps -/

/-- Evidence is read from its document as it was. -/
theorem evidenceFromPayload_of_made
    (hiso : b.fromisoformat (b.isoformat verifiedAt) = some verifiedAt) {e : VerifiedEvidence}
    (h : Made b tenantId runId verifiedAt e) :
    evidenceFromPayload b c tenantId runId (evidenceToPayload b e).sortKeys = .ok e := by
  have hpayload := fromPayload_of_made hiso h
  unfold evidenceToPayload
  generalize toPayload b e = p at hpayload ⊢
  rw [evidenceFromPayload, read_document]
  exact hpayload

/-- Reading a list of written rows, each of which is read as it was. -/
theorem mapM_map_ok {α : Type} {write : α → Document} {read : Document → Except Exn α} {l : List α}
    (h : ∀ x ∈ l, read (write x).sortKeys = .ok x) :
    ((l.map write).map PyJson.sortKeys).mapM read = .ok l := by
  induction l with
  | nil => rfl
  | cons x l ih =>
    rw [List.forall_mem_cons] at h
    rw [List.map_cons, List.map_cons, List.mapM_cons, h.1, ih h.2]
    rfl

/-- The evidence of a batch is loaded from the document of the step. -/
theorem loadedEvidence_verifyDocument
    (hiso : b.fromisoformat (b.isoformat verifiedAt) = some verifiedAt) {planRef : Document}
    {facts : List (Uuid × Planning.FactRequirement)} {batch : VerifiedBatch}
    (hmade : ∀ e ∈ batch.evidence, Made b tenantId runId verifiedAt e) :
    loadedEvidence b c tenantId runId
      (verifyDocument b tenantId runId planRef facts batch).sortKeys = .ok batch.evidence := by
  have hnodup : ((verifyMembers b tenantId runId planRef facts batch).map (·.1)).Nodup := by
    simp [verifyMembers]
  have hmem : ("evidence", PyJson.arr (batch.evidence.map (evidenceToPayload b))) ∈
      verifyMembers b tenantId runId planRef facts batch := List.mem_of_getElem? (i := 2) rfl
  rw [loadedEvidence, verifyDocument, PyJson.field_sortKeys_record hnodup hmem, sortKeys_arr]
  exact mapM_map_ok fun e he => evidenceFromPayload_of_made hiso (hmade e he)

/-- **Evidence survives its serialisation, and so does what is computed from it.** -/
theorem evidence_survives (hlower : LowerCase b)
    (hiso : b.fromisoformat (b.isoformat verifiedAt) = some verifiedAt)
    {floats : PyJson.Floats Rat} {repr : Rat → List Char} {isFloat : Rat → Prop}
    (hreads : PyJson.Reads floats repr isFloat) {candidates : List SelectedCandidate}
    {reply : ModelReply} {batch : VerifiedBatch}
    (hbatch : ModelEvidenceVerifier.verify b rules runId verifiedAt candidates reply = .ok batch ∨
      ModelEvidenceVerifier.deterministic b rules runId verifiedAt candidates = .ok batch)
    (htenant : ∀ x ∈ candidates, x.version.tenantId = tenantId)
    (hfloat : ∀ e ∈ batch.evidence, isFloat e.candidate.candidateScore ∧ isFloat e.confidence) :
    (∀ e ∈ batch.evidence, e.tenantId = tenantId ∧ e.runId = runId ∧
      (PyJson.reload floats repr (evidenceToPayload b e)).map
        (evidenceFromPayload b c tenantId runId) = some (.ok e)) ∧
    ∀ planRef facts, planRef.Writable isFloat →
      ∃ loaded coverage, PyJson.reload floats repr
          (verifyDocument b tenantId runId planRef facts batch) = some loaded ∧
        recomputedCoverage b c tenantId runId facts loaded = .ok coverage ∧
        coverage = assessFacts tenantId runId facts batch.evidence ∧
        loaded.field "coverage" = some (coverageDocument coverage).sortKeys := by
  have hmade := batch_made hlower hbatch htenant
  constructor
  · intro e he
    refine ⟨(hmade e he).tenantId, (hmade e he).runId, ?_⟩
    have hwritable : (evidenceToPayload b e).Writable isFloat :=
      writable_document (hfloat e he).1 (hfloat e he).2
    rw [PyJson.reload_eq hreads hwritable, Option.map_some,
      evidenceFromPayload_of_made hiso (hmade e he)]
  · intro planRef facts hplan
    have hnodup : ((verifyMembers b tenantId runId planRef facts batch).map (·.1)).Nodup := by
      simp [verifyMembers]
    refine ⟨_, _, PyJson.reload_eq hreads (writable_verifyDocument hplan facts hfloat), ?_, rfl, ?_⟩
    · rw [recomputedCoverage, loadedEvidence_verifyDocument hiso hmade]
      rfl
    · exact PyJson.field_sortKeys_record hnodup (List.mem_of_getElem? (i := 3) rfl)

/-! ## One quote, stored and loaded -/

namespace ArtifactSample

/-- The conversions of the values below, which are in lower case. -/
def builtins : Builtins where
  strOf _ := ""
  floatOf _ := none
  lower := id
  isoformat _ := "2026-08-15T00:00:00+00:00"
  fromisoformat _ := some 1786752000000000
  uuid5 _ _ := ⟨0x328fd2b82d91548684b54034e16a71d8#128⟩
  sha256 _ := "5dd272b4f316b776a7b8e3d0894b37e1e42be3d5d3b204b8a5836cc50597a6b1"

theorem builtins_lowerCase : LowerCase builtins where
  lower_lower _ := rfl
  strip_lower _ := rfl
  eq_empty _ := id

def coercions : Coercions where
  str _ := ""
  int _ := .error (.typeError "int() argument must be a number")
  float _ := .error (.typeError "float() argument must be a number")
  items _ := .error (.typeError "object is not iterable")

/-- The two floats of the evidence. -/
def isFloat (x : Rat) : Prop := x = 0 ∨ x = 1

instance : DecidablePred isFloat := fun _ => inferInstanceAs (Decidable (_ ∨ _))

def repr (x : Rat) : List Char := if x = 1 then ['1', '.', '0'] else ['0', '.', '0']

def floats : PyJson.Floats Rat where
  real cs := if cs = ['1', '.', '0'] then 1 else 0
  constant _ := 0

theorem reads : PyJson.Reads floats repr isFloat where
  token x hx := by
    rcases hx with rfl | rfl
    · exact ⟨⟨false, ['0'], ['.', '0']⟩, by decide, by decide, by decide⟩
    · exact ⟨⟨false, ['1'], ['.', '0']⟩, by decide, by decide, by decide⟩
  real x hx := by
    rcases hx with rfl | rfl <;> decide

theorem fact_given : Text.isBlank "size" = false ∧ Text.isBlank "big city" = false
    ∧ Text.isBlank "city" = false := by decide

theorem fact_subject : Planning.isSearchTerm "city" 48 = true := by decide +kernel

theorem chunk_length : 0 < 13 := by decide

def candidate : SelectedCandidate where
  id := ⟨7#128⟩
  factId := ⟨3#128⟩
  fact := { key := "size", factType := .background, description := "big city", subject := "city"
            given := fact_given, subject_term := fact_subject }
  documentId := ⟨4#128⟩
  version := ⟨⟨5#128⟩, ⟨1#128⟩, ⟨4#128⟩, "Paris is big."⟩
  chunkId := ⟨6#128⟩
  chunk := ⟨"Paris is big.", 0, 13, chunk_length⟩
  url := "https://example.org/"
  sourceIdentity := "example.org"
  sourceAuthority := .independent
  quote := "Paris"
  score := 1

/-- One adapter accepts the candidate. -/
def adapters : VerifierRules where
  deterministicProposal x :=
    some (⟨x.factId, x.id, .supports, x.quote, 1, ["direct_support"]⟩, "registry-v1")
  isAdmissible _ _ := true
  requiresSourceSetAbsence _ := false
  isStale _ := false

/-- What the verifier produces. -/
def batch : Except Exn VerifiedBatch :=
  ModelEvidenceVerifier.deterministic builtins adapters ⟨2#128⟩ 1786752000000000
    [candidate]

end ArtifactSample

theorem evidence_survives_sample : ∃ batch, ArtifactSample.batch = .ok batch ∧
    (∃ e ∈ batch.evidence, e.verdict = .accepted) ∧
    ∀ e ∈ batch.evidence, (PyJson.reload ArtifactSample.floats ArtifactSample.repr
      (evidenceToPayload ArtifactSample.builtins e)).map
        (evidenceFromPayload ArtifactSample.builtins ArtifactSample.coercions ⟨1#128⟩ ⟨2#128⟩) = some (.ok e) := by
  have hany : ArtifactSample.batch.toOption.any (fun batch => batch.evidence.any (·.verdict = .accepted) &&
      batch.evidence.all fun e => decide (ArtifactSample.isFloat e.candidate.candidateScore ∧
        ArtifactSample.isFloat e.confidence)) = true := by
    decide +kernel
  obtain ⟨batch, hbatch, hrows⟩ := exists_ok_of_any hany
  rw [Bool.and_eq_true] at hrows
  obtain ⟨hsome, hfloat⟩ := hrows
  refine ⟨batch, hbatch, by simpa using hsome, fun e he => ?_⟩
  have hproduced : ModelEvidenceVerifier.verify ArtifactSample.builtins ArtifactSample.adapters ⟨2#128⟩
      1786752000000000 [ArtifactSample.candidate] (.answered .null) = .ok batch ∨
      ArtifactSample.batch = .ok batch := .inr hbatch
  have hsurvives := evidence_survives (b := ArtifactSample.builtins) (c := ArtifactSample.coercions)
    ArtifactSample.builtins_lowerCase rfl ArtifactSample.reads hproduced
    (List.forall_mem_singleton.mpr rfl) fun e he =>
      of_decide_eq_true (List.all_eq_true.mp hfloat e he)
  exact (hsurvives.1 e he).2.2

end Sana.Evidence
