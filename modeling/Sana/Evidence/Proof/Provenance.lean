import Sana.Evidence.ModelVerifier

/-!
# Evidence keeps the way back to its source

`Spans c e` says that the quote of `e` stands in the document of candidate `c`,
at the offsets `e` carries and inside the chunk of `c`. The builder establishes
it, and nothing after the builder can lose it: verdicts, the candidate audit and
the artifact encoding only carry the candidate along.
-/

namespace Sana.Evidence

open Sana.Lib

attribute [local simp] bind_ok_iff pure_ok_iff check_eq_ok

/-- A piece of a text that is not empty ends inside the text. -/
theorem slice_within {s q : String} {i : Nat} (h : Text.slice s i (i + q.length) = q)
    (hq : 0 < q.length) : i + q.length ≤ s.length := by
  have hlen := congrArg String.length h
  rw [Text.slice, String.length_ofList, List.length_drop, List.length_take,
    String.length_toList] at hlen
  omega

/-- The quote stands in the candidate's document, at its offsets and inside the chunk. -/
structure Spans (c : SelectedCandidate) (e : EvidenceCandidate) : Prop where
  factId : e.factRequirementId = c.factId
  versionId : e.source.documentVersionId = c.version.id
  chunkId : e.source.documentChunkId = c.chunkId
  quote : Text.slice c.version.text e.startOffset e.endOffset = e.quote
  start_in_chunk : c.chunk.startOffset ≤ e.startOffset
  end_in_chunk : e.endOffset ≤ c.chunk.endOffset

variable {b : Builtins} {rules : VerifierRules} {runId : Uuid} {verifiedAt : Time}

/-- A source is what it was made of. -/
theorem source_make_ok {doc version chunk : Uuid} {url identity : String} {a : SourceAuthority}
    {s : EvidenceSource} (h : EvidenceSource.make b doc version chunk url identity a = .ok s) :
    s.documentId = doc ∧ s.documentVersionId = version ∧ s.documentChunkId = chunk ∧
      s.url = url ∧ s.authority = a := by
  simp only [EvidenceSource.make, bind_ok_iff, pure_ok_iff] at h
  obtain ⟨_, _, _, _, rfl⟩ := h
  exact ⟨rfl, rfl, rfl, rfl, rfl⟩

/-- The constructor of a candidate checks and returns it. -/
theorem candidate_make_ok {c c' : EvidenceCandidate} (h : EvidenceCandidate.make b c = .ok c') :
    c' = c ∧ 0 < c.quote.length ∧ c.startOffset < c.endOffset ∧
      c.endOffset - c.startOffset = c.quote.length := by
  simp only [EvidenceCandidate.make, bind_ok_iff, pure_ok_iff, check_eq_ok] at h
  obtain ⟨_, hne, _, _, _, hlt, _, hlen, _, _, rfl⟩ := h
  simp only [decide_eq_true_eq] at hlt hlen
  exact ⟨rfl, by omega, hlt, hlen⟩

/-- **The builder makes candidates from exact spans only.** -/
theorem build_ok {id : Uuid} {r : BuildRequest} {e : EvidenceCandidate}
    (h : build b id r = .ok e) :
    e.factRequirementId = r.factRequirementId ∧ e.source.documentVersionId = r.version.id ∧
      e.source.documentChunkId = r.chunkId ∧
      Text.slice r.version.text e.startOffset e.endOffset = e.quote ∧
      r.chunk.startOffset ≤ e.startOffset ∧ e.endOffset ≤ r.chunk.endOffset := by
  simp only [build, bind_ok_iff, check_eq_ok, decide_eq_true_eq] at h
  obtain ⟨_, _, _, _, _, hchunk, _, hquote, _, hversion, s, hs, h⟩ := h
  obtain ⟨rfl, hpos, -, -⟩ := candidate_make_ok h
  obtain ⟨-, hv, hc, -, -⟩ := source_make_ok hs
  refine ⟨rfl, hv, hc, hversion, Nat.le_add_right _ _, ?_⟩
  -- the quote ends inside the chunk's text, and that text fits between the chunk's offsets
  have hin := slice_within hquote hpos
  have hfit : r.chunk.text.length ≤ r.chunk.endOffset - r.chunk.startOffset := by
    rw [← hchunk]
    exact Text.length_slice_le _ _ _
  have := r.chunk.offsets
  show r.chunk.startOffset + r.quoteStartInChunk + r.quote.length ≤ r.chunk.endOffset
  dsimp only at hpos
  omega

namespace ModelEvidenceVerifier

/-- What is recorded about a candidate spans its document. -/
theorem record_ok {version : String} {verdict : EvidenceVerdict} {c : SelectedCandidate}
    {p : ProposedVerification} {e : VerifiedEvidence}
    (h : record b runId verifiedAt version verdict c p = .ok e) :
    Spans c e.candidate ∧ e.verdict = verdict ∧ e.candidate.id = c.id ∧
      e.id = b.uuid5 c.id ("verified:" ++ version) := by
  unfold record at h
  split at h
  · simp only [bind_ok_iff, Evidence.record, VerifiedEvidence.make, pure_ok_iff] at h
    obtain ⟨g, hg, _, _, _, _, rfl⟩ := h
    obtain ⟨h1, h2, h3, h4, h5, h6⟩ := build_ok hg
    refine ⟨⟨h1, h2, h3, h4, h5, h6⟩, rfl, ?_, rfl⟩
    simp only [build, bind_ok_iff] at hg
    obtain ⟨_, _, _, _, _, _, _, _, _, _, _, _, hm⟩ := hg
    rw [(candidate_make_ok hm).1]
  · simp at h

/-- Every row quotes one of the candidates. -/
def FromCandidates (candidates : List SelectedCandidate) (rows : List VerifiedEvidence) : Prop :=
  ∀ e ∈ rows, ∃ c ∈ candidates, Spans c e.candidate

/-- Every row was recorded about one of the candidates. -/
def Recorded (b : Builtins) (runId : Uuid) (verifiedAt : Time) (candidates : List SelectedCandidate)
    (rows : List VerifiedEvidence) : Prop :=
  ∀ e ∈ rows, ∃ c ∈ candidates, ∃ version verdict p,
    record b runId verifiedAt version verdict c p = .ok e

theorem Recorded.fromCandidates {candidates : List SelectedCandidate} {rows : List VerifiedEvidence}
    (h : Recorded b runId verifiedAt candidates rows) : FromCandidates candidates rows := by
  intro e he
  obtain ⟨c, hc, version, verdict, p, hrecord⟩ := h e he
  exact ⟨c, hc, (record_ok hrecord).1⟩

theorem Recorded.append {candidates : List SelectedCandidate} {l m : List VerifiedEvidence}
    (hl : Recorded b runId verifiedAt candidates l)
    (hm : Recorded b runId verifiedAt candidates m) :
    Recorded b runId verifiedAt candidates (l ++ m) := by
  intro e he
  rcases List.mem_append.mp he with he | he
  · exact hl e he
  · exact hm e he

theorem Recorded.mono {candidates candidates' : List SelectedCandidate}
    {rows : List VerifiedEvidence} (h : Recorded b runId verifiedAt candidates rows)
    (hsub : ∀ c ∈ candidates, c ∈ candidates') : Recorded b runId verifiedAt candidates' rows := by
  intro e he
  obtain ⟨c, hc, hrecord⟩ := h e he
  exact ⟨c, hsub c hc, hrecord⟩

theorem auditRows_ok {version : String} {candidates pending : List SelectedCandidate}
    {rows rows' : List VerifiedEvidence}
    (h : auditRows b runId verifiedAt version pending rows = .ok rows')
    (hsub : ∀ c ∈ pending, c ∈ candidates)
    (hrows : Recorded b runId verifiedAt candidates rows) :
    Recorded b runId verifiedAt candidates rows' := by
  induction pending generalizing rows with
  | nil =>
      obtain rfl := Except.ok.inj h
      exact hrows
  | cons c rest ih =>
      have hrest : ∀ x ∈ rest, x ∈ candidates := fun x hx => hsub x (List.mem_cons_of_mem _ hx)
      unfold auditRows at h
      split at h
      · exact ih h hrest hrows
      · rw [bind_ok_iff] at h
        obtain ⟨e, he, h⟩ := h
        refine ih h hrest (hrows.append ?_)
        intro x hx
        obtain rfl := List.mem_singleton.mp hx
        exact ⟨c, hsub c List.mem_cons_self, version, _, _, he⟩

/-- The rows of a batch: they quote the candidates, and each candidate has one. -/
structure Audited (candidates : List SelectedCandidate) (rows : List VerifiedEvidence) : Prop where
  spans : FromCandidates candidates rows
  oneEach : ∀ e ∈ rows, ∀ e' ∈ rows, e.candidate.id = e'.candidate.id → e = e'

/-- The audit adds rejected rows of the candidates and keeps one row of each. -/
theorem completeCandidateAudit_ok {version : String} {candidates : List SelectedCandidate}
    {accepted rows : List VerifiedEvidence}
    (h : completeCandidateAudit b runId verifiedAt version candidates accepted = .ok rows)
    (hacc : Recorded b runId verifiedAt candidates accepted) :
    Recorded b runId verifiedAt candidates rows ∧ Audited candidates rows := by
  simp only [completeCandidateAudit, bind_ok_iff] at h
  obtain ⟨all, hall, hmap⟩ := h
  have hfrom := auditRows_ok hall (fun c hc => hc) fun e he => hacc e (List.mem_reverse.mp he)
  have hrow : ∀ e ∈ rows, lookup (·.candidate.id) e.candidate.id all = some e := by
    intro e he
    obtain ⟨c, -, hc⟩ := mapM_ok hmap he
    split at hc
    · rename_i x hx
      obtain rfl := Except.ok.inj hc
      rw [(lookup_eq_some hx).2]
      exact hx
    · simp at hc
  have hrecorded : Recorded b runId verifiedAt candidates rows := by
    intro e he
    exact hfrom e (lookup_eq_some (hrow e he)).1
  refine ⟨hrecorded, hrecorded.fromCandidates, ?_⟩
  intro e he e' he' hid
  have hsame := hrow e he
  rw [hid, hrow e' he'] at hsame
  exact (Option.some.inj hsame).symm

theorem deterministicValues_ok {candidates : List SelectedCandidate} {rows : List VerifiedEvidence}
    (h : deterministicValues b rules runId verifiedAt candidates = .ok rows) :
    Recorded b runId verifiedAt candidates rows := by
  induction candidates generalizing rows with
  | nil =>
      obtain rfl := Except.ok.inj h
      simp [Recorded]
  | cons c rest ih =>
      simp only [deterministicValues, bind_ok_iff, pure_ok_iff] at h
      obtain ⟨first, hfirst, others, hothers, rfl⟩ := h
      refine Recorded.append ?_ ((ih hothers).mono fun x hx => List.mem_cons_of_mem _ hx)
      intro e he
      unfold deterministicValue at hfirst
      split at hfirst
      · simp only [bind_ok_iff, pure_ok_iff] at hfirst
        obtain ⟨x, hx, rfl⟩ := hfirst
        obtain rfl := List.mem_singleton.mp he
        exact ⟨c, List.mem_cons_self, _, _, _, hx⟩
      · obtain rfl := Except.ok.inj hfirst
        simp at he

theorem modelValues_ok {asked : List SelectedCandidate} {reply : ModelReply}
    {rows : List VerifiedEvidence}
    (h : modelValues b rules runId verifiedAt asked reply = .ok rows) :
    Recorded b runId verifiedAt asked rows := by
  unfold modelValues at h
  split at h
  · simp only [bind_ok_iff] at h
    obtain ⟨proposals, -, judged, hjudged, hmap⟩ := h
    intro e he
    obtain ⟨⟨c, p⟩, hcp, hrec⟩ := mapM_ok hmap he
    refine ⟨c, ?_, _, _, _, hrec⟩
    obtain ⟨q, -, hq⟩ := mapM_ok hjudged (List.mem_of_mem_filter hcp)
    split at hq
    · rename_i x hx
      obtain ⟨rfl, -⟩ := Prod.mk.inj (Except.ok.inj hq)
      exact List.mem_reverse.mp (lookup_eq_some hx).1
    · simp at hq
  · simp at h

/-- Whatever the model replies, the evidence is recorded about the candidates. -/
theorem verify_recorded {candidates : List SelectedCandidate} {reply : ModelReply}
    {batch : VerifiedBatch} (h : verify b rules runId verifiedAt candidates reply = .ok batch) :
    Recorded b runId verifiedAt candidates batch.evidence ∧ Audited candidates batch.evidence := by
  unfold verify at h
  split at h
  · obtain rfl := pure_ok_iff.mp h
    exact ⟨by simp [Recorded], by simp [FromCandidates], by simp⟩
  · simp only [bind_ok_iff] at h
    obtain ⟨resolved, hres, h⟩ := h
    have hres' := deterministicValues_ok hres
    split at h
    · simp only [bind_ok_iff, pure_ok_iff] at h
      obtain ⟨evidence, hev, rfl⟩ := h
      exact completeCandidateAudit_ok hev hres'
    · split at h
      · rename_i evidence hjudged
        obtain rfl := pure_ok_iff.mp h
        rw [bind_ok_iff] at hjudged
        obtain ⟨values, hvalues, hev⟩ := hjudged
        exact completeCandidateAudit_ok hev
          (hres'.append ((modelValues_ok hvalues).mono fun c => List.mem_of_mem_filter))
      · split at h
        · simp only [bind_ok_iff, pure_ok_iff] at h
          obtain ⟨evidence, hev, rfl⟩ := h
          exact completeCandidateAudit_ok hev hres'
        · simp at h

/-- **Whatever the model replies, the evidence quotes the candidates.** -/
theorem verify_ok {candidates : List SelectedCandidate} {reply : ModelReply} {batch : VerifiedBatch}
    (h : verify b rules runId verifiedAt candidates reply = .ok batch) :
    Audited candidates batch.evidence := (verify_recorded h).2

theorem deterministic_recorded {candidates : List SelectedCandidate} {batch : VerifiedBatch}
    (h : deterministic b rules runId verifiedAt candidates = .ok batch) :
    Recorded b runId verifiedAt candidates batch.evidence ∧ Audited candidates batch.evidence := by
  simp only [deterministic, bind_ok_iff, pure_ok_iff] at h
  obtain ⟨resolved, hres, evidence, hev, rfl⟩ := h
  exact completeCandidateAudit_ok hev (deterministicValues_ok hres)

theorem deterministic_ok {candidates : List SelectedCandidate} {batch : VerifiedBatch}
    (h : deterministic b rules runId verifiedAt candidates = .ok batch) :
    Audited candidates batch.evidence := (deterministic_recorded h).2

end ModelEvidenceVerifier

/-! ## The artifact encoding -/

theorem uuidOf_str (u : Uuid) : uuidOf u.str = .ok u := by
  rw [uuidOf, Uuid.parse_str]

/-- What an artifact gives back of the evidence that was put in it. -/
structure Decoded (tenantId runId : Uuid) (e e' : VerifiedEvidence) : Prop where
  id : e'.id = e.id
  tenantId : e'.tenantId = tenantId
  runId : e'.runId = runId
  factId : e'.factRequirementId = e.factRequirementId
  verdict : e'.verdict = e.verdict
  supportType : e'.supportType = e.supportType
  versionId : e'.source.documentVersionId = e.source.documentVersionId
  chunkId : e'.source.documentChunkId = e.source.documentChunkId
  quote : e'.candidate.quote = e.candidate.quote
  startOffset : e'.candidate.startOffset = e.candidate.startOffset
  endOffset : e'.candidate.endOffset = e.candidate.endOffset

/-- What is read from an artifact belongs to the run that reads it. -/
theorem fromPayload_scoped {tenantId runId : Uuid} {p : EvidencePayload} {e : VerifiedEvidence}
    (h : fromPayload b tenantId runId p = .ok e) : e.tenantId = tenantId ∧ e.runId = runId := by
  simp only [fromPayload, bind_ok_iff] at h
  obtain ⟨_, _, _, _, _, _, _, _, _, _, _, _, _, _, _, _, _, _, _, _, c, hc, h⟩ := h
  obtain ⟨rfl, -⟩ := candidate_make_ok hc
  split at h
  · simp only [VerifiedEvidence.make, bind_ok_iff, pure_ok_iff] at h
    obtain ⟨_, _, _, _, _, _, _, _, rfl⟩ := h
    exact ⟨rfl, rfl⟩
  · simp at h

/-- **Evidence survives its artifact.** -/
theorem fromPayload_toPayload {tenantId runId : Uuid} {e e' : VerifiedEvidence}
    (h : fromPayload b tenantId runId (toPayload b e) = .ok e') : Decoded tenantId runId e e' := by
  have hsupport : ∀ s : SupportType, SupportType.ofValue s.value = .ok s := by
    intro s
    cases s <;> rfl
  have hauth : ∀ a : SourceAuthority, SourceAuthority.ofValue a.value = .ok a := by
    intro a
    cases a <;> rfl
  have hverdict : ∀ v : EvidenceVerdict, EvidenceVerdict.ofValue v.value = .ok v := by
    intro v
    cases v <;> rfl
  have hoffset : ∀ n : Nat, offsetOf n = .ok n := by
    intro n
    simp [offsetOf]
  simp only [fromPayload, toPayload, uuidOf_str, hsupport, hauth, hverdict, hoffset, bind_ok_iff,
    Except.ok.injEq, exists_eq_left'] at h
  obtain ⟨s, hs, c, hc, h⟩ := h
  obtain ⟨-, hversion, hchunk, -, -⟩ := source_make_ok hs
  obtain ⟨rfl, -⟩ := candidate_make_ok hc
  split at h
  · simp only [VerifiedEvidence.make, bind_ok_iff, pure_ok_iff, Except.ok.injEq,
      exists_eq_left'] at h
    obtain ⟨_, _, _, _, rfl⟩ := h
    exact ⟨rfl, rfl, rfl, rfl, rfl, rfl, hversion, hchunk, rfl, rfl, rfl⟩
  · simp at h

end Sana.Evidence
