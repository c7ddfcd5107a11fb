import Sana.Answer.Proof.Citations
import Sana.Answer.Synthesis

/-!
# What becomes of a proposal

The draft keeps the identifiers that the coverage of the fact lists, and the gate
keeps those that are accepted items of the fact. Where an identifier names one
item the two filters agree, so a proposal becomes a factual claim exactly when it
names accepted evidence of its fact, and it is CONFLICTED exactly when it names
both directions. The fallback names the supporting side only.
-/

namespace Sana.Answer

open Sana.Lib Sana.Evidence Sana.Planning

/-- Every identifier names one item. Evidence is stored under its identifier. -/
def Identified (evidence : List VerifiedEvidence) : Prop :=
  ∀ e ∈ evidence, ∀ e' ∈ evidence, e.id = e'.id → e = e'

instance (evidence : List VerifiedEvidence) : Decidable (Identified evidence) :=
  inferInstanceAs (Decidable (∀ e ∈ evidence, ∀ e' ∈ evidence, e.id = e'.id → e = e'))

/--
**What the verifier produces is identified.** A candidate has one row, and its
identifier is derived from the candidate's; so two items share an identifier only
where the derivation collides.
-/
theorem decoded_identified {b : Builtins} {vrules : VerifierRules} {tenantId runId : Uuid}
    {verifiedAt : Time} {candidates : List SelectedCandidate} {reply : ModelReply}
    {batch : VerifiedBatch} {evidence : List VerifiedEvidence}
    (hbatch : ModelEvidenceVerifier.verify b vrules runId verifiedAt candidates reply = .ok batch ∨
      ModelEvidenceVerifier.deterministic b vrules runId verifiedAt candidates = .ok batch)
    (hdecoded : batch.evidence.mapM (fun e => fromPayload b tenantId runId (toPayload b e))
      = .ok evidence)
    (hderived : ∀ o ∈ batch.evidence, ∀ o' ∈ batch.evidence, o.id = o'.id →
      o.candidate.id = o'.candidate.id) : Identified evidence := by
  have haudited : ModelEvidenceVerifier.Audited candidates batch.evidence := by
    rcases hbatch with h | h
    · exact ModelEvidenceVerifier.verify_ok h
    · exact ModelEvidenceVerifier.deterministic_ok h
  intro e he e' he' hid
  obtain ⟨o, ho, hoe⟩ := mapM_ok hdecoded he
  obtain ⟨o', ho', hoe'⟩ := mapM_ok hdecoded he'
  have hids : o.id = o'.id := by
    rw [← (fromPayload_toPayload hoe).id, ← (fromPayload_toPayload hoe').id, hid]
  obtain rfl := haudited.oneEach o ho o' ho' (hderived o ho o' ho' hids)
  exact Except.ok.inj (hoe.symm.trans hoe')

/-- The proposal names this accepted item of the fact `f`. -/
structure Names (tenantId runId : Uuid) (evidence : List VerifiedEvidence) (p : ProposedClaim)
    (f : Uuid) (e : VerifiedEvidence) : Prop where
  mem : e ∈ evidence
  accepted : IsAccepted tenantId runId f e
  listed : e.id ∈ p.evidenceIds

/-- The proposal states the fact `f` of the plan. -/
structure Proposes (facts : Facts) (p : ProposedClaim) (f : Uuid) : Prop where
  kind : p.kind = .factual
  fact : p.factRequirementId = some f
  planned : f ∈ facts.map (·.1)

/-- The factual claim a proposal about `f` became, with the citations of the answer. -/
structure Became (tenantId runId : Uuid) (evidence : List VerifiedEvidence) (p : ProposedClaim)
    (f : Uuid) (cs : List Citation) (cl : AnswerClaim) : Prop where
  kind : cl.kind = .factual
  fact : cl.factRequirementId = some f
  listed : cl.evidenceIds ≠ []
  backed : ∃ e, Names tenantId runId evidence p f e
  conflicted : cl.support = .conflicted ↔
    (∃ e, Names tenantId runId evidence p f e ∧ e.supportType = .supports) ∧
      ∃ e, Names tenantId runId evidence p f e ∧ e.supportType = .contradicts
  cited : ∀ e, Names tenantId runId evidence p f e →
    ∃ c ∈ cs, c.answerClaimId = cl.id ∧ c.verifiedEvidenceId = e.id

theorem Became.mono {tenantId runId : Uuid} {evidence : List VerifiedEvidence} {p : ProposedClaim}
    {f : Uuid} {cs cs' : List Citation} {cl : AnswerClaim} (hsub : cs ⊆ cs')
    (h : Became tenantId runId evidence p f cs cl) : Became tenantId runId evidence p f cs' cl := by
  refine ⟨h.kind, h.fact, h.listed, h.backed, h.conflicted, ?_⟩
  intro e he
  obtain ⟨c, hc, hids⟩ := h.cited e he
  exact ⟨c, hsub hc, hids⟩

section Gate

variable {b : Builtins} {rules : ClaimRules} {tenantId runId : Uuid} {facts : Facts}
  {evidence : List VerifiedEvidence}

/-- Under its identifier the mapping has the item. -/
theorem evidenceById_of_mem (hid : Identified evidence) {e : VerifiedEvidence} (he : e ∈ evidence) :
    CitationValidator.evidenceById evidence e.id = some e := by
  cases h : CitationValidator.evidenceById evidence e.id with
  | none => exact absurd rfl (lookup_eq_none.mp h e (List.mem_reverse.mpr he))
  | some x =>
      obtain ⟨hx, hxe⟩ := evidenceById_some h
      rw [hid x hx e he hxe]

/-- The accepted items of a fact, where no two share an identifier. -/
theorem mem_accepted (hid : Identified evidence) {f : Uuid} {e : VerifiedEvidence} :
    e ∈ accepted tenantId runId f evidence ↔ e ∈ evidence ∧ IsAccepted tenantId runId f e := by
  unfold accepted
  rw [mem_distinctBy]
  · rw [List.mem_filter, decide_eq_true_eq]
  · intro a ha c hc hac
    exact hid a (List.mem_of_mem_filter ha) c (List.mem_of_mem_filter hc) hac

/-- What passes the gate, of a claim that keeps what the coverage of `f` lists. -/
theorem mem_validEvidence_iff (hid : Identified evidence) {f : Uuid} {fact : FactRequirement}
    {p : ProposedClaim} {cl : AnswerClaim} (ht : cl.tenantId = tenantId) (hr : cl.runId = runId)
    (hf : cl.factRequirementId = some f)
    (hids : cl.evidenceIds = ClaimSynthesizer.allowedIds
      (some (evaluate tenantId runId f evidence fact)) p) (e : VerifiedEvidence) :
    e ∈ CitationValidator.validEvidence evidence cl ↔ Names tenantId runId evidence p f e := by
  constructor
  · intro he
    obtain ⟨hmem, hv, het, her, hef, hlist⟩ := CitationValidator.mem_validEvidence he
    rw [hids] at hlist
    have hfact : e.factRequirementId = f := by
      rw [hf] at hef
      exact (Option.some.inj hef).symm
    exact ⟨hmem, ⟨het.trans ht, her.trans hr, hfact, hv⟩,
      mem_of_mem_distinctBy (List.mem_of_mem_filter hlist)⟩
  · intro h
    obtain ⟨het, her, hfact, hv⟩ := h.accepted
    have hcov : e.id ∈ (accepted tenantId runId f evidence).map (·.id) :=
      List.mem_map_of_mem ((mem_accepted hid).mpr ⟨h.mem, h.accepted⟩)
    have hlist : e.id ∈ cl.evidenceIds := by
      rw [hids, ClaimSynthesizer.allowedIds, List.mem_filter]
      refine ⟨(mem_distinctBy fun _ _ _ _ h => h).mpr h.listed, ?_⟩
      simpa using hcov
    refine List.mem_filterMap.mpr ⟨e.id, (mem_distinctBy fun _ _ _ _ h => h).mpr hlist, ?_⟩
    rw [evidenceById_of_mem hid h.mem]
    simp [hv, het, her, hfact, ht, hr, hf]

/-- CONFLICTED is what the gate computes from both directions. -/
theorem validatedSupport_conflicted {valid : List VerifiedEvidence} :
    CitationValidator.validatedSupport valid = .conflicted ↔
      (∃ e ∈ valid, e.supportType = .supports) ∧ ∃ e ∈ valid, e.supportType = .contradicts := by
  unfold CitationValidator.validatedSupport
  split_ifs with h1 h2
  · simpa using h1
  · simpa using h1
  · simpa using h1

/-- The draft claim of a proposal about a fact of the plan. -/
theorem draftClaim_ok {coverage : Uuid → Option CoverageAssessment} {claimId : Uuid}
    {p : ProposedClaim} {cl : AnswerClaim}
    (h : ClaimSynthesizer.draftClaim tenantId runId coverage claimId p = .ok cl) :
    cl.tenantId = tenantId ∧ cl.runId = runId ∧ cl.kind = p.kind ∧
      cl.factRequirementId = p.factRequirementId ∧
      cl.evidenceIds = ClaimSynthesizer.allowedIds (p.factRequirementId.bind coverage) p := by
  simp only [ClaimSynthesizer.draftClaim, AnswerClaim.make, bind_ok_iff, pure_ok_iff] at h
  obtain ⟨_, _, _, _, _, _, _, _, rfl⟩ := h
  exact ⟨rfl, rfl, rfl, rfl, rfl⟩

/-- The coverage of a planned fact is what the evaluator says. -/
theorem coverageOf_planned (tenantId runId : Uuid) (evidence : List VerifiedEvidence) {f : Uuid}
    (hf : f ∈ facts.map (·.1)) :
    ∃ fact, coverageOf tenantId runId evidence facts f
      = some (evaluate tenantId runId f evidence fact) := by
  obtain ⟨x, hx, rfl⟩ := List.mem_map.mp hf
  cases h : lookup (·.1) x.1 facts with
  | none => exact absurd rfl (lookup_eq_none.mp h x hx)
  | some y => exact ⟨y.2, by rw [coverageOf, h]; rfl⟩

/-- **One proposal through the gate.** It becomes a factual claim if it names evidence. -/
theorem gate_ok (hid : Identified evidence) {p : ProposedClaim} {f : Uuid}
    (hp : Proposes facts p f) {claimId : Uuid} {draft : AnswerClaim} {n : Nat}
    {o : CitationValidator.Outcome}
    (hdraft : ClaimSynthesizer.draftClaim tenantId runId
      (coverageOf tenantId runId evidence facts) claimId p = .ok draft)
    (ho : CitationValidator.validateClaim b tenantId runId evidence .markUnconfirmed n draft
      = .ok o) :
    (∀ cl, o.claim = some cl → cl.kind = .factual →
        Became tenantId runId evidence p f o.citations cl) ∧
      ((∃ e, Names tenantId runId evidence p f e) → ∃ cl, o.claim = some cl ∧
        Became tenantId runId evidence p f o.citations cl) := by
  obtain ⟨ht, hr, hkind, hfact, hids⟩ := draftClaim_ok hdraft
  obtain ⟨fact, hcov⟩ := coverageOf_planned tenantId runId evidence hp.planned
  rw [hp.kind] at hkind
  rw [hp.fact] at hfact
  rw [hp.fact, Option.bind_some, hcov] at hids
  have hvalid := mem_validEvidence_iff hid ht hr hfact hids
  simp only [CitationValidator.validateClaim, bind_ok_iff] at ho
  obtain ⟨_, -, ho⟩ := ho
  rw [if_neg (not_not.mpr hkind)] at ho
  split at ho
  · -- nothing passed: the claim is kept as an uncertainty
    rename_i hnil
    obtain rfl := pure_ok_iff.mp ho
    constructor
    · intro cl hcl hk
      simp only [CitationValidator.handleUnsupported, Option.some.injEq] at hcl
      rw [← hcl] at hk
      cases hk
    · intro hnames
      obtain ⟨e, he⟩ := hnames
      have := (hvalid e).mpr he
      rw [hnil] at this
      cases this
  · rename_i hne
    simp only [AnswerClaim.make, bind_ok_iff, pure_ok_iff] at ho
    obtain ⟨_, ⟨_, _, _, _, _, _, rfl⟩, cs, hcs, rfl⟩ := ho
    have hbecame : Became tenantId runId evidence p f cs
        { draft with
          evidenceIds := (CitationValidator.validEvidence evidence draft).map (·.id)
          support := CitationValidator.validatedSupport
            (CitationValidator.validEvidence evidence draft) } := by
      refine ⟨hkind, hfact, ?_, ?_, ?_, ?_⟩
      · simpa using hne
      · obtain ⟨e, he⟩ := List.exists_mem_of_ne_nil _ hne
        exact ⟨e, (hvalid e).mp he⟩
      · simp only [validatedSupport_conflicted, hvalid]
      · intro e he
        obtain ⟨i, hi⟩ := List.mem_iff_getElem?.mp ((hvalid e).mpr he)
        have hzip : (e, i) ∈ (CitationValidator.validEvidence evidence draft).zipIdx :=
          List.mk_mem_zipIdx_iff_getElem?.mpr hi
        obtain ⟨c, hc, hfx⟩ := mapM_ok_of_mem hcs hzip
        obtain ⟨-, -, hev, hclaim, -⟩ := CitationValidator.citation_ok hfx
        exact ⟨c, hc, hclaim, hev⟩
    constructor
    · intro cl hcl _
      obtain rfl := Option.some.inj hcl
      exact hbecame
    · intro _
      exact ⟨_, rfl, hbecame⟩

/-- Proposal by proposal, the draft and the gate. -/
theorem drafted_and_validated {coverage : Uuid → Option CoverageAssessment} {n m : Nat}
    {seen : List String} {ps : List ProposedClaim} {draft : List AnswerClaim}
    {os : List CitationValidator.Outcome}
    (hdraft : ClaimSynthesizer.draftClaims b tenantId runId coverage n seen ps = .ok draft)
    (hos : CitationValidator.validateClaims b tenantId runId evidence .markUnconfirmed m draft
      = .ok os) :
    List.Forall₂ (fun p o => ∃ claimId k cl,
      ClaimSynthesizer.draftClaim tenantId runId coverage claimId p = .ok cl ∧
        CitationValidator.validateClaim b tenantId runId evidence .markUnconfirmed k cl = .ok o)
      ps os := by
  induction ps generalizing n m seen draft os with
  | nil =>
      obtain rfl := Except.ok.inj hdraft
      obtain rfl := Except.ok.inj hos
      exact .nil
  | cons p ps ih =>
      simp only [ClaimSynthesizer.draftClaims, bind_ok_iff, pure_ok_iff] at hdraft
      obtain ⟨_, _, cl, hcl, rest, hrest, rfl⟩ := hdraft
      simp only [CitationValidator.validateClaims, bind_ok_iff, pure_ok_iff] at hos
      obtain ⟨o, ho, os', hos', rfl⟩ := hos
      exact .cons ⟨_, _, cl, hcl, ho⟩ (ih hrest hos')

/--
**The whole answer.** Its factual claims are what proposals became, and every
proposal that names evidence of its fact became one.
-/
theorem validated_claims (hid : Identified evidence) {ps : List ProposedClaim}
    {answer : ValidatedAnswer} (hps : ∀ p ∈ ps, ∃ f, Proposes facts p f)
    (h : ConstrainedModelSynthesizer.validated b tenantId runId
      (coverageOf tenantId runId evidence facts) evidence ps = .ok answer) :
    (∀ cl ∈ answer.claims, cl.kind = .factual → ∃ p ∈ ps, ∃ f, Proposes facts p f ∧
        Became tenantId runId evidence p f answer.citations cl) ∧
      ∀ p ∈ ps, ∀ f, Proposes facts p f → (∃ e, Names tenantId runId evidence p f e) →
        ∃ cl ∈ answer.claims, Became tenantId runId evidence p f answer.citations cl := by
  simp only [ConstrainedModelSynthesizer.validated, CitationValidator.validate, bind_ok_iff,
    pure_ok_iff] at h
  obtain ⟨draft, hdraft, os, hos, rfl⟩ := h
  have hall := drafted_and_validated hdraft hos
  have hsub : ∀ o ∈ os, o.citations ⊆ os.flatMap (·.citations) := fun o ho c hc =>
    List.mem_flatMap.mpr ⟨o, ho, hc⟩
  constructor
  · intro cl hcl hk
    obtain ⟨o, ho, hocl⟩ := List.mem_filterMap.mp hcl
    obtain ⟨p, hp, claimId, k, cl', hdraft', ho'⟩ := exists_left_of_forall₂ hall ho
    obtain ⟨f, hpf⟩ := hps p hp
    exact ⟨p, hp, f, hpf, ((gate_ok hid hpf hdraft' ho').1 cl hocl hk).mono (hsub o ho)⟩
  · intro p hp f hpf hnames
    obtain ⟨o, ho, claimId, k, cl', hdraft', ho'⟩ := exists_right_of_forall₂ hall hp
    obtain ⟨cl, hocl, hbecame⟩ := (gate_ok hid hpf hdraft' ho').2 hnames
    exact ⟨cl, List.mem_filterMap.mpr ⟨o, ho, hocl⟩, hbecame.mono (hsub o ho)⟩

/-! ## The model's proposals -/

/-- A claim the parser accepts cites accepted evidence of a fact of the plan. -/
theorem parseClaim_ok {parsed : List ProposedClaim} {raw : Json} {p : ProposedClaim}
    (h : ProposedClaimParser.parseClaim b rules facts evidence parsed raw = .ok p) :
    ∃ f, Proposes facts p f ∧ p.evidenceIds ≠ [] ∧
      ∀ id ∈ p.evidenceIds, ProposedClaimParser.evidenceFact evidence id = some f := by
  unfold ProposedClaimParser.parseClaim at h
  split at h
  · simp only [bind_ok_iff, check_eq_ok] at h
    obtain ⟨_, _, _, _, _, _, _, _, f, _, h⟩ := h
    split at h
    · rename_i fact hfact
      simp only [bind_ok_iff, check_eq_ok, ProposedClaim.make, pure_ok_iff] at h
      obtain ⟨_, _, _, _, ids, _, _, hne, _, hids, _, _, _, _, _, _, _, _, rfl⟩ := h
      obtain ⟨hmem, rfl⟩ := lookup_eq_some hfact
      exact ⟨fact.1, ⟨rfl, rfl, List.mem_map_of_mem hmem⟩, by simpa using hne, by simpa using hids⟩
    · cases h
  · cases h

theorem parseClaims_ok {parsed ps : List ProposedClaim} {raws : List Json}
    (h : ProposedClaimParser.parseClaims b rules facts evidence parsed raws = .ok ps)
    {p : ProposedClaim} (hp : p ∈ ps) :
    p ∈ parsed ∨ ∃ f, Proposes facts p f ∧ p.evidenceIds ≠ [] ∧
      ∀ id ∈ p.evidenceIds, ProposedClaimParser.evidenceFact evidence id = some f := by
  induction raws generalizing parsed with
  | nil =>
      obtain rfl := Except.ok.inj h
      exact .inl hp
  | cons raw rest ih =>
      simp only [ProposedClaimParser.parseClaims, bind_ok_iff] at h
      obtain ⟨q, hq, h⟩ := h
      rcases ih h with hmem | hspec
      · rcases List.mem_append.mp hmem with hmem | hmem
        · exact .inl hmem
        · rw [List.mem_singleton.mp hmem]
          exact .inr (parseClaim_ok hq)
      · exact .inr hspec

/-- What the parser accepts: claims about planned facts, and none of the evidenced facts omitted. -/
theorem parse_ok {payload : Json} {ps : List ProposedClaim}
    (h : ProposedClaimParser.parse b rules facts evidence payload = .ok ps) :
    (∀ p ∈ ps, ∃ f, Proposes facts p f ∧ p.evidenceIds ≠ [] ∧
      ∀ id ∈ p.evidenceIds, ProposedClaimParser.evidenceFact evidence id = some f) ∧
    ProposedClaimParser.claimsEveryFact evidence ps = true := by
  simp only [ProposedClaimParser.parse, bind_ok_iff] at h
  obtain ⟨claims, _, h⟩ := h
  split at h
  · simp only [bind_ok_iff, check_eq_ok, pure_ok_iff] at h
    obtain ⟨_, _, qs, hqs, _, hall, rfl⟩ := h
    refine ⟨?_, hall⟩
    intro p hp
    exact (parseClaims_ok hqs hp).resolve_left (by simp)
  · cases h

/-! ## The fallback's proposals -/

/-- The fallback's proposal for a fact names the supporting side, if there is one. -/
theorem fallbackClaim_ok (hid : Identified evidence) {f : Uuid} {fact : FactRequirement}
    {r : Option ProposedClaim} (hf : f ∈ facts.map (·.1))
    (h : ConstrainedModelSynthesizer.fallbackClaim rules (coverageOf tenantId runId evidence facts)
      evidence f fact = .ok r) :
    (∀ p, r = some p → Proposes facts p f ∧
        p.evidenceIds = (supports tenantId runId f evidence).map (·.id)) ∧
      (supports tenantId runId f evidence ≠ [] → r.isSome) := by
  obtain ⟨fact', hcov⟩ := coverageOf_planned tenantId runId evidence hf
  have hall : ((supports tenantId runId f evidence).map (·.id)).filter (fun id =>
      (CitationValidator.evidenceById evidence id).isSome)
        = (supports tenantId runId f evidence).map (·.id) := by
    refine List.filter_eq_self.mpr ?_
    intro id hmem
    obtain ⟨e, he, rfl⟩ := List.mem_map.mp hmem
    have hin : e ∈ evidence := ((mem_accepted hid).mp (List.mem_of_mem_filter he)).1
    rw [evidenceById_of_mem hid hin]
    rfl
  unfold ConstrainedModelSynthesizer.fallbackClaim at h
  rw [hcov] at h
  simp only [evaluate_supportingIds, hall] at h
  split at h
  · rename_i hnil
    obtain rfl := pure_ok_iff.mp h
    refine ⟨by simp, ?_⟩
    intro hne
    simp [hne] at hnil
  · simp only [bind_ok_iff, ProposedClaim.make, pure_ok_iff] at h
    obtain ⟨_, _, _, ⟨_, _, _, _, rfl⟩, rfl⟩ := h
    refine ⟨?_, by simp⟩
    intro p hp
    obtain rfl := Option.some.inj hp
    exact ⟨⟨rfl, rfl, hf⟩, rfl⟩

/-- The fallback proposes the facts that have supporting evidence. -/
theorem fallback_ok (hid : Identified evidence) {todo : Facts} {ps : List ProposedClaim}
    (htodo : todo ⊆ facts)
    (h : ConstrainedModelSynthesizer.fallback rules (coverageOf tenantId runId evidence facts)
      evidence todo = .ok ps) :
    (∀ p ∈ ps, ∃ f, Proposes facts p f ∧
        p.evidenceIds = (supports tenantId runId f evidence).map (·.id)) ∧
      ∀ f ∈ todo.map (·.1), supports tenantId runId f evidence ≠ [] →
        ∃ p ∈ ps, Proposes facts p f ∧
          p.evidenceIds = (supports tenantId runId f evidence).map (·.id) := by
  induction todo generalizing ps with
  | nil =>
      obtain rfl := Except.ok.inj h
      simp
  | cons x rest ih =>
      obtain ⟨f, fact⟩ := x
      simp only [ConstrainedModelSynthesizer.fallback, bind_ok_iff, pure_ok_iff] at h
      obtain ⟨r, hr, qs, hqs, rfl⟩ := h
      have hf : f ∈ facts.map (·.1) := List.mem_map_of_mem (htodo List.mem_cons_self)
      obtain ⟨hsome, hex⟩ := fallbackClaim_ok hid hf hr
      obtain ⟨ih1, ih2⟩ := ih (fun y hy => htodo (List.mem_cons_of_mem _ hy)) hqs
      constructor
      · intro p hp
        rcases List.mem_append.mp hp with hp | hp
        · exact ⟨f, hsome p (Option.mem_toList.mp hp)⟩
        · exact ih1 p hp
      · intro g hg hne
        rcases List.mem_cons.mp hg with rfl | hg
        · obtain ⟨p, rfl⟩ := Option.isSome_iff_exists.mp (hex hne)
          exact ⟨p, by simp, hsome p rfl⟩
        · obtain ⟨p, hp, hspec⟩ := ih2 g hg hne
          exact ⟨p, List.mem_append_right _ hp, hspec⟩

/-- What the fallback names: the supporting items, all of them and nothing else. -/
theorem names_supports (hid : Identified evidence) {p : ProposedClaim} {f : Uuid}
    (hp : p.evidenceIds = (supports tenantId runId f evidence).map (·.id)) (e : VerifiedEvidence) :
    Names tenantId runId evidence p f e ↔ e ∈ supports tenantId runId f evidence := by
  constructor
  · intro h
    have hlist := h.listed
    rw [hp] at hlist
    obtain ⟨e', he', hee⟩ := List.mem_map.mp hlist
    have hin : e' ∈ evidence := ((mem_accepted hid).mp (List.mem_of_mem_filter he')).1
    rw [← hid e' hin e h.mem hee]
    exact he'
  · intro h
    obtain ⟨hin, hacc⟩ := (mem_accepted hid).mp (List.mem_of_mem_filter h)
    exact ⟨hin, hacc, by rw [hp]; exact List.mem_map_of_mem h⟩

/-! ## The two paths -/

/-- The proposals of the model, where one is configured, is asked and gives an accepted reply. -/
def acceptedProposals (b : Builtins) (rules : ClaimRules) (facts : Facts)
    (evidence : List VerifiedEvidence) (reply : Option ModelReply) : Option (List ProposedClaim) :=
  match reply with
  | none => none
  | some r =>
      if ConstrainedModelSynthesizer.asksModel evidence then
        (ConstrainedModelSynthesizer.modelProposals b rules facts evidence r).toOption
      else none

/-- The answer is what the model's proposals became, or what the fallback's did. -/
theorem runSynthesizer_ok {ctx : StepContext} {coverage : Uuid → Option CoverageAssessment}
    {reply : Option ModelReply} {result : ConstrainedSynthesisResult}
    (h : runSynthesizer b rules ctx facts coverage evidence reply = .ok result) :
    ∃ ps, ConstrainedModelSynthesizer.validated b ctx.tenantId ctx.runId coverage evidence ps
        = .ok result.answer ∧
      (acceptedProposals b rules facts evidence reply = some ps ∧ result.degraded = false ∨
        acceptedProposals b rules facts evidence reply = none ∧
          ConstrainedModelSynthesizer.fallback rules coverage evidence facts = .ok ps) := by
  have hdet : ConstrainedModelSynthesizer.deterministic b rules ctx.tenantId ctx.runId facts
      coverage evidence = .ok result →
      ∃ ps, ConstrainedModelSynthesizer.validated b ctx.tenantId ctx.runId coverage evidence ps
        = .ok result.answer ∧
        ConstrainedModelSynthesizer.fallback rules coverage evidence facts = .ok ps := by
    intro hd
    simp only [ConstrainedModelSynthesizer.deterministic, bind_ok_iff, pure_ok_iff] at hd
    obtain ⟨ps, hps, answer, ha, rfl⟩ := hd
    exact ⟨ps, ha, hps⟩
  cases reply with
  | none =>
      obtain ⟨ps, ha, hps⟩ := hdet h
      exact ⟨ps, ha, .inr ⟨rfl, hps⟩⟩
  | some r =>
      simp only [runSynthesizer, ConstrainedModelSynthesizer.synthesize] at h
      simp only [acceptedProposals]
      cases hasks : ConstrainedModelSynthesizer.asksModel evidence with
      | false =>
          rw [hasks] at h
          obtain ⟨ps, ha, hps⟩ := hdet h
          exact ⟨ps, ha, .inr ⟨rfl, hps⟩⟩
      | true =>
          rw [hasks] at h
          simp only [Bool.not_true, Bool.false_eq_true, if_false, if_true] at h ⊢
          cases hm : ConstrainedModelSynthesizer.modelProposals b rules facts evidence r with
          | ok ps =>
              rw [hm] at h
              simp only [bind_ok_iff, pure_ok_iff] at h
              obtain ⟨answer, ha, rfl⟩ := h
              exact ⟨ps, ha, .inl ⟨rfl, rfl⟩⟩
          | error e =>
              rw [hm] at h
              simp only at h
              split at h
              · simp only [bind_ok_iff, pure_ok_iff] at h
                obtain ⟨ps, hps, answer, ha, rfl⟩ := h
                exact ⟨ps, ha, .inr ⟨rfl, hps⟩⟩
              · cases h

/-- The model's proposals are what the parser accepts of some reply. -/
theorem acceptedProposals_some {reply : Option ModelReply} {ps : List ProposedClaim}
    (h : acceptedProposals b rules facts evidence reply = some ps) :
    ∃ payload, ProposedClaimParser.parse b rules facts evidence payload = .ok ps := by
  unfold acceptedProposals at h
  split at h
  · cases h
  · split at h
    · rename_i r _
      cases r with
      | failed e => cases h
      | answered value =>
          refine ⟨value, ?_⟩
          simp only [ConstrainedModelSynthesizer.modelProposals] at h
          cases hparse : ProposedClaimParser.parse b rules facts evidence value with
          | error e => rw [hparse] at h; cases h
          | ok qs => rw [hparse] at h; rw [Option.some.inj h]
    · cases h

end Gate

/-- The context the sample answers are written in, well before the deadline. -/
def Sample.context : StepContext := ⟨⟨1#128⟩, ⟨2#128⟩, 1500000, 60000000⟩

end Sana.Answer
