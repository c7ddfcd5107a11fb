import Sana.Answer.Proof.Claims

/-!
# When a conflict stays visible

Coverage calls a fact with accepted evidence in both directions PARTIAL, and the
draft marks claims about it CONFLICTED. The gate recomputes the support from what
the claim cites, so the mark survives only where both directions are cited. The
fallback cites the supporting side only: there the mark is always lost.
-/

namespace Sana.Answer

open Sana.Lib Sana.Evidence Sana.Planning

section Visible

variable (tenantId runId : Uuid) (evidence : List VerifiedEvidence) (facts : Facts)

/-- The coverage of the fact is PARTIAL. -/
def IsPartial (f : Uuid) : Prop :=
  ∃ a, coverageOf tenantId runId evidence facts f = some a ∧ a.status = .partially

/-- Every factual claim about a fact that is PARTIAL says so. -/
def ConflictsVisible (answer : ValidatedAnswer) : Prop :=
  ∀ cl ∈ answer.claims, cl.kind = .factual → ∀ f, cl.factRequirementId = some f →
    IsPartial tenantId runId evidence facts f → cl.support = .conflicted

/-- The proposal names accepted evidence of `f` that speaks in this direction. -/
def NamesSide (p : ProposedClaim) (f : Uuid) (side : SupportType) : Prop :=
  ∃ e, Names tenantId runId evidence p f e ∧ e.supportType = side

/--
Both sides are cited together: in the reply of the model, if one is used, for
every fact that is PARTIAL; and without the model no fact is PARTIAL.
-/
def ConflictsCited (b : Builtins) (rules : ClaimRules) (reply : Option ModelReply) : Prop :=
  match acceptedProposals b rules facts evidence reply with
  | some ps => ∀ p ∈ ps, ∀ f, p.factRequirementId = some f →
      IsPartial tenantId runId evidence facts f →
      (NamesSide tenantId runId evidence p f .supports ↔
        NamesSide tenantId runId evidence p f .contradicts)
  | none => ∀ f, ¬ IsPartial tenantId runId evidence facts f

end Visible

section Claim

variable {b : Builtins} {rules : ClaimRules} {tenantId runId : Uuid} {facts : Facts}
  {evidence : List VerifiedEvidence}

/-- PARTIAL is a planned fact with evidence in both directions. -/
theorem isPartial_iff {f : Uuid} : IsPartial tenantId runId evidence facts f ↔
    f ∈ facts.map (·.1) ∧ Conflicted tenantId runId f evidence := by
  constructor
  · intro h
    obtain ⟨a, ha, hstatus⟩ := h
    simp only [coverageOf, Option.map_eq_some_iff] at ha
    obtain ⟨x, hx, rfl⟩ := ha
    obtain ⟨hmem, rfl⟩ := lookup_eq_some hx
    exact ⟨List.mem_map_of_mem hmem, evaluate_partially.mp hstatus⟩
  · intro h
    obtain ⟨hmem, hconf⟩ := h
    obtain ⟨fact, hcov⟩ := coverageOf_planned tenantId runId evidence hmem
    exact ⟨_, hcov, evaluate_partially.mpr hconf⟩

/-- With the model's proposals, what counts is what each of them names. -/
theorem visible_of_model (hid : Identified evidence) {ps : List ProposedClaim}
    {answer : ValidatedAnswer} (hps : ∀ p ∈ ps, ∃ f, Proposes facts p f)
    (h : ConstrainedModelSynthesizer.validated b tenantId runId
      (coverageOf tenantId runId evidence facts) evidence ps = .ok answer) :
    ConflictsVisible tenantId runId evidence facts answer ↔
      ∀ p ∈ ps, ∀ f, p.factRequirementId = some f → IsPartial tenantId runId evidence facts f →
        (NamesSide tenantId runId evidence p f .supports ↔
          NamesSide tenantId runId evidence p f .contradicts) := by
  obtain ⟨hfrom, hto⟩ := validated_claims hid hps h
  constructor
  · intro hvis p hp f hf hpart
    obtain ⟨f', hpf⟩ := hps p hp
    obtain rfl : f' = f := Option.some.inj (hpf.fact.symm.trans hf)
    -- a proposal that names one side became a claim, and the claim is conflicted
    have hboth : (∃ e, Names tenantId runId evidence p f' e) →
        NamesSide tenantId runId evidence p f' .supports ∧
          NamesSide tenantId runId evidence p f' .contradicts := by
      intro hnames
      obtain ⟨cl, hcl, hbecame⟩ := hto p hp f' hpf hnames
      exact hbecame.conflicted.mp (hvis cl hcl hbecame.kind f' hbecame.fact hpart)
    constructor
    · intro hside
      obtain ⟨e, he, -⟩ := hside
      exact (hboth ⟨e, he⟩).2
    · intro hside
      obtain ⟨e, he, -⟩ := hside
      exact (hboth ⟨e, he⟩).1
  · intro hcited cl hcl hk f hf hpart
    obtain ⟨p, hp, f', hpf, hbecame⟩ := hfrom cl hcl hk
    obtain rfl : f' = f := Option.some.inj (hbecame.fact.symm.trans hf)
    have hiff := hcited p hp f' hpf.fact hpart
    obtain ⟨e, he⟩ := hbecame.backed
    apply hbecame.conflicted.mpr
    cases hs : e.supportType with
    | supports => exact ⟨⟨e, he, hs⟩, hiff.mp ⟨e, he, hs⟩⟩
    | contradicts => exact ⟨hiff.mpr ⟨e, he, hs⟩, ⟨e, he, hs⟩⟩

/-- With the fallback, a fact that is PARTIAL gets a claim that does not say so. -/
theorem visible_of_fallback (hid : Identified evidence) {ps : List ProposedClaim}
    {answer : ValidatedAnswer}
    (hps : ConstrainedModelSynthesizer.fallback rules (coverageOf tenantId runId evidence facts)
      evidence facts = .ok ps)
    (h : ConstrainedModelSynthesizer.validated b tenantId runId
      (coverageOf tenantId runId evidence facts) evidence ps = .ok answer) :
    ConflictsVisible tenantId runId evidence facts answer ↔
      ∀ f, ¬ IsPartial tenantId runId evidence facts f := by
  obtain ⟨hall, hex⟩ := fallback_ok hid (List.Subset.refl facts) hps
  have hproposes : ∀ p ∈ ps, ∃ f, Proposes facts p f := fun p hp =>
    (hall p hp).imp fun _ hf => hf.1
  constructor
  · intro hvis f hpart
    obtain ⟨hmem, hpro, hcon⟩ := isPartial_iff.mp hpart
    obtain ⟨p, hp, hpf, hids⟩ := hex f hmem hpro
    have hnames := names_supports hid hids
    obtain ⟨e, he⟩ := List.exists_mem_of_ne_nil _ hpro
    obtain ⟨cl, hcl, hbecame⟩ := (validated_claims hid hproposes h).2 p hp f hpf
      ⟨e, (hnames e).mpr he⟩
    have hconf := hvis cl hcl hbecame.kind f hbecame.fact hpart
    -- yet everything it names supports
    obtain ⟨-, e', he', hcontra⟩ := hbecame.conflicted.mp hconf
    have hsup : e'.supportType = .supports := by
      simpa using (List.mem_filter.mp ((hnames e').mp he')).2
    rw [hsup] at hcontra
    cases hcontra
  · intro hnone cl _ _ f _ hpart
    exact absurd hpart (hnone f)

/--
**A conflict stays visible exactly where both sides are cited.** For every plan,
every evidence and every reply or failure of the model: the factual claims about
facts that are PARTIAL are all CONFLICTED if and only if the model's accepted
proposals about them name both directions or neither and, where the fallback
answers, no fact is PARTIAL.
-/
theorem conflicts_visible_iff {ctx : StepContext} {reply : Option ModelReply}
    {result : ConstrainedSynthesisResult} (hid : Identified evidence)
    (h : runSynthesizer b rules ctx facts (coverageOf ctx.tenantId ctx.runId evidence facts)
      evidence reply = .ok result) :
    ConflictsVisible ctx.tenantId ctx.runId evidence facts result.answer ↔
      ConflictsCited ctx.tenantId ctx.runId evidence facts b rules reply := by
  obtain ⟨ps, ha, hpath⟩ := runSynthesizer_ok h
  unfold ConflictsCited
  rcases hpath with ⟨hmodel, -⟩ | ⟨hnone, hfall⟩
  · obtain ⟨payload, hparse⟩ := acceptedProposals_some hmodel
    have hps : ∀ p ∈ ps, ∃ f, Proposes facts p f := fun p hp =>
      ((parse_ok hparse).1 p hp).imp fun _ hf => hf.1
    rw [hmodel]
    exact visible_of_model hid hps ha
  · rw [hnone]
    exact visible_of_fallback hid hfall ha

end Claim

/-! ## A conflict that is lost -/

namespace Sample

/-- Accepted evidence on the fact of the sample plan. -/
def item (id versionId : Uuid) (quote hash : String) (side : SupportType) : VerifiedEvidence where
  id := id
  candidate := {
    id := ⟨id.bits + 16#128⟩, tenantId := ⟨1#128⟩, runId := ⟨2#128⟩, factRequirementId := ⟨3#128⟩
    source := ⟨⟨4#128⟩, versionId, ⟨6#128⟩, "https://example.org/", "example.org", .independent⟩
    quote, quoteHash := hash, supportType := side, candidateScore := 1, startOffset := 0
    endOffset := quote.length }
  verdict := .accepted
  confidence := 1
  reasonCodes := ["exact_source_span", "direct_support"]
  verifierVersion := "deepseek-verifier-v2"
  verifiedAt := 1786752000000000

/-- Two sources that contradict each other. -/
def conflict : List VerifiedEvidence :=
  [item ⟨32#128⟩ ⟨5#128⟩ "Paris is big"
      "fef079647b5dd50e5d2dffa79d58d735e3ccd88fd52b869b042006cef90b3fa8" .supports,
    item ⟨33#128⟩ ⟨9#128⟩ "Paris is small"
      "4fec612708372ba532214982dce0cb5db496da3488b1a30d15752f4deb942ecf" .contradicts]

/-- The model call fails. -/
def unavailable : ModelReply :=
  .failed ⟨.transient, "model_unavailable", "Model provider is unavailable", true⟩

/-- The answer when the model is unavailable. -/
def fallbackAnswer : Except Exn ConstrainedSynthesisResult :=
  runSynthesizer builtins claimRules context facts
    (coverageOf ⟨1#128⟩ ⟨2#128⟩ conflict facts) conflict (some unavailable)

/-- The fallback answers with a GROUNDED claim about the contested fact. -/
theorem fallbackAnswer_grounded : ∃ result, fallbackAnswer = .ok result ∧
    ∃ cl ∈ result.answer.claims, cl.kind = .factual ∧ cl.factRequirementId = some ⟨3#128⟩ ∧
      cl.support = .grounded := by
  have hany : fallbackAnswer.toOption.any (fun r => r.answer.claims.any fun cl =>
      cl.kind = .factual && cl.factRequirementId = some ⟨3#128⟩ && cl.support = .grounded) = true := by
    decide +kernel
  obtain ⟨r, hr, hcl⟩ := exists_ok_of_any hany
  refine ⟨r, hr, ?_⟩
  simpa [and_assoc] using hcl

theorem isPartial_conflict : IsPartial ⟨1#128⟩ ⟨2#128⟩ conflict facts ⟨3#128⟩ :=
  isPartial_iff.mpr (by decide +kernel)

theorem fallbackAnswer_hides : ∃ result, fallbackAnswer = .ok result ∧
    ¬ ConflictsVisible ⟨1#128⟩ ⟨2#128⟩ conflict facts result.answer := by
  obtain ⟨result, hresult, cl, hcl, hk, hf, hs⟩ := fallbackAnswer_grounded
  refine ⟨result, hresult, ?_⟩
  intro hvis
  have hconf := hvis cl hcl hk _ hf isPartial_conflict
  rw [hs] at hconf
  cases hconf

end Sample

/-- The fact is PARTIAL, and the answer calls it GROUNDED. -/
theorem conflict_hidden : IsPartial ⟨1#128⟩ ⟨2#128⟩ Sample.conflict Sample.facts ⟨3#128⟩ ∧
    ∃ result, Sample.fallbackAnswer = .ok result ∧
      ∃ cl ∈ result.answer.claims, cl.kind = .factual ∧ cl.factRequirementId = some ⟨3#128⟩ ∧
        cl.support = .grounded :=
  ⟨Sample.isPartial_conflict, Sample.fallbackAnswer_grounded⟩

theorem conflicts_visible_iff_sample : Identified Sample.conflict ∧
    ¬ ConflictsCited ⟨1#128⟩ ⟨2#128⟩ Sample.conflict Sample.facts Sample.builtins
      Sample.claimRules (some Sample.unavailable) := by
  have hid : Identified Sample.conflict := by decide +kernel
  obtain ⟨result, hresult, hhides⟩ := Sample.fallbackAnswer_hides
  exact ⟨hid, fun hcited => hhides ((conflicts_visible_iff hid hresult).mpr hcited)⟩

end Sana.Answer
