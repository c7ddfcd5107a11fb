import Sana.Answer.Proof.Claims
import Sana.Orchestration.Proof.FanIn

/-!
# When COMPLETE is sound

COMPLETE needs every required fact to be claimed with evidence and to be covered,
and nothing to be degraded. Coverage counts accepted evidence of one direction,
whichever it is. The fallback claims facts with supporting evidence only; the
model's reply may also claim, and has to claim, a fact that its evidence denies.
So the one way to a false COMPLETE is a required fact with contradicting evidence
only, on the model's path.
-/

namespace Sana.Answer

open Sana.Lib Sana.Evidence Sana.Planning Sana.Orchestration

section Sound

variable (b : Builtins) (rules : ClaimRules) (ctx : StepContext) (input : SynthesisInput)
  (plan : Plan) (verification : Verification) (evidence : List Evidence.VerifiedEvidence)
  (reply : Option ModelReply)

/-- The rendered claim states the fact and cites accepted evidence that supports it. -/
def StatesWithSupport (f : Uuid) (c : RenderedClaim) : Prop :=
  c.claim.kind = .factual ∧ c.claim.factRequirementId = some f ∧
    ∃ x ∈ c.citations, ∃ e ∈ evidence, x.verifiedEvidenceId = e.id ∧
      IsAccepted ctx.tenantId ctx.runId f e ∧ e.supportType = .supports

/-- What COMPLETE promises of the answer to the run of the step `s`. -/
structure CompleteSound (db : Db) (s : SearchStep) (doc : AnswerDocument) : Prop where
  supported : ∀ f ∈ requiredIds (dictOf plan.facts),
    ∃ c ∈ doc.claims, StatesWithSupport ctx evidence f c
  consistent : ∀ f ∈ requiredIds (dictOf plan.facts),
    ¬ Conflicted ctx.tenantId ctx.runId f evidence
  plan_ok : plan.degraded = false
  verification_ok : verification.degraded = false
  synthesis_ok : ∀ r, runSynthesizer b rules ctx (dictOf plan.facts)
    (coverageOf ctx.tenantId ctx.runId evidence (dictOf plan.facts)) evidence reply = .ok r →
      r.degraded = false
  /-- No other step of the run ended FAILED or CANCELLED. -/
  steps_ok : ∀ t ∈ db.steps, t.runId = s.runId → t.status.endedBadly = true → t = s

/--
The one way to a false COMPLETE: nothing is degraded, every required fact has
accepted evidence of one direction, for one of them that is the contradicting
one, and the reply of the model is accepted.
-/
structure DeniedFactAnswered : Prop where
  plan_ok : plan.degraded = false
  verification_ok : verification.degraded = false
  codes : ∀ code ∈ input.pipelineDegradationCodes, code = ""
  evidenced : ∀ f ∈ requiredIds (dictOf plan.facts),
    accepted ctx.tenantId ctx.runId f evidence ≠ [] ∧
      ¬ Conflicted ctx.tenantId ctx.runId f evidence
  denied : ∃ f ∈ requiredIds (dictOf plan.facts), supports ctx.tenantId ctx.runId f evidence = []
  answered : (acceptedProposals b rules (dictOf plan.facts) evidence reply).isSome = true

end Sound

section Document

variable {b : Builtins} {rules : ClaimRules} {ctx : StepContext} {input : SynthesisInput}
  {plan : Plan} {verification : Verification} {facts : Facts} {evidence : List Evidence.VerifiedEvidence}
  {reply : Option ModelReply} {r : ConstrainedSynthesisResult}

theorem planned_of_required {f : Uuid} (h : f ∈ requiredIds facts) : f ∈ facts.map (·.1) := by
  obtain ⟨x, hx, rfl⟩ := List.mem_map.mp h
  exact List.mem_map_of_mem (List.mem_of_mem_filter hx)

/-- Covered is: accepted evidence, all of one direction. -/
theorem isCovered_iff {f : Uuid} (hf : f ∈ facts.map (·.1)) :
    isCovered (coverageOf ctx.tenantId ctx.runId evidence facts) f = true ↔
      accepted ctx.tenantId ctx.runId f evidence ≠ [] ∧
        ¬ Conflicted ctx.tenantId ctx.runId f evidence := by
  obtain ⟨fact, hcov⟩ := coverageOf_planned ctx.tenantId ctx.runId evidence hf
  rw [isCovered, hcov]
  simpa using evaluate_covered

/-- What the step looks at before it says COMPLETE. -/
theorem quality_complete_iff {coverage : Uuid → Option CoverageAssessment} :
    (answerDocument b ctx input plan verification facts coverage r).quality = .complete ↔
      requiredIds facts ≠ [] ∧ (∀ f ∈ requiredIds facts, f ∈ supportedFactIds r.answer.claims) ∧
        (∀ f ∈ requiredIds facts, isCovered coverage f = true) ∧ plan.degraded = false ∧
        verification.degraded = false ∧ r.degraded = false ∧
        ∀ code ∈ input.pipelineDegradationCodes, code = "" := by
  simp only [answerDocument]
  split_ifs with h
  · simpa [and_assoc, List.filter_eq_nil_iff] using h
  · simp only [false_iff]
    intro hall
    exact h (by simpa [and_assoc, List.filter_eq_nil_iff] using hall)

/-- A fact counts as supported if a factual claim about it lists evidence. -/
theorem mem_supportedFactIds {claims : List AnswerClaim} {f : Uuid} :
    f ∈ supportedFactIds claims ↔ ∃ cl ∈ claims, cl.kind = .factual ∧ cl.evidenceIds ≠ [] ∧
      cl.factRequirementId = some f := by
  simp [supportedFactIds, and_assoc]

/-- What a proposal became is in the document, with the citations it was given. -/
theorem statesWithSupport_of_became {coverage : Uuid → Option CoverageAssessment}
    {p : ProposedClaim} {f : Uuid} {cl : AnswerClaim} (hcl : cl ∈ r.answer.claims)
    (h : Became ctx.tenantId ctx.runId evidence p f r.answer.citations cl) {e : Evidence.VerifiedEvidence}
    (he : Names ctx.tenantId ctx.runId evidence p f e) (hs : e.supportType = .supports) :
    ∃ c ∈ (answerDocument b ctx input plan verification facts coverage r).claims,
      StatesWithSupport ctx evidence f c := by
  obtain ⟨x, hx, hxcl, hxe⟩ := h.cited e he
  refine ⟨⟨cl, r.answer.citations.filter (·.answerClaimId = cl.id)⟩,
    List.mem_map_of_mem hcl, h.kind, h.fact, x, ?_, e, he.mem, hxe, he.accepted, hs⟩
  exact List.mem_filter.mpr ⟨hx, by simpa using hxcl⟩

/-- No claim states a fact with support when nothing supports it. -/
theorem not_statesWithSupport (hid : Identified evidence) {f : Uuid} {c : RenderedClaim}
    (hnone : supports ctx.tenantId ctx.runId f evidence = []) :
    ¬ StatesWithSupport ctx evidence f c := by
  intro h
  obtain ⟨-, -, x, -, e, he, -, hacc, hs⟩ := h
  have hmem : e ∈ supports ctx.tenantId ctx.runId f evidence :=
    List.mem_filter.mpr ⟨(mem_accepted hid).mpr ⟨he, hacc⟩, by simpa using hs⟩
  rw [hnone] at hmem
  cases hmem

/-- The parser makes the model claim every fact with accepted evidence. -/
theorem exists_proposal (hid : Identified evidence)
    (hscoped : ∀ e ∈ evidence, e.tenantId = ctx.tenantId ∧ e.runId = ctx.runId)
    {payload : Json} {ps : List ProposedClaim}
    (h : ProposedClaimParser.parse b rules facts evidence payload = .ok ps) {f : Uuid}
    (hacc : accepted ctx.tenantId ctx.runId f evidence ≠ []) :
    ∃ p ∈ ps, Proposes facts p f ∧ ∃ e, Names ctx.tenantId ctx.runId evidence p f e := by
  obtain ⟨hspec, hevery⟩ := parse_ok h
  -- the fact the parser files an accepted item under is the item's own
  have hby : ∀ id e, ProposedClaimParser.acceptedById evidence id = some e →
      e ∈ evidence ∧ e.verdict = .accepted ∧ e.id = id := by
    intro id e hlook
    obtain ⟨hmem, hide⟩ := lookup_eq_some hlook
    obtain ⟨hin, hv⟩ := List.mem_filter.mp (List.mem_reverse.mp hmem)
    exact ⟨hin, by simpa using hv, hide⟩
  obtain ⟨e₀, he₀⟩ := List.exists_mem_of_ne_nil _ hacc
  obtain ⟨hin₀, -, -, hfact₀, hv₀⟩ := (mem_accepted hid).mp he₀
  have hitems : e₀ ∈ acceptedItems evidence := List.mem_filter.mpr ⟨hin₀, by simpa using hv₀⟩
  have hfile : ProposedClaimParser.evidenceFact evidence e₀.id = some f := by
    unfold ProposedClaimParser.evidenceFact
    cases hlook : ProposedClaimParser.acceptedById evidence e₀.id with
    | none => exact absurd rfl (lookup_eq_none.mp hlook e₀ (List.mem_reverse.mpr hitems))
    | some e =>
        obtain ⟨hin, -, hide⟩ := hby _ _ hlook
        rw [hid e hin e₀ hin₀ hide, Option.map_some, hfact₀]
  obtain ⟨p, hp, hpf, hne⟩ : ∃ p ∈ ps, p.factRequirementId = some f ∧ p.evidenceIds ≠ [] := by
    have := List.all_eq_true.mp hevery e₀ hitems
    simpa [hfile] using this
  obtain ⟨f', hprop, -, hids⟩ := hspec p hp
  obtain rfl : f' = f := Option.some.inj (hprop.fact.symm.trans hpf)
  refine ⟨p, hp, hprop, ?_⟩
  obtain ⟨id, hidmem⟩ := List.exists_mem_of_ne_nil _ hne
  have hfid := hids id hidmem
  unfold ProposedClaimParser.evidenceFact at hfid
  obtain ⟨e, hlook, hfact⟩ := Option.map_eq_some_iff.mp hfid
  obtain ⟨hin, hv, rfl⟩ := hby _ _ hlook
  exact ⟨e, hin, ⟨(hscoped e hin).1, (hscoped e hin).2, hfact, hv⟩, hidmem⟩

/-- Without a conflict, evidence of a fact that something supports supports it. -/
theorem supports_of_consistent (hid : Identified evidence) {f : Uuid}
    (hc : ¬ Conflicted ctx.tenantId ctx.runId f evidence)
    (hs : supports ctx.tenantId ctx.runId f evidence ≠ []) {p : ProposedClaim}
    {e : Evidence.VerifiedEvidence} (he : Names ctx.tenantId ctx.runId evidence p f e) :
    e.supportType = .supports := by
  cases hside : e.supportType with
  | supports => rfl
  | contradicts =>
      have hmem : e ∈ contradicts ctx.tenantId ctx.runId f evidence :=
        List.mem_filter.mpr ⟨(mem_accepted hid).mpr ⟨he.mem, he.accepted⟩, by simpa using hside⟩
      exact absurd ⟨hs, List.ne_nil_of_mem hmem⟩ hc

/-- On the model's path every required fact that is covered is supported. -/
theorem supported_of_model (hid : Identified evidence)
    (hscoped : ∀ e ∈ evidence, e.tenantId = ctx.tenantId ∧ e.runId = ctx.runId)
    {payload : Json} {ps : List ProposedClaim}
    (hparse : ProposedClaimParser.parse b rules facts evidence payload = .ok ps)
    (ha : ConstrainedModelSynthesizer.validated b ctx.tenantId ctx.runId
      (coverageOf ctx.tenantId ctx.runId evidence facts) evidence ps = .ok r.answer) {f : Uuid}
    (hacc : accepted ctx.tenantId ctx.runId f evidence ≠ []) :
    ∃ p e, ∃ cl ∈ r.answer.claims, Names ctx.tenantId ctx.runId evidence p f e ∧
      Became ctx.tenantId ctx.runId evidence p f r.answer.citations cl := by
  have hps : ∀ p ∈ ps, ∃ f, Proposes facts p f := fun p hp =>
    ((parse_ok hparse).1 p hp).imp fun _ hf => hf.1
  obtain ⟨p, hp, hpf, e, he⟩ := exists_proposal hid hscoped hparse hacc
  obtain ⟨cl, hcl, hbecame⟩ := (validated_claims hid hps ha).2 p hp f hpf ⟨e, he⟩
  exact ⟨p, e, cl, hcl, he, hbecame⟩

/-- On the fallback's path a supported fact is stated with support. -/
theorem supported_of_fallback (hid : Identified evidence) {ps : List ProposedClaim}
    (hfall : ConstrainedModelSynthesizer.fallback rules
      (coverageOf ctx.tenantId ctx.runId evidence facts) evidence facts = .ok ps)
    (ha : ConstrainedModelSynthesizer.validated b ctx.tenantId ctx.runId
      (coverageOf ctx.tenantId ctx.runId evidence facts) evidence ps = .ok r.answer) {f : Uuid}
    (hf : f ∈ supportedFactIds r.answer.claims) :
    ∃ p e, ∃ cl ∈ r.answer.claims, e.supportType = .supports ∧
      Names ctx.tenantId ctx.runId evidence p f e ∧
      Became ctx.tenantId ctx.runId evidence p f r.answer.citations cl := by
  have hall := (fallback_ok hid (List.Subset.refl facts) hfall).1
  have hps : ∀ p ∈ ps, ∃ f, Proposes facts p f := fun p hp => (hall p hp).imp fun _ hf => hf.1
  obtain ⟨cl, hcl, hk, -, hclf⟩ := mem_supportedFactIds.mp hf
  obtain ⟨p, hp, f', hpf, hbecame⟩ := (validated_claims hid hps ha).1 cl hcl hk
  obtain rfl : f' = f := Option.some.inj (hbecame.fact.symm.trans hclf)
  obtain ⟨f'', hpf', hids⟩ := hall p hp
  obtain rfl : f'' = f' := Option.some.inj (hpf'.fact.symm.trans hpf.fact)
  obtain ⟨e, he⟩ := hbecame.backed
  have hmem := (names_supports hid hids e).mp he
  exact ⟨p, e, cl, hcl, by simpa using (List.mem_filter.mp hmem).2, he, hbecame⟩

end Document

section Claim

variable {b : Builtins} {rules : ClaimRules} {ctx : StepContext} {input : SynthesisInput}
  {plan : Plan} {loaded : Verification} {evidence : List Evidence.VerifiedEvidence}
  {reply : Option ModelReply} {doc : AnswerDocument}

/-- Evidence read from the artifact is evidence of this run. -/
theorem decoded_scoped {ps : List EvidencePayload}
    (h : ps.mapM (fromPayload b ctx.tenantId ctx.runId) = .ok evidence) :
    ∀ e ∈ evidence, e.tenantId = ctx.tenantId ∧ e.runId = ctx.runId := by
  intro e he
  obtain ⟨p, -, hp⟩ := mapM_ok h he
  exact fromPayload_scoped hp

/-- Synthesis that was told of nothing is the run's only step that can have ended badly. -/
theorem steps_ok_of_codes {d : Deployment} {w : World} (hr : Orchestration.Reachable d w)
    {s : SearchStep} (hs : s ∈ w.db.steps) (hsyn : s.stepType = .synthesize)
    (hin : s.input = .synthesis input) (hcodes : ∀ code ∈ input.pipelineDegradationCodes, code = "")
    {t : SearchStep} (ht : t ∈ w.db.steps) (hrun : t.runId = s.runId)
    (hbad : t.status.endedBadly = true) : t = s := by
  by_cases hty : t.stepType = .synthesize
  · exact step_unique (winv_reachable hr).shape ht hs hrun (hty.trans hsyn.symm) (.inr (.inr hty))
  · obtain ⟨code, hcode, hne⟩ := told_reachable hr s hs hsyn input hin t ht hrun hty hbad
    exact absurd (hcodes code hcode) hne

/--
**COMPLETE is sound except for denied facts.** Take the synthesis step of any run
in any reachable world, any plan and verification, and any reply or failure of the
model. COMPLETE means what it promises (every required fact stated with an accepted
supporting citation, no required fact in conflict, nothing degraded, no other step
of the run ended badly) if and only if it is not the case that the model answered
undegraded input in which a required fact has contradicting evidence only.
-/
theorem complete_sound_iff {d : Deployment} {w : World} (hr : Orchestration.Reachable d w)
    {s : SearchStep} (hs : s ∈ w.db.steps) (hsyn : s.stepType = .synthesize)
    (hin : s.input = .synthesis input)
    (hdecoded : (verificationOf input loaded).evidence.mapM
      (fromPayload b ctx.tenantId ctx.runId) = .ok evidence)
    (hid : Identified evidence)
    (h : synthesize b rules ctx input plan loaded reply = .ok doc) :
    (doc.quality = .complete → CompleteSound b rules ctx plan (verificationOf input loaded)
        evidence reply w.db s doc) ↔
      ¬ DeniedFactAnswered b rules ctx input plan (verificationOf input loaded) evidence
        reply := by
  simp only [synthesize, bind_ok_iff, pure_ok_iff, hdecoded, Except.ok.injEq,
    exists_eq_left'] at h
  obtain ⟨r, hrun, rfl⟩ := h
  obtain ⟨ps, ha, hpath⟩ := runSynthesizer_ok hrun
  have hscoped := decoded_scoped hdecoded
  constructor
  · -- a denied fact is claimed, so the answer is complete, but nothing supports the fact
    intro hsound hbad
    obtain ⟨ps', hps'⟩ := Option.isSome_iff_exists.mp hbad.answered
    rcases hpath with ⟨hmodel, hdeg⟩ | ⟨hnone, -⟩
    · obtain ⟨payload, hparse⟩ := acceptedProposals_some hmodel
      obtain ⟨f, hf, hdenied⟩ := hbad.denied
      have hsupp : ∀ g ∈ requiredIds (dictOf plan.facts),
          g ∈ supportedFactIds r.answer.claims := by
        intro g hg
        obtain ⟨p, e, cl, hcl, -, hbecame⟩ :=
          supported_of_model hid hscoped hparse ha (hbad.evidenced g hg).1
        exact mem_supportedFactIds.mpr ⟨cl, hcl, hbecame.kind, hbecame.listed, hbecame.fact⟩
      have hcov := fun g hg => (isCovered_iff (planned_of_required hg)).mpr (hbad.evidenced g hg)
      have hcomplete := hsound (quality_complete_iff.mpr ⟨List.ne_nil_of_mem hf, hsupp, hcov,
        hbad.plan_ok, hbad.verification_ok, hdeg, hbad.codes⟩)
      obtain ⟨c, -, hstates⟩ := hcomplete.supported f hf
      exact not_statesWithSupport hid hdenied hstates
    · rw [hnone] at hps'
      cases hps'
  · intro hok hcomplete
    obtain ⟨hne, hsupp, hcov, hplan, hver, hdeg, hcodes⟩ := quality_complete_iff.mp hcomplete
    have hevid := fun g hg => (isCovered_iff (planned_of_required hg)).mp (hcov g hg)
    refine ⟨?_, fun g hg => (hevid g hg).2, hplan, hver, ?_, ?_⟩
    · intro f hf
      rcases hpath with ⟨hmodel, -⟩ | ⟨-, hfall⟩
      · obtain ⟨payload, hparse⟩ := acceptedProposals_some hmodel
        obtain ⟨p, e, cl, hcl, he, hbecame⟩ :=
          supported_of_model hid hscoped hparse ha (hevid f hf).1
        have hpro : supports ctx.tenantId ctx.runId f evidence ≠ [] := by
          intro hnil
          exact hok ⟨hplan, hver, hcodes, hevid, ⟨f, hf, hnil⟩, by rw [hmodel]; rfl⟩
        exact statesWithSupport_of_became hcl hbecame he
          (supports_of_consistent hid (hevid f hf).2 hpro he)
      · obtain ⟨p, e, cl, hcl, hside, he, hbecame⟩ :=
          supported_of_fallback hid hfall ha (hsupp f hf)
        exact statesWithSupport_of_became hcl hbecame he hside
    · intro r' hr'
      obtain rfl := Except.ok.inj (hrun.symm.trans hr')
      exact hdeg
    · intro t ht htrun hbad
      exact steps_ok_of_codes hr hs hsyn hin hcodes ht htrun hbad

end Claim

/-! ## A denied fact, answered -/

namespace Sample

/-- What the `n`-th step of the run writes. -/
def stepRef (n : Nat) : ArtifactRef := ⟨"file:///" ++ toString n, "00"⟩

/-- A deployment in which the plan has one query and the selection one hit. -/
def deployment : Deployment where
  ports := {
    artifacts := fun ref =>
      if ref = stepRef 1 then some { queries := [⟨"q1", none⟩] }
      else if ref = stepRef 3 then
        some { selected := [⟨"h1", "web", [], none⟩], planRef := some (stepRef 1) }
      else some {}
    uuid5 := fun namespaceId _ => namespaceId
    sha256 := fun s => if s = "hello" then
      "2cf24dba5fb0a30e26e83b2ac5b9e29e1b161e5c1fa7425e73043362938b9824" else "" }
  policy := .default
  cfg := .default

/-- The n-th tenth of a second. The run gets the identifier of the sample evidence. -/
def env (n : Nat) : Env where
  ids i := ⟨BitVec.ofNat 128 (100 * (n - 2) + i)⟩
  now := 100000 * n
  hookNow := 100000 * n
  dbNow := 100000 * n

/-- The `n`-th step of the run is claimed and succeeds. -/
def advance (n : Nat) (stepId : Uuid) : List Action := [
  .claim (env (2 * n + 3)) stepId "worker",
  .succeed (env (2 * n + 4)) n ⟨stepRef n, { phase := .routePlan }⟩]

/-- One query, one hit, one document: the run gets to synthesis without a fault. -/
def actions : List Action := [
  .create (env 1) ⟨7#128⟩ "hello" none,
  .submit (env 2) ⟨⟨7#128⟩, (env 1).ids 0, "hello", "k1", ⟨.fast, [], "search-v12"⟩⟩]
  ++ advance 0 ((env 2).ids 3)
  ++ (List.range 6).flatMap fun n => advance (n + 1) ((env (2 * n + 4)).ids 0)

/-- What synthesis is given. -/
def input : SynthesisInput := ⟨stepRef 1, some (stepRef 6), 0, []⟩

def plan : Plan := ⟨facts, false, "en"⟩

/-- The verification of the candidate, in the direction the model found. -/
def verified (direction : String) : Verification where
  evidence := (batch direction).toOption.elim [] fun v => v.evidence.map (toPayload builtins)

/-- The evidence as it is read back, and the answer. -/
def document (direction : String) : Except Exn (List Evidence.VerifiedEvidence × AnswerDocument) := do
  let items ← (verificationOf input (verified direction)).evidence.mapM
    (fromPayload builtins context.tenantId context.runId)
  let doc ← synthesize builtins claimRules context input plan (verified direction) (some claim)
  return (items, doc)

/-- All accepted evidence denies the fact, and the answer is COMPLETE. -/
theorem document_denied : ∃ x, document "CONTRADICTS" = .ok x ∧ x.2.quality = .complete ∧
    Identified x.1 ∧ ∀ e ∈ x.1, e.supportType = .contradicts := by
  have hany : (document "CONTRADICTS").toOption.any (fun x =>
      x.2.quality = .complete && decide (Identified x.1)
        && x.1.all (·.supportType = .contradicts)) = true := by
    decide +kernel
  obtain ⟨x, hx, htest⟩ := exists_ok_of_any hany
  exact ⟨x, hx, by simpa [and_assoc] using htest⟩

theorem not_stated {items : List Evidence.VerifiedEvidence} {c : RenderedClaim}
    (h : ∀ e ∈ items, e.supportType = .contradicts) :
    ¬ StatesWithSupport context items ⟨3#128⟩ c := by
  intro hstates
  obtain ⟨-, -, _, -, e, he, -, -, hs⟩ := hstates
  rw [h e he] at hs
  cases hs

theorem required_fact : (⟨3#128⟩ : Uuid) ∈ requiredIds (dictOf plan.facts) := by decide +kernel

example : ⟨4#128⟩ ∉ requiredIds (dictOf plan.facts) := by decide +kernel

end Sample

/-- The answer is COMPLETE, and no claim cites evidence that supports the required fact. -/
theorem complete_without_support : ∃ items doc, Sample.document "CONTRADICTS" = .ok (items, doc) ∧
    doc.quality = .complete ∧ ⟨3#128⟩ ∈ requiredIds (dictOf Sample.plan.facts) ∧
    ¬ ∃ c ∈ doc.claims, StatesWithSupport Sample.context items ⟨3#128⟩ c := by
  obtain ⟨⟨items, doc⟩, hx, hcomplete, -, hdenies⟩ := Sample.document_denied
  refine ⟨items, doc, hx, hcomplete, Sample.required_fact, ?_⟩
  intro hstated
  obtain ⟨c, -, hc⟩ := hstated
  exact Sample.not_stated hdenies hc

theorem complete_sound_iff_sample : ∃ w, Orchestration.Reachable Sample.deployment w ∧
    ∃ s ∈ w.db.steps, s.runId = Sample.context.runId ∧ s.input = .synthesis Sample.input ∧
      ∃ items, DeniedFactAnswered Sample.builtins Sample.claimRules Sample.context Sample.input
        Sample.plan (Sample.verified "CONTRADICTS") items (some Sample.claim) := by
  obtain ⟨w, hr, hw⟩ := exists_reachable Sample.deployment Sample.actions
    (fun w => w.db.steps.any fun s => s.runId = Sample.context.runId
      && s.stepType = .synthesize && s.input = .synthesis Sample.input) (by decide +kernel)
  obtain ⟨s, hs, ⟨hrun, hsyn⟩, hin⟩ : ∃ s ∈ w.db.steps,
      (s.runId = Sample.context.runId ∧ s.stepType = .synthesize) ∧
        s.input = .synthesis Sample.input := by
    simpa using hw
  obtain ⟨⟨_, _⟩, hx, hcomplete, hid, hdenies⟩ := Sample.document_denied
  simp only [Sample.document, bind_ok_iff, pure_ok_iff, Prod.mk.injEq] at hx
  obtain ⟨items, hdecoded, doc, hdoc, rfl, rfl⟩ := hx
  refine ⟨w, hr, s, hs, hrun, hin, items, not_not.mp ?_⟩
  intro hok
  have hsound := (complete_sound_iff hr hs hsyn hin hdecoded hid hdoc).mpr hok hcomplete
  obtain ⟨c, -, hc⟩ := hsound.supported _ Sample.required_fact
  exact Sample.not_stated hdenies hc

end Sana.Answer
