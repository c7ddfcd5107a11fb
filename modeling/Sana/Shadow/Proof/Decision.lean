import Sana.Orchestration.Proof.Frozen
import Sana.Shadow.Decision
import Sana.Shadow.Proof.Once
import Sana.Shadow.Proof.Report

/-!
# The decision stays reproducible

Binding a report ends a campaign. After that nothing of it should move: no unit is on its
way, and the decision input computed again from the rows gives the hash that was bound.

The transaction that binds a report looks at neither. Under the fatal-safety rule a report
is final while units are in flight, and their workers go on under their leases. A run that
was sealed as failed can have a model call open, which is in the decision input and is
completed later. Where nothing of this is left when the report is bound, nothing can
come up again: a quiescent campaign that has ended gives out no lease, and no
transaction writes a row of a run at rest.
-/

namespace Sana.Shadow

open Sana.Lib

/-! ## Rest -/

/-- No unit of the campaign is leased or submitted, and none holds budget. -/
def Quiescent (t : Tables) (campaignId : Uuid) : Prop :=
  ∀ r ∈ t.resultsOf campaignId, r.isLeased = false ∧ r.schedulingState ≠ .submitted ∧
    r.reservationState ≠ .active

/-- The messages of a run, its response and its steps are all sent. -/
def Published (app : Orchestration.Tables) (runId : Uuid) : Prop :=
  ∀ run ∈ app.runs, run.id = runId → ∀ o ∈ app.outbox, o.aggregateId ∈ aggregateIds app run →
    o.publishedAt ≠ none

/-- The run of a result has come to rest, as far as the decision looks at it. -/
structure Rested (app : Orchestration.Tables) (r : RunResult) : Prop where
  ended : ∀ id ∈ r.searchRunId, Orchestration.Ended app id
  still : r.schedulingState = .collected → ∀ id ∈ r.searchRunId,
    Orchestration.Still app id ∧ Published app id

/-- A report is bound when nothing of its campaign is on its way. -/
def Label.BindsAtRest (w : World) : Label → Prop
  | .transact _ (.bindReport b _) => Quiescent w.db.toTables b.campaignId ∧
      ∀ r ∈ w.db.resultsOf b.campaignId, Rested w.app.db.toTables r
  | _ => True

/--
No step has the identifier of a run or of a response. Identifiers are drawn by `uuid4`;
the outbox is searched for those of all three tables at once.
-/
def DistinctIds (app : Orchestration.Tables) : Prop :=
  ∀ s ∈ app.steps, (∀ r ∈ app.runs, s.id ≠ r.id) ∧ ∀ q ∈ app.responseRuns, s.id ≠ q.id

/-! ## The source of a result at rest -/

section Source

variable {app app' : Orchestration.Db} {runId : Uuid}

theorem steps_of_still (h : Orchestration.LeftAlone app.toTables app'.toTables)
    (hst : Orchestration.Still app.toTables runId) :
    app'.steps.filter (·.runId = runId) = app.steps.filter (·.runId = runId) := by
  refine h.steps.filter_eq fun s hs => ?_
  rw [of_decide_eq_true hs]
  exact hst

/-- The messages of a run at rest are as they were. -/
theorem outbox_of_still (h : Orchestration.LeftAlone app.toTables app'.toTables)
    (hids : DistinctIds app'.toTables) {run : Orchestration.SearchRun} (hrun : run ∈ app.runs)
    (hpub : Published app.toTables run.id) :
    (app'.outbox.filter (·.aggregateId ∈ aggregateIds app.toTables run)).map SourceOutbox.of
      = (app.outbox.filter (·.aggregateId ∈ aggregateIds app.toTables run)).map
        SourceOutbox.of := by
  obtain ⟨publish, rows, hmap, hsame, hrows⟩ := h.outbox
  have hnone : rows.filter (·.aggregateId ∈ aggregateIds app.toTables run) = [] := by
    refine List.filter_eq_nil_iff.mpr fun o ho hin => ?_
    obtain ⟨s, hs, hagg, hnew⟩ := hrows o ho
    obtain ⟨run', hrun', hkept⟩ := h.kept run hrun
    obtain ⟨q, hq, hqid⟩ := app'.valid.fk_runs run' hrun'
    rw [decide_eq_true_eq, hagg, aggregateIds, List.mem_cons, List.mem_cons, List.mem_map] at hin
    rcases hin with hid | hid | ⟨x, hx, hid⟩
    · exact (hids s hs).1 run' hrun' (hid.trans hkept.id.symm)
    · exact (hids s hs).2 q hq (hid.trans (hqid.trans hkept.responseRunId).symm)
    · exact hnew x (List.mem_filter.mp hx).1 hid
  rw [hmap, List.filter_append, hnone, List.append_nil, filter_map_of_eq, List.map_map]
  · refine List.map_congr_left fun o ho => ?_
    obtain ⟨hmem, hin⟩ := List.mem_filter.mp ho
    have ho := hsame o
    have hsent := ho.published (hpub run hrun rfl o hmem (of_decide_eq_true hin))
    simp only [Function.comp, SourceOutbox.of, ho.id, ho.aggregateType, ho.aggregateId,
      ho.eventType, ho.createdAt, hsent]
  · intro o _
    rw [(hsame o).aggregateId]

/-- Only sent messages of a run at rest are there afterwards. -/
theorem Published.leftAlone (h : Orchestration.LeftAlone app.toTables app'.toTables)
    (hids : DistinctIds app'.toTables) (hst : Orchestration.Still app.toTables runId)
    (hpub : Published app.toTables runId) : Published app'.toTables runId := by
  intro run' hrun' hid o ho hin
  obtain ⟨run, hrun, hrid, -⟩ := hst.run
  obtain ⟨run₁, hrun₁, hkept⟩ := h.kept run hrun
  have heq : run' = run₁ :=
    eq_of_key_eq app'.valid.pk_runs hrun' hrun₁ (hid.trans (hrid.symm.trans hkept.id.symm))
  have haggs : aggregateIds app'.toTables run' = aggregateIds app.toTables run := by
    rw [aggregateIds, aggregateIds, heq, hkept.id, hkept.responseRunId, hrid,
      steps_of_still h hst]
  rw [haggs] at hin
  have hmem : SourceOutbox.of o ∈
      (app'.outbox.filter (·.aggregateId ∈ aggregateIds app.toTables run)).map SourceOutbox.of :=
    List.mem_map_of_mem (List.mem_filter.mpr ⟨ho, decide_eq_true hin⟩)
  rw [outbox_of_still h hids hrun (hrid ▸ hpub)] at hmem
  obtain ⟨x, hx, hxo⟩ := List.mem_map.mp hmem
  obtain ⟨hxm, hxin⟩ := List.mem_filter.mp hx
  have hsent := hpub run hrun hrid x hxm (of_decide_eq_true hxin)
  rw [show o.publishedAt = x.publishedAt from (congrArg SourceOutbox.publishedAt hxo).symm]
  exact hsent

theorem Rested.leftAlone {r : RunResult}
    (h : Orchestration.LeftAlone app.toTables app'.toTables) (hids : DistinctIds app'.toTables)
    (hr : Rested app.toTables r) : Rested app'.toTables r := by
  refine ⟨fun id hid => h.ended (hr.ended id hid), fun hc id hid => ?_⟩
  obtain ⟨hst, hpub⟩ := hr.still hc id hid
  exact ⟨h.still hst, hpub.leftAlone h hids hst⟩

/-- The snapshot of a run at rest is the one it was. -/
theorem sourceSnapshot_of_still (h : Orchestration.LeftAlone app.toTables app'.toTables)
    (hids : DistinctIds app'.toTables) {run : Orchestration.SearchRun} (hrun : run ∈ app.runs)
    (hst : Orchestration.Still app.toTables run.id) (hpub : Published app.toTables run.id)
    (response : Orchestration.ResponseRun) :
    sourceSnapshot app'.toTables run response = sourceSnapshot app.toTables run response := by
  have hattempts : app'.attempts.filter (·.runId = run.id)
      = app.attempts.filter (·.runId = run.id) := by
    refine h.attempts.filter_eq fun a ha => ?_
    rw [of_decide_eq_true ha]
    exact hst
  have hcalls : app'.invocations.filter (·.runId = run.id)
      = app.invocations.filter (·.runId = run.id) := by
    refine h.calls.filter_eq fun i hi => ?_
    rw [of_decide_eq_true hi]
    exact hst.toEnded
  have haggs : aggregateIds app'.toTables run = aggregateIds app.toTables run := by
    rw [aggregateIds, aggregateIds, steps_of_still h hst]
  simp only [sourceSnapshot, steps_of_still h hst, hattempts, hcalls, haggs,
    outbox_of_still h hids hrun hpub]

/-- And so is what the reader returns. -/
theorem readSource_of_still (h : Orchestration.LeftAlone app.toTables app'.toTables)
    (hids : DistinctIds app'.toTables) (hst : Orchestration.Still app.toTables runId)
    (hpub : Published app.toTables runId) (r : RunResult) (conversationId : Uuid) :
    readSource app'.toTables r conversationId runId
      = readSource app.toTables r conversationId runId := by
  obtain ⟨run, hrun, rfl, hterm⟩ := hst.run
  have hlook : lookup (·.id) run.id app'.runs = some run := by
    rw [h.runs.lookup_eq fun x hx => by rw [hx]; exact hst]
    exact lookup_of_mem app.valid.pk_runs hrun
  have hresp : lookup (·.id) run.responseRunId app'.responseRuns
      = lookup (·.id) run.responseRunId app.responseRuns :=
    h.responses.lookup_eq fun q hq => ⟨run, hrun, hterm, hq.symm⟩
  unfold readSource
  rw [hlook, lookup_of_mem app.valid.pk_runs hrun]
  simp only [Option.bind_some, hresp]
  cases lookup (·.id) run.responseRunId app.responseRuns with
  | none => rfl
  | some response =>
      simp only [Option.map_some, sourceSnapshot_of_still h hids hrun hst hpub response]

/-- **The digest of a source at rest is the one it was.** -/
theorem currentSourceDigest_of_rested (h : Orchestration.LeftAlone app.toTables app'.toTables)
    (hids : DistinctIds app'.toTables) {r : RunResult} (hr : Rested app.toTables r)
    (digest : SourcePayload → String) :
    currentSourceDigest digest app'.toTables r = currentSourceDigest digest app.toTables r := by
  unfold currentSourceDigest
  split
  · rfl
  · rename_i hst
    rw [not_not] at hst
    split
    · rename_i conversationId runId _ metrics schema _ hrun _ _ _
      obtain ⟨hstill, hpub⟩ := hr.still hst runId hrun
      rw [readSource_of_still h hids hstill hpub]
    · rfl

end Source

/-! ## The decision input -/

section Input

variable {app app' : Orchestration.Db} {t t' : Tables} {c c' : Campaign}

/-- The decision input is read from the campaign, its results and their runs. -/
theorem decisionInput_congr (digest : SourcePayload → String) (hid : c'.id = c.id)
    (hpayload : c'.payload = c.payload) (hreviews : c'.reviews = c.reviews)
    (hresults : t'.resultsOf c.id = t.resultsOf c.id) (app : Orchestration.Tables) :
    decisionInput digest app t' c' = decisionInput digest app t c := by
  have hsched : t'.scheduledResults c'.id = t.scheduledResults c.id := by
    rw [Tables.scheduledResults, Tables.scheduledResults, hid, hresults]
  unfold decisionInput
  rw [hsched, hid, hpayload, hreviews]

theorem mem_scheduledResults {r : RunResult} {id : Uuid} :
    r ∈ t.scheduledResults id ↔ r ∈ t.resultsOf id := List.mem_mergeSort

/-- **The service does not change the decision input of results at rest.** -/
theorem decisionInput_of_rested (digest : SourcePayload → String)
    (h : Orchestration.LeftAlone app.toTables app'.toTables) (hids : DistinctIds app'.toTables)
    (hr : ∀ r ∈ t.resultsOf c.id, Rested app.toTables r) :
    decisionInput digest app'.toTables t c = decisionInput digest app.toTables t c := by
  have hresults : (t.scheduledResults c.id).map
        (fun r => r.payload (currentSourceDigest digest app'.toTables r))
      = (t.scheduledResults c.id).map
        (fun r => r.payload (currentSourceDigest digest app.toTables r)) := by
    refine List.map_congr_left fun r hmem => ?_
    rw [currentSourceDigest_of_rested h hids (hr r (mem_scheduledResults.mp hmem))]
  have hcalls : app'.invocations.filter
        (fun i => i.runId ∈ (t.scheduledResults c.id).filterMap (·.searchRunId))
      = app.invocations.filter
        (fun i => i.runId ∈ (t.scheduledResults c.id).filterMap (·.searchRunId)) := by
    refine h.calls.filter_eq fun i hi => ?_
    obtain ⟨r, hmem, hrun⟩ := List.mem_filterMap.mp (of_decide_eq_true hi)
    exact (hr r (mem_scheduledResults.mp hmem)).ended i.runId hrun
  simp only [decisionInput, hresults, hcalls]

end Input

/-! ## A campaign that has ended -/

section Ended

variable {db db' : Db} {op : Op} {now : Time} {c c' : Campaign} {r r' : RunResult}

theorem isLeased_of_claimed (h : r.schedulingState = .claimed) : r.isLeased = true := by
  simp [RunResult.isLeased, h]

theorem isLeased_of_conversationBound (h : r.schedulingState = .conversationBound) :
    r.isLeased = true := by
  simp [RunResult.isLeased, h]

/-- **Nothing can be done to a unit at rest of a campaign that has ended.** -/
theorem Change.of_quiescent (h : Change op now c r c' r') (hguard : op.Guarded db now c r)
    (hterm : c.isTerminal = true) (hleased : r.isLeased = false)
    (hsub : r.schedulingState ≠ .submitted) (hactive : r.reservationState ≠ .active) :
    c' = c ∧ r' = r := by
  have hst : c.status = .completed ∨ c.status = .aborted := by
    simpa [Campaign.isTerminal] using hterm
  have hheld : ∀ {p : Prop}, r.isLeased = true → p := fun h => by simp [hleased] at h
  cases h with
  | held _ how =>
      cases how with
      | claimed hop =>
          subst hop
          rcases hguard.1 with hrun | hrun <;> simp [hrun] at hst
      | renewed hop =>
          subst hop
          exact hheld hguard.leased
      | prepared hop =>
          subst hop
          exact hheld hguard.leased
      | collecting hop =>
          subst hop
          exact absurd hguard.2 hsub
      | collectingOn hop =>
          subst hop
          exact absurd hguard.submitted hsub
  | bound _ hclaimed _ => exact hheld (isLeased_of_claimed hclaimed)
  | attempted hbound _ => exact hheld (isLeased_of_conversationBound hbound)
  | reserved _ _ _ hl => exact hheld hl
  | refused _ hl => exact hheld hl
  | released ha _ => exact absurd ha hactive
  | submitted _ hbound _ => exact hheld (isLeased_of_conversationBound hbound)
  | failed _ hl _ => exact hheld hl
  | settled _ _ h =>
      -- a settlement that is repeated writes nothing
      cases settleRows_ok h with
      | again _ => exact ⟨rfl, rfl⟩
      | first _ ha _ _ => exact absurd ha hactive
  | sealed _ hs _ _ _ => exact absurd hs hsub
  | collected _ hs _ _ _ => exact absurd hs hsub

/-- A campaign with a report that has ended and is quiescent stays as it is. -/
theorem Effect.bound_kept {ports : Orchestration.Ports} (he : Effect ports op now db db')
    (hop : ∀ b current, op ≠ .bindReport b current)
    (hq : ∀ c ∈ db.campaigns, c.finalReport ≠ none →
      c.isTerminal = true ∧ Quiescent db.toTables c.id)
    (hc' : c' ∈ db'.campaigns) (hreport : c'.finalReport ≠ none) :
    c' ∈ db.campaigns ∧ db'.resultsOf c'.id = db.resultsOf c'.id := by
  cases he with
  | idle h =>
      subst h
      exact ⟨hc', rfl⟩
  | @added c h _ =>
      rw [h, List.mem_append, List.mem_singleton] at hc'
      rcases hc' with hc' | rfl
      · exact ⟨hc', by rw [h]; rfl⟩
      · exact absurd rfl hreport
  | @materialized c cases repetitions hc hst _ _ h _ =>
      rw [h] at hc'
      rcases (mem_putCampaign hc (by rfl)).mp hc' with rfl | ⟨hold, hne⟩
      · -- a campaign that is planned has not started
        have hend := (hq c hc hreport).1
        simp [Campaign.isTerminal, hst] at hend
      · refine ⟨hold, ?_⟩
        rw [h, Tables.resultsOf, Tables.resultsOf, List.filter_append]
        have hnone : (materializeRunPlans ports.uuid5 c.id cases repetitions).filter
            (·.campaignId = c'.id) = [] := by
          refine List.filter_eq_nil_iff.mpr fun r hr heq => ?_
          obtain ⟨_, _, _, _, _, _, rfl⟩ := mem_materializeRunPlans hr
          exact hne (of_decide_eq_true heq).symm
        rw [hnone, List.append_nil]
  | moved hc hm hrep h _ =>
      rw [h] at hc'
      rcases (mem_putCampaign hc hm.id).mp hc' with rfl | ⟨hold, -⟩
      · rcases hrep with hrep | ⟨b, current, rfl⟩
        · rw [hrep] at hreport
          exact absurd (hm.unbound (hq _ hc hreport).1) hreport
        · exact absurd rfl (hop b current)
      · exact ⟨hold, by rw [h]; rfl⟩
  | @skipped c reason hc hst h _ =>
      rw [h] at hc'
      rcases (mem_putCampaign hc (by rfl)).mp hc' with rfl | ⟨hold, hne⟩
      · have hend := (hq c hc hreport).1
        simp [Campaign.isTerminal, hst] at hend
      · refine ⟨hold, ?_⟩
        rw [h]
        simp only [Tables.resultsOf]
        rw [filter_map_of_eq]
        · conv_rhs => rw [← List.map_id (db.results.filter _)]
          refine List.map_congr_left fun r hr => if_neg fun hpend => hne ?_
          simp only [RunResult.isPendingOf, Bool.and_eq_true, decide_eq_true_eq] at hpend
          rw [← hpend.1]
          exact (of_decide_eq_true (List.mem_filter.mp hr).2).symm
        · intro r _
          split
          · rfl
          · rfl
  | @rows c c₁ r r₁ hc hr hcr _ hguard hch h =>
      rw [h] at hc'
      have hf := hch.framed
      rcases (mem_put_campaigns hc hf.id).mp hc' with rfl | ⟨hold, hne⟩
      · have hrep : c.finalReport ≠ none := hf.report ▸ hreport
        obtain ⟨hterm, hquiet⟩ := hq c hc hrep
        have hrest := hquiet r (by simp [Tables.resultsOf, hr, hcr])
        obtain ⟨hcc, hrr⟩ := hch.of_quiescent hguard hterm hrest.1 hrest.2.1 hrest.2.2
        refine ⟨hcc ▸ hc, ?_⟩
        rw [h, resultsOf_put hr hf.same, hrr, update_self (resultsOf_nodup db _)]
        simp [Tables.resultsOf, hr, hcr, hcc]
      · refine ⟨hold, ?_⟩
        rw [h]
        refine resultsOf_put_of_ne hr hf.same ?_
        rw [hcr]
        exact fun heq => hne heq.symm

end Ended

/-! ## Every run -/

section Runs

variable {d : Orchestration.Deployment} {g : Digests} {w w' : World}

/-- What holds of every campaign with a report. -/
structure Settled (g : Digests) (w : World) (c : Campaign) (report : FinalReport) : Prop where
  terminal : c.isTerminal = true
  quiet : Quiescent w.db.toTables c.id
  rested : ∀ r ∈ w.db.resultsOf c.id, Rested w.app.db.toTables r
  hash : w.decisionInputHash g c = report.decisionInputHash

/-- What was distinct later was distinct before: no row is taken away. -/
theorem DistinctIds.of_step (hr : Orchestration.Reachable d w.app) {app' : Orchestration.World}
    (hs : Orchestration.Step d w.app app') (h : DistinctIds app'.db.toTables) :
    DistinctIds w.app.db.toTables := by
  obtain ⟨who, he, -⟩ := Orchestration.step_effect (Orchestration.winv_reachable hr) hs
  intro s hs
  obtain ⟨s', hs', hsame⟩ := he.step_persists hs
  refine ⟨fun r hrun hid => ?_, fun q hq hid => ?_⟩
  · obtain ⟨r', hr', hkept⟩ := he.run_persists hrun
    exact (h s' hs').1 r' hr' (hsame.id.trans (hid.trans hkept.id.symm))
  · obtain ⟨q', hq', hqid⟩ : ∃ q' ∈ app'.db.responseRuns, q'.id = q.id := by
      rcases he.carried with ⟨rows, route, hsub, -⟩ | hcarried
      · exact ⟨q, by rw [hsub.tables]; exact List.mem_append_left _ hq, rfl⟩
      · obtain ⟨q', hq', hq⟩ := hcarried.response hq
        exact ⟨q', hq', hq.id⟩
    exact (h s' hs').2 q' hq' (hsame.id.trans (hid.trans hqid.symm))

/-- The service goes on, and the decision stands. -/
theorem Settled.service {c : Campaign} {report : FinalReport} (h : Settled g w c report)
    (hr : Orchestration.Reachable d w.app) {app' : Orchestration.World}
    (hs : Orchestration.Step d w.app app') (hids : DistinctIds app'.db.toTables)
    (hdb : w'.db = w.db) (happ : w'.app = app') : Settled g w' c report := by
  have hleft := Orchestration.step_leftAlone hr hs
  subst happ
  refine ⟨h.terminal, by rw [hdb]; exact h.quiet, ?_, ?_⟩
  · rw [hdb]
    exact fun r hmem => (h.rested r hmem).leftAlone hleft hids
  · rw [World.decisionInputHash, hdb, decisionInput_of_rested g.source hleft hids h.rested]
    exact h.hash

/-- A transaction on the campaign tables, and the decision stands. -/
theorem Settled.transact {c : Campaign} {report : FinalReport} (h : Settled g w c report)
    (happ : w'.app = w.app) (hresults : w'.db.resultsOf c.id = w.db.resultsOf c.id) :
    Settled g w' c report := by
  refine ⟨h.terminal, ?_, ?_, ?_⟩
  · intro r hr
    rw [hresults] at hr
    exact h.quiet r hr
  · rw [hresults, happ]
    exact h.rested
  · rw [World.decisionInputHash, happ, decisionInput_congr g.source rfl rfl rfl hresults]
    exact h.hash

/-- **A report that is bound at rest settles its campaign.** -/
theorem settled_of_bindReport {now : Time} {b : FinalReportBinding} {current : String} {db' : Db}
    (hreads : (Label.transact now (.bindReport b current)).Reads g w)
    (hrest : (Label.transact now (.bindReport b current)).BindsAtRest w)
    (hrun : bindReport w.db now b current = .ok db')
    (hold : ∀ c ∈ w.db.campaigns, ∀ report, c.finalReport = some report → Settled g w c report)
    (hdb : w'.db = db') (happ : w'.app = w.app) :
    ∀ c ∈ w'.db.campaigns, ∀ report, c.finalReport = some report → Settled g w' c report := by
  intro c' hc' report hreport
  subst hdb
  obtain ⟨c, hc, hid, ⟨-, heq⟩ | ⟨status, -, -, hcur, hst, htables⟩⟩ := bindReport_ok hrun
  · rw [heq] at hc'
    exact (hold c' hc' report hreport).transact happ (by rw [heq])
  · have hresults : ∀ id, w'.db.resultsOf id = w.db.resultsOf id := fun id => by rw [htables]; rfl
    rw [htables] at hc'
    rcases (mem_putCampaign hc (by rfl)).mp hc' with rfl | ⟨hother, -⟩
    · cases hreport
      refine ⟨?_, ?_, ?_, ?_⟩
      · rcases terminalStatus_ok hst with rfl | rfl <;> rfl
      · intro r hr
        rw [hresults] at hr
        exact hrest.1 r (hid ▸ hr)
      · rw [hresults, happ]
        intro r hr
        exact hrest.2 r (hid ▸ hr)
      · -- neither the status nor the report is part of the decision input
        have hinput : decisionInput g.source w.app.db.toTables w'.db.toTables
              (c.finalized status b now)
            = decisionInput g.source w.app.db.toTables w.db.toTables c :=
          decisionInput_congr g.source rfl rfl rfl (hresults c.id) _
        rw [World.decisionInputHash, happ, hinput]
        exact (hreads c hc hid).symm.trans hcur
    · exact (hold c' hother report hreport).transact happ (hresults _)

theorem ReachableBy.reachable {ok : World → Label → Prop} (h : ReachableBy d ok w) :
    Reachable d w := by
  induction h with
  | init h => exact .init h
  | tail _ hs ih =>
      obtain ⟨label, -, hs⟩ := hs
      exact .tail ih ⟨label, trivial, hs⟩

/-- Every report was bound at rest, so every campaign with one is settled. -/
theorem settled_reachable
    (hr : ReachableBy d (fun w label => label.Reads g w ∧ label.BindsAtRest w) w) :
    DistinctIds w.app.db.toTables →
      ∀ c ∈ w.db.campaigns, ∀ report, c.finalReport = some report → Settled g w c report := by
  induction hr with
  | init h =>
      subst h
      intro _ c hc
      cases hc
  | @tail w w' hw hs ih =>
      intro hids
      have honce := once_reachable (ReachableBy.reachable hw)
      have happ := honce.app
      obtain ⟨label, ⟨hreads, hrest⟩, hs⟩ := hs
      cases hs with
      | service hs =>
          intro c hc report hreport
          exact (ih (hids.of_step happ hs) c hc report hreport).service happ hs hids rfl rfl
      | lost _ _ =>
          intro c hc report hreport
          exact (ih hids c hc report hreport).transact rfl rfl
      | strayed _ _ =>
          intro c hc report hreport
          exact (ih hids c hc report hreport).transact rfl rfl
      | send _ _ _ =>
          intro c hc report hreport
          exact (ih hids c hc report hreport).transact rfl rfl
      | serve hsent ha =>
          obtain ⟨hstep, -⟩ := honce.answer hsent ha
          intro c hc report hreport
          exact (ih (hids.of_step happ hstep) c hc report hreport).service happ hstep hids rfl rfl
      | @transact _ now op out hheld hrun =>
          have hold := ih hids
          by_cases hop : ∃ b current, op = .bindReport b current
          · obtain ⟨b, current, rfl⟩ := hop
            simp only [Op.run, bind_ok_iff, pure_ok_iff] at hrun
            obtain ⟨db', hrun, rfl⟩ := hrun
            exact settled_of_bindReport hreads hrest hrun hold rfl rfl
          · intro c' hc' report hreport
            obtain ⟨hc, hresults⟩ := (run_effect hrun).bound_kept
              (fun b current heq => hop ⟨b, current, heq⟩)
              (fun c hc hne => by
                obtain ⟨report, hreport⟩ := Option.ne_none_iff_exists'.mp hne
                exact ⟨(hold c hc report hreport).terminal, (hold c hc report hreport).quiet⟩)
              hc' (by rw [hreport]; exact Option.some_ne_none _)
            exact (hold c' hc report hreport).transact rfl hresults

/--
**A terminal campaign is quiescent and its decision reproducible, where its report was bound
at rest.** In every run whose reports are all bound when no unit of the campaign is in
flight and the runs of its results have come to rest: in every world reached, a campaign
that has ended with a report has no unit leased or submitted and no active reservation, and
the decision input computed from the rows gives the hash that was bound.
-/
theorem terminal_campaign_reproducible
    (hr : ReachableBy d (fun w label => label.Reads g w ∧ label.BindsAtRest w) w)
    (hids : DistinctIds w.app.db.toTables) :
    ∀ c ∈ w.db.campaigns, c.isTerminal = true → ∀ report, c.finalReport = some report →
      Quiescent w.db.toTables c.id ∧ w.decisionInputHash g c = report.decisionInputHash := by
  intro c hc _ report hreport
  have h := settled_reachable hr hids c hc report hreport
  exact ⟨h.quiet, h.hash⟩

end Runs

/-! ## A report on a campaign in flight -/

instance (t : Tables) (id : Uuid) : Decidable (Quiescent t id) :=
  inferInstanceAs (Decidable (∀ r ∈ t.resultsOf id, _))

instance (app : Orchestration.Tables) : Decidable (DistinctIds app) :=
  inferInstanceAs (Decidable (∀ s ∈ app.steps, _))

instance (app : Orchestration.Tables) (id : Uuid) : Decidable (Orchestration.Ended app id) :=
  decidable_of_iff ((∃ r ∈ app.runs, r.id = id ∧ r.isTerminal = true)
      ∧ ∀ i ∈ app.invocations, i.runId = id → i.status ≠ .started)
    ⟨fun ⟨a, b⟩ => ⟨a, b⟩, fun ⟨a, b⟩ => ⟨a, b⟩⟩

instance (app : Orchestration.Tables) (id : Uuid) : Decidable (Orchestration.Still app id) :=
  decidable_of_iff (Orchestration.Ended app id
      ∧ ∀ s ∈ app.steps, s.runId = id → s.isTerminal = true)
    ⟨fun ⟨a, b⟩ => ⟨a, b⟩, fun ⟨a, b⟩ => ⟨a, b⟩⟩

instance (app : Orchestration.Tables) (id : Uuid) : Decidable (Published app id) :=
  inferInstanceAs (Decidable (∀ run ∈ app.runs, _))

instance (app : Orchestration.Tables) (r : RunResult) : Decidable (Rested app r) :=
  decidable_of_iff ((∀ id ∈ r.searchRunId, Orchestration.Ended app id)
      ∧ (r.schedulingState = .collected → ∀ id ∈ r.searchRunId,
        Orchestration.Still app id ∧ Published app id))
    ⟨fun ⟨a, b⟩ => ⟨a, b⟩, fun ⟨a, b⟩ => ⟨a, b⟩⟩

instance (w : World) : (label : Label) → Decidable (label.BindsAtRest w)
  | .transact now op => by
      apply @Op.casesOn (fun op => Decidable (Label.BindsAtRest w (.transact now op))) op <;> intros <;>
        unfold Label.BindsAtRest <;> infer_instance
  | .service | .lost _ _ | .strayed _ _ | .send _ _ | .serve _ _ _ => isTrue trivial

namespace Sample

/-- A second digest. -/
def digest' : String := String.ofList (List.replicate 64 '1')

/-- Hashes that tell a campaign with reserved calls from one without. -/
def digests : Digests where
  decision input := if input.campaign.ledger.reservedProviderCalls = 0 then digest else digest'
  source _ := digest

/-- The campaign of a candidate built from modified sources is planned and started. -/
def dirtyStarted : List Action := [
  .transact 1 fun _ => some (.add dirtyCampaign),
  .transact 2 fun _ => some (.materialize owner campaignId cases 2),
  .transact 3 fun _ => some (.mutate (some owner) campaignId (.start 3))]

/-- A report bound on the hash of the rows as they are. -/
def bindNow (now : Time) : Action :=
  .transact now fun w => w.db.campaigns.head?.map fun c =>
    .bindReport { earlyBinding with
      expectedCampaignStatus := c.status, expectedCampaignVersion := c.version
      report := ⟨w.decisionInputHash digests c, digest, digest, digest⟩ }
      (w.decisionInputHash digests c)

/-- What is collected of a run that failed before it called a model. -/
def failedOutcome : CollectionOutcome where
  sourceSnapshotDigest := digest
  collectorSchemaVersion := "collector"
  sourceTerminalAt := seconds 13
  metrics := {
    actualMode := "FAST", runStatus := "FAILED", answerQuality := "NONE", latencyMs := 2000
    factTotal := 0, factCovered := 0, traceabilityViolationCount := 0, goldAssertionTotal := 0
    queryPollutionCount := 0, modelCallCount := 0 }
  usage := { observedProviderCalls := 0, promptTokens := 0, completionTokens := 0
             observedEstimatedCost := 0 }
  degraded := true
  errorClass := none
  errorCode := none
  failedPhase := none
  errorSignalFlags := []

/--
A unit is submitted. Its run fails at the first step and its only message is published; the result
is collected. Another unit fails before anything was sent, and then the report is bound.
-/
def collectedThenBound : List Action := dirtyStarted ++ submitted 0 ++ [
  .service (.claim (Orchestration.sampleEnv 12) ((Orchestration.sampleEnv 11).ids 3) "worker"),
  .service (.fail (Orchestration.sampleEnv 13) 0 ⟨.permanent, "model_failed", "", false⟩),
  .service (.deliver (Orchestration.sampleEnv 14)
    (.published ((Orchestration.sampleEnv 11).ids 4) (seconds 14))),
  .transact (seconds 15) fun _ => some (.claimCollection campaignId "collector" (seconds 60) []),
  .transact (seconds 16) fun w => w.collections.getLast?.map (.persist · failedOutcome),
  .transact (seconds 16) fun _ => some (.claim campaignId "worker" (seconds 60) []),
  .transact (seconds 16) fun w => last w (.fail · manifestFailure digest),
  bindNow (seconds 17)]

/-- A unit holds budget while the report is bound; then its worker gives the budget back. -/
def boundInFlight : List Action := dirtyStarted ++ [
  .transact (seconds 1) fun _ => some (.claim campaignId "worker" (seconds 60) []),
  .transact (seconds 2) fun w => last w .reserve,
  bindNow (seconds 3),
  .transact (seconds 4) fun w => last w .release]

end Sample

/-- One of the results of the campaign is collected from a run, which is at rest. -/
theorem terminal_campaign_reproducible_sample : ∃ w,
    ReachableBy Sample.deployment
      (fun w label => label.Reads Sample.digests w ∧ label.BindsAtRest w) w ∧
    ∃ c ∈ w.db.campaigns, c.isTerminal = true ∧
      (∃ r ∈ w.db.resultsOf c.id, r.schedulingState = .collected ∧ r.searchRunId.isSome = true) ∧
      ∃ report, c.finalReport = some report ∧ Quiescent w.db.toTables c.id ∧
        w.decisionInputHash Sample.digests c = report.decisionInputHash := by
  obtain ⟨w, hr, hp⟩ := exists_reachable Sample.deployment
    (fun w label => label.Reads Sample.digests w ∧ label.BindsAtRest w) Sample.collectedThenBound
    (fun w => DistinctIds w.app.db.toTables && w.db.campaigns.any fun c =>
      c.isTerminal && c.finalReport.isSome && (w.db.resultsOf c.id).any fun r =>
        r.schedulingState = .collected && r.searchRunId.isSome) (by decide +kernel)
  simp only [Bool.and_eq_true, decide_eq_true_eq, List.any_eq_true] at hp
  obtain ⟨hids, c, hc, ⟨hterm, hsome⟩, r, hmem, hcollected⟩ := hp
  obtain ⟨report, hreport⟩ := Option.isSome_iff_exists.mp hsome
  exact ⟨w, hr, c, hc, hterm, ⟨r, hmem, hcollected⟩, report, hreport,
    terminal_campaign_reproducible hr hids c hc hterm report hreport⟩

/--
The report of a campaign is final for safety while one of its units is claimed and holds
budget. The unit is still leased afterwards, its worker releases the reservation, and the
decision input no longer gives the hash that was bound.
-/
theorem report_bound_in_flight : ∃ w,
    ReachableBy Sample.deployment (fun w label => label.Reads Sample.digests w) w ∧
    DistinctIds w.app.db.toTables ∧
    ∃ c ∈ w.db.campaigns, c.isTerminal = true ∧
      finalizationState c (w.db.resultsOf c.id) (seconds 3)
        (hardViolations c (w.db.resultsOf c.id) [] fun _ => none) {} = some "fatal_safety" ∧
      ∃ report, c.finalReport = some report ∧ ¬ Quiescent w.db.toTables c.id ∧
        w.decisionInputHash Sample.digests c ≠ report.decisionInputHash := by
  obtain ⟨w, hr, hp⟩ := exists_reachable Sample.deployment
    (fun w label => label.Reads Sample.digests w) Sample.boundInFlight
    (fun w => DistinctIds w.app.db.toTables && w.db.campaigns.any fun c =>
      c.isTerminal && finalizationState c (w.db.resultsOf c.id) (seconds 3)
        (hardViolations c (w.db.resultsOf c.id) [] fun _ => none) {} = some "fatal_safety" &&
      !decide (Quiescent w.db.toTables c.id) &&
      c.finalReport.any fun report =>
        w.decisionInputHash Sample.digests c ≠ report.decisionInputHash) (by decide +kernel)
  simp only [Bool.and_eq_true, decide_eq_true_eq, List.any_eq_true, Option.any_eq_true,
    Bool.not_eq_true', decide_eq_false_iff_not] at hp
  obtain ⟨hids, c, hc, ⟨⟨hterm, hfinal⟩, hq⟩, report, hreport, hne⟩ := hp
  exact ⟨w, hr, hids, c, hc, hterm, hfinal, report, hreport, hq, hne⟩

end Sana.Shadow
