import Sana.Orchestration.Proof.Effect

/-!
# Runs never get stuck and fan in once

The invariants of the workflow, proved against `Effect`. `Shape` is the induction
hypothesis everything else leans on. On top of it:

* `NoStuck`: a run that has not ended has a live step. The coordinator is asked
  exactly when a live step ends, and `Move.progress` is its answer.
* `FanIn`: synthesis is given the output of the run's verification.
* `Told`: synthesis is given a code for every step that ended badly.

That the fan-in steps are unique needs no invariant of its own: their keys are
fixed, and the database holds a key once per run.
-/

namespace Sana.Orchestration

open Sana.Lib

variable {who : Actor} {db db' : Db} {cur cur' : SearchStep} {run run' : SearchRun}
  {new : List SearchStep}

/-! ## Reading a move -/

namespace Move

/-- The steps after a move: the moved one, the others, the scheduled ones. -/
theorem mem_steps (m : Move who db db' cur cur' run run' new) {s : SearchStep} :
    s ∈ db'.steps ↔ s = cur' ∨ (s ∈ db.steps ∧ s.id ≠ cur.id) ∨ s ∈ new := by
  rw [m.steps, List.mem_append, mem_update_iff db.valid.pk_steps m.cur_mem, or_assoc]

/-- The runs after a move. -/
theorem mem_runs (m : Move who db db' cur cur' run run' new) {r : SearchRun} :
    r ∈ db'.runs ↔ r = run' ∨ (r ∈ db.runs ∧ r.id ≠ run.id) := by
  rw [m.runs, mem_update_iff db.valid.pk_runs m.run_mem]

/-- Nothing of the run is above a step that is still live. -/
theorem top (hsh : Shape db.toTables) (m : Move who db db' cur cur' run run' new) {s : SearchStep}
    (hs : s ∈ db.steps) (hrun : s.runId = cur.runId) :
    s.stepType.level ≤ cur.stepType.level := by
  by_contra hlt
  have := hsh.layered cur m.cur_mem s hs hrun.symm (by omega)
  simp [m.cur_live] at this

/-- Seen from the moved step, another row is live exactly when it is. -/
theorem isLive_other (m : Move who db db' cur cur' run run' new) {s : SearchStep} (hs : s.id ≠ cur.id) :
    Coordinator.isLive s cur' = !s.isTerminal := by
  have : s.id ≠ cur'.id := by rwa [m.same.id]
  simp [Coordinator.isLive, Coordinator.statusOf, this, SearchStep.isTerminal]

theorem isLive_self (m : Move who db db' cur cur' run run' new) :
    Coordinator.isLive cur cur' = !cur'.isTerminal := by
  simp [Coordinator.isLive, Coordinator.statusOf, m.same.id, SearchStep.isTerminal]

/-- A step that has ended is not the one that moves, so it stays. -/
theorem mem_of_terminal (m : Move who db db' cur cur' run run' new) {s : SearchStep} (hs : s ∈ db.steps)
    (ht : s.isTerminal = true) : s ∈ db'.steps := by
  refine m.mem_steps.mpr (.inr (.inl ⟨hs, fun hid => ?_⟩))
  rw [eq_of_key_eq db.valid.pk_steps hs m.cur_mem hid, m.cur_live] at ht
  simp at ht

/-- Below a scheduled step everything has ended, in the database the move leaves. -/
theorem terminal_below (m : Move who db db' cur cur' run run' new) {a b : SearchStep} (hb : b ∈ new)
    (ha : a ∈ db'.steps) (han : a ∉ new) (hrun : a.runId = b.runId)
    (hlt : a.stepType.level < b.stepType.level) : a.isTerminal = true := by
  have hs := m.sched b hb
  rcases m.mem_steps.mp ha with rfl | ⟨hold, hne⟩ | hnew
  · have := hs.below cur m.cur_mem m.run_id.symm (by rw [← m.same.stepType]; exact hlt)
    rw [m.isLive_self] at this
    simpa using this
  · have := hs.below a hold (hrun.trans hs.runId) hlt
    rw [m.isLive_other hne] at this
    simpa using this
  · exact absurd hnew han

end Move

/-! ## The shape is kept -/

/-- The shape is a property of the steps. -/
theorem Shape.congr {t t' : Tables} (h : t'.steps = t.steps) (hsh : Shape t) : Shape t' := by
  obtain ⟨h1, h2, h3, h4, h5⟩ := hsh
  rw [← h] at h1 h2 h3 h4 h5
  exact ⟨h1, h2, h3, h4, h5⟩

theorem Shape.move (hsh : Shape db.toTables) (m : Move who db db' cur cur' run run' new) :
    Shape db'.toTables where
  revision s hs := by
    rcases m.mem_steps.mp hs with rfl | ⟨hold, -⟩ | hnew
    · exact m.same.planRevision.trans (hsh.revision cur m.cur_mem)
    · exact hsh.revision s hold
    · exact (m.sched s hnew).planRevision
  key s hs := by
    rcases m.mem_steps.mp hs with rfl | ⟨hold, -⟩ | hnew
    · rw [m.same.stepType, m.same.stepKey]
      exact hsh.key cur m.cur_mem
    · exact hsh.key s hold
    · exact (m.sched s hnew).key
  output s hs := by
    rcases m.mem_steps.mp hs with rfl | ⟨hold, -⟩ | hnew
    · exact m.output
    · exact hsh.output s hold
    · simp [(m.sched s hnew).status, (m.sched s hnew).outputRef]
  layered a ha b hb hrun hlt := by
    by_cases hbn : b ∈ new
    · by_cases han : a ∈ new
      · -- steps scheduled together are of one kind
        obtain ⟨k, hk⟩ := m.kind
        rw [hk a han, hk b hbn] at hlt
        omega
      · exact m.terminal_below hbn ha han hrun hlt
    · -- `b` was there before, so it is not above the moved step
      have hle : ∀ s ∈ db'.steps, s ∉ new → s.runId = cur.runId →
          s.stepType.level ≤ cur.stepType.level := by
        intro s hs hn hr
        rcases m.mem_steps.mp hs with rfl | ⟨hold, -⟩ | hnew
        · rw [m.same.stepType]
        · exact m.top hsh hold hr
        · exact absurd hnew hn
      rcases m.mem_steps.mp ha with rfl | ⟨hold, hne⟩ | hnew
      · have := hle b hb hbn (hrun.symm.trans m.same.runId)
        rw [m.same.stepType] at hlt
        omega
      · rcases m.mem_steps.mp hb with rfl | ⟨hold', -⟩ | hnew'
        · exact hsh.layered a hold cur m.cur_mem (hrun.trans m.same.runId)
            (by rw [← m.same.stepType]; exact hlt)
        · exact hsh.layered a hold b hold' hrun hlt
        · exact absurd hnew' hbn
      · have hs := m.sched a hnew
        have hr : a.runId = cur.runId := hs.runId.trans m.run_id
        have := hle b hb hbn (hrun.symm.trans hr)
        have := hs.above
        rw [m.same.stepType] at this
        omega
  extract e he hty := by
    have old : ∀ s ∈ db.steps, s.stepType = .extract → s.runId = e.runId → s.stepKey = e.stepKey →
        ∃ f ∈ db'.steps, f.runId = e.runId ∧ f.isTerminal = true ∧
          ∃ r, f.stepKey = "fetch:" ++ r ∧ e.stepKey = "extract:" ++ r := by
      intro s hs hst hrun hkey
      obtain ⟨f, hf, hfrun, hfterm, r, hfr, her⟩ := hsh.extract s hs hst
      exact ⟨f, m.mem_of_terminal hf hfterm, hfrun.trans hrun, hfterm, r, hfr, hkey.symm.trans her⟩
    rcases m.mem_steps.mp he with rfl | ⟨hold, -⟩ | hnew
    · exact old cur m.cur_mem (m.same.stepType.symm.trans hty) m.same.runId.symm m.same.stepKey.symm
    · exact old e hold hty rfl rfl
    · -- a new extract continues the step that has just ended
      have hs := m.sched e hnew
      obtain ⟨r, hr, her⟩ := hs.extract hty
      exact ⟨cur', m.mem_steps.mpr (.inl rfl),
        (m.same.runId.trans m.run_id.symm).trans hs.runId.symm, hs.ended, r, hr, her⟩

/-- A submitted run is new: no step belongs to it yet. -/
theorem submitted_runId {rows : SubmissionRows} {route : SearchStep}
    (hsub : Submitted db db' rows route) {s : SearchStep} (hs : s ∈ db.steps) :
    s.runId ≠ route.runId := by
  intro heq
  obtain ⟨r, hr, hrid⟩ := db.valid.fk_steps s hs
  have hnd := db'.valid.pk_runs
  rw [hsub.runs, List.map_append, List.nodup_append] at hnd
  exact hnd.2.2 r.id (List.mem_map_of_mem hr) rows.run.id (by simp)
    ((hrid.trans heq).trans hsub.runId)

/-- **Every transaction keeps the shape.** -/
theorem Shape.effect (hsh : Shape db.toTables) (he : Effect who db db') : Shape db'.toTables := by
  cases he with
  | idle hsteps => exact hsh.congr hsteps
  | runWritten _ _ _ _ _ hsteps => exact hsh.congr hsteps
  | renewed _ _ _ _ _ _ hsteps => exact hsh.congr hsteps
  | moved _ _ _ _ _ m => exact hsh.move m
  | submitted rows route hsub =>
      have hmem : ∀ s, s ∈ db'.steps ↔ s ∈ db.steps ∨ s = route := by simp [hsub.steps]
      refine ⟨?_, ?_, ?_, ?_, ?_⟩
      · intro s hs
        rcases (hmem s).mp hs with hold | rfl
        · exact hsh.revision s hold
        · exact hsub.planRevision
      · intro s hs
        rcases (hmem s).mp hs with hold | rfl
        · exact hsh.key s hold
        · rw [hsub.stepType]
          exact hsub.stepKey
      · intro s hs
        rcases (hmem s).mp hs with hold | rfl
        · exact hsh.output s hold
        · simp [hsub.ready, hsub.output]
      · intro a ha b hb hab hlt
        rcases (hmem a).mp ha with hold | rfl <;> rcases (hmem b).mp hb with hold' | rfl
        · exact hsh.layered a hold b hold' hab hlt
        · exact absurd hab (submitted_runId hsub hold)
        · exact absurd hab.symm (submitted_runId hsub hold')
        · omega
      · intro e he hex
        rcases (hmem e).mp he with hold | rfl
        · obtain ⟨f, hf, rest⟩ := hsh.extract e hold hex
          exact ⟨f, (hmem f).mpr (.inl hf), rest⟩
        · simp [hsub.stepType] at hex

/-! ## No run is stuck -/

/-- A run that has not ended has a live step. -/
def NoStuck (db : Db) : Prop :=
  ∀ r ∈ db.runs, r.isTerminal = false → ∃ s ∈ db.steps, s.runId = r.id ∧ s.isTerminal = false

/-- **Every transaction leaves every open run with work.** -/
theorem NoStuck.effect (hns : NoStuck db) (he : Effect who db db') : NoStuck db' := by
  intro r hr hopen
  cases he with
  | idle hsteps hruns =>
      rw [hsteps]
      exact hns r (hruns ▸ hr) hopen
  | renewed _ _ _ _ _ _ hsteps hruns =>
      rw [hsteps]
      exact hns r (hruns ▸ hr) hopen
  | runWritten run run' hmem hid hterm hsteps hruns =>
      rw [hruns, mem_update_iff db.valid.pk_runs hmem] at hr
      rw [hsteps]
      rcases hr with rfl | ⟨hr, -⟩
      · rcases hterm with ⟨-, hsame⟩ | ⟨-, -, hend⟩
        · rw [hid]
          rw [SearchRun.isTerminal, hsame] at hopen
          exact hns run hmem hopen
        · simp [hopen] at hend
      · exact hns r hr hopen
  | submitted rows route hsub =>
      rw [hsub.runs, List.mem_append, List.mem_singleton] at hr
      rw [hsub.steps]
      rcases hr with hr | rfl
      · obtain ⟨s, hs, hsr, hlive⟩ := hns r hr hopen
        exact ⟨s, List.mem_append_left _ hs, hsr, hlive⟩
      · exact ⟨route, by simp, hsub.runId,
          by simp [SearchStep.isTerminal, hsub.ready, StepStatus.isTerminal]⟩
  | moved cur cur' run run' new m =>
      rcases m.mem_runs.mp hr with rfl | ⟨hold, hne⟩
      · -- the run whose step moved: the coordinator's answer
        rcases m.progress with hlive | hterm | hnew | ⟨row, hrow, hrowrun, hl⟩
        · exact ⟨cur', m.mem_steps.mpr (.inl rfl),
            (m.same.runId.trans m.run_id.symm).trans m.run_id'.symm, hlive⟩
        · simp [hopen] at hterm
        · obtain ⟨s, hs⟩ := List.exists_mem_of_ne_nil _ hnew
          have hsched := m.sched s hs
          exact ⟨s, m.mem_steps.mpr (.inr (.inr hs)), hsched.runId.trans m.run_id'.symm,
            by simp [SearchStep.isTerminal, hsched.status, StepStatus.isTerminal]⟩
        · by_cases hid : row.id = cur.id
          · have : row = cur := eq_of_key_eq db.valid.pk_steps hrow m.cur_mem hid
            rw [this, m.isLive_self] at hl
            exact ⟨cur', m.mem_steps.mpr (.inl rfl),
              (m.same.runId.trans m.run_id.symm).trans m.run_id'.symm, by simpa using hl⟩
          · rw [m.isLive_other hid] at hl
            exact ⟨row, m.mem_steps.mpr (.inr (.inl ⟨hrow, hid⟩)), hrowrun.trans m.run_id'.symm,
              by simpa using hl⟩
      · -- another run: its live step is not the one that moved
        obtain ⟨s, hs, hsr, hlive⟩ := hns r hold hopen
        refine ⟨s, m.mem_steps.mpr (.inr (.inl ⟨hs, fun hid => hne ?_⟩)), hsr, hlive⟩
        rw [← hsr, eq_of_key_eq db.valid.pk_steps hs m.cur_mem hid, m.run_id]

/-! ## Synthesis is fed once -/

/-- A synthesis step was given the output of the run's verification. -/
def FanIn (db : Db) : Prop :=
  ∀ s ∈ db.steps, s.stepType = .synthesize → ∃ i, s.input = .synthesis i ∧ ∀ ref,
    i.verifyRef = some ref ↔
      ∃ v ∈ db.steps, v.runId = s.runId ∧ v.stepType = .verify ∧ v.outputRef = some ref

theorem FanIn.congr (h : db'.steps = db.steps) (hf : FanIn db) : FanIn db' := by
  unfold FanIn at *
  rwa [h]

/-- The outputs of verifications after a move, read off the rows before it. -/
theorem Move.verify_outputs (m : Move who db db' cur cur' run run' new) {runId : Uuid}
    {ref : ArtifactRef} :
    (∃ v ∈ db'.steps, v.runId = runId ∧ v.stepType = .verify ∧ v.outputRef = some ref) ↔
      ∃ v ∈ db.steps, v.runId = runId ∧ v.stepType = .verify ∧ outputAfter v cur' = some ref := by
  constructor
  · rintro ⟨v, hv, hrun, hty, hout⟩
    rcases m.mem_steps.mp hv with rfl | ⟨hold, hne⟩ | hnew
    · exact ⟨cur, m.cur_mem, m.same.runId.symm.trans hrun, m.same.stepType.symm.trans hty,
        by rw [outputAfter, if_pos m.same.id.symm]; exact hout⟩
    · have hne' : v.id ≠ cur'.id := by rwa [m.same.id]
      exact ⟨v, hold, hrun, hty, by rw [outputAfter, if_neg hne']; exact hout⟩
    · rw [(m.sched v hnew).outputRef] at hout
      simp at hout
  · rintro ⟨v, hv, hrun, hty, hout⟩
    by_cases hid : v.id = cur.id
    · have : v = cur := eq_of_key_eq db.valid.pk_steps hv m.cur_mem hid
      subst this
      rw [outputAfter, if_pos m.same.id.symm] at hout
      exact ⟨cur', m.mem_steps.mpr (.inl rfl), m.same.runId.trans hrun,
        m.same.stepType.trans hty, hout⟩
    · have hne' : v.id ≠ cur'.id := by rwa [m.same.id]
      rw [outputAfter, if_neg hne'] at hout
      exact ⟨v, m.mem_steps.mpr (.inr (.inl ⟨hv, hid⟩)), hrun, hty, hout⟩

/-- A synthesis that is already there: its run's verification has ended, so it does not move. -/
theorem FanIn.move_old (hsh : Shape db.toTables) (hf : FanIn db)
    (m : Move who db db' cur cur' run run' new) {s : SearchStep} (hs : s ∈ db.steps)
    (hsyn : s.stepType = .synthesize) :
    ∃ i, s.input = .synthesis i ∧ ∀ ref, i.verifyRef = some ref ↔
      ∃ v ∈ db'.steps, v.runId = s.runId ∧ v.stepType = .verify ∧ v.outputRef = some ref := by
  obtain ⟨i, hi, hiff⟩ := hf s hs hsyn
  refine ⟨i, hi, fun ref => ?_⟩
  rw [hiff ref, m.verify_outputs]
  refine exists_congr fun v => and_congr_right fun hv => and_congr_right fun hrun =>
    and_congr_right fun hty => ?_
  have hterm := hsh.layered v hv s hs hrun (by rw [hty, hsyn]; decide)
  have hne : v.id ≠ cur'.id := by
    rw [m.same.id]
    intro hid
    rw [eq_of_key_eq db.valid.pk_steps hv m.cur_mem hid, m.cur_live] at hterm
    simp at hterm
  rw [outputAfter, if_neg hne]

/-- **The input of synthesis stays true**: what it was taken from has ended for good. -/
theorem FanIn.effect (hsh : Shape db.toTables) (hf : FanIn db) (he : Effect who db db') :
    FanIn db' := by
  cases he with
  | idle hsteps => exact hf.congr hsteps
  | runWritten _ _ _ _ _ hsteps => exact hf.congr hsteps
  | renewed _ _ _ _ _ _ hsteps => exact hf.congr hsteps
  | submitted rows route hsub =>
      intro s hs hsyn
      rw [hsub.steps, List.mem_append, List.mem_singleton] at hs
      rcases hs with hs | rfl
      · obtain ⟨i, hi, hiff⟩ := hf s hs hsyn
        refine ⟨i, hi, fun ref => ?_⟩
        rw [hiff ref, hsub.steps]
        refine ⟨fun ⟨v, hv, rest⟩ => ⟨v, List.mem_append_left _ hv, rest⟩, ?_⟩
        rintro ⟨v, hv, hvrun, hvty, hvout⟩
        rw [List.mem_append, List.mem_singleton] at hv
        rcases hv with hv | rfl
        · exact ⟨v, hv, hvrun, hvty, hvout⟩
        · simp [hsub.stepType] at hvty
      · simp [hsub.stepType] at hsyn
  | moved cur cur' run run' new m =>
      intro s hs hsyn
      rcases m.mem_steps.mp hs with rfl | ⟨hold, -⟩ | hnew
      · have hcur : cur.stepType = .synthesize := m.same.stepType.symm.trans hsyn
        obtain ⟨i, hi, hiff⟩ := hf.move_old hsh m m.cur_mem hcur
        exact ⟨i, m.same.input.trans hi, by rwa [m.same.runId]⟩
      · exact hf.move_old hsh m hold hsyn
      · have hsched := m.sched s hnew
        obtain ⟨i, hi, hiff⟩ := hsched.synthesis hsyn
        refine ⟨i, hi, fun ref => ?_⟩
        rw [hiff ref, m.verify_outputs, hsched.runId]

/-! ## Synthesis is told what went wrong -/

/-- Every step of the run that ended badly left a code in the input of synthesis. -/
def Told (db : Db) : Prop :=
  ∀ s ∈ db.steps, s.stepType = .synthesize → ∀ i, s.input = .synthesis i →
    ∀ t ∈ db.steps, t.runId = s.runId → t.stepType ≠ .synthesize → t.status.endedBadly = true →
      ∃ code ∈ i.pipelineDegradationCodes, code ≠ ""

theorem Told.congr (h : db'.steps = db.steps) (ht : Told db) : Told db' := by
  unfold Told at *
  rwa [h]

/-- A step that runs has ended once synthesis is there. -/
theorem Shape.below_synthesis {t : Tables} (hsh : Shape t) {a s : SearchStep} (ha : a ∈ t.steps)
    (hs : s ∈ t.steps) (hrun : a.runId = s.runId) (hsyn : s.stepType = .synthesize)
    (hns : a.stepType ≠ .synthesize) : a.isTerminal = true := by
  refine hsh.layered a ha s hs hrun ?_
  have hkey := hsh.key a ha
  rw [hsyn]
  revert hns hkey
  cases a.stepType <;> simp [StepType.level, KeyOk]

/-- **What synthesis was told stays all there is to tell.** -/
theorem Told.effect (hsh : Shape db.toTables) (ht : Told db) (he : Effect who db db') :
    Told db' := by
  cases he with
  | idle hsteps => exact ht.congr hsteps
  | runWritten _ _ _ _ _ hsteps => exact ht.congr hsteps
  | renewed _ _ _ _ _ _ hsteps => exact ht.congr hsteps
  | submitted rows route hsub =>
      intro s hs hsyn i hi t htm htrun htns hbad
      rw [hsub.steps, List.mem_append, List.mem_singleton] at hs htm
      rcases hs with hs | rfl
      · rcases htm with htm | rfl
        · exact ht s hs hsyn i hi t htm htrun htns hbad
        · simp [hsub.ready, StepStatus.endedBadly] at hbad
      · simp [hsub.stepType] at hsyn
  | moved cur cur' run run' new m =>
      intro s hs hsyn i hi t htm htrun htns hbad
      -- a synthesis that was there: the steps below it have ended, so none of them moves
      have old : ∀ o ∈ db.steps, o.stepType = .synthesize → o.input = .synthesis i →
          t.runId = o.runId → ∃ code ∈ i.pipelineDegradationCodes, code ≠ "" := by
        intro o ho hosyn hoi hrun
        rcases m.mem_steps.mp htm with rfl | ⟨hold, -⟩ | hnew
        · have hcur := hsh.below_synthesis m.cur_mem ho (m.same.runId.symm.trans hrun) hosyn
            (by rw [← m.same.stepType]; exact htns)
          rw [m.cur_live] at hcur
          simp at hcur
        · exact ht o ho hosyn i hoi t hold hrun htns hbad
        · rw [(m.sched t hnew).status] at hbad
          simp [StepStatus.endedBadly] at hbad
      rcases m.mem_steps.mp hs with rfl | ⟨hold, -⟩ | hnew
      · exact old cur m.cur_mem (m.same.stepType.symm.trans hsyn) (m.same.input.symm.trans hi)
          (htrun.trans m.same.runId)
      · exact old s hold hsyn hi htrun
      · have hsched := m.sched s hnew
        have hrun : t.runId = run.id := htrun.trans hsched.runId
        rcases m.mem_steps.mp htm with rfl | ⟨htold, hne⟩ | htnew
        · refine hsched.degraded hsyn i hi cur m.cur_mem m.run_id.symm
            (by rw [← m.same.stepType]; exact htns) ?_
          rwa [Coordinator.statusOf, if_pos m.same.id.symm]
        · refine hsched.degraded hsyn i hi t htold hrun htns ?_
          rwa [Coordinator.statusOf, if_neg (by rw [m.same.id]; exact hne)]
        · rw [(m.sched t htnew).status] at hbad
          simp [StepStatus.endedBadly] at hbad

/-! ## Every reachable world -/

/-- What a transaction leaves of an attempt: the attempt, maybe further on. -/
theorem Effect.attempt_persists (he : Effect who db db') {a : StepAttempt} (ha : a ∈ db.attempts) :
    ∃ a' ∈ db'.attempts, a.Same a' := by
  have self : ∀ {l : List StepAttempt}, a ∈ l → ∃ a' ∈ l, a.Same a' :=
    fun h => ⟨a, h, .rfl⟩
  have rewritten : ∀ {b b' : StepAttempt}, b ∈ db.attempts → b.Same b' →
      ∃ a' ∈ update (·.id) b.id (fun _ => b') db.attempts, a.Same a' := by
    intro b b' hb hsame
    by_cases hid : a.id = b.id
    · obtain rfl := eq_of_key_eq db.valid.pk_attempts ha hb hid
      exact ⟨b', (mem_update_iff db.valid.pk_attempts ha).mpr (.inl rfl), hsame⟩
    · exact self (mem_update_of_ne ha hid)
  cases he with
  | idle _ _ hatt => exact hatt ▸ self ha
  | runWritten _ _ _ _ _ _ _ hatt => exact hatt ▸ self ha
  | submitted _ _ hsub => exact hsub.attempts ▸ self ha
  | renewed b b' hb hsame _ _ _ _ hatt => exact hatt ▸ rewritten hb hsame
  | moved cur cur' run run' new m =>
      cases m.attempts with
      | opened b _ _ _ _ _ hatt => exact hatt ▸ self (List.mem_append_left _ ha)
      | finished c _ b b' _ _ hholds _ hsame _ hatt => exact hatt ▸ rewritten hholds.mem hsame
      | skipped _ _ hatt => exact hatt ▸ self ha
      | due _ _ hatt => exact hatt ▸ self ha
      | dispatched _ _ hatt => exact hatt ▸ self ha
      | expired _ now _ _ _ _ _ _ hatt =>
          rw [hatt]
          refine ⟨_, List.mem_map_of_mem ha, ?_⟩
          split
          · exact ⟨rfl, rfl, rfl, rfl, rfl, rfl⟩
          · exact .rfl

/-- What a transaction leaves of a step: the step, maybe further on. -/
theorem Effect.step_persists (he : Effect who db db') {s : SearchStep} (hs : s ∈ db.steps) :
    ∃ s' ∈ db'.steps, s.Same s' := by
  cases he with
  | idle hsteps => exact ⟨s, hsteps ▸ hs, .rfl⟩
  | runWritten _ _ _ _ _ hsteps => exact ⟨s, hsteps ▸ hs, .rfl⟩
  | renewed _ _ _ _ _ _ hsteps => exact ⟨s, hsteps ▸ hs, .rfl⟩
  | submitted _ _ hsub =>
      exact ⟨s, by rw [hsub.steps]; exact List.mem_append_left _ hs, .rfl⟩
  | moved cur cur' run run' new m =>
      by_cases hid : s.id = cur.id
      · obtain rfl := eq_of_key_eq db.valid.pk_steps hs m.cur_mem hid
        exact ⟨cur', m.mem_steps.mpr (.inl rfl), m.same⟩
      · exact ⟨s, m.mem_steps.mpr (.inr (.inl ⟨hs, hid⟩)), .rfl⟩

/-- A lease stays what it was when it was handed out. -/
theorem ClaimOk.effect {c : ClaimedStep} (hc : ClaimOk db c) (he : Effect who db db') :
    ClaimOk db' c := by
  obtain ⟨⟨a, ha, hid, hstep, hno, howner, harun⟩, s, hs, hsid, hsrun⟩ := hc
  obtain ⟨a', ha', hsame⟩ := he.attempt_persists ha
  obtain ⟨s', hs', hsame'⟩ := he.step_persists hs
  exact ⟨⟨a', ha', hsame.id.trans hid, hsame.stepId.trans hstep, hsame.attemptNo.trans hno,
    hsame.leaseOwner.trans howner, hsame.runId.trans harun⟩, s', hs', hsame'.id.trans hsid,
    hsame'.runId.trans hsrun⟩

/-- A lease with a longer term is a lease of the same attempt. -/
theorem ClaimOk.renewed {c c' : ClaimedStep} (hc : ClaimOk db c) (hstep : c'.stepId = c.stepId)
    (hrun : c'.runId = c.runId) (hsame : c.attempt.Same c'.attempt) : ClaimOk db c' := by
  obtain ⟨⟨a, ha, hid, hs, hno, howner, harun⟩, s, hs', hsid, hsrun⟩ := hc
  exact ⟨⟨a, ha, hid.trans hsame.id.symm, hs.trans hstep.symm, hno.trans hsame.attemptNo.symm,
    howner.trans hsame.leaseOwner.symm, harun.trans hrun.symm⟩, s, hs', hsid.trans hstep.symm,
    hsrun.trans hrun.symm⟩

/-- The shape of the runs, and what the leases in circulation refer to. -/
structure WInv (w : World) : Prop where
  shape : Shape w.db.toTables
  claims : ∀ c ∈ w.claims, ClaimOk w.db c

variable {d : Deployment} {w w' : World}

/-- A worker's report under one of its leases. -/
inductive Report (d : Deployment) (w : World) (c : ClaimedStep) (w' : World) : Prop
  | succeed (env : Env) (result : StepExecutionResult) (disposition : Disposition)
      (h : Orchestration.succeed d.ports env w.db c result = .ok (disposition, w'.db))
  | fail (env : Env) (error : TypedError) (disposition : Disposition)
      (h : Orchestration.fail d.ports d.cfg env w.db c error = .ok (disposition, w'.db))

/-- Who performs a transaction. -/
def Call.actor (d : Deployment) : Call → Actor
  | .create _ _ _ _ => .api
  | .submit _ _ => .submitter
  | .cancel _ runId => .canceller runId
  | .claim env stepId _ => .claimer stepId env.now
  | .succeed _ claimed _ => .reporter claimed fun _ => 0
  | .fail _ claimed _ => .reporter claimed d.cfg.attemptLimit
  | .renew _ _ | .renewLost _ _ => .heartbeat
  | .makeReady _ candidate now => .reconciler candidate now
  | .audit _ _ => .auditor
  | .deliver _ op => op.actor

/-- **Every transaction has one of the five effects.** -/
theorem call_effect {call : Call} (hi : WInv w) (hheld : call.Held w)
    (hrun : call.run d w = .ok w') : Effect (call.actor d) w.db w'.db := by
  cases call <;> simp only [Call.run, bind_ok_iff, pure_ok_iff, Prod.exists] at hrun
  case create env userId title key =>
    obtain ⟨view, db, h, rfl⟩ := hrun
    exact createConversation_effect h
  case submit env command =>
    obtain ⟨receipt, db, h, rfl⟩ := hrun
    exact submitMessage_effect h
  case cancel env runId =>
    obtain ⟨run, db, h, rfl⟩ := hrun
    exact cancelRun_effect h
  case claim env stepId workerId =>
    obtain ⟨result, db, h, rfl⟩ := hrun
    exact (claim_effect hi.shape h).1
  case succeed env claimed result =>
    obtain ⟨disposition, db, h, rfl⟩ := hrun
    exact succeed_effect hi.shape (hi.claims claimed hheld) h
  case fail env claimed error =>
    obtain ⟨disposition, db, h, rfl⟩ := hrun
    exact fail_effect hi.shape (hi.claims claimed hheld) h
  case renew env claimed =>
    obtain ⟨answer, renewed, db, h, rfl⟩ := hrun
    exact (renew_effect (hi.claims claimed hheld) h).1
  case renewLost claimed leasedUntil =>
    obtain ⟨attempt, h, rfl⟩ := hrun
    exact .idle rfl rfl rfl .rfl
  case makeReady env candidate now =>
    obtain ⟨answer, db, h, rfl⟩ := hrun
    exact makeReady_effect hi.shape h
  case audit env op =>
    obtain ⟨db, h, rfl⟩ := hrun
    exact audit_effect h
  case deliver env op =>
    obtain ⟨db, h, rfl⟩ := hrun
    exact delivery_effect hi.shape h

/-- Only a report under a lease has a reporter. -/
theorem report_of_call {call : Call} {c : ClaimedStep} {limit : StepType → Nat}
    (hheld : call.Held w) (hrun : call.run d w = .ok w') (hc : call.actor d = .reporter c limit) :
    c ∈ w.claims ∧ Report d w c w' := by
  cases call with
  | succeed env claimed result =>
      obtain ⟨rfl, -⟩ := Actor.reporter.inj hc
      simp only [Call.run, bind_ok_iff, pure_ok_iff, Prod.exists] at hrun
      obtain ⟨disposition, db, h, rfl⟩ := hrun
      exact ⟨hheld, .succeed env result disposition h⟩
  | fail env claimed error =>
      obtain ⟨rfl, -⟩ := Actor.reporter.inj hc
      simp only [Call.run, bind_ok_iff, pure_ok_iff, Prod.exists] at hrun
      obtain ⟨disposition, db, h, rfl⟩ := hrun
      exact ⟨hheld, .fail env error disposition h⟩
  | deliver env op => cases op <;> simp [Call.actor, DeliveryOp.actor] at hc
  | _ => simp [Call.actor] at hc

/-- A step's run can be loaded, or loading raises. -/
theorem getRun_ne_none {db : Db} {row : SearchRun} (hr : row ∈ db.runs) : db.getRun row.id ≠ .ok none := by
  intro h
  simp only [Tables.getRun, lookup_of_mem db.valid.pk_runs hr, bind_ok_iff, pure_ok_iff] at h
  obtain ⟨_, _, h⟩ := h
  cases h

/-- What a report that committed has written. -/
inductive Saved (d : Deployment) (w : World) (c : ClaimedStep) (w' : World) : Prop
  /-- Nothing: the lease does not pass the fence. -/
  | stale (hf : fenced w.db.toTables c = .ok none) (hdb : w'.db = w.db)
  /-- The attempt as completed, the step as it ended or waits, and the steps that follow. -/
  | saved (fin : StepAttempt) (cur step : SearchStep) (now : Time) (new : List SearchStep)
      (hcur : cur ∈ w.db.steps) (hfin : fin.id = c.attempt.id)
      (hdone : fin.completedAt.isSome = true)
      (hatt : w'.db.attempts = update (·.id) fin.id fin.writeTo w.db.attempts)
      (hsteps : w'.db.steps = update (·.id) step.id (SearchStep.writeTo now step) w.db.steps ++ new)
      (hnew : ∀ s ∈ new, s.outputRef = none)
      (hout : step.outputRef = cur.outputRef ∨
        ∃ ref p, step.outputRef = some ref ∧ d.ports.artifacts ref = some p)

/-- An artifact the coordinator has read can be read. -/
theorem artifact_of_onSuccess {ports : Ports} {env : Env} {u u' : Uow} {run run' : SearchRun}
    {step : SearchStep} {ref : ArtifactRef}
    (h : Coordinator.onSuccess ports env u run step ref = .ok (u', run')) :
    ∃ p, ports.artifacts ref = some p := by
  simp only [Coordinator.onSuccess, bind_ok_iff] at h
  obtain ⟨p, hp, -⟩ := h
  unfold Coordinator.payload at hp
  split at hp
  · exact ⟨_, ‹_›⟩
  · cases hp

theorem report_saved {c : ClaimedStep} (hi : WInv w) (hc : c ∈ w.claims) (h : Report d w c w') :
    Saved d w c w' := by
  have hok := hi.claims c hc
  obtain ⟨s, hs, hsid, hsrun⟩ := hok.step
  obtain ⟨row, hrow, hrid⟩ := w.db.valid.fk_steps s hs
  have hfound : w.db.getRun c.runId ≠ .ok none := by
    rw [← hsrun, ← hrid]
    exact getRun_ne_none hrow
  -- a scheduled step has no output
  have fresh : ∀ {env : Env} {run : SearchRun} {step : SearchStep} {added : List SearchStep},
      (∀ s ∈ added, Sched w.db run step s) → ∀ s ∈ added.map (Uow.stamp env), s.outputRef = none := by
    intro env run step added hsched s hs
    obtain ⟨x, hx, rfl⟩ := List.mem_map.mp hs
    exact (hsched x hx).outputRef
  cases h with
  | succeed env result disposition h =>
      simp only [succeed, bind_ok_iff] at h
      obtain ⟨found, hf, h⟩ := h
      cases found with
      | none => exact .stale hf (Prod.mk.inj (pure_ok_iff.mp h)).2.symm
      | some step =>
          simp only [bind_ok_iff] at h
          obtain ⟨foundRun, hrun, h⟩ := h
          obtain ⟨hstep, -, -⟩ := fenced_some hf
          cases foundRun with
          | none => exact absurd hrun hfound
          | some run =>
              obtain ⟨cur, row, hload, -⟩ := loaded_of_report hok hstep hrun
              dsimp only at h
              split at h
              · simp only [succeedCancelled, bind_ok_iff, pure_ok_iff, Prod.mk.injEq] at h
                obtain ⟨fin, hfin, v, hv, t, hcomplete, t', hsave, db₁, hcommit, -, hdb⟩ := h
                obtain ⟨hfid, hdone⟩ := StepAttempt.fail_ok hfin
                obtain rfl := Tables.completeAttempt_ok hcomplete
                obtain rfl := Tables.saveStep_ok hsave
                refine .saved fin cur v env.dbNow [] hload.mem hfid (by rw [hdone]; rfl) ?_ ?_
                  (by simp) (.inl ?_)
                · rw [← hdb, commit_ok hcommit]
                  simp [Uow.flushed, addEvent, Uow.newUuid]
                · rw [← hdb, commit_ok hcommit]
                  simp [Uow.flushed, addEvent, Uow.newUuid]
                · exact (SearchStep.transition_ok hv).outputRef.trans hload.outputRef
              · simp only [succeedRun, bind_ok_iff, pure_ok_iff, Prod.mk.injEq] at h
                obtain ⟨fin, hfin, v, hv, r, hr, ⟨u, r'⟩, hadvance, t, hcomplete, db₁, hsave, -, hdb⟩
                  := h
                obtain ⟨hfid, hdone⟩ := StepAttempt.succeed_ok hfin
                obtain ⟨hran, -, -⟩ := SearchRun.recordUsage_ok hr
                have hv' := SearchStep.succeed_ok hv
                have hadv := onSuccess_ok (hload.ending_succeeded hi.shape hv hran.id) hv'.status
                  hadvance
                obtain rfl := Tables.completeAttempt_ok hcomplete
                obtain ⟨hsteps, -, hatt⟩ := saveAndCommit_ok hsave
                obtain ⟨p, hp⟩ := artifact_of_onSuccess hadvance
                refine .saved fin cur v env.dbNow (u.newSteps.map (Uow.stamp env)) hload.mem hfid
                  (by rw [hdone]; rfl) ?_ ?_ (fresh hadv.sched)
                  (.inr ⟨result.outputRef, p, hv'.outputRef, hp⟩)
                · rw [← hdb, hatt, hadv.attempts, hadv.newAttempts, List.append_nil]
                · rw [← hdb, hsteps]
                  simp only [hadv.steps]
  | fail env error disposition h =>
      simp only [fail, bind_ok_iff] at h
      obtain ⟨found, hf, h⟩ := h
      cases found with
      | none => exact .stale hf (Prod.mk.inj (pure_ok_iff.mp h)).2.symm
      | some step =>
          simp only [bind_ok_iff] at h
          obtain ⟨foundRun, hrun, h⟩ := h
          obtain ⟨hstep, -, -⟩ := fenced_some hf
          cases foundRun with
          | none => exact absurd hrun hfound
          | some run =>
              obtain ⟨cur, row, hload, -⟩ := loaded_of_report hok hstep hrun
              simp only [bind_ok_iff, pure_ok_iff, Prod.mk.injEq] at h
              obtain ⟨fin, hfin, ⟨v, d', ev⟩, hv, ⟨u, r'⟩, hadvance, t, hcomplete, db₁, hsave, -, hdb⟩
                := h
              obtain ⟨hfid, hdone⟩ := StepAttempt.fail_ok hfin
              obtain ⟨_, hv', -⟩ := failStep_ok hv
              obtain rfl := Tables.completeAttempt_ok hcomplete
              obtain ⟨hsteps, -, hatt⟩ := saveAndCommit_ok hsave
              have hout := hv'.outputRef.trans hload.outputRef
              by_cases hq : d' = .retryScheduled ∨ run.isTerminal = true
              · obtain ⟨rfl, -⟩ := onFailure_quiet hq hadvance
                refine .saved fin cur v env.dbNow [] hload.mem hfid (by rw [hdone]; rfl) ?_ ?_
                  (by simp) (.inl hout)
                · rw [← hdb, hatt]
                  simp [Uow.begin]
                · rw [← hdb, hsteps]
                  simp [Uow.begin]
              · rw [not_or, Bool.not_eq_true] at hq
                have hadv := onFailure_ok (hload.ending_reported hi.shape hv hq.1) hq.1 hq.2 hadvance
                refine .saved fin cur v env.dbNow (u.newSteps.map (Uow.stamp env)) hload.mem hfid
                  (by rw [hdone]; rfl) ?_ ?_ (fresh hadv.sched) (.inl hout)
                · rw [← hdb, hatt, hadv.attempts, hadv.newAttempts, List.append_nil]
                · rw [← hdb, hsteps]
                  simp only [hadv.steps]

/-- Every step of the system has one of the five effects; a report is made under a lease. -/
theorem step_effect (hi : WInv w) (hs : Step d w w') :
    ∃ who, Effect who w.db w'.db ∧
      ∀ c limit, who = .reporter c limit → c ∈ w.claims ∧ Report d w c w' := by
  obtain ⟨call, hheld, hrun⟩ := step_iff_call.mp hs
  exact ⟨call.actor d, call_effect hi hheld hrun, fun c limit hc => report_of_call hheld hrun hc⟩

theorem winv_init : WInv World.init :=
  ⟨⟨by simp [World.init, Db.empty], by simp [World.init, Db.empty], by simp [World.init, Db.empty],
    by simp [World.init, Db.empty], by simp [World.init, Db.empty]⟩, by simp [World.init]⟩

/-- **Preserved by every step.** -/
theorem winv_step (hi : WInv w) (hs : Step d w w') : WInv w' := by
  obtain ⟨who, he, -⟩ := step_effect hi hs
  refine ⟨hi.shape.effect he, ?_⟩
  have old : ∀ c ∈ w.claims, ClaimOk w'.db c := fun c hc => (hi.claims c hc).effect he
  cases hs with
  | create | submit | cancel | succeed | fail | makeReady | audit | deliver => exact old
  | claim env stepId worker result h =>
      intro c hc
      rcases List.mem_append.mp hc with hc | hc
      · exact old c hc
      · exact (claim_effect hi.shape h).2 c (by simpa using hc)
  | renew env c hc answer renewed h =>
      intro c' hc'
      rcases List.mem_append.mp hc' with hc' | hc'
      · exact old c' hc'
      · obtain ⟨-, hstep, hrun, hsame⟩ := renew_effect (hi.claims c hc) h
        obtain rfl := List.mem_singleton.mp hc'
        exact (old c hc).renewed hstep hrun hsame
  | renewLost c hc attempt leasedUntil h =>
      intro c' hc'
      rcases List.mem_append.mp hc' with hc' | hc'
      · exact old c' hc'
      · obtain rfl := List.mem_singleton.mp hc'
        exact (old c hc).renewed rfl rfl (StepAttempt.renewLease_ok h).1

theorem winv_reachable (hr : Reachable d w) : WInv w :=
  hr.invariant (by rintro _ rfl; exact winv_init) fun _ _ hi hs => winv_step hi hs

/-- What is true of the message of a new step, and of a row however often it is sent. -/
theorem Effect.outbox_forall {p : OutboxMessage → Prop}
    (hsame : ∀ o o', OutboxMessage.Same o o' → p o → p o') (hnew : ∀ s o, Announces s o → p o)
    (h : ∀ o ∈ db.outbox, p o) (he : Effect who db db') : ∀ o ∈ db'.outbox, p o := by
  have side : ∀ {new : List SearchStep}, Sides who db db' new → ∀ o ∈ db'.outbox, p o := by
    intro new hs o ho
    obtain ⟨publish, rows, hmap, hpub, -, hann⟩ := hs.outbox
    rw [hmap, List.mem_append] at ho
    rcases ho with ho | ho
    · obtain ⟨o', ho', rfl⟩ := List.mem_map.mp ho
      exact hsame o' _ (hpub o') (h o' ho')
    · obtain ⟨s, -, ha⟩ := exists_left_of_forall₂ hann ho
      exact hnew s o ha
  cases he with
  | idle _ _ _ hsides => exact side hsides
  | runWritten _ _ _ _ _ _ _ _ _ _ hsides => exact side hsides
  | renewed _ _ _ _ _ _ _ _ _ hsides => exact side hsides
  | moved _ _ _ _ _ m => exact side m.sides
  | submitted rows route hsub =>
      intro o ho
      simp only [hsub.tables, List.mem_append, List.mem_singleton] at ho
      rcases ho with ho | rfl
      · exact h o ho
      · exact hnew _ _ hsub.linked.announces

theorem outbox_reachable {p : OutboxMessage → Prop}
    (hsame : ∀ o o', OutboxMessage.Same o o' → p o → p o') (hnew : ∀ s o, Announces s o → p o)
    (hr : Reachable d w) : ∀ o ∈ w.db.outbox, p o := by
  refine hr.invariant_of (P := fun w => ∀ o ∈ w.db.outbox, p o) (Q := WInv)
    (fun _ => winv_reachable) ?_ ?_
  · intro s hs
    subst hs
    simp [World.init, Db.empty]
  · intro s t hi h hs
    obtain ⟨who, he, -⟩ := step_effect hi hs
    exact he.outbox_forall hsame hnew h

/-- An outbox row is labelled with its step. -/
def Labelled (db : Db) : Prop := ∀ o ∈ db.outbox, o.dedupeKey = "step-ready:" ++ o.aggregateId.str

theorem labelled_reachable (hr : Reachable d w) : Labelled w.db := by
  refine outbox_reachable ?_ ?_ hr
  · intro o o' hs ho
    rw [hs.dedupeKey, hs.aggregateId]
    exact ho
  · intro s o ha
    rw [ha.dedupeKey, ha.aggregateId]

theorem fanIn_reachable (hr : Reachable d w) : FanIn w.db := by
  refine hr.invariant_of (P := fun w => FanIn w.db) (Q := WInv) (fun _ => winv_reachable) ?_ ?_
  · rintro _ rfl
    simp [FanIn, World.init, Db.empty]
  · intro s t hi hf hs
    obtain ⟨who, he, -⟩ := step_effect hi hs
    exact hf.effect hi.shape he

theorem told_reachable (hr : Reachable d w) : Told w.db := by
  refine hr.invariant_of (P := fun w => Told w.db) (Q := WInv) (fun _ => winv_reachable) ?_ ?_
  · intro s hs
    subst hs
    simp [Told, World.init, Db.empty]
  · intro s t hi ht hs
    obtain ⟨who, he, -⟩ := step_effect hi hs
    exact ht.effect hi.shape he

theorem noStuck_reachable (hr : Reachable d w) : NoStuck w.db := by
  refine hr.invariant_of (P := fun w => NoStuck w.db) (Q := WInv) (fun _ => winv_reachable) ?_ ?_
  · rintro _ rfl
    simp [NoStuck, World.init, Db.empty]
  · intro s t hi hns hs
    obtain ⟨who, he, -⟩ := step_effect hi hs
    exact hns.effect he

/--
**No stuck run.** In every reachable world every run that has not ended has a step
that has not ended; and a transaction that ends a step leaves its run ended or
with a live step. FAST or RESEARCH, whatever the order in which searches, fetches
and extracts succeed, fail or are cancelled.
-/
theorem no_stuck_run (hr : Reachable d w) :
    (∀ r ∈ w.db.runs, r.isTerminal = false →
      ∃ s ∈ w.db.steps, s.runId = r.id ∧ s.isTerminal = false) ∧
    ∀ w', Step d w w' → ∀ s ∈ w.db.steps, s.isTerminal = false →
      ∀ s' ∈ w'.db.steps, s'.id = s.id → s'.isTerminal = true →
        (∃ r ∈ w'.db.runs, r.id = s'.runId ∧ r.isTerminal = true) ∨
        ∃ t ∈ w'.db.steps, t.runId = s'.runId ∧ t.isTerminal = false := by
  refine ⟨noStuck_reachable hr, ?_⟩
  intro w' hs s _ _ s' hs' _ _
  obtain ⟨r, hrmem, hrid⟩ := w'.db.valid.fk_steps s' hs'
  cases hterm : r.isTerminal with
  | true => exact .inl ⟨r, hrmem, hrid, hterm⟩
  | false =>
      obtain ⟨t, ht, htr, hlive⟩ := noStuck_reachable (hr.tail hs) r hrmem hterm
      exact .inr ⟨t, ht, htr.trans hrid, hlive⟩

theorem no_stuck_run_sample : ∃ w, Reachable sample w ∧
    (∃ r ∈ w.db.runs, r.isTerminal = false) ∧
    ∀ r ∈ w.db.runs, r.isTerminal = false →
      ∃ s ∈ w.db.steps, s.runId = r.id ∧ s.isTerminal = false := by
  obtain ⟨w, hr, hp⟩ := exists_reachable sample sampleActions
    (fun w => w.db.runs.any fun r => !r.isTerminal) (by decide +kernel)
  exact ⟨w, hr, by simpa using hp, (no_stuck_run hr).1⟩

end Sana.Orchestration
