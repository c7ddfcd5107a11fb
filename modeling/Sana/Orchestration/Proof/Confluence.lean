import Sana.Answer.Synthesis
import Sana.Orchestration.Proof.Events
import Sana.Orchestration.Proof.Outcome

/-!
# Completion order

The sources of a RESEARCH run are fetched and extracted in any order, by any number
of workers, with retries and expired leases in between. What the run goes on with
should only depend on how each of them ended. `Assignment` fixes that; `Obeys` says
that a transaction ends the steps of the run as assigned. The invariant `Fan` follows
one run from its selection on and describes the inputs of its verification and of its
synthesis by the assignment alone, except for one thing: where nothing could be
extracted, synthesis is told the error code of the source that happened to end last.
-/

namespace Sana.Orchestration

open Sana.Lib

/-! ## Assignments -/

/-- How the step under a key ends. -/
abbrev Assignment := String → Outcome

/-- The steps an assignment is about: fetches, extracts and the verification. -/
def SearchStep.isAssigned (s : SearchStep) : Prop := s.isSource ∨ s.stepType = .verify

instance (s : SearchStep) : Decidable s.isAssigned := inferInstanceAs (Decidable (_ ∨ _))

theorem SearchStep.isAssigned_iff {s : SearchStep} : s.isAssigned ↔ s.stepType.level = 4 := by
  simp only [isAssigned, isSource]
  cases s.stepType <;> simp [StepType.level]

/-- The run has not ended. -/
def IsOpen (w : World) (runId : Uuid) : Prop :=
  ∃ r ∈ w.db.runs, r.id = runId ∧ r.isTerminal = false

instance (w : World) (runId : Uuid) : Decidable (IsOpen w runId) :=
  inferInstanceAs (Decidable (∃ r ∈ w.db.runs, _))

/-- A RESEARCH run has selected its sources, and none of them has ended yet. -/
structure Selected (w : World) (runId : Uuid) : Prop where
  run : ∃ r ∈ w.db.runs, r.id = runId ∧ r.mode = .research ∧ r.isTerminal = false
  select : ∃ s ∈ w.db.steps, s.runId = runId ∧ s.stepType = .select ∧ s.status = .succeeded
  fetches : ∀ s ∈ w.db.steps, s.runId = runId → 4 ≤ s.stepType.level →
    s.stepType = .fetch ∧ s.isTerminal = false

instance (w : World) (runId : Uuid) : Decidable (Selected w runId) :=
  decidable_of_iff
    ((∃ r ∈ w.db.runs, r.id = runId ∧ r.mode = .research ∧ r.isTerminal = false) ∧
      (∃ s ∈ w.db.steps, s.runId = runId ∧ s.stepType = .select ∧ s.status = .succeeded) ∧
      ∀ s ∈ w.db.steps, s.runId = runId → 4 ≤ s.stepType.level →
        s.stepType = .fetch ∧ s.isTerminal = false)
    ⟨fun h => ⟨h.1, h.2.1, h.2.2⟩, fun h => ⟨h.run, h.select, h.fetches⟩⟩

/-- A transaction from one world to another ended the run's steps as assigned. -/
def EndsAs (runId : Uuid) (σ : Assignment) (call : Call) (w w' : World) : Prop :=
  IsOpen w' runId → ∀ s ∈ w.db.steps, s.runId = runId → s.isAssigned → s.isTerminal = false →
    ∀ s' ∈ w'.db.steps, s'.id = s.id → s'.isTerminal = true → call.outcome = some (σ s.stepKey)

instance (runId : Uuid) (σ : Assignment) (call : Call) (w w' : World) :
    Decidable (EndsAs runId σ call w w') := by
  unfold EndsAs
  infer_instance

/-- **The transaction follows the assignment**, as long as the run is open. -/
def Obeys (d : Deployment) (runId : Uuid) (σ : Assignment) (w : World) (call : Call) : Prop :=
  ∀ w', call.run d w = .ok w' → EndsAs runId σ call w w'

instance (d : Deployment) (runId : Uuid) (σ : Assignment) (w : World) (call : Call) :
    Decidable (Obeys d runId σ w call) :=
  match h : call.run d w with
  | .error e => isTrue (by intro w' hw; rw [h] at hw; cases hw)
  | .ok w' => decidable_of_iff (EndsAs runId σ call w w')
      ⟨fun he v hv => by rw [h] at hv; cases hv; exact he, fun he => he w' h⟩

/-- The worlds a run can get to from its selection under an assignment. -/
abbrev Completions (d : Deployment) (runId : Uuid) (σ : Assignment) (w₀ : World) : World → Prop :=
  Lib.Reachable (· = w₀) (Moves d (Obeys d runId σ))

/-! ## What the assignment says of a run -/

section Predicted

variable (w₀ : World) (runId : Uuid) (σ : Assignment)

/-- The fetches the selection scheduled. -/
def fetchesOf : List SearchStep :=
  w₀.db.steps.filter fun s => s.runId = runId && s.stepType = .fetch

/-- The sources that run: every fetch, and the extract of every fetch that succeeds. -/
def sourcesOf : List (StepType × String) :=
  (fetchesOf w₀ runId).flatMap fun f =>
    (.fetch, f.stepKey) :: if (σ f.stepKey).isSuccess then [(.extract, extractKey f)] else []

/-- Some source is extracted. -/
def someExtracted : Bool :=
  (sourcesOf w₀ runId σ).any fun x => x.1 = .extract && (σ x.2).isSuccess

/-- The sources that fail. -/
def failingSources : List (StepType × String) :=
  (sourcesOf w₀ runId σ).filter fun x => !(σ x.2).isSuccess

/-- The codes that come from statuses: of the searches before, and of the sources. -/
def statusCodes : List String :=
  ((w₀.db.steps.filter fun s => s.runId = runId && s.stepType.level < 4
    && s.status.endedBadly).map fun s => statusCode s.stepType s.status)
  ++ (failingSources w₀ runId σ).map fun x => statusCode x.1 (σ x.2).status

/--
**It does not matter which source ends last**: something is extracted, so that
the last to end is the verification, or any two failing sources add the same code
to those that the statuses give.
-/
def LastIsImmaterial : Prop :=
  someExtracted w₀ runId σ = true ∨
    ∀ x ∈ failingSources w₀ runId σ, ∀ y ∈ failingSources w₀ runId σ,
      ∀ c ∈ (σ x.2).codes, ∀ c' ∈ (σ y.2).codes,
        c = c' ∨ c ∈ statusCodes w₀ runId σ ∧ c' ∈ statusCodes w₀ runId σ

instance : Decidable (LastIsImmaterial w₀ runId σ) := inferInstanceAs (Decidable (_ ∨ _))

end Predicted

/-! ## The invariant -/

section Invariant

variable (ports : Ports) (runId : Uuid) (σ : Assignment) (w : World)

/-- A verification was given what was extracted. -/
structure Verified (v : SearchStep) : Prop where
  ended : ∀ s ∈ w.db.steps, s.runId = runId → s.isSource → s.EndedAs (σ s.stepKey)
  input : ∃ planRef refs, v.input = .verify planRef refs ∧ refs ≠ [] ∧ ∀ ref, ref ∈ refs ↔
    ∃ x ∈ w.db.steps, x.runId = runId ∧ x.stepType = .extract ∧ x.outputRef = some ref

/-- The codes the step that ended last has added. -/
inductive LastCodes (last : List String) : Prop
  | verify (v : SearchStep) (hv : v ∈ w.db.steps) (hrun : v.runId = runId)
      (hty : v.stepType = .verify) (hlast : last = (σ v.stepKey).codes)
  | source (hnone : ∀ v ∈ w.db.steps, v.runId = runId → v.stepType ≠ .verify)
      (hempty : ∀ x ∈ w.db.steps, x.runId = runId → x.stepType = .extract → x.outputRef = none)
      (s : SearchStep) (hs : s ∈ w.db.steps) (hrun : s.runId = runId) (hsrc : s.isSource)
      (hbad : (σ s.stepKey).isSuccess = false) (hlast : last = (σ s.stepKey).codes)

/-- A synthesis was told how the run's steps had ended. -/
structure Synthesized (s : SearchStep) : Prop where
  ended : ∀ a ∈ w.db.steps, a.runId = runId → a.isAssigned → a.EndedAs (σ a.stepKey)
  input : ∃ i last, s.input = .synthesis i ∧
    (∀ sel ∈ w.db.steps, sel.runId = runId → sel.stepType = .select → ∀ ref,
      sel.outputRef = some ref → ∃ p, ports.artifacts ref = some p ∧
        i.providerFailures = p.providerFailures) ∧
    (∀ c, c ∈ i.pipelineDegradationCodes ↔ c ∈ last ∨ ∃ row ∈ w.db.steps, row.runId = runId ∧
      row.stepType ≠ .synthesize ∧ row.status.endedBadly = true ∧
      c = statusCode row.stepType row.status) ∧
    LastCodes runId σ w last

/-- **One run after its selection**, as the assignment lets it go on. -/
structure Fan (w₀ : World) : Prop where
  mode : ∃ r ∈ w.db.runs, r.id = runId ∧ r.mode = .research
  lower : ∀ s, s.runId = runId → s.stepType.level < 4 → (s ∈ w.db.steps ↔ s ∈ w₀.db.steps)
  fetched : ∀ key,
    (∃ f ∈ w.db.steps, f.runId = runId ∧ f.stepType = .fetch ∧ f.stepKey = key) ↔
      ∃ f ∈ w₀.db.steps, f.runId = runId ∧ f.stepType = .fetch ∧ f.stepKey = key
  /-- A fetch that succeeded goes on to its extract, and no other fetch does. -/
  extracts : ∀ key,
    (∃ x ∈ w.db.steps, x.runId = runId ∧ x.stepType = .extract ∧ x.stepKey = key) ↔
      ∃ f ∈ w.db.steps, f.runId = runId ∧ f.stepType = .fetch ∧ f.status = .succeeded ∧
        extractKey f = key
  ended : IsOpen w runId → ∀ s ∈ w.db.steps, s.runId = runId → s.isAssigned →
    s.isTerminal = true → s.EndedAs (σ s.stepKey)
  verified : ∀ v ∈ w.db.steps, v.runId = runId → v.stepType = .verify → Verified runId σ w v
  synthesized : ∀ s ∈ w.db.steps, s.runId = runId → s.stepType = .synthesize →
    Synthesized ports runId σ w s

end Invariant

section Steps

variable {d : Deployment} {ports : Ports} {runId : Uuid} {σ : Assignment} {w w' w₀ : World}

/-- A run that is open now was open before. -/
theorem isOpen_before (hmode : ∃ r ∈ w.db.runs, r.id = runId ∧ r.mode = .research)
    (hruns : ∀ r ∈ w.db.runs, ∃ r' ∈ w'.db.runs, r.Kept r') (hopen : IsOpen w' runId) :
    IsOpen w runId := by
  obtain ⟨r', hr', hid, hterm⟩ := hopen
  obtain ⟨r, hr, hrid, -⟩ := hmode
  obtain ⟨x, hx, hkept⟩ := hruns r hr
  have : x = r' := eq_of_key_eq w'.db.valid.pk_runs hx hr' ((hkept.id.trans hrid).trans hid.symm)
  subst this
  refine ⟨r, hr, hrid, ?_⟩
  cases ht : r.isTerminal with
  | false => rfl
  | true =>
      have := hkept.isTerminal ht
      rw [hterm] at this
      cases this

theorem mode_after (hmode : ∃ r ∈ w.db.runs, r.id = runId ∧ r.mode = .research)
    (hruns : ∀ r ∈ w.db.runs, ∃ r' ∈ w'.db.runs, r.Kept r') :
    ∃ r ∈ w'.db.runs, r.id = runId ∧ r.mode = .research := by
  obtain ⟨r, hr, hrid, hmode⟩ := hmode
  obtain ⟨x, hx, hkept⟩ := hruns r hr
  exact ⟨x, hx, hkept.id.trans hrid, by rw [SearchRun.mode, hkept.routing]; exact hmode⟩

/-- The invariant is about the rows of the run below synthesis, and the input of synthesis. -/
theorem Fan.congr (h : Fan ports runId σ w w₀)
    (hrows : ∀ s, s.runId = runId → s.stepType ≠ .synthesize →
      (s ∈ w'.db.steps ↔ s ∈ w.db.steps))
    (hsyn : ∀ s ∈ w'.db.steps, s.runId = runId → s.stepType = .synthesize →
      ∃ o ∈ w.db.steps, o.runId = runId ∧ o.stepType = .synthesize ∧ o.input = s.input)
    (hruns : ∀ r ∈ w.db.runs, ∃ r' ∈ w'.db.runs, r.Kept r') : Fan ports runId σ w' w₀ := by
  have hex : ∀ p : SearchStep → Prop, (∀ s, p s → s.stepType ≠ .synthesize) →
      ((∃ s ∈ w'.db.steps, s.runId = runId ∧ p s) ↔ ∃ s ∈ w.db.steps, s.runId = runId ∧ p s) := by
    intro p hp
    constructor
    · rintro ⟨s, hs, hrun, hps⟩
      exact ⟨s, (hrows s hrun (hp s hps)).mp hs, hrun, hps⟩
    · rintro ⟨s, hs, hrun, hps⟩
      exact ⟨s, (hrows s hrun (hp s hps)).mpr hs, hrun, hps⟩
  have hassigned : ∀ s : SearchStep, s.isAssigned → s.stepType ≠ .synthesize := by
    rintro s ((hs | hs) | hs) <;> simp [hs]
  have hkind : ∀ {s : SearchStep} {ty : StepType}, s.stepType = ty → ty ≠ .synthesize →
      s.stepType ≠ .synthesize := by
    rintro s ty rfl hne
    exact hne
  refine ⟨mode_after h.mode hruns, ?_, ?_, ?_, ?_, ?_, ?_⟩
  · intro s hrun hlt
    rw [hrows s hrun (by intro hs; simp [hs, StepType.level] at hlt)]
    exact h.lower s hrun hlt
  · intro key
    rw [hex _ fun s hs => hkind hs.1 (by simp)]
    exact h.fetched key
  · intro key
    rw [hex _ fun s hs => hkind hs.1 (by simp), hex _ fun s hs => hkind hs.1 (by simp)]
    exact h.extracts key
  · intro ho s hs hrun has
    exact h.ended (isOpen_before h.mode hruns ho) s ((hrows s hrun (hassigned s has)).mp hs) hrun has
  · intro v hv hrun hty
    obtain ⟨hended, planRef, refs, hin, hne, hrefs⟩ :=
      h.verified v ((hrows v hrun (hkind hty (by simp))).mp hv) hrun hty
    refine ⟨fun s hs hsrun hsrc => hended s ((hrows s hsrun (hassigned s (.inl hsrc))).mp hs) hsrun
      hsrc, planRef, refs, hin, hne, fun ref => ?_⟩
    rw [hrefs ref, hex _ fun s hs => hkind hs.1 (by simp)]
  · intro s hs hrun hty
    obtain ⟨o, ho, horun, hoty, hoin⟩ := hsyn s hs hrun hty
    obtain ⟨hended, i, last, hin, hsel, hcodes, hlast⟩ := h.synthesized o ho horun hoty
    refine ⟨fun a ha harun has => hended a ((hrows a harun (hassigned a has)).mp ha) harun has,
      i, last, hoin.symm.trans hin, fun sel hs hsrun hsty =>
        hsel sel ((hrows sel hsrun (hkind hsty (by simp))).mp hs) hsrun hsty, ?_, ?_⟩
    · intro c
      rw [hcodes c, hex _ fun s hs => hs.1]
    · cases hlast with
      | verify v hv hvrun hvty hl =>
          exact .verify v ((hrows v hvrun (hkind hvty (by simp))).mpr hv) hvrun hvty hl
      | source hnone hempty u hu hurun hsrc hbad hl =>
          refine .source ?_ ?_ u ((hrows u hurun (hassigned u (.inl hsrc))).mpr hu) hurun hsrc hbad hl
          · intro v hv hvrun hvty
            exact hnone v ((hrows v hvrun (hkind hvty (by simp))).mp hv) hvrun hvty
          · intro x hx hxrun hxty
            exact hempty x ((hrows x hxrun (hkind hxty (by simp))).mp hx) hxrun hxty

/-! ## A step of the fetch stage moves -/

/-- A step the run goes on with, seen from the row that has just ended. -/
inductive Next (ports : Ports) (db : Db) (runId : Uuid) (cur cur' : SearchStep) (o : Outcome)
    (s : SearchStep) : Prop
  | intro (r : SearchRun) (step : SearchStep) (hending : Ending db r cur step) (hid : r.id = runId)
      (hstep : step.EndedAs o) (hrow : cur'.EndedAs o) (hfollows : Follows ports db r step o s)

/-- What happens to the fetch stage: one of its steps is rewritten, and what follows is added. -/
structure Stage (ports : Ports) (runId : Uuid) (σ : Assignment) (w w' : World)
    (cur cur' : SearchStep) (new : List SearchStep) : Prop where
  run : cur.runId = runId
  level : cur.stepType.level = 4
  next : ∀ s ∈ new, Next ports w.db runId cur cur' (σ cur.stepKey) s
  extract : cur.stepType = .fetch → cur'.status = .succeeded →
    ∃ s ∈ new, s.stepType = .extract ∧ s.stepKey = extractKey cur'
  ended : IsOpen w' runId → cur'.isTerminal = true → cur'.EndedAs (σ cur.stepKey)

namespace Stage

variable {who : Actor} {cur cur' : SearchStep} {run run' : SearchRun} {new : List SearchStep}

/-- What is added is an extract, the verification or the synthesis. -/
theorem kind (h : Stage ports runId σ w w' cur cur' new) {s : SearchStep} (hs : s ∈ new) :
    s.stepType = .extract ∧ cur.stepType = .fetch ∨ s.stepType = .verify ∨
      s.stepType = .synthesize := by
  obtain ⟨r, step, he, -, -, -, hf⟩ := h.next s hs
  cases hf with
  | extract hty _ hfetch => exact .inl ⟨hty, he.same.stepType.symm.trans hfetch⟩
  | verify hty => exact .inr (.inl hty)
  | synthesis hty => exact .inr (.inr hty)

/-- A row of the run that is not of this stage stays. -/
theorem mem_of_level (h : Stage ports runId σ w w' cur cur' new)
    (m : Move who w.db w'.db cur cur' run run' new) {s : SearchStep}
    (hlt : s.stepType.level < 4) : s ∈ w'.db.steps ↔ s ∈ w.db.steps := by
  have hlevel := h.level
  constructor
  · intro hs
    rcases m.mem_steps.mp hs with rfl | ⟨hold, -⟩ | hnew
    · rw [m.same.stepType] at hlt
      omega
    · exact hold
    · have := (m.sched s hnew).above
      rw [m.same.stepType] at this
      omega
  · intro hs
    refine m.mem_steps.mpr (.inr (.inl ⟨hs, fun hid => ?_⟩))
    rw [eq_of_key_eq w.db.valid.pk_steps hs m.cur_mem hid] at hlt
    omega

theorem fetched (h : Stage ports runId σ w w' cur cur' new)
    (m : Move who w.db w'.db cur cur' run run' new) (key : String) :
    (∃ f ∈ w'.db.steps, f.runId = runId ∧ f.stepType = .fetch ∧ f.stepKey = key) ↔
      ∃ f ∈ w.db.steps, f.runId = runId ∧ f.stepType = .fetch ∧ f.stepKey = key := by
  constructor
  · rintro ⟨f, hf, hrun, hty, hkey⟩
    rcases m.mem_steps.mp hf with rfl | ⟨hold, -⟩ | hnew
    · exact ⟨cur, m.cur_mem, h.run, m.same.stepType.symm.trans hty, m.same.stepKey.symm.trans hkey⟩
    · exact ⟨f, hold, hrun, hty, hkey⟩
    · rcases h.kind hnew with ⟨hk, -⟩ | hk | hk <;> rw [hty] at hk <;> cases hk
  · rintro ⟨f, hf, hrun, hty, hkey⟩
    by_cases hid : f.id = cur.id
    · have hfc : f = cur := eq_of_key_eq w.db.valid.pk_steps hf m.cur_mem hid
      subst hfc
      exact ⟨cur', m.mem_steps.mpr (.inl rfl), m.same.runId.trans hrun, m.same.stepType.trans hty,
        m.same.stepKey.trans hkey⟩
    · exact ⟨f, m.mem_steps.mpr (.inr (.inl ⟨hf, hid⟩)), hrun, hty, hkey⟩

theorem extracts (h : Stage ports runId σ w w' cur cur' new)
    (m : Move who w.db w'.db cur cur' run run' new) (hfan : Fan ports runId σ w w₀) (key : String) :
    (∃ x ∈ w'.db.steps, x.runId = runId ∧ x.stepType = .extract ∧ x.stepKey = key) ↔
      ∃ f ∈ w'.db.steps, f.runId = runId ∧ f.stepType = .fetch ∧ f.status = .succeeded ∧
        extractKey f = key := by
  -- a fetch that had succeeded stays
  have fetch_stays : (∃ f ∈ w.db.steps, f.runId = runId ∧ f.stepType = .fetch ∧
      f.status = .succeeded ∧ extractKey f = key) →
      ∃ f ∈ w'.db.steps, f.runId = runId ∧ f.stepType = .fetch ∧ f.status = .succeeded ∧
        extractKey f = key := by
    rintro ⟨f, hf, hrun, hty, hst, hkey⟩
    have hterm : f.isTerminal = true := by simp [SearchStep.isTerminal, hst, StepStatus.isTerminal]
    exact ⟨f, m.mem_of_terminal hf hterm, hrun, hty, hst, hkey⟩
  constructor
  · rintro ⟨x, hx, hrun, hty, hkey⟩
    rcases m.mem_steps.mp hx with rfl | ⟨hold, -⟩ | hnew
    · exact fetch_stays ((hfan.extracts key).mp ⟨cur, m.cur_mem, h.run,
        m.same.stepType.symm.trans hty, m.same.stepKey.symm.trans hkey⟩)
    · exact fetch_stays ((hfan.extracts key).mp ⟨x, hold, hrun, hty, hkey⟩)
    · obtain ⟨r, step, he, -, -, hrow, hf⟩ := h.next x hnew
      cases hf with
      | extract _ hxkey hfetch hok =>
          refine ⟨cur', m.mem_steps.mpr (.inl rfl), m.same.runId.trans h.run,
            (m.same.stepType.trans he.same.stepType.symm).trans hfetch, ?_, ?_⟩
          · rw [hrow.status]
            exact Outcome.status_eq_succeeded.mpr hok
          · rw [← hkey, hxkey, extractKey, extractKey, m.same.stepKey, he.same.stepKey]
      | verify hk => rw [hty] at hk; cases hk
      | synthesis hk => rw [hty] at hk; cases hk
  · rintro ⟨f, hf, hrun, hty, hst, hkey⟩
    rcases m.mem_steps.mp hf with rfl | ⟨hold, -⟩ | hnew
    · obtain ⟨s, hs, hsty, hskey⟩ := h.extract (m.same.stepType.symm.trans hty) hst
      exact ⟨s, m.mem_steps.mpr (.inr (.inr hs)),
        ((m.sched s hs).runId.trans m.run_id).trans h.run, hsty, hskey.trans hkey⟩
    · obtain ⟨x, hx, hxrun, hxty, hxkey⟩ := (hfan.extracts key).mpr ⟨f, hold, hrun, hty, hst, hkey⟩
      by_cases hid : x.id = cur.id
      · have hxc : x = cur := eq_of_key_eq w.db.valid.pk_steps hx m.cur_mem hid
        subst hxc
        exact ⟨cur', m.mem_steps.mpr (.inl rfl), m.same.runId.trans hxrun,
          m.same.stepType.trans hxty, m.same.stepKey.trans hxkey⟩
      · exact ⟨x, m.mem_steps.mpr (.inr (.inl ⟨hx, hid⟩)), hxrun, hxty, hxkey⟩
    · rcases h.kind hnew with ⟨hk, -⟩ | hk | hk <;> rw [hty] at hk <;> cases hk

/-- Every step of the run that has ended did so as assigned, while the run is open. -/
theorem ended_rows (h : Stage ports runId σ w w' cur cur' new)
    (m : Move who w.db w'.db cur cur' run run' new) (hfan : Fan ports runId σ w w₀)
    (hruns : ∀ r ∈ w.db.runs, ∃ r' ∈ w'.db.runs, r.Kept r') (hopen : IsOpen w' runId) :
    ∀ s ∈ w'.db.steps, s.runId = runId → s.isAssigned → s.isTerminal = true →
      s.EndedAs (σ s.stepKey) := by
  intro s hs hrun has hterm
  rcases m.mem_steps.mp hs with rfl | ⟨hold, -⟩ | hnew
  · rw [m.same.stepKey]
    exact h.ended hopen hterm
  · exact hfan.ended (isOpen_before hfan.mode hruns hopen) s hold hrun has hterm
  · simp [SearchStep.isTerminal, (m.sched s hnew).status, StepStatus.isTerminal] at hterm

/-- A run that gets more steps is open. -/
theorem isOpen_of_new (h : Stage ports runId σ w w' cur cur' new)
    (m : Move who w.db w'.db cur cur' run run' new) {s : SearchStep} (hs : s ∈ new) :
    IsOpen w' runId := by
  refine ⟨run', m.mem_runs.mpr (.inl rfl), (m.run_id'.trans m.run_id).trans h.run, ?_⟩
  cases ht : run'.isTerminal with
  | false => rfl
  | true =>
      rw [m.orderly.closed ht] at hs
      cases hs

/-- Seen from the step in memory or from the row it leaves, a row has the same status. -/
theorem statusOf_eq {db : Db} {r : SearchRun} {step : SearchStep} {o : Outcome}
    (he : Ending db r cur step) (hsame : cur.Same cur') (hstep : step.EndedAs o)
    (hrow : cur'.EndedAs o) (row : SearchStep) :
    Coordinator.statusOf row step = Coordinator.statusOf row cur' ∧
      outputAfter row step = outputAfter row cur' := by
  have hid : step.id = cur'.id := he.same.id.trans hsame.id.symm
  simp only [Coordinator.statusOf, outputAfter, hid, hstep.status, hrow.status, hstep.outputRef,
    hrow.outputRef, and_self]

/-- A row that the coordinator saw ended has ended. -/
theorem terminal_of_not_isLive {db : Db} {r : SearchRun} {step s : SearchStep} {o : Outcome}
    (he : Ending db r cur step) (hsame : cur.Same cur') (hstep : step.EndedAs o)
    (hrow : cur'.EndedAs o) (hne : s.id ≠ cur.id) (hl : Coordinator.isLive s step = false) :
    s.isTerminal = true := by
  rw [Coordinator.isLive, (statusOf_eq he hsame hstep hrow s).1, Coordinator.statusOf,
    if_neg (by rwa [hsame.id])] at hl
  simpa [SearchStep.isTerminal] using hl

theorem verified (h : Stage ports runId σ w w' cur cur' new)
    (m : Move who w.db w'.db cur cur' run run' new) (hfan : Fan ports runId σ w w₀)
    (hruns : ∀ r ∈ w.db.runs, ∃ r' ∈ w'.db.runs, r.Kept r') :
    ∀ v ∈ w'.db.steps, v.runId = runId → v.stepType = .verify → Verified runId σ w' v := by
  intro v hv hrun hty
  -- a verification that was there: its sources have ended, so it is the one that moves
  have old : ∀ o ∈ w.db.steps, o.runId = runId → o.stepType = .verify → o.input = v.input →
      Verified runId σ w' v := by
    intro o ho horun hoty hin
    obtain ⟨hended, planRef, refs, hoin, hne, hrefs⟩ := hfan.verified o ho horun hoty
    have hcur : cur.stepType = .verify := by
      rcases SearchStep.isAssigned_iff.mpr h.level with hsrc | hver
      · have := (hended cur m.cur_mem h.run hsrc).isTerminal
        rw [m.cur_live] at this
        cases this
      · exact hver
    have hsame : ∀ s, s.isSource → (s ∈ w'.db.steps ↔ s ∈ w.db.steps) := by
      intro s hsrc
      constructor
      · intro hs
        rcases m.mem_steps.mp hs with rfl | ⟨hold, -⟩ | hnew
        · rcases hsrc with hk | hk <;> rw [m.same.stepType, hcur] at hk <;> cases hk
        · exact hold
        · rcases h.kind hnew with ⟨-, hk⟩ | hk | hk
          · rw [hcur] at hk
            cases hk
          · rcases hsrc with hx | hx <;> rw [hk] at hx <;> cases hx
          · rcases hsrc with hx | hx <;> rw [hk] at hx <;> cases hx
      · intro hs
        refine m.mem_steps.mpr (.inr (.inl ⟨hs, fun hid => ?_⟩))
        rw [eq_of_key_eq w.db.valid.pk_steps hs m.cur_mem hid] at hsrc
        rcases hsrc with hk | hk <;> rw [hcur] at hk <;> cases hk
    refine ⟨fun s hs hsrun hsrc => hended s ((hsame s hsrc).mp hs) hsrun hsrc, planRef, refs,
      hin.symm.trans hoin, hne, fun ref => ?_⟩
    rw [hrefs ref]
    refine exists_congr fun x => ?_
    constructor
    · rintro ⟨hx, hxrun, hxty, hout⟩
      exact ⟨(hsame x (.inr hxty)).mpr hx, hxrun, hxty, hout⟩
    · rintro ⟨hx, hxrun, hxty, hout⟩
      exact ⟨(hsame x (.inr hxty)).mp hx, hxrun, hxty, hout⟩
  rcases m.mem_steps.mp hv with rfl | ⟨hold, -⟩ | hnew
  · exact old cur m.cur_mem h.run (m.same.stepType.symm.trans hty) m.same.input.symm
  · exact old v hold hrun hty rfl
  · obtain ⟨r, step, he, hid, hstep, hrow, hf⟩ := h.next v hnew
    cases hf with
    | extract hk => rw [hty] at hk; cases hk
    | synthesis hk => rw [hty] at hk; cases hk
    | verify _ planRef refs hin hrefs hne hdone =>
        have hopen := h.isOpen_of_new m hnew
        refine ⟨?_, planRef, refs, hin, hne, ?_⟩
        · intro s hs hsrun hsrc
          refine h.ended_rows m hfan hruns hopen s hs hsrun (.inl hsrc) ?_
          rcases m.mem_steps.mp hs with rfl | ⟨hold, hne'⟩ | hsnew
          · exact hrow.isTerminal
          · exact terminal_of_not_isLive he m.same hstep hrow hne'
              (hdone s hold (hsrun.trans hid.symm) hsrc)
          · -- only the verification was added
            obtain ⟨k, hk⟩ := m.kind
            rcases hsrc with hx | hx <;> rw [hk s hsnew, ← hk v hnew, hty] at hx <;> cases hx
        · intro ref
          rw [hrefs, he.mem_outputsOf, hid]
          simp only [(statusOf_eq he m.same hstep hrow _).2]
          exact m.exists_after (p := fun ty _ out => ty = .extract ∧ out = some ref) (by simp)

/-- The last code comes from the step that has just ended. -/
theorem lastCodes (h : Stage ports runId σ w w' cur cur' new)
    (m : Move who w.db w'.db cur cur' run run' new) {r : SearchRun} {step s : SearchStep}
    (he : Ending w.db r cur step) (hid : r.id = runId) (hstep : step.EndedAs (σ cur.stepKey))
    (hrow : cur'.EndedAs (σ cur.stepKey)) (hs : s ∈ new) (hsyn : s.stepType = .synthesize)
    (hwhy : step.stepType = .verify ∨ (∀ row ∈ w.db.steps, row.runId = r.id →
        row.stepType ≠ .verify) ∧
      Coordinator.outputsOf .extract (w.db.stepRows r.id) step = [] ∧
      (step.stepType = .fetch → (σ cur.stepKey).isSuccess = false)) :
    LastCodes runId σ w' (σ cur.stepKey).codes := by
  have hmem : cur' ∈ w'.db.steps := m.mem_steps.mpr (.inl rfl)
  have hrun' : cur'.runId = runId := m.same.runId.trans h.run
  rcases hwhy with hver | ⟨hnone, hempty, hfetch⟩
  · refine .verify cur' hmem hrun' ?_ (by rw [m.same.stepKey])
    exact (m.same.stepType.trans he.same.stepType.symm).trans hver
  · have hnever : cur.stepType ≠ .verify := hnone cur m.cur_mem (h.run.trans hid.symm)
    have hsrc : cur.isSource := (SearchStep.isAssigned_iff.mpr h.level).resolve_right hnever
    have hnoref : ∀ ref, ¬ ∃ row ∈ w'.db.steps, row.runId = runId ∧ row.stepType = .extract ∧
        row.outputRef = some ref := by
      intro ref hex
      have hmemref : ref ∈ Coordinator.outputsOf .extract (w.db.stepRows r.id) step := by
        rw [he.mem_outputsOf, hid]
        simp only [(statusOf_eq he m.same hstep hrow _).2]
        exact (m.exists_after (p := fun ty _ out => ty = .extract ∧ out = some ref)
          (by simp)).mpr hex
      rw [hempty] at hmemref
      cases hmemref
    refine .source ?_ ?_ cur' hmem hrun' ?_ ?_ (by rw [m.same.stepKey])
    · intro v hv hvrun hvty
      rcases m.mem_steps.mp hv with rfl | ⟨hold, -⟩ | hnew
      · exact hnever (m.same.stepType.symm.trans hvty)
      · exact hnone v hold (hvrun.trans hid.symm) hvty
      · obtain ⟨k, hk⟩ := m.kind
        rw [hk v hnew, ← hk s hs, hsyn] at hvty
        cases hvty
    · intro x hx hxrun hxty
      cases hout : x.outputRef with
      | none => rfl
      | some ref => exact absurd ⟨x, hx, hxrun, hxty, hout⟩ (hnoref ref)
    · rcases hsrc with hk | hk
      · exact .inl (m.same.stepType.trans hk)
      · exact .inr (m.same.stepType.trans hk)
    · rw [m.same.stepKey]
      rcases hsrc with hk | hk
      · exact hfetch (he.same.stepType.trans hk)
      · -- an extract that succeeded would be something to verify
        by_contra hok
        rw [Bool.not_eq_false, Outcome.isSuccess, Option.isSome_iff_exists] at hok
        obtain ⟨ref, href⟩ := hok
        exact hnoref ref ⟨cur', hmem, hrun', m.same.stepType.trans hk, hrow.outputRef.trans href⟩

/-- The provider failures are those the run's selection reports. -/
theorem selectionFailures_eq (h : Stage ports runId σ w w' cur cur' new)
    (m : Move who w.db w'.db cur cur' run run' new) (hi : WInv w) {r : SearchRun}
    {step : SearchStep} {failures : Int} (he : Ending w.db r cur step) (hid : r.id = runId)
    (hfail : Coordinator.selectionFailures ports (w.db.stepRows r.id) step = .ok failures) :
    ∀ sel ∈ w'.db.steps, sel.runId = runId → sel.stepType = .select → ∀ ref,
      sel.outputRef = some ref → ∃ p, ports.artifacts ref = some p ∧
        failures = p.providerFailures := by
  intro sel hsel hrun hty ref hout
  have hsel' : sel ∈ w.db.steps := (h.mem_of_level m (by rw [hty]; decide)).mp hsel
  have hstep : step.stepType ≠ .select := by
    intro hk
    have := h.level
    rw [← he.same.stepType, hk] at this
    cases this
  have hfound : ∃ x, (w.db.stepRows r.id).find? (·.stepType = .select) = some x := by
    rw [← Option.isSome_iff_exists, List.find?_isSome]
    exact ⟨sel, by simp [hsel', hrun, hid], by simp [hty]⟩
  obtain ⟨x, hx⟩ := hfound
  have hxmem := List.mem_of_find?_eq_some hx
  rw [Tables.mem_stepRows] at hxmem
  have hxty : x.stepType = .select := by simpa using List.find?_some hx
  have hxsel : x = sel := step_unique hi.shape hxmem.1 hsel'
    ((hxmem.2.trans hid).trans hrun.symm) (hxty.trans hty.symm) (.inl hxty)
  have href : Coordinator.selectRef (w.db.stepRows r.id) step = some ref := by
    rw [Coordinator.selectRef, if_neg (fun hc => hstep hc.1), hx, hxsel]
    exact hout
  rw [Coordinator.selectionFailures, href] at hfail
  obtain ⟨p, hp, hpf⟩ := map_ok_iff.mp hfail
  unfold Coordinator.payload at hp
  split at hp
  · rename_i q hq
    obtain rfl := Except.ok.inj hp
    exact ⟨q, hq, hpf.symm⟩
  · cases hp

theorem synthesized (h : Stage ports runId σ w w' cur cur' new)
    (m : Move who w.db w'.db cur cur' run run' new) (hfan : Fan ports runId σ w w₀) (hi : WInv w)
    (hruns : ∀ r ∈ w.db.runs, ∃ r' ∈ w'.db.runs, r.Kept r') :
    ∀ s ∈ w'.db.steps, s.runId = runId → s.stepType = .synthesize →
      Synthesized ports runId σ w' s := by
  intro s hs hrun hty
  rcases m.mem_steps.mp hs with rfl | ⟨hold, -⟩ | hnew
  · have := h.level
    rw [← m.same.stepType, hty] at this
    cases this
  · -- nothing below a synthesis is live
    have hterm := hi.shape.layered cur m.cur_mem s hold (h.run.trans hrun.symm)
      (by rw [h.level, hty]; decide)
    rw [m.cur_live] at hterm
    cases hterm
  · obtain ⟨r, step, he, hid, hstep, hrow, hf⟩ := h.next s hnew
    cases hf with
    | extract hk => rw [hty] at hk; cases hk
    | verify hk => rw [hty] at hk; cases hk
    | synthesis _ i hin hcodes hfail hdone hwhy =>
        have hopen := h.isOpen_of_new m hnew
        refine ⟨?_, i, (σ cur.stepKey).codes, hin, h.selectionFailures_eq m hi he hid hfail, ?_,
          h.lastCodes m he hid hstep hrow hnew hty hwhy⟩
        · intro a ha harun has
          have hns : a.stepType ≠ .synthesize := by
            rcases has with (hk | hk) | hk <;> simp [hk]
          refine h.ended_rows m hfan hruns hopen a ha harun has ?_
          rcases m.mem_steps.mp ha with rfl | ⟨hold, hne⟩ | hanew
          · exact hrow.isTerminal
          · exact terminal_of_not_isLive he m.same hstep hrow hne
              (hdone a hold (harun.trans hid.symm) hns)
          · obtain ⟨k, hk⟩ := m.kind
            rw [hk a hanew, ← hk s hnew] at hns
            exact absurd hty hns
        · intro c
          rw [hcodes, mem_sortedSet, List.mem_append, mem_rowCodes]
          refine or_congr_right ?_
          simp only [List.mem_filter, Tables.mem_stepRows, hid, decide_eq_true_eq, and_assoc,
            (statusOf_eq he m.same hstep hrow _).1]
          exact m.exists_after (p := fun ty st _ => ty ≠ .synthesize ∧ st.endedBadly = true ∧
            c = statusCode ty st) (by simp [StepStatus.endedBadly])

end Stage

/-- **A step of the fetch stage keeps the invariant.** -/
theorem Fan.stage {who : Actor} {cur cur' : SearchStep} {run run' : SearchRun}
    {new : List SearchStep} (hfan : Fan ports runId σ w w₀)
    (h : Stage ports runId σ w w' cur cur' new) (m : Move who w.db w'.db cur cur' run run' new)
    (hi : WInv w) (hruns : ∀ r ∈ w.db.runs, ∃ r' ∈ w'.db.runs, r.Kept r') :
    Fan ports runId σ w' w₀ where
  mode := mode_after hfan.mode hruns
  lower s hrun hlt := (h.mem_of_level m hlt).trans (hfan.lower s hrun hlt)
  fetched key := (h.fetched m key).trans (hfan.fetched key)
  extracts := h.extracts m hfan
  ended := h.ended_rows m hfan hruns
  verified := h.verified m hfan hruns
  synthesized := h.synthesized m hfan hi hruns

/-- Everything before the fetches has ended. -/
theorem Selected.terminal (hsel : Selected w₀ runId) (hi : WInv w₀) {s : SearchStep}
    (hs : s ∈ w₀.db.steps) (hrun : s.runId = runId) (hlt : s.stepType.level < 4) :
    s.isTerminal = true := by
  obtain ⟨sel, hmem, hselrun, hselty, hst⟩ := hsel.select
  by_cases hlow : s.stepType.level < 3
  · refine hi.shape.layered s hs sel hmem (hrun.trans hselrun.symm) ?_
    rw [hselty]
    exact hlow
  · have hty : s.stepType = .select := Ending.kind_of_level
      (show s.stepType.level = 3 by omega) (by decide)
    have : s = sel := step_unique hi.shape hs hmem (hrun.trans hselrun.symm)
      (hty.trans hselty.symm) (.inl hty)
    simp [this, SearchStep.isTerminal, hst, StepStatus.isTerminal]

/-- The invariant holds where the fetches start. -/
theorem Selected.fan (hsel : Selected w₀ runId) : Fan ports runId σ w₀ w₀ := by
  have hfetch : ∀ s ∈ w₀.db.steps, s.runId = runId → 4 ≤ s.stepType.level → s.stepType = .fetch :=
    fun s hs hrun hle => (hsel.fetches s hs hrun hle).1
  refine ⟨?_, fun s _ _ => Iff.rfl, fun key => Iff.rfl, ?_, ?_, ?_, ?_⟩
  · obtain ⟨r, hr, hid, hmode, -⟩ := hsel.run
    exact ⟨r, hr, hid, hmode⟩
  · intro key
    constructor
    · rintro ⟨x, hx, hrun, hty, -⟩
      have := hfetch x hx hrun (by simp [hty, StepType.level])
      rw [hty] at this
      cases this
    · rintro ⟨f, hf, hrun, hty, hst, -⟩
      have := (hsel.fetches f hf hrun (by simp [hty, StepType.level])).2
      simp [SearchStep.isTerminal, hst, StepStatus.isTerminal] at this
  · intro _ s hs hrun has hterm
    have := (hsel.fetches s hs hrun (Nat.le_of_eq (SearchStep.isAssigned_iff.mp has).symm)).2
    rw [hterm] at this
    cases this
  · intro v hv hrun hty
    have := hfetch v hv hrun (by simp [hty, StepType.level])
    rw [hty] at this
    cases this
  · intro s hs hrun hty
    have := hfetch s hs hrun (by simp [hty, StepType.level])
    rw [hty] at this
    cases this

/-- Where the synthesis moves, nothing is added. -/
theorem new_eq_nil_of_synthesis {who : Actor} {cur cur' : SearchStep} {run run' : SearchRun}
    {new : List SearchStep} (m : Move who w.db w'.db cur cur' run run' new) (hi' : WInv w')
    (hsyn : cur.stepType = .synthesize) : new = [] := by
  rw [List.eq_nil_iff_forall_not_mem]
  intro s hs
  have hsched := m.sched s hs
  have hsty : s.stepType = .synthesize := by
    have hab := hsched.above
    have hkey := hsched.key
    rw [m.same.stepType, hsyn] at hab
    revert hab hkey
    cases s.stepType <;> simp [StepType.level, KeyOk]
  have hcur : cur'.stepType = .synthesize := m.same.stepType.trans hsyn
  have : s = cur' := step_unique hi'.shape (m.mem_steps.mpr (.inr (.inr hs)))
    (m.mem_steps.mpr (.inl rfl)) ((hsched.runId.trans m.run_id).trans m.same.runId.symm)
    (hsty.trans hcur.symm) (.inr (.inr hsty))
  have hended := hsched.ended
  rw [← this, SearchStep.isTerminal, hsched.status] at hended
  cases hended

/-- What a transaction that follows the assignment does to the fetch stage. -/
theorem stage_of_move {call : Call} {cur cur' : SearchStep} {run run' : SearchRun}
    {new : List SearchStep} (hfan : Fan d.ports runId σ w w₀) (hi : WInv w)
    (hobeys : Obeys d runId σ w call) (hheld : call.Held w) (hcall : call.run d w = .ok w')
    (m : Move (call.actor d) w.db w'.db cur cur' run run' new) (hrun : cur.runId = runId)
    (hlevel : cur.stepType.level = 4) : Stage d.ports runId σ w w' cur cur' new := by
  have hruns : run.id = runId := m.run_id.trans hrun
  have hmode : run.mode = .research := by
    obtain ⟨r, hr, hid, hmode⟩ := hfan.mode
    rwa [eq_of_key_eq w.db.valid.pk_runs m.run_mem hr (hruns.trans hid.symm)]
  have hended : ∀ o, call.outcome = some o → cur'.isTerminal = true → IsOpen w' runId →
      o = σ cur.stepKey := by
    intro o ho hend hopen
    have := hobeys w' hcall hopen cur m.cur_mem hrun (SearchStep.isAssigned_iff.mpr hlevel)
      m.cur_live cur' (m.mem_steps.mpr (.inl rfl)) m.same.id hend
    exact Option.some.inj (ho.symm.trans this)
  have hisOpen : run'.isTerminal = false → IsOpen w' runId :=
    fun h => ⟨run', m.mem_runs.mpr (.inl rfl), m.run_id'.trans hruns, h⟩
  by_cases hask : cur'.isTerminal = true ∧ run.isTerminal = false ∧
      (run'.isTerminal = false ∨ cur'.status = .succeeded)
  · -- the coordinator was asked
    obtain ⟨hend, hopen, hleft⟩ := hask
    obtain ⟨o, ho, env, r, r', step, u, a⟩ := call_ended hi hheld hcall m hend hopen hleft
    have hver : cur.isSource → ∀ row ∈ w.db.steps, row.runId = r.id → row.stepType ≠ .verify := by
      intro hsrc row hr hrrun hty
      have := ((hfan.verified row hr (hrrun.trans (a.run_id.trans hruns)) hty).ended cur m.cur_mem
        hrun hsrc).isTerminal
      rw [m.cur_live] at this
      cases this
    obtain ⟨hall, hext⟩ := Outcome.advance_follows a.ending
      (by rw [SearchRun.mode, a.routing]; exact hmode) a.isOpen hlevel a.ended hver a.advance
    -- what was added shows that the run is still open
    have hkey : ∀ s ∈ new, o = σ cur.stepKey := by
      intro s hs
      refine hended o ho hend (hisOpen ?_)
      cases ht : run'.isTerminal with
      | false => rfl
      | true =>
          rw [m.orderly.closed ht] at hs
          cases hs
    have hstamp : ∀ {s x : SearchStep}, s = Uow.stamp env x → Follows d.ports w.db r step o x →
        Follows d.ports w.db r step o s := by
      rintro s x rfl hx
      cases hx with
      | extract hty hk hf hok => exact .extract hty hk hf hok
      | verify hty p refs hin hrefs hne hdone => exact .verify hty p refs hin hrefs hne hdone
      | synthesis hty i hin hc hf hdone hwhy => exact .synthesis hty i hin hc hf hdone hwhy
    refine ⟨hrun, hlevel, ?_, ?_, ?_⟩
    · intro s hs
      rw [← hkey s hs]
      have hs' := hs
      rw [a.scheduled, List.mem_map] at hs'
      obtain ⟨x, hx, hxs⟩ := hs'
      exact ⟨r, step, a.ending, a.run_id.trans hruns, a.ended, a.row, hstamp hxs.symm (hall x hx)⟩
    · intro hfetch hst
      rw [a.row.status, Outcome.status_eq_succeeded] at hst
      obtain ⟨x, hx, hxty, hxkey⟩ := hext hfetch hst
      refine ⟨Uow.stamp env x, by rw [a.scheduled]; exact List.mem_map_of_mem hx, hxty, ?_⟩
      rw [extractKey, m.same.stepKey, ← a.ending.same.stepKey]
      exact hxkey
    · intro hopen' hend'
      rw [← hended o ho hend' hopen']
      exact a.row
  · -- the step goes on, or its run has ended
    have hclosed : cur'.isTerminal = true → run'.isTerminal = true := by
      intro hend
      by_contra hopen
      rw [Bool.not_eq_true] at hopen
      exact hask ⟨hend, m.was_open hopen, .inl hopen⟩
    have hnil : new = [] := by
      rw [List.eq_nil_iff_forall_not_mem]
      intro s hs
      rw [m.orderly.closed (hclosed (m.sched s hs).ended)] at hs
      cases hs
    refine ⟨hrun, hlevel, by simp [hnil], ?_, ?_⟩
    · intro _ hst
      refine absurd ⟨by simp [SearchStep.isTerminal, hst, StepStatus.isTerminal], ?_, .inr hst⟩ hask
      cases ht : run.isTerminal with
      | false => rfl
      | true =>
          rcases m.orderly.cancelled ht with h | h <;> rw [hst] at h <;> cases h
    · rintro ⟨r, hr, hid, hopen⟩ hend
      rw [m.run_eq hr (hid.trans hruns.symm), hclosed hend] at hopen
      cases hopen

/-- **Preserved by every transaction that follows the assignment.** -/
theorem Fan.step (hfan : Fan d.ports runId σ w w₀) (hsel : Selected w₀ runId) (hi₀ : WInv w₀)
    (hi : WInv w) (hs : Moves d (Obeys d runId σ) w w') : Fan d.ports runId σ w' w₀ := by
  obtain ⟨call, hobeys, hheld, hcall⟩ := hs
  have hi' : WInv w' := winv_step hi (step_iff_call.mpr ⟨call, hheld, hcall⟩)
  have he := call_effect hi hheld hcall
  have hruns : ∀ r ∈ w.db.runs, ∃ r' ∈ w'.db.runs, r.Kept r' := fun r hr => he.run_persists hr
  -- where the rows of the run are the same, there is nothing to do
  have quiet : (∀ s, s.runId = runId → (s ∈ w'.db.steps ↔ s ∈ w.db.steps)) →
      Fan d.ports runId σ w' w₀ := by
    intro hrows
    refine hfan.congr (fun s hrun _ => hrows s hrun) ?_ hruns
    intro s hs hrun hty
    exact ⟨s, (hrows s hrun).mp hs, hrun, hty, rfl⟩
  cases he with
  | idle hsteps => exact quiet fun s _ => by rw [hsteps]
  | runWritten _ _ _ _ _ hsteps => exact quiet fun s _ => by rw [hsteps]
  | renewed _ _ _ _ _ _ hsteps => exact quiet fun s _ => by rw [hsteps]
  | submitted rows route hsub =>
      refine quiet fun s hrun => ?_
      rw [hsub.steps, List.mem_append, List.mem_singleton]
      refine or_iff_left ?_
      rintro rfl
      -- the run of a submission is new
      obtain ⟨sel, hmem, hselrun, hselty, -⟩ := hsel.select
      have hold := (hfan.lower sel hselrun (by rw [hselty]; decide)).mpr hmem
      exact submitted_runId hsub hold (hselrun.trans hrun.symm)
  | moved cur cur' run run' new m =>
      by_cases hrun : cur.runId = runId
      · have hlow : 4 ≤ cur.stepType.level := by
          by_contra hlt
          rw [Nat.not_le] at hlt
          have := hsel.terminal hi₀ ((hfan.lower cur hrun hlt).mp m.cur_mem) hrun hlt
          rw [m.cur_live] at this
          cases this
        by_cases hsyn : cur.stepType = .synthesize
        · have hnil := new_eq_nil_of_synthesis m hi' hsyn
          refine hfan.congr ?_ ?_ hruns
          · intro s _ hns
            rw [m.mem_steps, hnil]
            constructor
            · rintro (rfl | ⟨hold, -⟩ | hnew)
              · exact absurd (m.same.stepType.trans hsyn) hns
              · exact hold
              · cases hnew
            · intro hs
              refine .inr (.inl ⟨hs, fun hid => hns ?_⟩)
              rw [eq_of_key_eq w.db.valid.pk_steps hs m.cur_mem hid]
              exact hsyn
          · intro s hs hsrun hty
            rcases m.mem_steps.mp hs with rfl | ⟨hold, -⟩ | hnew
            · exact ⟨cur, m.cur_mem, hrun, hsyn, m.same.input.symm⟩
            · exact ⟨s, hold, hsrun, hty, rfl⟩
            · rw [hnil] at hnew
              cases hnew
        · have hlevel : cur.stepType.level = 4 := by
            have hkey := hi.shape.key cur m.cur_mem
            revert hlow hsyn hkey
            cases cur.stepType <;> simp [StepType.level, KeyOk]
          exact hfan.stage (stage_of_move hfan hi hobeys hheld hcall m hrun hlevel) m hi hruns
      · refine quiet fun s hsrun => ?_
        rw [m.mem_steps]
        constructor
        · rintro (rfl | ⟨hold, -⟩ | hnew)
          · exact absurd (m.same.runId.symm.trans hsrun) hrun
          · exact hold
          · exact absurd ((m.run_id.symm.trans (m.sched s hnew).runId.symm).trans hsrun) hrun
        · intro hs
          refine .inr (.inl ⟨hs, fun hid => hrun ?_⟩)
          rw [← eq_of_key_eq w.db.valid.pk_steps hs m.cur_mem hid]
          exact hsrun

/-- Every world on the way is reachable and keeps the invariant. -/
theorem fan_completions (hr : Reachable d w₀) (hsel : Selected w₀ runId)
    (hw : Completions d runId σ w₀ w) : Reachable d w ∧ Fan d.ports runId σ w w₀ := by
  induction hw with
  | init h =>
      subst h
      exact ⟨hr, hsel.fan⟩
  | tail _ hs ih =>
      exact ⟨ih.1.tail hs.step, ih.2.step hsel (winv_reachable hr) (winv_reachable ih.1) hs⟩

/-! ## The rows and the assignment -/

theorem extractKey_congr {f g : SearchStep} (h : f.stepKey = g.stepKey) :
    extractKey f = extractKey g := by
  rw [extractKey, extractKey, h]

/-- Once all sources have ended, they are those the assignment runs. -/
theorem Fan.mem_sourcesOf (hfan : Fan ports runId σ w w₀)
    (hended : ∀ s ∈ w.db.steps, s.runId = runId → s.isSource → s.EndedAs (σ s.stepKey))
    {ty : StepType} {key : String} :
    (ty, key) ∈ sourcesOf w₀ runId σ ↔ ∃ s ∈ w.db.steps, s.runId = runId ∧ s.isSource ∧
      s.stepType = ty ∧ s.stepKey = key := by
  simp only [sourcesOf, fetchesOf, List.mem_flatMap, List.mem_filter, Bool.and_eq_true,
    decide_eq_true_eq, List.mem_cons, Prod.mk.injEq]
  constructor
  · rintro ⟨f, ⟨hf, hrun, hty⟩, hx⟩
    obtain ⟨g, hg, hgrun, hgty, hgkey⟩ := (hfan.fetched f.stepKey).mpr ⟨f, hf, hrun, hty, rfl⟩
    rcases hx with ⟨rfl, rfl⟩ | hx
    · exact ⟨g, hg, hgrun, .inl hgty, hgty, hgkey⟩
    · split at hx
      · rename_i hok
        rw [List.mem_singleton, Prod.mk.injEq] at hx
        obtain ⟨rfl, rfl⟩ := hx
        have hgst : g.status = .succeeded := by
          rw [(hended g hg hgrun (.inl hgty)).status, hgkey]
          exact Outcome.status_eq_succeeded.mpr hok
        obtain ⟨x, hx, hxrun, hxty, hxkey⟩ := (hfan.extracts (extractKey f)).mpr
          ⟨g, hg, hgrun, hgty, hgst, extractKey_congr hgkey⟩
        exact ⟨x, hx, hxrun, .inr hxty, hxty, hxkey⟩
      · cases hx
  · rintro ⟨s, hs, hrun, hsrc, rfl, rfl⟩
    rcases hsrc with hty | hty
    · obtain ⟨f, hf, hfrun, hfty, hfkey⟩ := (hfan.fetched s.stepKey).mp ⟨s, hs, hrun, hty, rfl⟩
      exact ⟨f, ⟨hf, hfrun, hfty⟩, .inl ⟨hty, hfkey.symm⟩⟩
    · obtain ⟨g, hg, hgrun, hgty, hgst, hgkey⟩ :=
        (hfan.extracts s.stepKey).mp ⟨s, hs, hrun, hty, rfl⟩
      obtain ⟨f, hf, hfrun, hfty, hfkey⟩ := (hfan.fetched g.stepKey).mp ⟨g, hg, hgrun, hgty, rfl⟩
      have hok : (σ f.stepKey).isSuccess = true := by
        rw [← Outcome.status_eq_succeeded, hfkey, ← (hended g hg hgrun (.inl hgty)).status]
        exact hgst
      refine ⟨f, ⟨hf, hfrun, hfty⟩, .inr ?_⟩
      rw [if_pos hok, List.mem_singleton, Prod.mk.injEq]
      exact ⟨hty, by rw [← hgkey]; exact extractKey_congr hfkey.symm⟩

/-- Something was extracted, according to the rows and to the assignment. -/
theorem Fan.someExtracted_iff (hfan : Fan ports runId σ w w₀)
    (hended : ∀ s ∈ w.db.steps, s.runId = runId → s.isSource → s.EndedAs (σ s.stepKey)) :
    someExtracted w₀ runId σ = true ↔ ∃ x ∈ w.db.steps, x.runId = runId ∧ x.stepType = .extract ∧
      x.outputRef.isSome = true := by
  simp only [someExtracted, List.any_eq_true, Bool.and_eq_true, decide_eq_true_eq, Prod.exists,
    hfan.mem_sourcesOf hended]
  constructor
  · rintro ⟨_, _, ⟨x, hx, hrun, hsrc, rfl, rfl⟩, hty, hok⟩
    refine ⟨x, hx, hrun, hty, ?_⟩
    rw [(hended x hx hrun hsrc).outputRef]
    exact hok
  · rintro ⟨x, hx, hrun, hty, hout⟩
    refine ⟨_, _, ⟨x, hx, hrun, .inr hty, rfl, rfl⟩, hty, ?_⟩
    rw [Outcome.isSuccess, ← (hended x hx hrun (.inr hty)).outputRef]
    exact hout

/-- The codes the statuses give, according to the rows and to the assignment. -/
theorem Fan.statusCodes_iff (hfan : Fan ports runId σ w w₀)
    (hshape : Shape w.db.toTables)
    (hended : ∀ a ∈ w.db.steps, a.runId = runId → a.isAssigned → a.EndedAs (σ a.stepKey))
    {c : String} :
    (∃ row ∈ w.db.steps, row.runId = runId ∧ row.stepType ≠ .synthesize ∧
      row.status.endedBadly = true ∧ c = statusCode row.stepType row.status) ↔
    c ∈ statusCodes w₀ runId σ ∨ ∃ v ∈ w.db.steps, v.runId = runId ∧ v.stepType = .verify ∧
      (σ v.stepKey).isSuccess = false ∧ c = statusCode .verify (σ v.stepKey).status := by
  have hsources := fun s hs hrun hsrc => hended s hs hrun (.inl hsrc)
  have hbad : ∀ a ∈ w.db.steps, a.runId = runId → a.isAssigned →
      (a.status.endedBadly = true ↔ (σ a.stepKey).isSuccess = false) := by
    intro a ha harun has
    rw [(hended a ha harun has).status, Outcome.endedBadly_status]
    simp
  simp only [statusCodes, failingSources, List.mem_append, List.mem_map, List.mem_filter,
    Bool.and_eq_true, decide_eq_true_eq, Bool.not_eq_true', Prod.exists,
    hfan.mem_sourcesOf hsources]
  constructor
  · rintro ⟨row, hr, hrun, hns, hb, rfl⟩
    by_cases hlt : row.stepType.level < 4
    · exact .inl (.inl ⟨row, ⟨(hfan.lower row hrun hlt).mp hr, ⟨hrun, hlt⟩, hb⟩, rfl⟩)
    · have has : row.isAssigned := by
        rw [SearchStep.isAssigned_iff]
        have hkey := hshape.key row hr
        revert hlt hns hkey
        cases row.stepType <;> simp [StepType.level, KeyOk]
      have hfail := (hbad row hr hrun has).mp hb
      have hst := (hended row hr hrun has).status
      rcases has with hsrc | hver
      · exact .inl (.inr ⟨_, _, ⟨⟨row, hr, hrun, hsrc, rfl, rfl⟩, hfail⟩, by rw [hst]⟩)
      · exact .inr ⟨row, hr, hrun, hver, hfail, by rw [hver, hst]⟩
  · rintro ((⟨row, ⟨hr, ⟨hrun, hlt⟩, hb⟩, rfl⟩ | ⟨_, _, ⟨⟨s, hs, hrun, hsrc, rfl, rfl⟩, hfail⟩, rfl⟩) |
      ⟨v, hv, hrun, hty, hfail, rfl⟩)
    · refine ⟨row, (hfan.lower row hrun hlt).mpr hr, hrun, ?_, hb, rfl⟩
      intro hs
      simp [hs, StepType.level] at hlt
    · have hns : s.stepType ≠ .synthesize := by
        rcases hsrc with hk | hk <;> simp [hk]
      exact ⟨s, hs, hrun, hns, (hbad s hs hrun (.inl hsrc)).mpr hfail,
        by rw [(hended s hs hrun (.inl hsrc)).status]⟩
    · exact ⟨v, hv, hrun, by simp [hty], (hbad v hv hrun (.inr hty)).mpr hfail,
        by rw [hty, (hended v hv hrun (.inr hty)).status]⟩

/-! ## What synthesis is told -/

/-- The key of every verification. -/
theorem verify_key (hshape : Shape w.db.toTables) {v : SearchStep} (hv : v ∈ w.db.steps)
    (hty : v.stepType = .verify) : v.stepKey = "verify" := by
  have := hshape.key v hv
  rw [hty] at this
  exact this

/-- The verification that runs where something was extracted, as the assignment ends it. -/
def verifyCode (σ : Assignment) (c : String) : Prop :=
  (σ "verify").isSuccess = false ∧ c = statusCode .verify (σ "verify").status

/--
**The input of synthesis, by the assignment.** The last part is the codes of the
step that ended last: the verification's where something was extracted, and
otherwise those of some failing source.
-/
structure Describes (ports : Ports) (w₀ : World) (runId : Uuid) (σ : Assignment)
    (i : SynthesisInput) (last : List String) : Prop where
  verifyRef : ∀ ref, i.verifyRef = some ref ↔
    someExtracted w₀ runId σ = true ∧ (σ "verify").outputRef = some ref
  failures : ∀ sel ∈ w₀.db.steps, sel.runId = runId → sel.stepType = .select → ∀ ref,
    sel.outputRef = some ref → ∃ p, ports.artifacts ref = some p ∧
      i.providerFailures = p.providerFailures
  codes : ∀ c, c ∈ i.pipelineDegradationCodes ↔ c ∈ last ∨ c ∈ statusCodes w₀ runId σ ∨
    someExtracted w₀ runId σ = true ∧ verifyCode σ c
  last : someExtracted w₀ runId σ = true ∧ last = (σ "verify").codes ∨
    someExtracted w₀ runId σ = false ∧
      ∃ x ∈ failingSources w₀ runId σ, last = (σ x.2).codes

theorem Fan.told (hfan : Fan d.ports runId σ w w₀) (hr : Reachable d w) {s : SearchStep}
    (hs : s ∈ w.db.steps) (hrun : s.runId = runId) (hty : s.stepType = .synthesize) :
    ∃ i last, s.input = .synthesis i ∧ Describes d.ports w₀ runId σ i last := by
  have hshape := (winv_reachable hr).shape
  obtain ⟨hended, i, last, hin, hsel, hcodes, hlast⟩ := hfan.synthesized s hs hrun hty
  have hsources := fun s hs hrun hsrc => hended s hs hrun (.inl hsrc)
  -- there is a verification exactly where something was extracted
  have hver : (∃ v ∈ w.db.steps, v.runId = runId ∧ v.stepType = .verify) ↔
      someExtracted w₀ runId σ = true := by
    rw [hfan.someExtracted_iff hsources]
    constructor
    · rintro ⟨v, hv, hvrun, hvty⟩
      obtain ⟨-, planRef, refs, -, hne, hrefs⟩ := hfan.verified v hv hvrun hvty
      obtain ⟨ref, href⟩ := List.exists_mem_of_ne_nil refs hne
      obtain ⟨x, hx, hxrun, hxty, hout⟩ := (hrefs ref).mp href
      exact ⟨x, hx, hxrun, hxty, by simp [hout]⟩
    · rintro ⟨x, hx, hxrun, hxty, hout⟩
      cases hlast with
      | verify v hv hvrun hvty => exact ⟨v, hv, hvrun, hvty⟩
      | source _ hempty =>
          rw [hempty x hx hxrun hxty] at hout
          cases hout
  refine ⟨i, last, hin, ⟨?_, ?_, ?_, ?_⟩⟩
  · intro ref
    obtain ⟨j, hj, hiff⟩ := fanIn_reachable hr s hs hty
    obtain rfl := StepInput.synthesis.inj (hin.symm.trans hj)
    rw [hiff ref, ← hver]
    constructor
    · rintro ⟨v, hv, hvrun, hvty, hout⟩
      have hvrun' := hvrun.trans hrun
      refine ⟨⟨v, hv, hvrun', hvty⟩, ?_⟩
      rw [← verify_key hshape hv hvty, ← (hended v hv hvrun' (.inr hvty)).outputRef]
      exact hout
    · rintro ⟨⟨v, hv, hvrun, hvty⟩, hout⟩
      refine ⟨v, hv, hvrun.trans hrun.symm, hvty, ?_⟩
      rw [(hended v hv hvrun (.inr hvty)).outputRef, verify_key hshape hv hvty]
      exact hout
  · intro sel hmem hselrun hselty
    exact hsel sel ((hfan.lower sel hselrun (by rw [hselty]; decide)).mpr hmem) hselrun hselty
  · intro c
    rw [hcodes c, hfan.statusCodes_iff hshape hended, ← hver]
    refine or_congr_right (or_congr_right ?_)
    constructor
    · rintro ⟨v, hv, hvrun, hvty, hfail, hc⟩
      rw [verify_key hshape hv hvty] at hfail hc
      exact ⟨⟨v, hv, hvrun, hvty⟩, hfail, hc⟩
    · rintro ⟨⟨v, hv, hvrun, hvty⟩, hfail, hc⟩
      exact ⟨v, hv, hvrun, hvty, by rw [verify_key hshape hv hvty]; exact ⟨hfail, hc⟩⟩
  · cases hlast with
    | verify v hv hvrun hvty hl =>
        rw [verify_key hshape hv hvty] at hl
        exact .inl ⟨hver.mp ⟨v, hv, hvrun, hvty⟩, hl⟩
    | source hnone _ u hu hurun hsrc hbad hl =>
        refine .inr ⟨?_, (u.stepType, u.stepKey), ?_, hl⟩
        · rw [← Bool.not_eq_true, ← hver]
          rintro ⟨v, hv, hvrun, hvty⟩
          exact hnone v hv hvrun hvty
        · rw [failingSources, List.mem_filter]
          exact ⟨(hfan.mem_sourcesOf hsources).mpr ⟨u, hu, hurun, hsrc, rfl, rfl⟩, by simp [hbad]⟩

end Steps

/-! ## Confluence -/

/-- Two inputs tell synthesis the same. -/
structure SynthesisInput.Agrees (i j : SynthesisInput) : Prop where
  verifyRef : i.verifyRef = j.verifyRef
  providerFailures : i.providerFailures = j.providerFailures
  codes : ∀ c, c ∈ i.pipelineDegradationCodes ↔ c ∈ j.pipelineDegradationCodes

/-- The answer's stop reason does not depend on the order the codes come in. -/
theorem SynthesisInput.Agrees.stopReason {i j : SynthesisInput} (h : i.Agrees j)
    (b : Builtins) (rules : Answer.ClaimRules) (ctx : Answer.StepContext) (plan : Answer.Plan)
    (loaded : Answer.Verification) (reply : Option Evidence.ModelReply) :
    (Answer.synthesize b rules ctx i plan loaded reply).map (·.stopReason)
      = (Answer.synthesize b rules ctx j plan loaded reply).map (·.stopReason) := by
  have hver : Answer.verificationOf i loaded = Answer.verificationOf j loaded := by
    rw [Answer.verificationOf, Answer.verificationOf, h.verifyRef]
  have hempty : (i.pipelineDegradationCodes.filter (· ≠ "")).isEmpty
      = (j.pipelineDegradationCodes.filter (· ≠ "")).isEmpty := by
    rw [Bool.eq_iff_iff]
    simp [List.isEmpty_iff, List.filter_eq_nil_iff, h.codes]
  have hcontains : (i.pipelineDegradationCodes.filter (· ≠ "")).contains "phase_deadline_exceeded"
      = (j.pipelineDegradationCodes.filter (· ≠ "")).contains "phase_deadline_exceeded" := by
    rw [Bool.eq_iff_iff]
    simp [h.codes]
  have hdoc : ∀ facts coverage synthesized,
      (Answer.answerDocument b ctx i plan (Answer.verificationOf j loaded) facts coverage
        synthesized).stopReason
      = (Answer.answerDocument b ctx j plan (Answer.verificationOf j loaded) facts coverage
        synthesized).stopReason := by
    intro facts coverage synthesized
    simp only [Answer.answerDocument, Answer.partialReason, hempty, hcontains, h.providerFailures]
  simp only [Answer.synthesize, hver, bind, Except.bind]
  cases (Answer.verificationOf j loaded).evidence.mapM
      (Evidence.fromPayload b ctx.tenantId ctx.runId) with
  | error e => rfl
  | ok evidence =>
      dsimp only
      cases Answer.runSynthesizer b rules ctx (dictOf plan.facts)
          (Evidence.coverageOf ctx.tenantId ctx.runId evidence (dictOf plan.facts)) evidence reply with
      | error e => rfl
      | ok synthesized => exact congrArg Except.ok (hdoc _ _ synthesized)

/--
**Two worlds of one run agree** on what was given to its verification and to its
synthesis, and on the stop reason any synthesis derives from that.
-/
structure Confluent (runId : Uuid) (w₁ w₂ : World) : Prop where
  verify : ∀ v₁ ∈ w₁.db.steps, ∀ v₂ ∈ w₂.db.steps, v₁.runId = runId → v₂.runId = runId →
    v₁.stepType = .verify → v₂.stepType = .verify → ∃ planRef₁ planRef₂ refs₁ refs₂,
      v₁.input = .verify planRef₁ refs₁ ∧ v₂.input = .verify planRef₂ refs₂ ∧
      ∀ ref, ref ∈ refs₁ ↔ ref ∈ refs₂
  synthesis : ∀ s₁ ∈ w₁.db.steps, ∀ s₂ ∈ w₂.db.steps, s₁.runId = runId → s₂.runId = runId →
    s₁.stepType = .synthesize → s₂.stepType = .synthesize → ∃ i₁ i₂,
      s₁.input = .synthesis i₁ ∧ s₂.input = .synthesis i₂ ∧ i₁.Agrees i₂ ∧
      ∀ b rules ctx plan loaded reply,
        (Answer.synthesize b rules ctx i₁ plan loaded reply).map (·.stopReason)
          = (Answer.synthesize b rules ctx i₂ plan loaded reply).map (·.stopReason)

section Theorem

variable {d : Deployment} {runId : Uuid} {σ : Assignment} {w w₀ w₁ w₂ : World}

/-- What was extracted is fixed by the assignment. -/
theorem Fan.extracted_iff (hfan : Fan d.ports runId σ w w₀)
    (hended : ∀ s ∈ w.db.steps, s.runId = runId → s.isSource → s.EndedAs (σ s.stepKey))
    {ref : ArtifactRef} :
    (∃ x ∈ w.db.steps, x.runId = runId ∧ x.stepType = .extract ∧ x.outputRef = some ref) ↔
      ∃ key, (StepType.extract, key) ∈ sourcesOf w₀ runId σ ∧ (σ key).outputRef = some ref := by
  simp only [hfan.mem_sourcesOf hended]
  constructor
  · rintro ⟨x, hx, hrun, hty, hout⟩
    refine ⟨x.stepKey, ⟨x, hx, hrun, .inr hty, hty, rfl⟩, ?_⟩
    rw [← (hended x hx hrun (.inr hty)).outputRef]
    exact hout
  · rintro ⟨_, ⟨x, hx, hrun, hsrc, hty, rfl⟩, hout⟩
    exact ⟨x, hx, hrun, hty, (hended x hx hrun hsrc).outputRef.trans hout⟩

/-- Where it does not matter who ends last, the descriptions agree. -/
theorem Describes.agrees {ports : Ports} {i₁ i₂ : SynthesisInput} {last₁ last₂ : List String}
    (hlast : LastIsImmaterial w₀ runId σ) (hsel : Selected w₀ runId) (hi : WInv w₀)
    (h₁ : Describes ports w₀ runId σ i₁ last₁) (h₂ : Describes ports w₀ runId σ i₂ last₂) :
    i₁.Agrees i₂ := by
  -- one direction is enough, for any two descriptions
  have half : ∀ {j₁ j₂ : SynthesisInput} {l₁ l₂ : List String},
      Describes ports w₀ runId σ j₁ l₁ → Describes ports w₀ runId σ j₂ l₂ →
      ∀ c, c ∈ j₁.pipelineDegradationCodes → c ∈ j₂.pipelineDegradationCodes := by
    intro j₁ j₂ l₁ l₂ g₁ g₂ c hc
    rw [g₁.codes] at hc
    rw [g₂.codes]
    rcases hc with hc | hc
    · rcases g₁.last with ⟨hex, hl₁⟩ | ⟨hno, x, hx, hl₁⟩
      · rcases g₂.last with ⟨-, hl₂⟩ | ⟨hno, -⟩
        · rw [hl₁, ← hl₂] at hc
          exact .inl hc
        · rw [hex] at hno
          cases hno
      · rcases g₂.last with ⟨hex, -⟩ | ⟨-, y, hy, hl₂⟩
        · rw [hno] at hex
          cases hex
        · rw [hl₁] at hc
          -- the last to end failed, so it has a code
          obtain ⟨c', hc'⟩ : ∃ c', c' ∈ (σ y.2).codes := by
            rw [failingSources, List.mem_filter] at hy
            cases ho : σ y.2 with
            | success ref => simp [ho, Outcome.isSuccess, Outcome.outputRef] at hy
            | failure error => exact ⟨error.code, by simp [Outcome.codes]⟩
          rcases hlast with hex | hsame
          · rw [hno] at hex
            cases hex
          · rcases hsame x hx y hy c hc c' hc' with rfl | ⟨hmem, -⟩
            · rw [hl₂]
              exact .inl hc'
            · exact .inr (.inl hmem)
    · exact .inr hc
  refine ⟨?_, ?_, fun c => ⟨half h₁ h₂ c, half h₂ h₁ c⟩⟩
  · refine Option.ext fun ref => ?_
    rw [h₁.verifyRef, h₂.verifyRef]
  · obtain ⟨sel, hmem, hrun, hty, hst⟩ := hsel.select
    obtain ⟨ref, href⟩ := Option.isSome_iff_exists.mp ((hi.shape.output sel hmem).mp hst)
    obtain ⟨p, hp, hf₁⟩ := h₁.failures sel hmem hrun hty ref href
    obtain ⟨q, hq, hf₂⟩ := h₂.failures sel hmem hrun hty ref href
    obtain rfl := Option.some.inj (hp.symm.trans hq)
    exact hf₁.trans hf₂.symm

/--
**Completion order is immaterial where the last failing source is.** From the world
where a RESEARCH run has selected its sources, take any two ways to go on in which
its fetches, extracts and verification end as assigned, in any order and with
anything else in between. If something is extracted, or any two failing sources add
the same code, then the two ways give its verification the same extracts and its
synthesis the same input, and hence the same stop reason.
-/
theorem completion_confluent (hr : Reachable d w₀) (hsel : Selected w₀ runId)
    (hlast : LastIsImmaterial w₀ runId σ) (h₁ : Completions d runId σ w₀ w₁)
    (h₂ : Completions d runId σ w₀ w₂) : Confluent runId w₁ w₂ := by
  obtain ⟨hr₁, hfan₁⟩ := fan_completions hr hsel h₁
  obtain ⟨hr₂, hfan₂⟩ := fan_completions hr hsel h₂
  constructor
  · intro v₁ hv₁ v₂ hv₂ hrun₁ hrun₂ hty₁ hty₂
    obtain ⟨hended₁, p₁, refs₁, hin₁, -, hrefs₁⟩ := hfan₁.verified v₁ hv₁ hrun₁ hty₁
    obtain ⟨hended₂, p₂, refs₂, hin₂, -, hrefs₂⟩ := hfan₂.verified v₂ hv₂ hrun₂ hty₂
    refine ⟨p₁, p₂, refs₁, refs₂, hin₁, hin₂, fun ref => ?_⟩
    rw [hrefs₁, hrefs₂, hfan₁.extracted_iff hended₁, hfan₂.extracted_iff hended₂]
  · intro s₁ hs₁ s₂ hs₂ hrun₁ hrun₂ hty₁ hty₂
    obtain ⟨i₁, last₁, hin₁, hd₁⟩ := hfan₁.told hr₁ hs₁ hrun₁ hty₁
    obtain ⟨i₂, last₂, hin₂, hd₂⟩ := hfan₂.told hr₂ hs₂ hrun₂ hty₂
    have hagree := hd₁.agrees hlast hsel (winv_reachable hr) hd₂
    exact ⟨i₁, i₂, hin₁, hin₂, hagree, hagree.stopReason⟩

/-- What can be performed is a completion. -/
theorem completions_of_exec {actions : List Action}
    (h : actions.foldlM (execBy d (Obeys d runId σ)) w₀ = some w) :
    Completions d runId σ w₀ w := by
  refine Lib.Reachable.of_exec ?_ (.init rfl) h
  intro _ _ _ hstep
  exact execBy_moves d _ hstep

/-- A world before the sources and two after them, each with a property that can be checked. -/
theorem exists_completions (d : Deployment) (runId : Uuid) (σ : Assignment)
    (prelude first second : List Action) (p q₁ q₂ : World → Bool)
    (h : (perform d prelude).any (fun w₀ => p w₀ &&
      (first.foldlM (execBy d (Obeys d runId σ)) w₀).any q₁ &&
      (second.foldlM (execBy d (Obeys d runId σ)) w₀).any q₂) = true) :
    ∃ w₀ w₁ w₂, Reachable d w₀ ∧ Completions d runId σ w₀ w₁ ∧ Completions d runId σ w₀ w₂ ∧
      p w₀ = true ∧ q₁ w₁ = true ∧ q₂ w₂ = true := by
  obtain ⟨w₀, hw₀, h⟩ := (Option.any_eq_true _ _).mp h
  simp only [Bool.and_eq_true] at h
  obtain ⟨⟨hp, h₁⟩, h₂⟩ := h
  obtain ⟨w₁, hw₁, hq₁⟩ := (Option.any_eq_true _ _).mp h₁
  obtain ⟨w₂, hw₂, hq₂⟩ := (Option.any_eq_true _ _).mp h₂
  exact ⟨w₀, w₁, w₂, reachable_of_perform hw₀, completions_of_exec hw₁, completions_of_exec hw₂,
    hp, hq₁, hq₂⟩

end Theorem

/-! ## Two sources that fail -/

/-- A plan that asks one query, a selection of two sources, and empty objects. -/
def researchPayload (ref : ArtifactRef) : Payload :=
  if ref.uri = "plan" then { queries := [⟨"q", none⟩] }
  else if ref.uri = "selection" then
    { selected := [⟨"a", "web", [], none⟩, ⟨"b", "web", [], none⟩]
      planRef := some ⟨"plan", "00"⟩ }
  else {}

/-- A deployment whose steps write these. -/
def researching : Deployment :=
  { sample with ports := { sample.ports with artifacts := fun ref => some (researchPayload ref) } }

/-- A result without usage, under an address. -/
def outputAt (uri : String) : StepExecutionResult := ⟨⟨uri, "00"⟩, { phase := .routePlan }⟩

/-- A RESEARCH run up to its selection. -/
def selecting : List Action := [
  .create (sampleEnv 1) ⟨7#128⟩ "hello" none,
  .submit (sampleEnv 2) ⟨⟨7#128⟩, (sampleEnv 1).ids 0, "hello", "k1",
    ⟨.research, [], "search-v12"⟩⟩,
  .claim (sampleEnv 3) ((sampleEnv 2).ids 3) "worker",
  .succeed (sampleEnv 4) 0 (outputAt "route"),
  .claim (sampleEnv 5) ((sampleEnv 4).ids 0) "worker",
  .succeed (sampleEnv 6) 1 (outputAt "plan"),
  .claim (sampleEnv 7) ((sampleEnv 6).ids 0) "worker",
  .succeed (sampleEnv 8) 2 (outputAt "hits"),
  .claim (sampleEnv 9) ((sampleEnv 8).ids 0) "worker",
  .succeed (sampleEnv 10) 3 (outputAt "selection")]

/-- The run of that submission. -/
def selectingRun : Uuid := (sampleEnv 2).ids 2

/-- A fetch error. -/
def tooManyRedirects : TypedError :=
  ⟨.permanent, "too_many_redirects", "Fetch exceeded redirect limit", false⟩

/-- The run has its synthesis, and whether that was told of an exhausted phase. -/
def toldOfDeadline (told : Bool) (w : World) : Bool :=
  w.db.steps.any fun s => s.runId = selectingRun && s.stepType = .synthesize &&
    match s.input with
    | .synthesis i => i.pipelineDegradationCodes.contains "phase_deadline_exceeded" == told
    | _ => false

/-- Both sources fail with the same error, in either order. -/
theorem completion_confluent_sample :
    ∃ w₀ w₁ w₂, Reachable researching w₀ ∧ Selected w₀ selectingRun ∧
      (∃ s ∈ w₁.db.steps, s.runId = selectingRun ∧ s.stepType = .synthesize) ∧
      (∃ s ∈ w₂.db.steps, s.runId = selectingRun ∧ s.stepType = .synthesize) ∧
      Confluent selectingRun w₁ w₂ := by
  obtain ⟨w₀, w₁, w₂, hr, h₁, h₂, hp, hq₁, hq₂⟩ := exists_completions researching selectingRun
    (fun _ => .failure tooManyRedirects) selecting
    [.claim (sampleEnv 11) ((sampleEnv 10).ids 0) "worker",
      .fail (sampleEnv 12) 4 tooManyRedirects,
      .claim (sampleEnv 13) ((sampleEnv 10).ids 2) "worker",
      .fail (sampleEnv 14) 5 tooManyRedirects]
    [.claim (sampleEnv 11) ((sampleEnv 10).ids 0) "worker",
      .claim (sampleEnv 12) ((sampleEnv 10).ids 2) "worker",
      .fail (sampleEnv 13) 5 tooManyRedirects,
      .fail (sampleEnv 14) 4 tooManyRedirects]
    (fun w₀ => decide (Selected w₀ selectingRun) &&
      decide (LastIsImmaterial w₀ selectingRun fun _ => .failure tooManyRedirects))
    (fun w => w.db.steps.any fun s => s.runId = selectingRun && s.stepType = .synthesize)
    (fun w => w.db.steps.any fun s => s.runId = selectingRun && s.stepType = .synthesize)
    (by decide +kernel)
  simp only [Bool.and_eq_true, decide_eq_true_eq] at hp
  refine ⟨w₀, w₁, w₂, hr, hp.1, by simpa using hq₁, by simpa using hq₂,
    completion_confluent hr hp.1 hp.2 h₁ h₂⟩

/--
One source fails with its own error and the other is claimed after its phase is
over. Synthesis is told of the phase only where that is the last thing to happen.
-/
theorem completion_order_matters :
    ∃ w₀ w₁ w₂ σ, Reachable researching w₀ ∧ Selected w₀ selectingRun ∧
      Completions researching selectingRun σ w₀ w₁ ∧
      Completions researching selectingRun σ w₀ w₂ ∧ ¬ Confluent selectingRun w₁ w₂ := by
  obtain ⟨w₀, w₁, w₂, hr, h₁, h₂, hp, hq₁, hq₂⟩ := exists_completions researching selectingRun
    (fun key => .failure (if key = "fetch:1:a" then tooManyRedirects else phaseDeadlineExceeded))
    selecting
    [.claim (sampleEnv 11) ((sampleEnv 10).ids 0) "worker",
      .fail (sampleEnv 12) 4 tooManyRedirects,
      .claim (sampleEnv 115) ((sampleEnv 10).ids 2) "worker"]
    [.claim (sampleEnv 11) ((sampleEnv 10).ids 0) "worker",
      .claim (sampleEnv 115) ((sampleEnv 10).ids 2) "worker",
      .fail (sampleEnv 116) 4 tooManyRedirects]
    (fun w₀ => decide (Selected w₀ selectingRun)) (toldOfDeadline true) (toldOfDeadline false)
    (by decide +kernel)
  refine ⟨w₀, w₁, w₂, _, hr, by simpa using hp, h₁, h₂, fun hc => ?_⟩
  simp only [toldOfDeadline, List.any_eq_true, Bool.and_eq_true, decide_eq_true_eq] at hq₁ hq₂
  obtain ⟨s₁, hs₁, ⟨hrun₁, hty₁⟩, hm₁⟩ := hq₁
  obtain ⟨s₂, hs₂, ⟨hrun₂, hty₂⟩, hm₂⟩ := hq₂
  obtain ⟨i₁, i₂, hin₁, hin₂, hagree, -⟩ :=
    hc.synthesis s₁ hs₁ s₂ hs₂ hrun₁ hrun₂ hty₁ hty₂
  have hcode := hagree.codes "phase_deadline_exceeded"
  simp only [hin₁, hin₂, beq_iff_eq] at hm₁ hm₂
  rw [List.contains_iff_mem] at hm₁
  rw [hcode, ← List.contains_iff_mem, hm₂] at hm₁
  cases hm₁

end Sana.Orchestration
