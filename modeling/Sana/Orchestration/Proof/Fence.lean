import Sana.Orchestration.Proof.Workflow

/-!
# Attempts fence workers off

Workers, heartbeats, the reconciler and redelivered messages all write the rows of
one step. What keeps them apart is the step's *open* attempt: a running step has
exactly one, it is the latest, and nobody but the worker that was given it can
end it. Once an attempt is completed or an output is written, no transaction
touches the row again.
-/

namespace Sana.Orchestration

open Sana.Lib

variable {who : Actor} {db db' : Db} {cur cur' : SearchStep} {run run' : SearchRun}
  {new : List SearchStep}

/-! ## Attempt numbers -/

/-- The latest number depends on which attempts of which steps there are, and on nothing else. -/
theorem latestAttemptNo_congr {t t' : Tables}
    (h : t'.attempts.map (fun a => (a.stepId, a.attemptNo))
      = t.attempts.map fun a => (a.stepId, a.attemptNo)) (id : Uuid) :
    t'.latestAttemptNo id = t.latestAttemptNo id := by
  have spelled : ∀ u : Tables, u.latestAttemptNo id
      = (((u.attempts.map fun a => (a.stepId, a.attemptNo)).filter (·.1 = id)).map (·.2)).foldr
        max 0 := by
    intro u
    unfold Tables.latestAttemptNo Tables.attemptsOf
    rw [List.filter_map, List.map_map]
    rfl
  rw [spelled, spelled, h]

/-- A new attempt counts for its own step. -/
theorem latestAttemptNo_append {t t' : Tables} {a : StepAttempt}
    (h : t'.attempts = t.attempts ++ [a]) (id : Uuid) :
    t'.latestAttemptNo id
      = if a.stepId = id then max (t.latestAttemptNo id) a.attemptNo else t.latestAttemptNo id := by
  unfold Tables.latestAttemptNo Tables.attemptsOf
  rw [h, List.filter_append, List.map_append]
  by_cases hid : a.stepId = id
  · rw [if_pos hid]
    simp only [List.filter_cons, hid, decide_true, if_true, List.filter_nil, List.map_cons,
      List.map_nil]
    exact foldr_max_append _ _
  · simp [hid]

/-! ## One open attempt -/

/-- A running step has an open attempt; an open attempt is the latest of a running step. -/
structure OneOpen (db : Db) : Prop where
  exists_open : ∀ s ∈ db.steps, s.status = .running →
    ∃ a ∈ db.attempts, a.stepId = s.id ∧ a.completedAt = none
  running : ∀ s ∈ db.steps, ∀ a ∈ db.attempts, a.stepId = s.id → a.completedAt = none →
    s.status = .running
  latest : ∀ a ∈ db.attempts, a.completedAt = none → a.attemptNo = db.latestAttemptNo a.stepId

namespace OneOpen

/-- There is no second open attempt: both would be the latest. -/
theorem unique (h : OneOpen db) {a b : StepAttempt} (ha : a ∈ db.attempts) (hb : b ∈ db.attempts)
    (hstep : a.stepId = b.stepId) (hao : a.completedAt = none) (hbo : b.completedAt = none) :
    a = b := by
  have hno : a.attemptNo = b.attemptNo := by
    rw [h.latest a ha hao, h.latest b hb hbo, hstep]
  exact eq_of_key_eq db.valid.uq_attempts_number ha hb (Prod.ext hstep hno)

/-- The steps and the attempts' identities are all the invariant is about. -/
theorem congr_rows (h : OneOpen db) (hsteps : db'.steps = db.steps)
    (hatt : db'.attempts = db.attempts) : OneOpen db' := by
  obtain ⟨h1, h2, h3⟩ := h
  rw [← hsteps] at h1 h2
  rw [← hatt] at h1 h2 h3
  refine ⟨h1, h2, fun a ha hopen => ?_⟩
  rw [h3 a ha hopen]
  exact latestAttemptNo_congr (by rw [hatt]) _

end OneOpen

/-- A step that was just inserted has no attempt yet. -/
theorem new_step_attempts (hsteps : db'.steps.map (·.id) = db.steps.map (·.id) ++ new.map (·.id))
    {s : SearchStep} (hs : s ∈ new) {a : StepAttempt} (ha : a ∈ db.attempts) :
    a.stepId ≠ s.id := by
  intro hid
  obtain ⟨r, hr, hrid⟩ := db.valid.fk_attempts a ha
  have hnd := db'.valid.pk_steps
  rw [hsteps, List.nodup_append] at hnd
  exact hnd.2.2 r.id (List.mem_map_of_mem hr) s.id (List.mem_map_of_mem hs) (hrid.trans hid)

theorem Move.step_ids (m : Move who db db' cur cur' run run' new) :
    db'.steps.map (·.id) = db.steps.map (·.id) ++ new.map (·.id) := by
  rw [m.steps, List.map_append, map_update_of_eq]
  intro r hr hid
  rw [eq_of_key_eq db.valid.pk_steps hr m.cur_mem hid]
  exact m.same.id

/--
What is left to check of a move: that the moved step runs exactly if one of its
attempts is open, and that the other steps' attempts are what they were.
-/
theorem OneOpen.move (h : OneOpen db) (m : Move who db db' cur cur' run run' new)
    (hkeep : ∀ a, a.stepId ≠ cur.id → (a ∈ db'.attempts ↔ a ∈ db.attempts))
    (hmine : ∀ a ∈ db'.attempts, a.stepId = cur.id → a.completedAt = none →
      cur'.status = .running ∧ a.attemptNo = db'.latestAttemptNo cur.id)
    (hopen : cur'.status = .running → ∃ a ∈ db'.attempts, a.stepId = cur.id ∧ a.completedAt = none)
    (hlatest : ∀ id, id ≠ cur.id → db'.latestAttemptNo id = db.latestAttemptNo id) :
    OneOpen db' where
  exists_open s hs hrun := by
    rcases m.mem_steps.mp hs with rfl | ⟨hold, hne⟩ | hnew
    · rw [m.same.id]
      exact hopen hrun
    · obtain ⟨a, ha, hstep, hao⟩ := h.exists_open s hold hrun
      exact ⟨a, (hkeep a (by rw [hstep]; exact hne)).mpr ha, hstep, hao⟩
    · rw [(m.sched s hnew).status] at hrun
      simp at hrun
  running s hs a ha hstep hao := by
    rcases m.mem_steps.mp hs with rfl | ⟨hold, hne⟩ | hnew
    · exact (hmine a ha (hstep.trans m.same.id) hao).1
    · have ha' := (hkeep a (by rw [hstep]; exact hne)).mp ha
      exact h.running s hold a ha' hstep hao
    · -- an attempt of a step that was not there
      have hne : a.stepId ≠ cur.id := by
        intro hid
        have hnd := db'.valid.pk_steps
        rw [m.step_ids, List.nodup_append] at hnd
        exact hnd.2.2 cur.id (List.mem_map_of_mem m.cur_mem) s.id (List.mem_map_of_mem hnew)
          (hid.symm.trans hstep)
      exact absurd hstep (new_step_attempts m.step_ids hnew ((hkeep a hne).mp ha))
  latest a ha hao := by
    by_cases hid : a.stepId = cur.id
    · rw [hid]
      exact (hmine a ha hid hao).2
    · rw [hlatest _ hid]
      exact h.latest a ((hkeep a hid).mp ha) hao

/-- Rewriting an attempt, and nothing about which attempt it is, keeps the numbers. -/
theorem latestAttemptNo_update {a a' : StepAttempt} (ha : a ∈ db.attempts) (hsame : a.Same a')
    (hatt : db'.attempts = update (·.id) a.id (fun _ => a') db.attempts) (id : Uuid) :
    db'.latestAttemptNo id = db.latestAttemptNo id := by
  refine latestAttemptNo_congr ?_ id
  rw [hatt]
  refine map_update_of_eq ?_
  intro r hr hid
  rw [eq_of_key_eq db.valid.pk_attempts hr ha hid, hsame.stepId, hsame.attemptNo]

/-- A step that is not running has no open attempt. -/
theorem OneOpen.not_open (h : OneOpen db) {s : SearchStep} (hs : s ∈ db.steps)
    (hn : s.status ≠ .running) {a : StepAttempt} (ha : a ∈ db.attempts) (hstep : a.stepId = s.id) :
    a.completedAt ≠ none :=
  fun hao => hn (h.running s hs a ha hstep hao)

/-- A step that neither was running nor starts to: its attempts stay completed. -/
theorem OneOpen.kept (h : OneOpen db) (m : Move who db db' cur cur' run run' new)
    (hn : cur.status ≠ .running) (hn' : cur'.status ≠ .running)
    (hatt : db'.attempts = db.attempts) : OneOpen db' := by
  refine h.move m (fun a _ => by rw [hatt]) ?_ (fun hr => absurd hr hn')
    fun id _ => latestAttemptNo_congr (by rw [hatt]) id
  intro a ha hstep hao
  exact absurd hao (h.not_open m.cur_mem hn (hatt ▸ ha) hstep)

/-- A claim: the new attempt is the only open one, and the latest. -/
theorem OneOpen.opened (h : OneOpen db) (m : Move who db db' cur cur' run run' new)
    {b : StepAttempt} (hready : cur.status = .ready) (hrun : cur'.status = .running)
    (hstep : b.stepId = cur.id) (hno : b.attemptNo = db.nextAttemptNo cur.id)
    (hbo : b.completedAt = none) (hatt : db'.attempts = db.attempts ++ [b]) : OneOpen db' := by
  have hmax : db'.latestAttemptNo cur.id = b.attemptNo := by
    rw [latestAttemptNo_append hatt, if_pos hstep, hno]
    unfold Tables.nextAttemptNo
    omega
  have hmem : ∀ a, a ∈ db'.attempts ↔ a ∈ db.attempts ∨ a = b := by simp [hatt]
  refine h.move m ?_ ?_ ?_ ?_
  · intro a ha
    rw [hmem]
    refine or_iff_left fun hab => ha ?_
    rw [hab, hstep]
  · intro a ha hid hao
    rcases (hmem a).mp ha with hold | rfl
    · exact absurd hao (h.not_open m.cur_mem (by simp [hready]) hold hid)
    · exact ⟨hrun, hmax.symm⟩
  · intro _
    exact ⟨b, (hmem b).mpr (.inr rfl), hstep, hbo⟩
  · intro id hid
    rw [latestAttemptNo_append hatt, if_neg]
    intro h'
    exact hid (h'.symm.trans hstep)

/-- A report: the one open attempt is completed, and the step does not run any more. -/
theorem OneOpen.finished (h : OneOpen db) (m : Move who db db' cur cur' run run' new)
    {c : ClaimedStep} {b b' : StepAttempt} (hstop : cur'.status ≠ .running) (hholds : Holds db c b)
    (hstep : cur.id = c.stepId) (hsame : b.Same b') (hdone : b'.completedAt.isSome = true)
    (hatt : db'.attempts = update (·.id) b.id (fun _ => b') db.attempts) : OneOpen db' := by
  have hb : b.stepId = cur.id := hholds.stepId.trans hstep.symm
  refine h.move m ?_ ?_ (fun hr => absurd hr hstop)
    fun id _ => latestAttemptNo_update hholds.mem hsame hatt id
  · intro a ha
    rw [hatt, mem_update_iff db.valid.pk_attempts hholds.mem]
    constructor
    · intro hor
      rcases hor with rfl | ⟨hold, -⟩
      · exact absurd (hsame.stepId.trans hb) ha
      · exact hold
    · intro hold
      refine .inr ⟨hold, fun hid => ha ?_⟩
      rw [eq_of_key_eq db.valid.pk_attempts hold hholds.mem hid, hb]
  · intro a ha hid hao
    rw [hatt, mem_update_iff db.valid.pk_attempts hholds.mem] at ha
    rcases ha with rfl | ⟨hold, hne⟩
    · rw [hao] at hdone
      simp at hdone
    · have hab := h.unique hold hholds.mem (hid.trans hb.symm) hao hholds.isOpen
      exact absurd (congrArg StepAttempt.id hab) hne

/-- A release: whatever was open has run out and is completed. -/
theorem OneOpen.expired (h : OneOpen db) (m : Move who db db' cur cur' run run' new) {now : Time}
    (hready : cur'.status = .ready)
    (hall : ∀ a ∈ db.attempts, a.stepId = cur.id → a.completedAt = none → a.leasedUntil ≤ now)
    (hatt : db'.attempts = (expireAttempts db.toTables cur.id now).attempts) : OneOpen db' := by
  have hmap : ∀ a, a ∈ db'.attempts ↔ ∃ o ∈ db.attempts,
      (if o.stepId = cur.id ∧ o.completedAt = none ∧ o.leasedUntil ≤ now then
        { o with completedAt := some now, error := some leaseExpired } else o) = a := by
    intro a
    rw [hatt]
    exact List.mem_map
  refine h.move m ?_ ?_ (fun hr => by simp [hready] at hr) ?_
  · intro a ha
    rw [hmap]
    constructor
    · intro hex
      obtain ⟨o, ho, rfl⟩ := hex
      by_cases hx : o.stepId = cur.id ∧ o.completedAt = none ∧ o.leasedUntil ≤ now
      · rw [if_pos hx] at ha
        exact absurd hx.1 ha
      · rwa [if_neg hx]
    · intro hold
      exact ⟨a, hold, if_neg fun hx => ha hx.1⟩
  · intro a ha hid hao
    obtain ⟨o, ho, rfl⟩ := (hmap a).mp ha
    by_cases hx : o.stepId = cur.id ∧ o.completedAt = none ∧ o.leasedUntil ≤ now
    · rw [if_pos hx] at hao
      simp at hao
    · -- an open attempt the release left alone would not have run out
      rw [if_neg hx] at hid hao
      exact absurd ⟨hid, hao, hall o ho hid hao⟩ hx
  · intro id _
    refine latestAttemptNo_congr ?_ id
    rw [hatt]
    simp only [expireAttempts, List.map_map]
    refine List.map_congr_left fun o _ => ?_
    simp only [Function.comp]
    split <;> rfl

/-- A heartbeat: the open attempt stays open. -/
theorem OneOpen.renewed (h : OneOpen db) {b b' : StepAttempt} (hb : b ∈ db.attempts)
    (hsame : b.Same b') (hbo : b.completedAt = none) (hbo' : b'.completedAt = none)
    (hsteps : db'.steps = db.steps)
    (hatt : db'.attempts = update (·.id) b.id (fun _ => b') db.attempts) : OneOpen db' := by
  -- every open attempt is an old one, or the extended one in its place
  have back : ∀ a ∈ db'.attempts, a.completedAt = none → ∃ o ∈ db.attempts,
      o.completedAt = none ∧ o.stepId = a.stepId ∧ o.attemptNo = a.attemptNo := by
    intro a ha hao
    rw [hatt, mem_update_iff db.valid.pk_attempts hb] at ha
    rcases ha with rfl | ⟨ha, -⟩
    · exact ⟨b, hb, hbo, hsame.stepId.symm, hsame.attemptNo.symm⟩
    · exact ⟨a, ha, hao, rfl, rfl⟩
  refine ⟨?_, ?_, ?_⟩
  · intro s hs hrun
    obtain ⟨a, ha, hstep, hao⟩ := h.exists_open s (hsteps ▸ hs) hrun
    rw [hatt]
    by_cases hid : a.id = b.id
    · have hab : a = b := eq_of_key_eq db.valid.pk_attempts ha hb hid
      subst hab
      exact ⟨b', (mem_update_iff db.valid.pk_attempts hb).mpr (.inl rfl),
        hsame.stepId.trans hstep, hbo'⟩
    · exact ⟨a, mem_update_of_ne ha hid, hstep, hao⟩
  · intro s hs a ha hstep hao
    obtain ⟨o, ho, hoo, hos, -⟩ := back a ha hao
    exact h.running s (hsteps ▸ hs) o ho (hos.trans hstep) hoo
  · intro a ha hao
    obtain ⟨o, ho, hoo, hos, hon⟩ := back a ha hao
    rw [latestAttemptNo_update hb hsame hatt, ← hos, ← hon]
    exact h.latest o ho hoo

/-- A submission: the new run's first step has no attempt. -/
theorem OneOpen.submitted (h : OneOpen db) {route : SearchStep} (hready : route.status = .ready)
    (hsteps : db'.steps = db.steps ++ [route]) (hatt : db'.attempts = db.attempts) :
    OneOpen db' := by
  have hids : db'.steps.map (·.id) = db.steps.map (·.id) ++ [route].map (·.id) := by
    rw [hsteps, List.map_append]
  have hno : ∀ id, db'.latestAttemptNo id = db.latestAttemptNo id :=
    latestAttemptNo_congr (by rw [hatt])
  refine ⟨?_, ?_, ?_⟩
  · intro s hs hrun
    rw [hsteps, List.mem_append, List.mem_singleton] at hs
    rcases hs with hs | rfl
    · rw [hatt]
      exact h.exists_open s hs hrun
    · rw [hready] at hrun
      simp at hrun
  · intro s hs a ha hstep hao
    rw [hatt] at ha
    rw [hsteps, List.mem_append] at hs
    rcases hs with hs | hs
    · exact h.running s hs a ha hstep hao
    · exact absurd hstep (new_step_attempts hids hs ha)
  · intro a ha hao
    rw [hno]
    exact h.latest a (hatt ▸ ha) hao

/-- **The fence stands after every transaction.** -/
theorem OneOpen.effect (h : OneOpen db) (he : Effect who db db') : OneOpen db' := by
  cases he with
  | idle hsteps _ hatt => exact h.congr_rows hsteps hatt
  | runWritten _ _ _ _ _ hsteps _ hatt => exact h.congr_rows hsteps hatt
  | submitted _ _ hsub => exact h.submitted hsub.ready hsub.steps hsub.attempts
  | renewed b b' hb hsame hbo hbo' hsteps _ hatt => exact h.renewed hb hsame hbo hbo' hsteps hatt
  | moved cur cur' run run' new m =>
      cases m.attempts with
      | skipped hready hend hatt =>
          refine h.kept m (by simp [hready]) ?_ hatt
          rcases hend with he | he <;> simp [he]
      | due hwait hready hatt => exact h.kept m (by simp [hwait]) (by simp [hready]) hatt
      | dispatched hready hready' hatt =>
          exact h.kept m (by simp [hready]) (by simp [hready']) hatt
      | opened b hready hrun hstep hno hbo hatt => exact h.opened m hready hrun hstep hno hbo hatt
      | finished c _ b b' _ hstop hholds hstep hsame hdone hatt =>
          refine h.finished m ?_ hholds hstep hsame hdone hatt
          intro hrun
          rcases hstop with hend | ⟨hwait, -⟩
          · simp [SearchStep.isTerminal, hrun, StepStatus.isTerminal] at hend
          · rw [hwait] at hrun
            cases hrun
      | expired _ now _ hready _ _ _ hall hatt => exact h.expired m hready hall hatt

/-! ## Rows that are never written again -/

/-- A completed attempt stays as it is. -/
theorem Effect.completed_persists (he : Effect who db db') {a : StepAttempt}
    (ha : a ∈ db.attempts) (hdone : a.completedAt ≠ none) : a ∈ db'.attempts := by
  -- an attempt that is rewritten was open
  have other : ∀ {b b' : StepAttempt}, b ∈ db.attempts → b.completedAt = none →
      a ∈ update (·.id) b.id (fun _ => b') db.attempts := by
    intro b b' hb hbo
    refine mem_update_of_ne ha fun hid => hdone ?_
    rw [eq_of_key_eq db.valid.pk_attempts ha hb hid, hbo]
  cases he with
  | idle _ _ hatt => exact hatt ▸ ha
  | runWritten _ _ _ _ _ _ _ hatt => exact hatt ▸ ha
  | submitted _ _ hsub => exact hsub.attempts ▸ ha
  | renewed b b' hb _ hbo _ _ _ hatt => exact hatt ▸ other hb hbo
  | moved cur cur' run run' new m =>
      cases m.attempts with
      | skipped _ _ hatt => exact hatt ▸ ha
      | due _ _ hatt => exact hatt ▸ ha
      | dispatched _ _ hatt => exact hatt ▸ ha
      | opened b _ _ _ _ _ hatt => exact hatt ▸ List.mem_append_left _ ha
      | finished c _ b b' _ _ hholds _ _ _ hatt => exact hatt ▸ other hholds.mem hholds.isOpen
      | expired _ now _ _ _ _ _ _ hatt =>
          rw [hatt]
          exact List.mem_map.mpr ⟨a, ha, if_neg fun hx => hdone hx.2.1⟩

/-- A step that has ended stays as it is. -/
theorem Effect.ended_persists (he : Effect who db db') {s : SearchStep} (hs : s ∈ db.steps)
    (hterm : s.isTerminal = true) : s ∈ db'.steps := by
  cases he with
  | idle hsteps => exact hsteps ▸ hs
  | runWritten _ _ _ _ _ hsteps => exact hsteps ▸ hs
  | renewed _ _ _ _ _ _ hsteps => exact hsteps ▸ hs
  | submitted _ _ hsub => exact hsub.steps ▸ List.mem_append_left _ hs
  | moved cur cur' run run' new m => exact m.mem_of_terminal hs hterm

/-- A step with an output has ended. -/
theorem Shape.terminal_of_output (hsh : Shape db.toTables) {s : SearchStep} (hs : s ∈ db.steps)
    (hout : s.outputRef ≠ none) : s.isTerminal = true := by
  have hst := (hsh.output s hs).mpr (Option.isSome_iff_ne_none.mpr hout)
  rw [SearchStep.isTerminal, hst]
  rfl

/-! ## Every run -/

variable {d : Deployment} {w w' : World}

theorem oneOpen_reachable (hr : Reachable d w) : OneOpen w.db := by
  refine hr.invariant_of (P := fun w => OneOpen w.db) (Q := WInv) (fun _ => winv_reachable) ?_ ?_
  · intro s hs
    subst hs
    exact ⟨by simp [World.init, Db.empty], by simp [World.init, Db.empty],
      by simp [World.init, Db.empty]⟩
  · intro s t hi ho hs
    obtain ⟨who, he, -⟩ := step_effect hi hs
    exact ho.effect he

/-- How a transaction can change the status or the output of a step. -/
inductive StatusChange (d : Deployment) (w w' : World) (s s' : SearchStep) : Prop
  /-- A claim of a step that nobody holds. -/
  | claimed (hready : s.status = .ready)
      (hnext : s'.status = .running ∨ s'.status = .failed ∨ s'.status = .cancelled)
      (hout : s'.outputRef = s.outputRef)
  /-- The reconciler, after the pause before a retry. -/
  | retried (hwait : s.status = .retryWait) (hready : s'.status = .ready)
      (hout : s'.outputRef = s.outputRef)
  /-- The reconciler, after the lease of the open attempt has run out. -/
  | released (now : Time) (hrun : s.status = .running) (hready : s'.status = .ready)
      (hlease : ∀ a ∈ w.db.attempts, a.stepId = s.id → a.completedAt = none → a.leasedUntil ≤ now)
      (hout : s'.outputRef = s.outputRef)
  /-- A report under a lease of the latest attempt, which is open. -/
  | reported (c : ClaimedStep) (hc : c ∈ w.claims) (a : StepAttempt) (hholds : Holds w.db c a)
      (hstep : c.stepId = s.id) (hreport : Report d w c w')

/-- **Who may write a step.** -/
theorem step_change (hi : WInv w) (hs : Step d w w') {s s' : SearchStep} (hmem : s ∈ w.db.steps)
    (hmem' : s' ∈ w'.db.steps) (hid : s'.id = s.id)
    (hne : s'.status ≠ s.status ∨ s'.outputRef ≠ s.outputRef) : StatusChange d w w' s s' := by
  obtain ⟨who, he, hwho⟩ := step_effect hi hs
  -- a row that is still there has not changed
  have still : s ∉ w'.db.steps := by
    intro hin
    rw [eq_of_key_eq w'.db.valid.pk_steps hmem' hin hid] at hne
    simp at hne
  cases he with
  | idle hsteps => exact absurd (hsteps ▸ hmem) still
  | runWritten _ _ _ _ _ hsteps => exact absurd (hsteps ▸ hmem) still
  | renewed _ _ _ _ _ _ hsteps => exact absurd (hsteps ▸ hmem) still
  | submitted _ _ hsub => exact absurd (hsub.steps ▸ List.mem_append_left _ hmem) still
  | moved cur cur' run run' new m =>
      have hcur : s.id = cur.id := by
        by_contra hn
        exact still (m.mem_steps.mpr (.inr (.inl ⟨hmem, hn⟩)))
      have h1 : s = cur := eq_of_key_eq w.db.valid.pk_steps hmem m.cur_mem hcur
      have h2 : s' = cur' := eq_of_key_eq w'.db.valid.pk_steps hmem' (m.mem_steps.mpr (.inl rfl))
        ((hid.trans hcur).trans m.same.id.symm)
      subst h1 h2
      have hnone : s.outputRef = none := by
        refine hi.shape.output_none hmem fun hst => ?_
        have hlive := m.cur_live
        rw [SearchStep.isTerminal, hst] at hlive
        simp [StepStatus.isTerminal] at hlive
      -- only a success has an output
      have hout : s'.status ≠ .succeeded → s'.outputRef = s.outputRef := by
        intro hst
        rw [hnone, ← Option.not_isSome_iff_eq_none]
        exact fun hsome => hst (m.output.mpr hsome)
      cases m.attempts with
      | opened b hready hrun => exact .claimed hready (.inl hrun) (hout (by simp [hrun]))
      | skipped hready hend =>
          refine .claimed hready (.inr hend) (hout ?_)
          rcases hend with he | he <;> simp [he]
      | due hwait hready => exact .retried hwait hready (hout (by simp [hready]))
      | dispatched hready hready' =>
          rcases hne with hst | ho
          · exact absurd (hready'.trans hready.symm) hst
          · exact absurd (hout (by simp [hready'])) ho
      | expired _ now hrun hready _ _ _ hall =>
          exact .released now hrun hready hall (hout (by simp [hready]))
      | finished c limit b b' hrun hstop hholds hstep =>
          obtain ⟨hc, hrep⟩ := hwho c limit rfl
          exact .reported c hc b hholds hstep.symm hrep

/-- A lease that does not hold the latest attempt does not pass. -/
theorem fenced_stale (hi : WInv w) {c : ClaimedStep} (hc : c ∈ w.claims)
    (hstale : ∀ a, ¬ Holds w.db c a) : fenced w.db.toTables c = .ok none := by
  have hcur : isCurrentAttempt w.db.toTables c = false := by
    rw [← Bool.not_eq_true, isCurrentAttempt_iff (hi.claims c hc)]
    intro hex
    obtain ⟨a, ha⟩ := hex
    exact hstale a ha
  obtain ⟨s, hs, hsid, -⟩ := (hi.claims c hc).step
  have hl : lookup (·.id) c.stepId w.db.steps = some s := by
    rw [← hsid]
    exact lookup_of_mem w.db.valid.pk_steps hs
  -- the row can be loaded, since its output agrees with its status
  have hrow := SearchStep.rehydrate_eq (hi.shape.output s hs)
  simp [fenced, Tables.getStep, hl, hrow, hcur, bind, Except.bind, pure, Except.pure]

/--
**Attempt fencing.** In every reachable world: a step is running exactly when one
of its attempts is open, and has no open attempt otherwise; a completed attempt
and a written output are never written again; a step's status or output is
changed by a claim that nobody holds it against, by the reconciler once the pause
or the lease is over, or by the holder of the latest attempt; and a report under
any other lease returns STALE and leaves the database as it was.
-/
theorem attempt_fencing (hr : Reachable d w) :
    (∀ s ∈ w.db.steps,
      (s.status = .running ↔
        ∃! a, a ∈ w.db.attempts ∧ a.stepId = s.id ∧ a.completedAt = none) ∧
      (s.status ≠ .running → ∀ a ∈ w.db.attempts, a.stepId = s.id → a.completedAt ≠ none)) ∧
    (∀ w', Relation.ReflTransGen (Step d) w w' →
      (∀ a ∈ w.db.attempts, a.completedAt ≠ none → a ∈ w'.db.attempts) ∧
      ∀ s ∈ w.db.steps, s.outputRef ≠ none → s ∈ w'.db.steps) ∧
    (∀ w', Step d w w' → ∀ s ∈ w.db.steps, ∀ s' ∈ w'.db.steps, s'.id = s.id →
      s'.status ≠ s.status ∨ s'.outputRef ≠ s.outputRef → StatusChange d w w' s s') ∧
    ∀ c ∈ w.claims, (∀ a, ¬ Holds w.db c a) →
      (∀ env result, succeed d.ports env w.db c result = .ok (.stale, w.db)) ∧
      ∀ env error, fail d.ports d.cfg env w.db c error = .ok (.stale, w.db) := by
  have hi := winv_reachable hr
  have ho := oneOpen_reachable hr
  refine ⟨?_, ?_, ?_, ?_⟩
  · intro s hs
    refine ⟨⟨?_, ?_⟩, ?_⟩
    · intro hrun
      obtain ⟨a, ha, hstep, hao⟩ := ho.exists_open s hs hrun
      refine ⟨a, ⟨ha, hstep, hao⟩, fun b hb => ?_⟩
      exact ho.unique hb.1 ha (hb.2.1.trans hstep.symm) hb.2.2 hao
    · intro hex
      obtain ⟨a, ⟨ha, hstep, hao⟩, -⟩ := hex
      exact ho.running s hs a ha hstep hao
    · intro hn a ha hstep
      exact ho.not_open hs hn ha hstep
  · intro w' hrun
    refine hr.run_rel (R := fun w w' : World =>
      (∀ a ∈ w.db.attempts, a.completedAt ≠ none → a ∈ w'.db.attempts) ∧
      ∀ s ∈ w.db.steps, s.outputRef ≠ none → s ∈ w'.db.steps) ?_ ?_ ?_ hrun
    · intro w
      exact ⟨fun a ha _ => ha, fun s hs _ => hs⟩
    · intro u v x huv hvx
      exact ⟨fun a ha hd => hvx.1 a (huv.1 a ha hd) hd, fun s hs hd => hvx.2 s (huv.2 s hs hd) hd⟩
    · intro u v hu huv
      have hiu := winv_reachable hu
      obtain ⟨who, he, -⟩ := step_effect hiu huv
      exact ⟨fun a ha hd => he.completed_persists ha hd,
        fun s hs hd => he.ended_persists hs (hiu.shape.terminal_of_output hs hd)⟩
  · intro w' hs s hmem s' hmem' hid hne
    exact step_change hi hs hmem hmem' hid hne
  · intro c hc hstale
    have hf := fenced_stale hi hc hstale
    refine ⟨fun env result => ?_, fun env error => ?_⟩
    · unfold succeed
      rw [hf]
      rfl
    · unfold fail
      rw [hf]
      rfl

/-- A lease runs out, the step is released and claimed again: the first worker is too late. -/
def lateActions : List Action :=
  sampleActions.take 3 ++ [
    .makeReady (sampleEnv 40) { stepId := (sampleEnv 2).ids 3, status := .running } (seconds 40),
    .claim (sampleEnv 5) ((sampleEnv 2).ids 3) "other"]

theorem attempt_fencing_late : ∃ w, Reachable sample w ∧
    (∃ s ∈ w.db.steps, s.status = .running) ∧
    (∀ s ∈ w.db.steps, s.status = .running ↔
      ∃! a, a ∈ w.db.attempts ∧ a.stepId = s.id ∧ a.completedAt = none) ∧
    ∃ c ∈ w.claims, ∀ env result,
      succeed sample.ports env w.db c result = .ok (.stale, w.db) := by
  obtain ⟨w, hr, hp⟩ := exists_reachable sample lateActions
    (fun w => w.db.steps.any (fun s => s.status = .running) &&
      w.claims.any fun c => !isCurrentAttempt w.db.toTables c) (by decide +kernel)
  rw [Bool.and_eq_true] at hp
  obtain ⟨hrun, hstale⟩ := hp
  obtain ⟨c, hc, hcur⟩ := List.any_eq_true.mp hstale
  refine ⟨w, hr, by simpa using hrun, fun s hs => ((attempt_fencing hr).1 s hs).1, c, hc, ?_⟩
  refine ((attempt_fencing hr).2.2.2 c hc fun a ha => ?_).1
  rw [(isCurrentAttempt_iff ((winv_reachable hr).claims c hc)).mpr ⟨a, ha⟩] at hcur
  simp at hcur

end Sana.Orchestration
