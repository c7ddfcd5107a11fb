import Sana.Orchestration.Proof.Events

/-!
# Transactions that do not fail

Everything else is about transactions that committed. Here it is the other way round:
what a transaction needs so that nothing in it raises. A row can be loaded if it is one
the workflow writes; it can be saved if it was loaded in the same transaction; and the
commit is accepted if the rows that are rewritten keep their keys and the new ones
bring keys that were not there.
-/

namespace Sana.Orchestration

open Sana.Lib

/-! ## Constraints -/

section Constraints

variable {t t' : Tables}

/-- The columns of a table that constraints are about. -/
def ResponseRun.keys (r : ResponseRun) : Uuid × Uuid := (r.id, r.messageId)

def SearchRun.keys (r : SearchRun) : Uuid × Uuid := (r.id, r.responseRunId)

def SearchStep.keys (s : SearchStep) : Uuid × Uuid × Nat × String := (s.id, Tables.stepIdentity s)

def StepAttempt.keys (a : StepAttempt) : Uuid × Uuid × Nat := (a.id, a.stepId, a.attemptNo)

/-- Rows were rewritten under their keys, and at most one row was added to a table. -/
structure Grows (t t' : Tables) (step : Option SearchStep) (attempt : Option StepAttempt)
    (event : Option RunEvent) (message : Option OutboxMessage) : Prop where
  conversations : t'.conversations = t.conversations
  messages : t'.messages = t.messages
  responseRuns : t'.responseRuns.map (·.keys) = t.responseRuns.map (·.keys)
  runs : t'.runs.map (·.keys) = t.runs.map (·.keys)
  steps : t'.steps.map (·.keys) = t.steps.map (·.keys) ++ step.toList.map (·.keys)
  attempts : t'.attempts.map (·.keys) = t.attempts.map (·.keys) ++ attempt.toList.map (·.keys)
  events : t'.events = t.events ++ event.toList
  outbox : t'.outbox = t.outbox ++ message.toList
  invocations : ∃ close : ModelInvocationRecord → ModelInvocationRecord,
    t'.invocations = t.invocations.map close ∧ ∀ i, (close i).id = i.id ∧ (close i).runId = i.runId ∧
      (close i).stepId = i.stepId ∧ (close i).attemptId = i.attemptId ∧
      Tables.callIdentity (close i) = Tables.callIdentity i

/-- The added rows bring new keys and refer to rows that are there. -/
structure NewKeys (t : Tables) (step : Option SearchStep) (attempt : Option StepAttempt)
    (event : Option RunEvent) (message : Option OutboxMessage) : Prop where
  step : ∀ s ∈ step, (∀ x ∈ t.steps, x.id ≠ s.id) ∧
    (∀ x ∈ t.steps, Tables.stepIdentity x ≠ Tables.stepIdentity s) ∧ ∃ r ∈ t.runs, r.id = s.runId
  attempt : ∀ a ∈ attempt, (∀ x ∈ t.attempts, x.id ≠ a.id) ∧
    (∀ x ∈ t.attempts, (x.stepId, x.attemptNo) ≠ (a.stepId, a.attemptNo)) ∧
    ∃ s ∈ t.steps, s.id = a.stepId
  event : ∀ e ∈ event, (∀ x ∈ t.events, x.id ≠ e.id) ∧
    ∀ x ∈ t.events, (x.runId, x.sequence) ≠ (e.runId, e.sequence)
  message : ∀ o ∈ message, (∀ x ∈ t.outbox, x.id ≠ o.id) ∧ ∀ x ∈ t.outbox, x.dedupeKey ≠ o.dedupeKey

/-- A column that is a function of the keys grows with them. -/
theorem map_of_keys {α β γ : Type} {keys : α → β} {l l' : List α} (new : List α) (read : β → γ)
    (h : l'.map keys = l.map keys ++ new.map keys) :
    l'.map (read ∘ keys) = l.map (read ∘ keys) ++ new.map (read ∘ keys) := by
  rw [← List.map_map, h, List.map_append, List.map_map, List.map_map]

/-- One more key keeps the keys distinct. -/
theorem nodup_append_toList {α β : Type} (key : α → β) {l : List α} {o : Option α}
    (h : (l.map key).Nodup) (hnew : ∀ a ∈ o, ∀ x ∈ l, key x ≠ key a) :
    (l.map key ++ o.toList.map key).Nodup := by
  cases o with
  | none => simpa using h
  | some a =>
      rw [List.nodup_append]
      refine ⟨h, by simp, fun k hk k' hk' => ?_⟩
      obtain ⟨x, hx, rfl⟩ := List.mem_map.mp hk
      simp only [Option.toList_some, List.map_cons, List.map_nil, List.mem_singleton] at hk'
      rw [hk']
      exact hnew a rfl x hx

/-- A reference stays good where the referenced column only grows. -/
theorem exists_of_column {α β : Type} {key : α → β} {l l' : List α} {k : β} (new : List β)
    (h : l'.map key = l.map key ++ new) (hex : ∃ r ∈ l, key r = k) : ∃ r ∈ l', key r = k := by
  obtain ⟨r, hr, rfl⟩ := hex
  have hmem : key r ∈ l'.map key := by
    rw [h]
    exact List.mem_append_left _ (List.mem_map_of_mem hr)
  obtain ⟨r', hr', hk⟩ := List.mem_map.mp hmem
  exact ⟨r', hr', hk⟩

namespace Grows

variable {step : Option SearchStep} {attempt : Option StepAttempt} {event : Option RunEvent}
  {message : Option OutboxMessage}

theorem run_ids (g : Grows t t' step attempt event message) :
    t'.runs.map (·.id) = t.runs.map (·.id) := by
  have := map_of_keys [] Prod.fst (by simpa using g.runs)
  simpa [Function.comp_def, SearchRun.keys] using this

theorem step_ids (g : Grows t t' step attempt event message) :
    t'.steps.map (·.id) = t.steps.map (·.id) ++ step.toList.map (·.id) :=
  map_of_keys _ Prod.fst g.steps

theorem attempt_ids (g : Grows t t' step attempt event message) :
    t'.attempts.map (·.id) = t.attempts.map (·.id) ++ attempt.toList.map (·.id) :=
  map_of_keys _ Prod.fst g.attempts

/-- A row refers to what its keys say. -/
theorem exists_run (g : Grows t t' step attempt event message) {id : Uuid}
    (h : ∃ r ∈ t.runs, r.id = id) : ∃ r ∈ t'.runs, r.id = id :=
  exists_of_column [] (by simpa using g.run_ids) h

theorem exists_step (g : Grows t t' step attempt event message) {id : Uuid}
    (h : ∃ s ∈ t.steps, s.id = id) : ∃ s ∈ t'.steps, s.id = id :=
  exists_of_column _ g.step_ids h

/-- Every row has the keys of an old one or of the added one. -/
theorem mem_keys {α β : Type} {keys : α → β} {l l' : List α} {o : Option α}
    (h : l'.map keys = l.map keys ++ o.toList.map keys) {x : α} (hx : x ∈ l') :
    (∃ y ∈ l, keys y = keys x) ∨ ∃ y ∈ o, keys y = keys x := by
  have hmem : keys x ∈ l'.map keys := List.mem_map_of_mem hx
  rw [h, List.mem_append, List.mem_map, List.mem_map] at hmem
  rcases hmem with hy | ⟨y, hy, hk⟩
  · exact .inl hy
  · exact .inr ⟨y, by simpa using hy, hk⟩

/-- **A commit that keeps the old keys and brings new ones is accepted.** -/
theorem valid (g : Grows t t' step attempt event message) (h : t.Valid)
    (hn : NewKeys t step attempt event message) : t'.Valid := by
  obtain ⟨close, hinv, hclose⟩ := g.invocations
  have hresp : t'.responseRuns.map (·.id) = t.responseRuns.map (·.id) := by
    have := map_of_keys [] Prod.fst (by simpa using g.responseRuns)
    simpa [Function.comp_def, ResponseRun.keys] using this
  exact {
    pk_conversations := by rw [g.conversations]; exact h.pk_conversations
    uq_conversations_creation_key := by
      rw [Tables.creationKeys, g.conversations]
      exact h.uq_conversations_creation_key
    pk_messages := by rw [g.messages]; exact h.pk_messages
    uq_messages_idempotency := by
      rw [Tables.messageKeys, g.messages]
      exact h.uq_messages_idempotency
    pk_responseRuns := by rw [hresp]; exact h.pk_responseRuns
    pk_runs := by rw [g.run_ids]; exact h.pk_runs
    uq_runs_responseRun := by
      have := map_of_keys [] Prod.snd (by simpa using g.runs)
      simp only [Function.comp_def, SearchRun.keys, List.map_nil, List.append_nil] at this
      rw [this]
      exact h.uq_runs_responseRun
    pk_steps := by
      rw [g.step_ids]
      exact nodup_append_toList _ h.pk_steps fun s hs => (hn.step s hs).1
    uq_steps_identity := by
      have hcol : t'.steps.map Tables.stepIdentity
          = t.steps.map Tables.stepIdentity ++ step.toList.map Tables.stepIdentity :=
        map_of_keys _ Prod.snd g.steps
      rw [hcol]
      exact nodup_append_toList _ h.uq_steps_identity fun s hs => (hn.step s hs).2.1
    pk_attempts := by
      rw [g.attempt_ids]
      exact nodup_append_toList _ h.pk_attempts fun a ha => (hn.attempt a ha).1
    uq_attempts_number := by
      have hcol := map_of_keys _ Prod.snd g.attempts
      simp only [Function.comp_def, StepAttempt.keys] at hcol
      rw [hcol]
      exact nodup_append_toList (fun a : StepAttempt => (a.stepId, a.attemptNo))
        h.uq_attempts_number fun a ha => (hn.attempt a ha).2.1
    pk_events := by
      rw [g.events, List.map_append]
      exact nodup_append_toList _ h.pk_events fun e he => (hn.event e he).1
    uq_events_sequence := by
      rw [g.events, List.map_append]
      exact nodup_append_toList (fun e : RunEvent => (e.runId, e.sequence))
        h.uq_events_sequence fun e he => (hn.event e he).2
    pk_outbox := by
      rw [g.outbox, List.map_append]
      exact nodup_append_toList _ h.pk_outbox fun o ho => (hn.message o ho).1
    uq_outbox_dedupe := by
      rw [g.outbox, List.map_append]
      exact nodup_append_toList _ h.uq_outbox_dedupe fun o ho => (hn.message o ho).2
    pk_invocations := by
      rw [hinv, List.map_map]
      simp only [Function.comp_def, (hclose _).1]
      exact h.pk_invocations
    uq_invocations_call := by
      rw [hinv, List.map_map]
      simp only [Function.comp_def, (hclose _).2.2.2.2]
      exact h.uq_invocations_call
    fk_messages := by rw [g.messages, g.conversations]; exact h.fk_messages
    fk_responseRuns := by
      intro r hr
      rw [g.messages]
      have hmem : r.keys ∈ t.responseRuns.map (·.keys) :=
        g.responseRuns ▸ List.mem_map_of_mem hr
      obtain ⟨r₀, hr₀, hk⟩ := List.mem_map.mp hmem
      obtain ⟨m, hm, hid⟩ := h.fk_responseRuns r₀ hr₀
      exact ⟨m, hm, hid.trans (Prod.ext_iff.mp hk).2⟩
    fk_runs := by
      intro r hr
      have hmem : r.keys ∈ t.runs.map (·.keys) := g.runs ▸ List.mem_map_of_mem hr
      obtain ⟨r₀, hr₀, hk⟩ := List.mem_map.mp hmem
      obtain ⟨p, hp, hid⟩ := h.fk_runs r₀ hr₀
      exact exists_of_column [] (by simpa using hresp) ⟨p, hp, hid.trans (Prod.ext_iff.mp hk).2⟩
    fk_steps := by
      intro s hs
      rcases mem_keys g.steps hs with ⟨s₀, hs₀, hk⟩ | ⟨s₀, hs₀, hk⟩
      · obtain ⟨r, hr, hid⟩ := h.fk_steps s₀ hs₀
        exact g.exists_run ⟨r, hr, hid.trans (congrArg (·.2.1) hk)⟩
      · obtain ⟨r, hr, hid⟩ := (hn.step s₀ hs₀).2.2
        exact g.exists_run ⟨r, hr, hid.trans (congrArg (·.2.1) hk)⟩
    fk_attempts := by
      intro a ha
      rcases mem_keys g.attempts ha with ⟨a₀, ha₀, hk⟩ | ⟨a₀, ha₀, hk⟩
      · obtain ⟨s, hs, hid⟩ := h.fk_attempts a₀ ha₀
        exact g.exists_step ⟨s, hs, hid.trans (congrArg (·.2.1) hk)⟩
      · obtain ⟨s, hs, hid⟩ := (hn.attempt a₀ ha₀).2.2
        exact g.exists_step ⟨s, hs, hid.trans (congrArg (·.2.1) hk)⟩
    fk_invocations := by
      intro i hi
      rw [hinv] at hi
      obtain ⟨i₀, hi₀, rfl⟩ := List.mem_map.mp hi
      obtain ⟨-, hrun, hstep, hatt, -⟩ := hclose i₀
      obtain ⟨hr, hs, ha⟩ := h.fk_invocations i₀ hi₀
      rw [hrun, hstep, hatt]
      exact ⟨g.exists_run hr, g.exists_step hs, exists_of_column _ g.attempt_ids ha⟩ }

end Grows

end Constraints

/-! ## Loading and saving -/

section Repositories

variable {db : Db} {t : Tables} {env : Env}

/-- A step the workflow has written can be loaded. -/
theorem getStep_eq (hsh : Shape db.toTables) {s : SearchStep} (hs : s ∈ db.steps) :
    db.getStep s.id = .ok (some { s with persistedVersion := s.version }) := by
  simp [Tables.getStep, lookup_of_mem db.valid.pk_steps hs,
    SearchStep.rehydrate_eq (hsh.output s hs), bind, Except.bind, pure, Except.pure]

/-- So can a run. -/
theorem getRun_eq {r : SearchRun} (hr : r ∈ db.runs) (hsound : r.Sound) :
    db.getRun r.id = .ok (some { r with persistedVersion := r.version }) := by
  simp [Tables.getRun, lookup_of_mem db.valid.pk_runs hr, SearchRun.rehydrate, hsound.1, hsound.2,
    bind, Except.bind, pure, Except.pure, check]

/-- A key matches one row. -/
theorem countP_key {α : Type} {key : α → Uuid} {l : List α} (hnd : (l.map key).Nodup) {r : α}
    (hr : r ∈ l) {p : α → Bool} (hp : p r = true) (honly : ∀ x ∈ l, p x = true → key x = key r) :
    l.countP p = 1 := by
  rw [List.countP_eq_length_filter, filter_eq_singleton hnd hr hp fun x hx hpx => ?_]
  · rfl
  · exact eq_of_key_eq hnd hx hr (honly x hx hpx)

/-- What was loaded can be saved. -/
theorem saveStep_eq (now : Time) (hnd : (t.steps.map (·.id)).Nodup) {cur step : SearchStep}
    (hcur : cur ∈ t.steps) (hid : step.id = cur.id) (hv : step.persistedVersion = cur.version) :
    t.saveStep now step
      = .ok { t with steps := update (·.id) step.id (SearchStep.writeTo now step) t.steps } := by
  have hcount : t.steps.countP (fun r => r.id = step.id && r.version = step.persistedVersion) = 1 := by
    refine countP_key hnd hcur (by simp [hid, hv]) fun x _ hx => ?_
    simp only [Bool.and_eq_true, decide_eq_true_eq] at hx
    exact hx.1.trans hid
  simp [Tables.saveStep, hcount, check, bind, Except.bind, pure, Except.pure]

theorem saveRun_eq (hnd : (t.runs.map (·.id)).Nodup) {row run : SearchRun} (hrow : row ∈ t.runs)
    (hid : run.id = row.id) (hv : run.persistedVersion = row.version) :
    t.saveRun run = .ok { t with runs := update (·.id) run.id run.writeTo t.runs } := by
  have hcount : t.runs.countP (fun r => r.id = run.id && r.version = run.persistedVersion) = 1 := by
    refine countP_key hnd hrow (by simp [hid, hv]) fun x _ hx => ?_
    simp only [Bool.and_eq_true, decide_eq_true_eq] at hx
    exact hx.1.trans hid
  simp [Tables.saveRun, hcount, check, bind, Except.bind, pure, Except.pure]

theorem commit_eq {u : Uow} (h : (u.flushed env).Valid) : u.commit env = .ok ⟨u.flushed env, h⟩ :=
  dif_pos h

/-- The identifiers a transaction draws occur nowhere yet. -/
structure Env.Fresh (env : Env) (t : Tables) (n : Nat) : Prop where
  steps : ∀ i < n, ∀ s ∈ t.steps, s.id ≠ env.ids i
  attempts : ∀ i < n, ∀ a ∈ t.attempts, a.id ≠ env.ids i
  events : ∀ i < n, ∀ e ∈ t.events, e.id ≠ env.ids i
  outbox : ∀ i < n, ∀ o ∈ t.outbox, o.id ≠ env.ids i ∧ o.aggregateId ≠ env.ids i

instance (env : Env) (t : Tables) (n : Nat) : Decidable (env.Fresh t n) :=
  decidable_of_iff ((∀ i < n, ∀ s ∈ t.steps, s.id ≠ env.ids i) ∧
    (∀ i < n, ∀ a ∈ t.attempts, a.id ≠ env.ids i) ∧ (∀ i < n, ∀ e ∈ t.events, e.id ≠ env.ids i) ∧
    ∀ i < n, ∀ o ∈ t.outbox, o.id ≠ env.ids i ∧ o.aggregateId ≠ env.ids i)
    ⟨fun ⟨h₁, h₂, h₃, h₄⟩ => ⟨h₁, h₂, h₃, h₄⟩, fun h => ⟨h.steps, h.attempts, h.events, h.outbox⟩⟩

/-- A transaction that has written only settled responses, and staged at most one row a table. -/
structure Prepared (db : Db) (u : Uow) (step : Option SearchStep) (attempt : Option StepAttempt)
    (message : Option OutboxMessage) : Prop where
  conversations : u.tables.conversations = db.conversations
  messages : u.tables.messages = db.messages
  responseRuns : u.tables.responseRuns.map (·.keys) = db.responseRuns.map (·.keys)
  runs : u.tables.runs = db.runs
  steps : u.tables.steps = db.steps
  attempts : u.tables.attempts = db.attempts
  events : u.tables.events = db.events
  outbox : u.tables.outbox = db.outbox
  invocations : u.tables.invocations = db.invocations
  newSteps : u.newSteps = step.toList
  newAttempts : u.newAttempts = attempt.toList
  newEvents : u.newEvents = []
  newOutbox : u.newOutbox = message.toList
  newInvocations : u.newInvocations = []

/-- An event with the next number takes no number that is taken. -/
theorem sequence_ne_next {runId : Uuid} {e : RunEvent} (he : e ∈ t.events) :
    (e.runId, e.sequence) ≠ (runId, t.nextSequence runId) := by
  intro heq
  obtain ⟨hrun, hseq⟩ := Prod.mk.inj heq
  have hle : e.sequence ≤ ((t.events.filter (·.runId = runId)).map (·.sequence)).foldr max 0 :=
    List.le_max_of_le (List.mem_map_of_mem (by simp [he, hrun])) (le_refl _)
  unfold Tables.nextSequence at hseq
  omega

/-- **A step and its run that were loaded can be saved with an event.** -/
theorem saveAndCommit_total {u : Uow} {cur step : SearchStep} {row run : SearchRun} (env : Env)
    (ev : String) (p : List (String × EventValue)) {newStep : Option SearchStep} {attempt : Option StepAttempt}
    {message : Option OutboxMessage} (hp : Prepared db u newStep attempt message)
    (hcur : cur ∈ db.steps) (hid : step.id = cur.id) (hv : step.persistedVersion = cur.version)
    (hrow : row ∈ db.runs) (hrid : run.id = row.id) (hrv : run.persistedVersion = row.version)
    (hnew : NewKeys db.toTables newStep attempt none message)
    (hevent : ∀ e ∈ db.events, e.id ≠ env.ids u.drawn) :
    ∃ db', saveAndCommit env u step run ev p = .ok db' := by
  have hsave := saveStep_eq env.dbNow (by rw [hp.steps]; exact db.valid.pk_steps)
    (by rw [hp.steps]; exact hcur) hid hv
  let steps := update (·.id) step.id (SearchStep.writeTo env.dbNow step) u.tables.steps
  let t : Tables := { u.tables with steps := steps }
  have hsaveRun := saveRun_eq (t := t) (by simp only [t, hp.runs]; exact db.valid.pk_runs)
    (by simp only [t, hp.runs]; exact hrow) hrid hrv
  let event : RunEvent := {
    id := env.ids u.drawn, runId := run.id, sequence := db.nextSequence run.id, eventType := ev
    payload := p, createdAt := env.hookNow }
  let v : Uow := addEvent env
    { u with tables := { t with runs := update (·.id) run.id run.writeTo t.runs } } run.id ev p
  have hnew' : NewKeys db.toTables (newStep.map (Uow.stamp env)) attempt (some event) message := by
    refine ⟨?_, hnew.attempt, ?_, hnew.message⟩
    · intro s hs
      obtain ⟨s₀, hs₀, rfl⟩ := Option.map_eq_some_iff.mp hs
      exact hnew.step s₀ hs₀
    · intro e he
      obtain rfl := Option.some.inj he
      exact ⟨hevent, fun x hx => sequence_ne_next hx⟩
  have hgrow : Grows db.toTables (v.flushed env) (newStep.map (Uow.stamp env)) attempt (some event)
      message := by
    refine ⟨hp.conversations, hp.messages, hp.responseRuns, ?_, ?_, ?_, ?_, ?_, ⟨id, ?_, ?_⟩⟩
    · show (update (·.id) run.id run.writeTo u.tables.runs).map _ = _
      rw [hp.runs, map_update_of_eq]
      intro r _ _
      rfl
    · show (update (·.id) step.id (SearchStep.writeTo env.dbNow step) u.tables.steps
        ++ u.newSteps.map (Uow.stamp env)).map _ = _
      rw [hp.steps, hp.newSteps, List.map_append, map_update_of_eq]
      · cases newStep <;> rfl
      · intro r _ _
        rfl
    · show (u.tables.attempts ++ u.newAttempts).map _ = _
      rw [hp.attempts, hp.newAttempts, List.map_append]
    · show u.tables.events ++ (u.newEvents ++ [_]) = _
      rw [hp.events, hp.newEvents]
      simp [event, Tables.nextSequence]
    · show u.tables.outbox ++ u.newOutbox = _
      rw [hp.outbox, hp.newOutbox]
    · show u.tables.invocations ++ u.newInvocations = _
      rw [hp.invocations, hp.newInvocations]
      simp
    · intro i
      exact ⟨rfl, rfl, rfl, rfl, rfl⟩
  have hvalid := hgrow.valid db.valid hnew'
  refine ⟨⟨v.flushed env, hvalid⟩, ?_⟩
  unfold saveAndCommit
  rw [hsave]
  simp only [bind, Except.bind]
  rw [hsaveRun]
  exact commit_eq hvalid

end Repositories

/-! ## The coordinator -/

section Totality

variable {db : Db} {env : Env} {ports : Ports} {run : SearchRun} {cur step : SearchStep}

/-- A run that is short of its end can be failed. -/
theorem SearchRun.fail_total {r : SearchRun} (hopen : r.isTerminal = false) (reason : StopReason)
    (h1 : reason ≠ .factsCovered) (h2 : reason ≠ .userCancelled) (at' : Time) :
    ∃ r', r.fail reason at' = .ok r' ∧ r'.id = r.id ∧ r'.persistedVersion = r.persistedVersion ∧
      r'.responseRunId = r.responseRunId := by
  have htr : RunStatus.failed ∈ r.status.transitions := by
    revert hopen
    unfold SearchRun.isTerminal
    cases r.status <;> simp [RunStatus.transitions, RunStatus.isTerminal]
  refine ⟨{ r with
    status := .failed, version := r.version + 1, answerQuality := .none, stopReason := some reason
    completedAt := some at' }, ?_, rfl, rfl, rfl⟩
  simp [SearchRun.fail, SearchRun.transition, assertTransition, htr, h1, h2, check, bind,
    Except.bind, pure, Except.pure]

theorem SearchStep.transition_eq {s : SearchStep} {target : StepStatus}
    (h : target ∈ s.status.transitions) :
    s.transition target = .ok { s with status := target, version := s.version + 1 } := by
  simp [SearchStep.transition, assertTransition, h, check, bind, Except.bind, pure, Except.pure]

/-- A READY step can be started, and a started one can fail. -/
theorem SearchStep.start_total {s : SearchStep} (hready : s.status = .ready) :
    ∃ s', s.start = .ok s' ∧ s'.status = .running ∧ s'.id = s.id ∧
      s'.persistedVersion = s.persistedVersion := by
  refine ⟨{ s with status := .running, version := s.version + 1, retryAt := none }, ?_, rfl, rfl,
    rfl⟩
  rw [SearchStep.start, SearchStep.transition_eq (by simp [hready, StepStatus.transitions])]
  rfl

/-- A READY step can be leased to a worker that has a name, if there is time left. -/
theorem LeaseService.claim_total {lease : Duration} {step : SearchStep} (id : Uuid) (no : Nat)
    {worker : String} {now deadline : Time} (hready : step.status = .ready) (hlease : 0 < lease)
    (hearly : now < deadline) (hworker : Text.isBlank worker = false) :
    ∃ s a, LeaseService.claim lease step id no worker now deadline = .ok (s, a) ∧ s.id = step.id ∧
      s.persistedVersion = step.persistedVersion ∧ a.id = id ∧ a.stepId = step.id ∧
      a.attemptNo = no := by
  obtain ⟨s, hs, -, hid, hv⟩ := SearchStep.start_total hready
  have hlt : now < min deadline (now + lease) :=
    lt_min hearly (lt_add_of_pos_right now hlease)
  refine ⟨s, {
    id, runId := s.runId, stepId := s.id, attemptNo := no, leaseOwner := worker
    leasedUntil := min deadline (now + lease), deadlineAt := deadline, startedAt := now
    input := s.input }, ?_, hid, hv, rfl, hid, rfl⟩
  simp only [LeaseService.claim, hready, hearly, hworker, hs, hlt, check, decide_true, if_true,
    Bool.not_false, bind, Except.bind]
  rfl

theorem startOrResume_total (env : Env) {r : SearchRun} (hopen : r.isTerminal = false) :
    ∃ r', startOrResume env r = .ok r' ∧ r'.persistedVersion = r.persistedVersion := by
  unfold startOrResume
  cases hst : r.status with
  | queued =>
      refine ⟨{ r with
        status := .running, version := r.version + 1
        startedAt := r.startedAt <|> some env.now }, ?_, rfl⟩
      simp [SearchRun.start, SearchRun.transition, assertTransition, hst, RunStatus.transitions,
        check, bind, Except.bind, pure, Except.pure]
  | waiting =>
      refine ⟨{ r with status := .running, version := r.version + 1 }, ?_, rfl⟩
      simp [SearchRun.resume, SearchRun.transition, assertTransition, hst, RunStatus.transitions,
        check, bind, Except.bind, pure, Except.pure]
  | running => exact ⟨r, rfl, rfl⟩
  | succeeded | failed | cancelled =>
      simp [SearchRun.isTerminal, hst, RunStatus.isTerminal] at hopen

/-- The coordinator staged nothing, or one step under a key that was free. -/
inductive Adds (env : Env) (run : SearchRun) (u : Uow) : Uow → Prop
  | nothing : Adds env run u u
  | step (key : String) (ty : StepType) (input : StepInput) (message : OutboxMessage)
      (hfree : Coordinator.stepExists u.tables run 1 key = false)
      (hid : message.id = env.ids (u.drawn + 1))
      (hkey : message.dedupeKey = "step-ready:" ++ (env.ids u.drawn).str) :
      Adds env run u { u with
        newSteps := u.newSteps ++ [Coordinator.newStep (env.ids u.drawn) run key ty input]
        newOutbox := u.newOutbox ++ [message]
        drawn := u.drawn + 2 }

theorem addStep_total (env : Env) (run : SearchRun) (u : Uow) {key : String} (ty : StepType)
    (input : StepInput) (hkey : Text.isBlank key = false) :
    ∃ u', Coordinator.addStep env u run key ty input = .ok u' ∧ Adds env run u u' := by
  cases hex : Coordinator.stepExists u.tables run 1 key with
  | true => exact ⟨u, by simp [Coordinator.addStep, hex, pure, Except.pure], .nothing⟩
  | false =>
      refine ⟨_, ?_, .step key ty input {
        id := env.ids (u.drawn + 1), aggregateType := "search_step", aggregateId := env.ids u.drawn
        eventType := Coordinator.eventType run ty
        dedupeKey := "step-ready:" ++ (env.ids u.drawn).str, availableAt := env.hookNow
        createdAt := env.hookNow } hex rfl rfl⟩
      simp [Coordinator.addStep, hex, hkey, Uow.newUuid, check, bind, Except.bind, pure, Except.pure]

/-- What the coordinator relies on: a plan that succeeded, and outputs that can be read. -/
structure Advisable (ports : Ports) (db : Db) (run : SearchRun) : Prop where
  plan : ∃ s ∈ db.steps, s.runId = run.id ∧ s.stepKey = "plan" ∧ s.status = .succeeded
  readable : ∀ s ∈ db.steps, ∀ ref, s.outputRef = some ref → ∃ p, ports.artifacts ref = some p

/-- The plan's artifact is found, and can be read. -/
theorem planReference_total (hsh : Shape db.toTables) (ha : Advisable ports db run)
    (hst : step.status ≠ .succeeded) :
    ∃ ref p, Coordinator.planReference db.toTables run step = .ok ref ∧
      ports.artifacts ref = some p := by
  obtain ⟨s, hs, hrun, hkey, hsucc⟩ := ha.plan
  have hfind : ∃ x, db.steps.find? (fun s => s.runId = run.id && s.stepKey = "plan"
      && s.status = .succeeded) = some x := by
    rw [← Option.isSome_iff_exists, List.find?_isSome]
    exact ⟨s, hs, by simp [hrun, hkey, hsucc]⟩
  obtain ⟨x, hx⟩ := hfind
  have hmem := List.mem_of_find?_eq_some hx
  have hp := List.find?_some hx
  simp only [Bool.and_eq_true, decide_eq_true_eq] at hp
  obtain ⟨ref, href⟩ := Option.isSome_iff_exists.mp ((hsh.output x hmem).mp hp.2)
  obtain ⟨p, hread⟩ := ha.readable x hmem ref href
  refine ⟨ref, p, ?_, hread⟩
  simp [Coordinator.planReference, hx, href, hst]

theorem payload_eq {ref : ArtifactRef} {p : Payload} (h : ports.artifacts ref = some p) :
    Coordinator.payload ports ref = .ok p := by
  simp [Coordinator.payload, h]

theorem maybeSelect_total {u : Uow} (hu : u.tables = db.toTables) (hsh : Shape db.toTables)
    (ha : Advisable ports db run) (hst : step.status ≠ .succeeded) :
    ∃ u', Coordinator.maybeSelect env u run step = .ok u' ∧ Adds env run u u' := by
  obtain ⟨ref, p, href, -⟩ := planReference_total hsh ha hst
  simp only [Coordinator.maybeSelect, hu, href]
  split
  · exact ⟨u, rfl, .nothing⟩
  · exact addStep_total env run u _ _ (by decide)

theorem maybeSynthesize_total (env : Env) {u : Uow} (hu : u.tables = db.toTables) (e : Ending db run cur step)
    (ha : Advisable ports db run) (hst : step.status ≠ .succeeded) (codes : List String) :
    ∃ u', Coordinator.maybeSynthesize ports env u run step codes = .ok u' ∧ Adds env run u u' := by
  obtain ⟨ref, p, href, -⟩ := planReference_total e.shape ha hst
  obtain ⟨o, ho, -⟩ := e.outputsOf_verify
  have hlen : o.toList.length ≤ 1 := by cases o <;> simp
  -- the selection is one of the run's outputs
  have hsel : ∃ n, Coordinator.selectionFailures ports (db.stepRows run.id) step = .ok n := by
    have href : Coordinator.selectRef (db.stepRows run.id) step
        = ((db.stepRows run.id).find? (·.stepType = .select)).bind (·.outputRef) := by
      simp [Coordinator.selectRef, hst]
    rw [Coordinator.selectionFailures, href]
    cases hfind : (db.stepRows run.id).find? (·.stepType = .select) with
    | none => exact ⟨0, rfl⟩
    | some x =>
        have hmem := List.mem_of_find?_eq_some hfind
        rw [Tables.mem_stepRows] at hmem
        cases hout : x.outputRef with
        | none => exact ⟨0, by simp [hout]⟩
        | some ref =>
            obtain ⟨p, hp⟩ := ha.readable x hmem.1 ref hout
            exact ⟨p.providerFailures, by simp [hout, payload_eq hp, Except.map]⟩
  obtain ⟨n, hn⟩ := hsel
  simp only [Coordinator.maybeSynthesize, hu, href, ho, hn]
  split
  · exact ⟨u, rfl, .nothing⟩
  · obtain ⟨u', hu', hadds⟩ := @addStep_total env run u "synthesize" .synthesize
      (.synthesis {
        planRef := ref, verifyRef := o.toList.head?, providerFailures := n
        pipelineDegradationCodes := Coordinator.sortedSet (codes ++ Coordinator.rowCodes
          ((db.stepRows run.id).filter (·.stepType ≠ .synthesize)) step) }) (by decide)
    refine ⟨u', ?_, hadds⟩
    simp only [check, hlen, decide_true, if_true, bind, Except.bind]
    exact hu'

/-- The outputs the coordinator collects are outputs of the run's steps. -/
theorem outputRef_of_outputsOf {kind : StepType} {rows : List SearchStep} {ref : ArtifactRef}
    (hst : step.status ≠ .succeeded) (h : ref ∈ Coordinator.outputsOf kind rows step) :
    ∃ row ∈ rows, row.outputRef = some ref := by
  simp only [Coordinator.outputsOf, hst, and_false, if_false, List.mem_filterMap] at h
  obtain ⟨row, hrow, h⟩ := h
  split at h
  · exact ⟨row, hrow, h⟩
  · cases h

theorem earlyVerify_total (ha : Advisable ports db run) {planRef : ArtifactRef} {p : Payload}
    (hp : ports.artifacts planRef = some p) {refs : List ArtifactRef}
    (hrefs : ∀ ref ∈ refs, ∃ row ∈ db.steps, row.outputRef = some ref) :
    ∃ b, Coordinator.earlyVerify ports run planRef refs = .ok b := by
  have hread : ∃ ps, refs.mapM (Coordinator.payload ports) = .ok ps := by
    refine mapM_total fun ref href => ?_
    obtain ⟨row, hrow, hout⟩ := hrefs ref href
    obtain ⟨q, hq⟩ := ha.readable row hrow ref hout
    exact ⟨q, payload_eq hq⟩
  obtain ⟨ps, hps⟩ := hread
  simp only [Coordinator.earlyVerify, hps, payload_eq hp, bind, Except.bind]
  split
  · exact ⟨false, rfl⟩
  · split
    · exact ⟨false, rfl⟩
    · exact ⟨_, rfl⟩

theorem maybeVerify_total {u : Uow} (hu : u.tables = db.toTables) (e : Ending db run cur step)
    (ha : Advisable ports db run) (hst : step.status ≠ .succeeded) (codes : List String) :
    ∃ u', Coordinator.maybeVerify ports env u run step codes = .ok u' ∧ Adds env run u u' := by
  have hsyn := maybeSynthesize_total env hu e ha hst codes
  obtain ⟨planRef, p, href, hp⟩ := planReference_total e.shape ha hst
  have hrefs : ∀ ref ∈ Coordinator.outputsOf .extract (db.stepRows run.id) step,
      ∃ row ∈ db.steps, row.outputRef = some ref := by
    intro ref h
    obtain ⟨row, hrow, hout⟩ := outputRef_of_outputsOf hst h
    rw [Tables.mem_stepRows] at hrow
    exact ⟨row, hrow.1, hout⟩
  obtain ⟨early, hearly⟩ := earlyVerify_total ha hp hrefs
  simp only [Coordinator.maybeVerify, hu, href]
  split
  · split
    · exact hsyn
    · exact ⟨u, rfl, .nothing⟩
  · split
    · split
      · exact hsyn
      · exact ⟨u, rfl, .nothing⟩
    · simp only [bind, Except.bind]
      split
      · exact addStep_total env run u _ _ (by decide)
      · rw [hearly]
        cases early with
        | true => exact addStep_total env run u _ _ (by decide)
        | false => exact ⟨u, rfl, .nothing⟩

/-- What was staged is ready to be saved. -/
theorem Adds.prepared {u : Uow} (h : Adds env run (Uow.begin db) u)
    (hfresh : env.Fresh db.toTables 2) (hl : Labelled db) (hrun : ∃ r ∈ db.runs, r.id = run.id) :
    u.drawn ≤ 2 ∧ ∃ step message, Prepared db u step none message ∧
      NewKeys db.toTables step none none message := by
  cases h with
  | nothing =>
      refine ⟨by simp [Uow.begin], none, none, ?_, by constructor <;> simp⟩
      exact ⟨rfl, rfl, rfl, rfl, rfl, rfl, rfl, rfl, rfl, rfl, rfl, rfl, rfl, rfl⟩
  | step key ty input message hfree hid hkey =>
      refine ⟨by simp [Uow.begin], some (Coordinator.newStep (env.ids 0) run key ty input),
        some message, ⟨rfl, rfl, rfl, rfl, rfl, rfl, rfl, rfl, rfl, rfl, rfl, rfl, rfl, rfl⟩, ?_⟩
      refine ⟨?_, by simp, by simp, ?_⟩
      · intro s hs
        obtain rfl := Option.some.inj hs
        refine ⟨hfresh.steps 0 (by omega), fun x hx heq => ?_, hrun⟩
        simp only [Coordinator.stepExists, List.any_eq_false, Bool.and_eq_true,
          decide_eq_true_eq, not_and] at hfree
        simp only [Tables.stepIdentity, Coordinator.newStep, Prod.mk.injEq] at heq
        exact hfree x hx ⟨heq.1, heq.2.1⟩ heq.2.2
      · intro o ho
        obtain rfl := Option.some.inj ho
        refine ⟨fun x hx => ?_, fun x hx heq => ?_⟩
        · rw [hid]
          exact (hfresh.outbox 1 (by omega) x hx).1
        · -- a label names its step
          rw [hl x hx, hkey, String.append_right_inj] at heq
          exact (hfresh.outbox 0 (by omega) x hx).2 (Uuid.str_injective heq)

/-- The coordinator fails the run. -/
theorem failRun_total (db : Db) (env : Env) (hopen : run.isTerminal = false) :
    ∃ u r, Coordinator.failRun env (Uow.begin db) run .infrastructureFailure = .ok (u, r) ∧
      r.id = run.id ∧ r.persistedVersion = run.persistedVersion ∧ u.drawn = 0 ∧
      Prepared db u none none none := by
  obtain ⟨r, hr, hid, hv, -⟩ := SearchRun.fail_total hopen .infrastructureFailure
    (by simp) (by simp) env.hookNow
  let settled := update (·.id) r.responseRunId
    (fun q => { q with status := ResponseStatus.failed, updatedAt := env.hookNow }) db.responseRuns
  refine ⟨{ Uow.begin db with tables := { db.toTables with responseRuns := settled } }, r, ?_, hid,
    hv, rfl, ?_⟩
  · simp only [Coordinator.failRun, hopen, hr, bind, Except.bind]
    rfl
  · refine ⟨rfl, rfl, ?_, rfl, rfl, rfl, rfl, rfl, rfl, rfl, rfl, rfl, rfl, rfl⟩
    exact map_update_of_eq fun _ _ _ => rfl

/-- **The coordinator knows what to do about every step that fails.** -/
theorem onFailure_total (e : Ending db run cur step) (hst : step.status ≠ .succeeded)
    (hopen : run.isTerminal = false) (ha : 2 ≤ cur.stepType.level → Advisable ports db run)
    (hfresh : env.Fresh db.toTables 2) (hl : Labelled db) (hrun : ∃ r ∈ db.runs, r.id = run.id)
    (error : TypedError) :
    ∃ u r, Coordinator.onFailure ports env (Uow.begin db) run step error .failed = .ok (u, r) ∧
      r.id = run.id ∧ r.persistedVersion = run.persistedVersion ∧ u.drawn ≤ 2 ∧
      ∃ step message, Prepared db u step none message ∧
        NewKeys db.toTables step none none message := by
  -- a decision that ends nothing leaves the run as it is
  have goOn : ∀ {x : Except Exn Uow}, (∃ u, x = .ok u ∧ Adds env run (Uow.begin db) u) →
      ∃ u r, (do return (← x, run) : Except Exn (Uow × SearchRun)) = .ok (u, r) ∧
        r.id = run.id ∧ r.persistedVersion = run.persistedVersion ∧ u.drawn ≤ 2 ∧
        ∃ step message, Prepared db u step none message ∧
          NewKeys db.toTables step none none message := by
    intro x hx
    obtain ⟨u, rfl, hadds⟩ := hx
    obtain ⟨hdrawn, hrows⟩ := hadds.prepared hfresh hl hrun
    exact ⟨u, run, rfl, rfl, rfl, hdrawn, hrows⟩
  have failed : ∃ u r,
      Coordinator.failRun env (Uow.begin db) run .infrastructureFailure = .ok (u, r) ∧
        r.id = run.id ∧ r.persistedVersion = run.persistedVersion ∧ u.drawn ≤ 2 ∧
        ∃ step message, Prepared db u step none message ∧
          NewKeys db.toTables step none none message := by
    obtain ⟨u, r, hu, hid, hv, hdrawn, hp⟩ := failRun_total db env hopen
    exact ⟨u, r, hu, hid, hv, by omega, none, none, hp, by constructor <;> simp⟩
  simp only [Coordinator.onFailure, hopen, reduceCtorEq, decide_false, Bool.or_self,
    Bool.false_eq_true, if_false]
  rw [e.same.stepType]
  have hkey := e.shape.key cur e.mem
  cases hty : cur.stepType with
  | route | plan | synthesize => exact failed
  | discovery =>
      exact goOn (maybeSelect_total rfl e.shape (ha (by simp [hty, StepType.level])) hst)
  | fetch | extract =>
      exact goOn (maybeVerify_total rfl e (ha (by simp [hty, StepType.level])) hst _)
  | select | verify =>
      exact goOn (maybeSynthesize_total env rfl e (ha (by simp [hty, StepType.level])) hst _)
  | complete =>
      rw [hty] at hkey
      exact hkey.elim

end Totality

end Sana.Orchestration
