import Sana.Orchestration.Proof.Audit
import Sana.Orchestration.Proof.Schedule

/-!
# What a transaction leaves beside the workflow's tables

Runs, steps and attempts are the subject of `Effect`. This is the rest: what a
transaction that submits nothing does to conversations, messages, responses, the
event log, the outbox and the audit rows. All of them only grow, except that a
conversation is touched, a response is settled, an outbox row is published and an
open audit row is sealed.
-/

namespace Sana.Orchestration

open Sana.Lib

/-- Who performs a transaction. -/
inductive Actor
  /-- A worker that asks for a lease on a step, with its clock. -/
  | claimer (stepId : Uuid) (now : Time)
  /-- A worker that reports under a lease, and how often it lets a kind of step be tried. -/
  | reporter (c : ClaimedStep) (limit : StepType → Nat)
  | heartbeat
  /-- The reconciler, releasing a step it found in a scan, with its clock. -/
  | reconciler (candidate : ReconcileCandidate) (now : Time)
  /-- The reconciler, recording that it has sent a step again. -/
  | sender
  | dispatcher
  | auditor
  /-- A user that cancels a run. -/
  | canceller (runId : Uuid)
  /-- A user that submits a message. -/
  | submitter
  | api

/-- Which message an outbox row is; once published, it stays so. -/
structure OutboxMessage.Same (o o' : OutboxMessage) : Prop where
  id : o'.id = o.id
  aggregateId : o'.aggregateId = o.aggregateId
  dedupeKey : o'.dedupeKey = o.dedupeKey
  eventType : o'.eventType = o.eventType
  availableAt : o'.availableAt = o.availableAt
  createdAt : o'.createdAt = o.createdAt
  published : o.publishedAt ≠ none → o'.publishedAt = o.publishedAt
  aggregateType : o'.aggregateType = o.aggregateType

theorem OutboxMessage.Same.rfl {o : OutboxMessage} : o.Same o :=
  ⟨.refl _, .refl _, .refl _, .refl _, .refl _, .refl _, fun _ => .refl _, .refl _⟩

/-- The log is as it was, or it got the next event of a run. -/
inductive Logged (db db' : Db) : Prop
  | nothing (h : db'.events = db.events)
  | event (e : RunEvent) (run : SearchRun) (hrun : run ∈ db.runs) (hid : e.runId = run.id)
      (hseq : e.sequence = db.nextSequence run.id) (h : db'.events = db.events ++ [e])

/-- What a transaction that submits nothing leaves of the tables beside the workflow's. -/
structure Sides (who : Actor) (db db' : Db) (new : List SearchStep) : Prop where
  conversations : ∃ touch rows, db'.conversations = db.conversations.map touch ++ rows ∧
    ∀ c, Conversation.Same c (touch c)
  /-- Only the assistant writes, apart from submissions. -/
  messages : ∃ rows, db'.messages = db.messages ++ rows ∧ ∀ m ∈ rows, m.authorUserId = none
  /-- A response that is settled stays settled; only that of an open run is written. -/
  responses : ∃ settle, db'.responseRuns = db.responseRuns.map settle ∧
    ∀ r, ResponseRun.Same r (settle r) ∧ (r.status ≠ .queued → (settle r).status ≠ .queued) ∧
      (settle r = r ∨ ∃ run ∈ db.runs, run.isTerminal = false ∧ r.id = run.responseRunId)
  events : Logged db db'
  /-- Every new step has its message. -/
  outbox : ∃ publish rows, db'.outbox = db.outbox.map publish ++ rows ∧
    (∀ o, OutboxMessage.Same o (publish o)) ∧ (who ≠ .dispatcher → ∀ o, publish o = o) ∧
    List.Forall₂ Announces new rows
  invocations : who ≠ .auditor → ∃ close, db'.invocations = db.invocations.map close ∧
    ∀ i, ModelInvocationRecord.Abandoned i (close i)

namespace Sides

variable {who : Actor} {db db' : Db}

/-- A transaction that writes none of these tables but the log. -/
theorem of_events (hc : db'.conversations = db.conversations) (hm : db'.messages = db.messages)
    (hr : db'.responseRuns = db.responseRuns) (he : Logged db db') (ho : db'.outbox = db.outbox)
    (hi : db'.invocations = db.invocations) : Sides who db db' [] where
  conversations := ⟨id, [], by simp [hc], fun c => ⟨rfl, rfl, rfl, rfl, rfl⟩⟩
  messages := ⟨[], by simp [hm], by simp⟩
  responses := ⟨id, by simp [hr], fun r => ⟨⟨rfl, rfl, rfl⟩, fun h => h, .inl rfl⟩⟩
  events := he
  outbox := ⟨id, [], by simp [ho], fun _ => .rfl, fun _ _ => rfl, .nil⟩
  invocations _ := ⟨id, by simp [hi], fun _ => .inl rfl⟩

/-- A transaction that writes none of these tables. -/
theorem rfl : Sides who db db [] :=
  of_events (.refl _) (.refl _) (.refl _) (.nothing (.refl _)) (.refl _) (.refl _)

end Sides

/-! ## A saved step -/

/-- The other tables, after saving a step and its run. -/
theorem saveAndCommit_sides {env : Env} {u : Uow} {s : SearchStep} {r : SearchRun} {e : String}
    {p : List (String × EventValue)} {db : Db} (h : saveAndCommit env u s r e p = .ok db) :
    db.conversations = u.tables.conversations ∧ db.messages = u.tables.messages ∧
      db.responseRuns = u.tables.responseRuns ∧
      (∃ event : RunEvent, event.runId = r.id ∧ event.sequence = u.tables.nextSequence r.id ∧
        db.events = u.tables.events ++ (u.newEvents ++ [event])) ∧
      db.outbox = u.tables.outbox ++ u.newOutbox ∧
      db.invocations = u.tables.invocations ++ u.newInvocations := by
  simp only [saveAndCommit, bind_ok_iff] at h
  obtain ⟨t, hs, t', hr, hc⟩ := h
  obtain rfl := Tables.saveStep_ok hs
  obtain rfl := Tables.saveRun_ok hr
  rw [commit_ok hc]
  refine ⟨rfl, rfl, rfl, ⟨⟨env.ids u.drawn, r.id, u.tables.nextSequence r.id, e, p, env.hookNow⟩,
    rfl, rfl, ?_⟩, rfl, rfl⟩
  simp [Uow.flushed, addEvent, Uow.newUuid, Tables.nextSequence]

/-- A transaction that commits no row of these tables. -/
theorem Sides.of_commit {who : Actor} {db db' : Db} {env : Env} {u : Uow}
    (h : u.commit env = .ok db') (hc : u.tables.conversations = db.conversations)
    (hm : u.tables.messages = db.messages) (hr : u.tables.responseRuns = db.responseRuns)
    (he : u.tables.events = db.events) (ho : u.tables.outbox = db.outbox)
    (hi : u.tables.invocations = db.invocations) (hne : u.newEvents = []) (hno : u.newOutbox = [])
    (hni : u.newInvocations = []) : Sides who db db' [] := by
  have hflush := commit_ok h
  refine .of_events ?_ ?_ ?_ (.nothing ?_) ?_ ?_ <;> rw [hflush]
  · exact hc
  · exact hm
  · exact hr
  · simp [Uow.flushed, he, hne]
  · simp [Uow.flushed, ho, hno]
  · simp [Uow.flushed, hi, hni]

/-- A transaction that commits no row of these tables, but seals open audit rows. -/
theorem Sides.of_abandoned {who : Actor} {db db' : Db} {env : Env} {u : Uow}
    {selected : ModelInvocationRecord → Bool} {code : String} {at' : Time}
    (h : u.commit env = .ok db') (hc : u.tables.conversations = db.conversations)
    (hm : u.tables.messages = db.messages) (hr : u.tables.responseRuns = db.responseRuns)
    (he : u.tables.events = db.events) (ho : u.tables.outbox = db.outbox)
    (hi : u.tables.invocations = abandonRows db.invocations selected code at')
    (hne : u.newEvents = []) (hno : u.newOutbox = []) (hni : u.newInvocations = []) :
    Sides who db db' [] := by
  have hflush := commit_ok h
  obtain ⟨close, hclose, habandon⟩ := abandonRows_abandoned db.invocations selected code at'
  refine {
    conversations := ⟨id, [], ?_, fun c => ⟨.refl _, .refl _, .refl _, .refl _, .refl _⟩⟩
    messages := ⟨[], ?_, by simp⟩
    responses := ⟨id, ?_, fun r => ⟨⟨.refl _, .refl _, .refl _⟩, fun h => h, .inl (.refl _)⟩⟩
    events := .nothing ?_
    outbox := ⟨id, [], ?_, fun _ => .rfl, fun _ _ => .refl _, .nil⟩
    invocations := fun _ => ⟨close, ?_, habandon⟩ } <;> rw [hflush]
  · simp [Uow.flushed, hc]
  · simp [Uow.flushed, hm]
  · simp [Uow.flushed, hr]
  · simp [Uow.flushed, he, hne]
  · simp [Uow.flushed, ho, hno]
  · simp [Uow.flushed, hi, hni, hclose]

/-- A step saved with its run, without the coordinator. -/
theorem Sides.of_saved {who : Actor} {db db' : Db} {env : Env} {u : Uow} {s : SearchStep}
    {run row : SearchRun} {ev : String} {p : List (String × EventValue)} (hrow : row ∈ db.runs)
    (hid : run.id = row.id) (h : saveAndCommit env u s run ev p = .ok db')
    (hc : u.tables.conversations = db.conversations)
    (hm : u.tables.messages = db.messages) (hr : u.tables.responseRuns = db.responseRuns)
    (he : u.tables.events = db.events) (ho : u.tables.outbox = db.outbox)
    (hi : u.tables.invocations = db.invocations) (hne : u.newEvents = []) (hno : u.newOutbox = [])
    (hni : u.newInvocations = []) : Sides who db db' [] := by
  obtain ⟨hc', hm', hr', ⟨e, herun, heseq, he'⟩, ho', hi'⟩ := saveAndCommit_sides h
  refine .of_events (hc'.trans hc) (hm'.trans hm) (hr'.trans hr)
    (.event e row hrow (herun.trans hid) ?_ ?_) ?_ ?_
  · rw [heseq, hid]
    simp only [Tables.nextSequence, he]
  · rw [he', he, hne]
    rfl
  · rw [ho', ho, hno, List.append_nil]
  · rw [hi', hi, hni, List.append_nil]

/-- The message of a step is the message of its row. -/
theorem forall₂_announces_stamp {env : Env} {new : List SearchStep} {rows : List OutboxMessage}
    (h : List.Forall₂ Announces new rows) : List.Forall₂ Announces (new.map (Uow.stamp env)) rows := by
  rw [List.forall₂_map_left_iff]
  exact h.imp fun _ _ ha => ⟨ha.aggregateId, ha.dedupeKey, ha.unpublished, ha.queue⟩

/-- The coordinator's writes, saved with the step and its run. -/
theorem Advanced.sides {who : Actor} {db db' : Db} {run run' row : SearchRun} {step s : SearchStep}
    {u : Uow} {env : Env} {ev : String} {p : List (String × EventValue)}
    {attempts : List StepAttempt} (h : Advanced db run run' step u) (hrow : row ∈ db.runs)
    (hid : run'.id = row.id) (hopen : row.isTerminal = false)
    (hresp : run.responseRunId = row.responseRunId)
    (hsave : saveAndCommit env { u with tables := { u.tables with attempts } } s run' ev p
      = .ok db') : Sides who db db' (u.newSteps.map (Uow.stamp env)) := by
  obtain ⟨hc, hm, hr, ⟨e, herun, heseq, he⟩, ho, hi⟩ := saveAndCommit_sides hsave
  have hseq : e.sequence = db.nextSequence row.id := by
    rw [heseq, ← hid]
    simp only [Tables.nextSequence, h.events]
  have hlog : Logged db db' := by
    refine .event e row hrow (herun.trans hid) hseq ?_
    rw [he, h.newEvents]
    simp [h.events]
  have hout : ∃ publish rows, db'.outbox = db.outbox.map publish ++ rows ∧
      (∀ o, OutboxMessage.Same o (publish o)) ∧ (who ≠ .dispatcher → ∀ o, publish o = o) ∧
      List.Forall₂ Announces (u.newSteps.map (Uow.stamp env)) rows :=
    ⟨id, u.newOutbox, by rw [ho, List.map_id]; simp [h.outbox], fun _ => .rfl, fun _ _ => rfl,
      forall₂_announces_stamp h.newOutbox⟩
  have hinv : who ≠ .auditor → ∃ close, db'.invocations = db.invocations.map close ∧
      ∀ i, ModelInvocationRecord.Abandoned i (close i) :=
    fun _ => ⟨id, by rw [hi, h.newInvocations]; simp [h.invocations], fun _ => .inl rfl⟩
  cases h.beside with
  | nothing hrun htables =>
      exact {
        conversations := ⟨id, [], by rw [hc]; simp [htables], fun c => ⟨rfl, rfl, rfl, rfl, rfl⟩⟩
        messages := ⟨[], by rw [hm]; simp [htables], by simp⟩
        responses := ⟨id, by rw [hr]; simp [htables], fun r => ⟨⟨rfl, rfl, rfl⟩, fun h => h, .inl rfl⟩⟩
        events := hlog, outbox := hout, invocations := hinv }
  | settled hterm hnew messages answer touch hmessages hauthor hanswer hresponses htouch hconv =>
      refine {
        conversations := ⟨touch, [], by rw [hc]; simp [hconv], htouch⟩
        messages := ⟨messages, by rw [hm]; exact hmessages, hauthor⟩
        responses := ⟨fun r => if r.id = run.responseRunId then answer r else r, ?_, ?_⟩
        events := hlog, outbox := hout, invocations := hinv }
      · rw [hr]
        exact hresponses
      · intro r
        dsimp only
        split
        · rename_i heq
          exact ⟨(hanswer r).1, fun _ => (hanswer r).2,
            .inr ⟨row, hrow, hopen, heq.trans hresp⟩⟩
        · exact ⟨⟨rfl, rfl, rfl⟩, fun h => h, .inl rfl⟩

/-- A run that the coordinator ended has no live step left, and its response is settled. -/
theorem Advanced.settled {db db' : Db} {run run' : SearchRun} {step s : SearchStep}
    {u : Uow} {env : Env} {ev : String} {p : List (String × EventValue)}
    {attempts : List StepAttempt} (h : Advanced db run run' step u) (hopen : run.isTerminal = false)
    (hsave : saveAndCommit env { u with tables := { u.tables with attempts } } s run' ev p
      = .ok db') :
    run'.isTerminal = false ∨
      (∀ row ∈ db.steps, row.runId = run.id → Coordinator.isLive row step = false) ∧
      ∀ q ∈ db'.responseRuns, q.id = run.responseRunId → q.status ≠ .queued := by
  obtain ⟨-, -, hr, -⟩ := saveAndCommit_sides hsave
  rcases h.lone with hrun | hlone
  · exact .inl (by rw [hrun]; exact hopen)
  cases h.beside with
  | nothing hrun htables => exact .inl (by rw [hrun]; exact hopen)
  | settled hterm hnew messages answer touch hmessages hauthor hanswer hresponses htouch hconv =>
      refine .inr ⟨hlone, fun q hq hid => ?_⟩
      rw [hr] at hq
      simp only [hresponses] at hq
      rcases mem_update.mp hq with ⟨r, _, _, rfl⟩ | ⟨_, hne⟩
      · exact (hanswer r).2
      · exact absurd hid hne

/-- A run that has ended schedules nothing. -/
theorem Advanced.closed {db : Db} {run run' : SearchRun} {step : SearchStep} {u : Uow}
    (h : Advanced db run run' step u) (hopen : run.isTerminal = false)
    (hterm : run'.isTerminal = true) : u.newSteps = [] := by
  cases h.beside with
  | nothing hrun htables =>
      rw [hrun, hopen] at hterm
      cases hterm
  | settled _ hnew => exact hnew

end Sana.Orchestration
