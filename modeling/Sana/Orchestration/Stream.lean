import Sana.Orchestration.System

/-!
# Streaming a run's events

A client follows a run over a stream that merges two sources. The rows of the
database are authoritative, and are read a page at a time. Redis holds a copy of some
of them: whoever committed an event publishes it afterwards, on a best effort, and a
publication that fails is only logged. The subscription alternates between the two
and keeps one cursor, the number of the last event it passed on.

The reads of a subscription happen at different moments; any transaction and any
publication may come between them.
-/

namespace Sana.Orchestration

open Sana.Lib

/-! ## Redis -/

/-- `StreamEvent`. -/
structure StreamEvent where
  sequence : Nat
  eventType : String
  payload : List (String × EventValue)
  createdAt : Time
deriving DecidableEq, Repr

/-- What `RedisEventMirror.publish` makes of a row. -/
def StreamEvent.ofEvent (e : RunEvent) : StreamEvent :=
  ⟨e.sequence, e.eventType, e.payload, e.createdAt⟩

/-- One stream a run. A stream keeps the number of the last entry it took, also when that is gone. -/
structure RedisEventStream where
  streams : Uuid → List StreamEvent
  lastGenerated : Uuid → Nat

def RedisEventStream.empty : RedisEventStream := ⟨fun _ => [], fun _ => 0⟩

/--
`RedisEventStream.publish`. Redis refuses an entry whose number is not past the last one it took;
the refusal is swallowed, here or by whoever publishes.
-/
def RedisEventStream.publish (s : RedisEventStream) (runId : Uuid) (event : StreamEvent) :
    RedisEventStream :=
  if event.sequence ≤ s.lastGenerated runId then s
  else {
    streams := fun id => if id = runId then s.streams runId ++ [event] else s.streams id
    lastGenerated := fun id => if id = runId then event.sequence else s.lastGenerated id }

/-- Redis drops the oldest entries of a stream, up to all of them. -/
def RedisEventStream.trim (s : RedisEventStream) (runId : Uuid) (n : Nat) : RedisEventStream :=
  { s with streams := fun id => if id = runId then (s.streams id).drop n else s.streams id }

/-- `RedisEventStream.read_after`, at the moment the read returns. -/
def RedisEventStream.readAfter (s : RedisEventStream) (runId : Uuid) (afterSequence : Nat) :
    List StreamEvent :=
  ((s.streams runId).filter (afterSequence < ·.sequence)).take 100

/-! ## The subscription -/

/-- `EventView`. -/
structure EventView where
  sequence : Nat
  eventType : String
  payload : List (String × EventValue)
  createdAt : Time
deriving DecidableEq, Repr

def EventView.ofRecord (e : RunEvent) : EventView :=
  ⟨e.sequence, e.eventType, e.payload, e.createdAt⟩

def StreamEvent.view (e : StreamEvent) : EventView :=
  ⟨e.sequence, e.eventType, e.payload, e.createdAt⟩

/-- The rows of `_database_events`: the next 200 past the cursor. -/
def databaseEvents (t : Tables) (runId : Uuid) (afterSequence : Nat) : List EventView :=
  (((t.events.filter fun e => e.runId = runId && decide (afterSequence < e.sequence)).insertionSort
    fun a b => a.sequence ≤ b.sequence).take 200).map .ofRecord

/-- What a subscription does next. -/
inductive Phase
  /-- Open a transaction and read the run. -/
  | database
  /-- Read the rows; `terminal` is what the run was a moment ago. -/
  | events (terminal : Bool)
  /-- Wait for Redis. -/
  | cache
  /-- It has returned. -/
  | ended
deriving DecidableEq, Repr

/-- A call of `subscribe`, with everything it has yielded so far. -/
structure Subscription where
  runId : Uuid
  afterSequence : Nat
  cursor : Nat
  phase : Phase
  yielded : List EventView
deriving DecidableEq, Repr

/-- A call that has not read anything. -/
def Subscription.start (runId : Uuid) (afterSequence : Nat) : Subscription :=
  ⟨runId, afterSequence, afterSequence, .database, []⟩

namespace Subscription

/-- Pass on a row. -/
def yieldRow (s : Subscription) (event : EventView) : Subscription :=
  { s with cursor := max s.cursor event.sequence, yielded := s.yielded ++ [event] }

/-- Pass on an entry of Redis, unless it is behind the cursor. -/
def yieldCached (s : Subscription) (event : StreamEvent) : Subscription :=
  if event.sequence ≤ s.cursor then s
  else { s with cursor := event.sequence, yielded := s.yielded ++ [event.view] }

/-- The run is read; a run that is gone ends the subscription. -/
def readRun (s : Subscription) : Option SearchRun → Subscription
  | none => { s with phase := .ended }
  | some run => { s with phase := .events run.isTerminal }

/-- The rows are read and passed on. -/
def readEvents (s : Subscription) (terminal : Bool) (events : List EventView) : Subscription :=
  { events.foldl yieldRow s with phase := if terminal then .ended else .cache }

/-- Redis answers, and the loop starts over. -/
def readCache (s : Subscription) (cached : List StreamEvent) : Subscription :=
  { cached.foldl yieldCached s with phase := .database }

end Subscription

/-! ## The system -/

/-- The workflow, Redis and one subscription. -/
structure Feed where
  world : World
  redis : RedisEventStream
  sub : Subscription

def Feed.init (runId : Uuid) (afterSequence : Nat) : Feed :=
  ⟨.init, .empty, .start runId afterSequence⟩

/-- What can happen next. -/
inductive Feed.Act
  /-- A transaction commits. -/
  | transact (call : Call)
  /-- A committed event is published, however late. -/
  | publish (event : RunEvent)
  /-- Redis drops entries. -/
  | trim (runId : Uuid) (n : Nat)
  | readRun
  | readEvents
  | readCache
  /-- Redis cannot be reached; the subscription goes back to the database. -/
  | redisError

/-- Perform it, if it can happen. -/
def Feed.act (d : Deployment) (s : Feed) : Feed.Act → Option Feed
  | .transact call =>
      if call.Held s.world then
        (call.run d s.world).toOption.map fun w => { s with world := w }
      else none
  | .publish event =>
      if event ∈ s.world.db.events then
        some { s with redis := s.redis.publish event.runId (.ofEvent event) }
      else none
  | .trim runId n => some { s with redis := s.redis.trim runId n }
  | .readRun =>
      if s.sub.phase = .database then
        (s.world.db.getRun s.sub.runId).toOption.map fun run => { s with sub := s.sub.readRun run }
      else none
  | .readEvents =>
      match s.sub.phase with
      | .events terminal => some { s with
          sub := s.sub.readEvents terminal
            (databaseEvents s.world.db.toTables s.sub.runId s.sub.cursor) }
      | _ => none
  | .readCache =>
      if s.sub.phase = .cache then
        some { s with sub := s.sub.readCache (s.redis.readAfter s.sub.runId s.sub.cursor) }
      else none
  | .redisError =>
      if s.sub.phase = .cache then some { s with sub := { s.sub with phase := .database } }
      else none

/-- One thing happens, under a condition on the state it happens in. -/
def Feed.Moves (d : Deployment) (ok : Feed → Feed.Act → Prop) (s t : Feed) : Prop :=
  ∃ a, ok s a ∧ s.act d a = some t

/-- The states in which everything so far met a condition. -/
abbrev Feed.ReachableBy (d : Deployment) (ok : Feed → Feed.Act → Prop) : Feed → Prop :=
  Lib.Reachable (fun s => ∃ runId afterSequence, s = .init runId afterSequence) (Feed.Moves d ok)

/-- A property checked after a list of things that all meet a condition. -/
theorem Feed.exists_reachableBy (d : Deployment) (ok : Feed → Feed.Act → Prop)
    [∀ s a, Decidable (ok s a)] (runId : Uuid) (afterSequence : Nat) (acts : List Feed.Act)
    (p : Feed → Bool)
    (h : (acts.foldlM (fun s a => if ok s a then Feed.act d s a else none)
      (Feed.init runId afterSequence)).any p = true) :
    ∃ s, Feed.ReachableBy d ok s ∧ p s = true := by
  obtain ⟨s, hs, hp⟩ := (Option.any_eq_true _ _).mp h
  refine ⟨s, Lib.Reachable.of_exec ?_ (.init ⟨runId, afterSequence, rfl⟩) hs, hp⟩
  intro s a t hstep
  split at hstep
  · rename_i hok
    exact ⟨a, hok, hstep⟩
  · cases hstep

end Sana.Orchestration
