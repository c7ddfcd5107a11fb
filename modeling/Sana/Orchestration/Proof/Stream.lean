import Sana.Orchestration.Stream
import Sana.Orchestration.Proof.Events

/-!
# What a subscription passes on

The cursor is a promise: everything up to it was passed on, and nothing beyond. A page
of the database keeps it, because a run's events are numbered without gaps. A page of
Redis keeps it only if it starts with the next event and skips none, and nothing checks
that: an event whose publication failed is lost to every subscription that learns of a
later one first. The page that is read after the run has ended is the last one, so
whatever does not fit into it is lost as well.
-/

namespace Sana.Orchestration

open Sana.Lib

variable {d : Deployment} {ok : Feed → Feed.Act → Prop} {s t : Feed}

/-- Exactly the events past a number, in order and each of them once. -/
def CompleteAfter (t : Tables) (runId : Uuid) (afterSequence : Nat) (views : List EventView) :
    Prop :=
  (views.map (·.sequence)).Pairwise (· < ·) ∧
    ∀ v, v ∈ views ↔ ∃ e ∈ t.eventsOf runId, afterSequence < e.sequence ∧ v = .ofRecord e

/--
What a read must find. A page of Redis continues at the cursor without a gap, and the
page that is read after the run has ended holds all that is left.
-/
def Feed.Seamless (s : Feed) : Feed.Act → Prop
  | .readCache =>
      let page := s.redis.readAfter s.sub.runId s.sub.cursor
      page.map (·.sequence) = List.range' (s.sub.cursor + 1) page.length
  | .readEvents => s.sub.phase = .events true →
      ((s.world.db.eventsOf s.sub.runId).filter (s.sub.cursor < ·.sequence)).length ≤ 200
  | _ => True

instance (s : Feed) (a : Feed.Act) : Decidable (s.Seamless a) := by
  cases a <;> unfold Feed.Seamless <;> infer_instance


/-! ## Passing on a page -/

theorem foldl_yieldRow (views : List EventView) (s : Subscription)
    (h : views.map (·.sequence) = List.range' (s.cursor + 1) views.length) :
    views.foldl Subscription.yieldRow s
      = { s with cursor := s.cursor + views.length, yielded := s.yielded ++ views } := by
  induction views generalizing s with
  | nil => simp
  | cons v views ih =>
      rw [List.map_cons, List.length_cons, List.range'_succ, List.cons.injEq] at h
      obtain ⟨hv, hrest⟩ := h
      have hcursor : max s.cursor v.sequence = s.cursor + 1 := by omega
      rw [List.foldl_cons, ih _ (by simpa only [Subscription.yieldRow, hcursor] using hrest)]
      simp only [Subscription.yieldRow, hcursor, List.length_cons, List.append_assoc,
        List.singleton_append, Subscription.mk.injEq, true_and, and_true]
      omega

/-- Entries that continue at the cursor are all ahead of it. -/
theorem foldl_yieldCached (entries : List StreamEvent) (s : Subscription)
    (h : entries.map (·.sequence) = List.range' (s.cursor + 1) entries.length) :
    entries.foldl Subscription.yieldCached s
      = { s with cursor := s.cursor + entries.length,
                 yielded := s.yielded ++ entries.map (·.view) } := by
  induction entries generalizing s with
  | nil => simp
  | cons e entries ih =>
      rw [List.map_cons, List.length_cons, List.range'_succ, List.cons.injEq] at h
      obtain ⟨he, hrest⟩ := h
      have hstep : s.yieldCached e
          = { s with cursor := s.cursor + 1, yielded := s.yielded ++ [e.view] } := by
        unfold Subscription.yieldCached
        rw [if_neg (by omega), he]
      rw [List.foldl_cons, hstep, ih _ hrest]
      simp only [List.map_cons, List.length_cons, List.append_assoc,
        List.singleton_append, Subscription.mk.injEq, true_and, and_true]
      omega

/-! ## The cursor -/

/-- Everything up to the cursor was passed on, and nothing beyond. -/
structure Progress (t : Tables) (s : Subscription) : Prop where
  ahead : s.afterSequence ≤ s.cursor
  bound : s.cursor = s.afterSequence ∨ s.cursor ≤ (t.eventsOf s.runId).length
  yielded : s.yielded
    = (((t.eventsOf s.runId).take s.cursor).drop s.afterSequence).map .ofRecord

theorem Progress.start (t : Tables) (runId : Uuid) (afterSequence : Nat) :
    Progress t (.start runId afterSequence) where
  ahead := Nat.le_refl _
  bound := .inl rfl
  yielded := by simp [Subscription.start]

/-- Only what is yielded and the cursor matter. -/
theorem Progress.phase {t : Tables} {s : Subscription} (h : Progress t s) (phase : Phase) :
    Progress t { s with phase } := ⟨h.ahead, h.bound, h.yielded⟩

/-- A longer log leaves the promise as it is. -/
theorem Progress.appended {t t' : Tables} {s : Subscription} (h : Progress t s)
    (hlog : t.events <+: t'.events) : Progress t' s := by
  obtain ⟨new, hnew⟩ := hlog
  have hevents : t'.eventsOf s.runId
      = t.eventsOf s.runId ++ new.filter (·.runId = s.runId) := by
    unfold Tables.eventsOf
    rw [← hnew, List.filter_append]
  refine ⟨h.ahead, ?_, ?_⟩
  · rw [hevents, List.length_append]
    have hb := h.bound
    omega
  · rw [h.yielded, hevents]
    rcases h.bound with hb | hb
    · rw [hb]
      simp
    · rw [List.take_append_of_le_length hb]

/-- **A page of the log keeps the promise.** -/
theorem Progress.page {t : Tables} {s : Subscription} (h : Progress t s) {views : List EventView}
    (hviews : views
      = (((t.eventsOf s.runId).drop s.cursor).take views.length).map .ofRecord) :
    Progress t { s with cursor := s.cursor + views.length, yielded := s.yielded ++ views } := by
  have hlen := congrArg List.length hviews
  rw [List.length_map, List.length_take, List.length_drop] at hlen
  have hahead := h.ahead
  refine ⟨by dsimp only; omega, ?_, ?_⟩
  · have hb := h.bound
    dsimp only
    omega
  · dsimp only
    rw [List.take_add, List.drop_append, List.map_append, ← h.yielded]
    congr 1
    -- beyond the end of the log there is nothing to drop from
    by_cases hc : s.cursor ≤ (t.eventsOf s.runId).length
    · have hz : s.afterSequence - ((t.eventsOf s.runId).take s.cursor).length = 0 := by
        rw [List.length_take]
        omega
      rw [hz, List.drop_zero]
      exact hviews
    · have hnil : views = [] := List.eq_nil_of_length_eq_zero (by omega)
      rw [hnil]
      simp

/-! ## The two sources -/

/-- The rows come in the order of the log. -/
theorem databaseEvents_eq {db : Db} (h : Numbered db) (runId : Uuid) (c : Nat) :
    databaseEvents db.toTables runId c
      = (((db.eventsOf runId).drop c).take 200).map .ofRecord := by
  have hnum := h.sequences runId
  have hfilter : (db.events.filter fun e => e.runId = runId && decide (c < e.sequence))
      = (db.eventsOf runId).drop c := by
    rw [← filter_lt_numbered hnum c, Tables.eventsOf, List.filter_filter]
    exact List.filter_congr fun e _ => Bool.and_comm _ _
  have hsorted : ((db.eventsOf runId).drop c).Pairwise fun a b => a.sequence ≤ b.sequence := by
    have hall : (db.eventsOf runId).Pairwise fun a b => a.sequence ≤ b.sequence := by
      have hseq : (db.eventsOf runId).map (·.sequence) = _ := hnum
      rw [← List.pairwise_map (f := RunEvent.sequence) (R := (· ≤ ·)), hseq]
      exact List.pairwise_le_range'
    exact hall.sublist (List.drop_sublist _ _)
  unfold databaseEvents
  rw [hfilter, hsorted.insertionSort_eq]

/-- Every entry of Redis is a copy of an event of its run. -/
def Mirrored (db : Db) (redis : RedisEventStream) : Prop :=
  ∀ runId, ∀ c ∈ redis.streams runId, ∃ e ∈ db.eventsOf runId, c = .ofEvent e

theorem Mirrored.publish {db : Db} {redis : RedisEventStream} (h : Mirrored db redis)
    {event : RunEvent} (he : event ∈ db.events) :
    Mirrored db (redis.publish event.runId (.ofEvent event)) := by
  intro runId c hc
  unfold RedisEventStream.publish at hc
  split at hc
  · exact h runId c hc
  · dsimp only at hc
    split at hc
    · rename_i hid
      rw [List.mem_append, List.mem_singleton] at hc
      rcases hc with hc | rfl
      · exact h runId c (hid ▸ hc)
      · exact ⟨event, List.mem_filter.mpr ⟨he, by simp [hid]⟩, rfl⟩
    · exact h runId c hc

theorem Mirrored.trim {db : Db} {redis : RedisEventStream} (h : Mirrored db redis)
    (runId : Uuid) (n : Nat) : Mirrored db (redis.trim runId n) := by
  intro id c hc
  unfold RedisEventStream.trim at hc
  dsimp only at hc
  split at hc
  · exact h id c (List.mem_of_mem_drop hc)
  · exact h id c hc

theorem Mirrored.appended {db db' : Db} {redis : RedisEventStream} (h : Mirrored db redis)
    (hlog : db.events <+: db'.events) : Mirrored db' redis := by
  intro runId c hc
  obtain ⟨e, he, rfl⟩ := h runId c hc
  exact ⟨e, (hlog.sublist.filter _).subset he, rfl⟩

/-- A page of Redis that continues at the cursor is a page of the log. -/
theorem Mirrored.page {db : Db} {redis : RedisEventStream} (h : Mirrored db redis)
    (hnum : Numbered db) {runId : Uuid} {c : Nat}
    (hpage : (redis.readAfter runId c).map (·.sequence)
      = List.range' (c + 1) (redis.readAfter runId c).length) :
    (redis.readAfter runId c).map (·.view)
      = (((db.eventsOf runId).drop c).take (redis.readAfter runId c).length).map .ofRecord := by
  have hseq := hnum.sequences runId
  apply List.ext_getElem?
  intro i
  rw [List.getElem?_map, List.getElem?_map, List.getElem?_take]
  by_cases hi : i < (redis.readAfter runId c).length
  · rw [if_pos hi, List.getElem?_drop]
    obtain ⟨x, hx⟩ : ∃ x, (redis.readAfter runId c)[i]? = some x :=
      ⟨_, List.getElem?_eq_getElem hi⟩
    -- the entry at `i` has number `c + 1 + i`, and so has the event at `c + i`
    have hxi : x.sequence = c + 1 + i := by
      have hmap := congrArg (·[i]?) hpage
      simp only [List.getElem?_map, hx, Option.map_some] at hmap
      rw [List.getElem?_range' hi] at hmap
      have hx' := Option.some.inj hmap
      omega
    have hmem : x ∈ redis.streams runId :=
      (List.mem_filter.mp (List.mem_of_mem_take (List.mem_of_getElem? hx))).1
    obtain ⟨e, he, rfl⟩ := h runId x hmem
    obtain ⟨hat, -⟩ := getElem?_of_numbered hseq he
    have hidx : e.sequence - 1 = c + i := by
      have : e.sequence = c + 1 + i := hxi
      omega
    rw [hidx] at hat
    rw [hx, hat]
    rfl
  · rw [if_neg hi, List.getElem?_eq_none (by omega)]
    rfl

/-! ## Runs -/

/-- What holds while everything that happens is seamless. -/
structure Feed.Inv (d : Deployment) (s : Feed) : Prop where
  world : Reachable d s.world
  mirrored : Mirrored s.world.db s.redis
  progress : Progress s.world.db.toTables s.sub

/-- A page of rows, passed on. -/
theorem Feed.Inv.readEvents_eq (h : Feed.Inv d s) (terminal : Bool) :
    let page := (((s.world.db.eventsOf s.sub.runId).drop s.sub.cursor).take 200).map .ofRecord
    s.sub.readEvents terminal (databaseEvents s.world.db.toTables s.sub.runId s.sub.cursor)
      = { s.sub with
          cursor := s.sub.cursor + page.length
          yielded := s.sub.yielded ++ page
          phase := if terminal then .ended else .cache } := by
  intro page
  have hnum := numbered_reachable h.world
  have hseq : page.map (·.sequence) = List.range' (s.sub.cursor + 1) page.length := by
    rw [List.map_map, List.length_map]
    exact map_drop_numbered (hnum.sequences s.sub.runId) s.sub.cursor 200
  unfold Subscription.readEvents
  rw [databaseEvents_eq hnum, foldl_yieldRow _ _ hseq]

theorem Feed.Inv.readEvents (h : Feed.Inv d s) (terminal : Bool) :
    Progress s.world.db.toTables (s.sub.readEvents terminal
      (databaseEvents s.world.db.toTables s.sub.runId s.sub.cursor)) := by
  rw [h.readEvents_eq terminal]
  refine (h.progress.page ?_).phase _
  have hlen : ∀ l : List RunEvent, l.take 200 = l.take (l.take 200).length := by
    intro l
    rw [List.length_take, List.take_eq_take_iff]
    omega
  rw [List.length_map, ← hlen]

theorem Feed.Inv.readCache (h : Feed.Inv d s) (hseam : s.Seamless .readCache) :
    Progress s.world.db.toTables
      (s.sub.readCache (s.redis.readAfter s.sub.runId s.sub.cursor)) := by
  unfold Subscription.readCache
  rw [foldl_yieldCached _ _ hseam]
  have hpage := h.mirrored.page (numbered_reachable h.world) hseam
  have hlen : ((s.redis.readAfter s.sub.runId s.sub.cursor).map (·.view)).length
      = (s.redis.readAfter s.sub.runId s.sub.cursor).length := List.length_map _
  rw [← hlen] at hpage
  have hprog := h.progress.page hpage
  rw [hlen] at hprog
  exact hprog.phase _

/-- **Everything that is seamless keeps the promise of the cursor.** -/
theorem Feed.Inv.act (h : Feed.Inv d s) {a : Feed.Act} (hseam : s.Seamless a)
    (ha : s.act d a = some t) : Feed.Inv d t := by
  cases a with
  | transact call =>
      simp only [Feed.act] at ha
      split at ha
      · rename_i hheld
        obtain ⟨w, hw, rfl⟩ := Option.map_eq_some_iff.mp ha
        have hstep : Step d s.world w := step_iff_call.mpr ⟨call, hheld, toOption_eq_some hw⟩
        obtain ⟨who, he, -⟩ := step_effect (winv_reachable h.world) hstep
        exact ⟨h.world.tail hstep, h.mirrored.appended he.events_append,
          h.progress.appended he.events_append⟩
      · cases ha
  | publish event =>
      simp only [Feed.act] at ha
      split at ha
      · rename_i hmem
        obtain rfl := Option.some.inj ha
        exact ⟨h.world, h.mirrored.publish hmem, h.progress⟩
      · cases ha
  | trim runId n =>
      obtain rfl := Option.some.inj ha
      exact ⟨h.world, h.mirrored.trim runId n, h.progress⟩
  | readRun =>
      simp only [Feed.act] at ha
      split at ha
      · obtain ⟨run, -, rfl⟩ := Option.map_eq_some_iff.mp ha
        cases run with
        | none => exact ⟨h.world, h.mirrored, h.progress.phase _⟩
        | some run => exact ⟨h.world, h.mirrored, h.progress.phase _⟩
      · cases ha
  | readEvents =>
      simp only [Feed.act] at ha
      split at ha
      · obtain rfl := Option.some.inj ha
        exact ⟨h.world, h.mirrored, h.readEvents _⟩
      · cases ha
  | readCache =>
      simp only [Feed.act] at ha
      split at ha
      · obtain rfl := Option.some.inj ha
        exact ⟨h.world, h.mirrored, h.readCache hseam⟩
      · cases ha
  | redisError =>
      simp only [Feed.act] at ha
      split at ha
      · obtain rfl := Option.some.inj ha
        exact ⟨h.world, h.mirrored, h.progress.phase _⟩
      · cases ha

theorem Feed.inv_reachable (hr : Feed.ReachableBy d Feed.Seamless s) : Feed.Inv d s := by
  refine hr.invariant (P := Feed.Inv d) ?_ ?_
  · intro s hs
    obtain ⟨runId, afterSequence, rfl⟩ := hs
    have hmirrored : Mirrored Db.empty RedisEventStream.empty := by
      intro id c hc
      cases hc
    exact ⟨.init rfl, hmirrored, Progress.start _ _ _⟩
  · intro s t hi hstep
    obtain ⟨a, hseam, ha⟩ := hstep
    exact hi.act hseam ha

/-- A subscription whose cursor is past the log has passed on all of it. -/
theorem Progress.complete {db : Db} {sub : Subscription} (h : Progress db.toTables sub)
    (hnum : Numbered db) (hall : (db.eventsOf sub.runId).length ≤ sub.cursor) :
    CompleteAfter db.toTables sub.runId sub.afterSequence sub.yielded := by
  have hseq := hnum.sequences sub.runId
  have hy := h.yielded
  rw [List.take_of_length_le hall, ← filter_lt_numbered hseq] at hy
  refine ⟨?_, fun v => ?_⟩
  · rw [hy, List.map_map]
    have hmono : (db.eventsOf sub.runId).Pairwise fun a b => a.sequence < b.sequence := by
      have hseq' : (db.eventsOf sub.runId).map (·.sequence) = _ := hseq
      rw [← List.pairwise_map (f := RunEvent.sequence) (R := (· < ·)), hseq']
      exact List.pairwise_lt_range'
    exact List.pairwise_map.mpr (hmono.filter _)
  · rw [hy, List.mem_map]
    constructor
    · rintro ⟨e, he, rfl⟩
      rw [List.mem_filter, decide_eq_true_eq] at he
      exact ⟨e, he.1, he.2, rfl⟩
    · rintro ⟨e, he, hlt, rfl⟩
      exact ⟨e, List.mem_filter.mpr ⟨he, decide_eq_true hlt⟩, rfl⟩

/-- A run without a row has no events. -/
theorem Numbered.eventsOf_eq_nil {db : Db} (h : Numbered db) {runId : Uuid}
    (hrun : db.getRun runId = .ok none) : db.eventsOf runId = [] := by
  have hnone : lookup (·.id) runId db.runs = none := by
    unfold Tables.getRun at hrun
    split at hrun
    · assumption
    · obtain ⟨x, -, hx⟩ := bind_ok_iff.mp hrun
      cases hx
  unfold Tables.eventsOf
  rw [List.filter_eq_nil_iff]
  intro e he hid
  obtain ⟨r, hr, hre⟩ := h.run e he
  rw [decide_eq_true_eq] at hid
  exact lookup_eq_none.mp hnone r hr (hre.trans hid)

/-- A subscription ends because its run is gone, or on the page after its run has ended. -/
theorem Feed.act_ended {a : Feed.Act} (ha : s.act d a = some t) (hs : s.sub.phase ≠ .ended)
    (hend : t.sub.phase = .ended) :
    (s.world.db.getRun s.sub.runId = .ok none ∧ t = { s with sub := s.sub.readRun none }) ∨
    (a = .readEvents ∧ s.sub.phase = .events true ∧ t = { s with
      sub := s.sub.readEvents true
        (databaseEvents s.world.db.toTables s.sub.runId s.sub.cursor) }) := by
  cases a with
  | transact call =>
      simp only [Feed.act] at ha
      split at ha
      · obtain ⟨w, -, rfl⟩ := Option.map_eq_some_iff.mp ha
        exact absurd hend hs
      · cases ha
  | publish event =>
      simp only [Feed.act] at ha
      split at ha
      · obtain rfl := Option.some.inj ha
        exact absurd hend hs
      · cases ha
  | trim runId n =>
      obtain rfl := Option.some.inj ha
      exact absurd hend hs
  | readRun =>
      simp only [Feed.act] at ha
      split at ha
      · obtain ⟨run, hrun, rfl⟩ := Option.map_eq_some_iff.mp ha
        cases run with
        | none => exact .inl ⟨toOption_eq_some hrun, rfl⟩
        | some run => cases hend
      · cases ha
  | readEvents =>
      simp only [Feed.act] at ha
      split at ha
      · rename_i terminal hphase
        obtain rfl := Option.some.inj ha
        cases terminal with
        | false => cases hend
        | true => exact .inr ⟨rfl, hphase, rfl⟩
      · cases ha
  | readCache =>
      simp only [Feed.act] at ha
      split at ha
      · obtain rfl := Option.some.inj ha
        cases hend
      · cases ha
  | redisError =>
      simp only [Feed.act] at ha
      split at ha
      · obtain rfl := Option.some.inj ha
        cases hend
      · cases ha

/--
**Event stream completeness.** As long as every page of Redis a subscription is handed
continues at its cursor without a gap, and the page it reads after the run has ended
holds all that is left, it has passed on every event past the number it was started
with, once and in order, when it ends.
-/
theorem subscribe_complete (hr : Feed.ReachableBy d Feed.Seamless s)
    (ht : Feed.Moves d Feed.Seamless s t) (hs : s.sub.phase ≠ .ended)
    (hend : t.sub.phase = .ended) :
    CompleteAfter t.world.db.toTables t.sub.runId t.sub.afterSequence t.sub.yielded := by
  have hi := Feed.inv_reachable hr
  obtain ⟨a, hseam, ha⟩ := ht
  have hi' := hi.act hseam ha
  have hnum := numbered_reachable hi'.world
  refine hi'.progress.complete hnum ?_
  obtain ⟨hgone, rfl⟩ | ⟨rfl, hphase, rfl⟩ := Feed.act_ended ha hs hend
  · have hnil := hnum.eventsOf_eq_nil hgone
    simp only [Subscription.readRun, hnil, List.length_nil, Nat.zero_le]
  · have hleft := hseam hphase
    rw [filter_lt_numbered (hnum.sequences s.sub.runId), List.length_drop] at hleft
    dsimp only
    rw [hi.readEvents_eq true]
    dsimp only
    rw [List.length_map, List.length_take, List.length_drop]
    dsimp only at hleft
    omega

/-! ## A followed run -/

section Sample

/-- The run of the second transaction. -/
def followedRun : Uuid := (sampleEnv 2).ids 2

/-- Its route step was started. -/
def followedStart : RunEvent where
  id := (sampleEnv 3).ids 1
  runId := followedRun
  sequence := 2
  eventType := "STEP_STARTED"
  payload := [("step_id", .text "00000000-0000-0000-0000-0000000000cb"),
    ("step_key", .text "route"), ("step_type", .text "ROUTE"), ("attempt_no", .number 1)]
  createdAt := seconds 3

/-- It was cancelled. -/
def followedEnd : RunEvent where
  id := (sampleEnv 4).ids 0
  runId := followedRun
  sequence := 3
  eventType := "RUN_CANCELLED"
  payload := [("stop_reason", .text "USER_CANCELLED")]
  createdAt := seconds 4

/--
A run is submitted and followed from its start. Its first event is read from the
database; then its route step is claimed, the run is cancelled, and only the given
events get to Redis before the subscription reads it.
-/
def followed (published : List RunEvent) : List Feed.Act := [
  .transact (.create (sampleEnv 1) ⟨7#128⟩ "hello" none),
  .transact (.submit (sampleEnv 2)
    ⟨⟨7#128⟩, (sampleEnv 1).ids 0, "hello", "k1", ⟨.fast, [], "search-v12"⟩⟩),
  .readRun, .readEvents,
  .transact (.claim (sampleEnv 3) ((sampleEnv 2).ids 3) "worker"),
  .transact (.cancel (sampleEnv 4) followedRun)]
  ++ published.map .publish ++ [.readCache, .readRun]

end Sample

theorem subscribe_complete_sample : ∃ s t,
    Feed.ReachableBy sample Feed.Seamless s ∧ Feed.Moves sample Feed.Seamless s t ∧
    s.sub.phase ≠ .ended ∧ t.sub.phase = .ended ∧
    t.sub.yielded.map (·.sequence) = [1, 2, 3] ∧
    CompleteAfter t.world.db.toTables t.sub.runId t.sub.afterSequence t.sub.yielded := by
  obtain ⟨s, hr, hp⟩ := Feed.exists_reachableBy sample Feed.Seamless followedRun 0
    (followed [followedStart, followedEnd])
    (fun s => decide (s.Seamless .readEvents ∧ s.sub.phase ≠ .ended) &&
      (s.act sample .readEvents).any fun t : Feed => decide (t.sub.phase = .ended ∧
        t.sub.yielded.map (·.sequence) = [1, 2, 3]))
    (by decide +kernel)
  rw [Bool.and_eq_true, decide_eq_true_eq, Option.any_eq_true] at hp
  obtain ⟨⟨hseam, hs⟩, t, ha, hp⟩ := hp
  obtain ⟨hend, hseq⟩ := of_decide_eq_true hp
  have ht : Feed.Moves sample Feed.Seamless s t := ⟨.readEvents, hseam, ha⟩
  exact ⟨s, t, hr, ht, hs, hend, hseq, subscribe_complete hr ht hs hend⟩

/--
A failed publication loses an event: Redis hands the subscription the event after it,
and the cursor moves past both.
-/
theorem event_lost : ¬ ∀ (d : Deployment) (s t : Feed),
    Feed.ReachableBy d (fun _ _ => True) s → Feed.Moves d (fun _ _ => True) s t →
    s.sub.phase ≠ .ended → t.sub.phase = .ended →
    CompleteAfter t.world.db.toTables t.sub.runId t.sub.afterSequence t.sub.yielded := by
  intro hall
  obtain ⟨s, hr, hp⟩ := Feed.exists_reachableBy sample (fun _ _ => True) followedRun 0
    (followed [followedEnd])
    (fun s => decide (s.sub.phase ≠ .ended) &&
      (s.act sample .readEvents).any fun t : Feed => decide (t.sub.phase = .ended ∧
        (followedStart ∈ t.world.db.eventsOf t.sub.runId ∧
          t.sub.afterSequence < followedStart.sequence) ∧
        EventView.ofRecord followedStart ∉ t.sub.yielded))
    (by decide +kernel)
  rw [Bool.and_eq_true, decide_eq_true_eq, Option.any_eq_true] at hp
  obtain ⟨hs, t, ha, hp⟩ := hp
  obtain ⟨hend, hevent, hlost⟩ := of_decide_eq_true hp
  have hcomplete := hall sample s t hr ⟨.readEvents, trivial, ha⟩ hs hend
  exact hlost ((hcomplete.2 _).mpr ⟨followedStart, hevent.1, hevent.2, rfl⟩)

end Sana.Orchestration
