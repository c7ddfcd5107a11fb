import Sana.Orchestration.Proof.Workflow

/-!
# The event log

Claims, reports, cancellations and submissions all append to the log of a run, and
each of them asks for the next number itself. They write under the run's lock, so
what one of them reads is what the last one left: the numbers of a run are `1, …, n`
in the order of the commits. A run's first event is written with the run.
-/

namespace Sana.Orchestration

open Sana.Lib

variable {who : Actor} {db db' : Db} {cur cur' : SearchStep} {run run' : SearchRun}
  {new : List SearchStep} {d : Deployment} {w w' : World}

/-- The events of a run, in the order they were committed in. -/
def Tables.eventsOf (t : Tables) (runId : Uuid) : List RunEvent :=
  t.events.filter (·.runId = runId)

/-- The numbers of a run's events. -/
def Tables.sequences (t : Tables) (runId : Uuid) : List Nat :=
  (t.eventsOf runId).map (·.sequence)

/-- Every run's events are numbered from one, and every event is some run's. -/
structure Numbered (db : Db) : Prop where
  sequences : ∀ id, db.sequences id = List.range' 1 (db.eventsOf id).length
  run : ∀ e ∈ db.events, ∃ r ∈ db.runs, r.id = e.runId

/-- The next number of a run that is numbered from one. -/
theorem Numbered.nextSequence_eq (h : Numbered db) (id : Uuid) :
    db.nextSequence id = (db.eventsOf id).length + 1 := by
  have hseq := h.sequences id
  unfold Tables.sequences Tables.eventsOf at hseq
  unfold Tables.nextSequence
  rw [hseq, foldr_max_range']
  rfl

/-- The log of a run after one more event. -/
theorem eventsOf_append {t t' : Tables} {e : RunEvent} (h : t'.events = t.events ++ [e])
    (id : Uuid) : t'.eventsOf id = t.eventsOf id ++ if e.runId = id then [e] else [] := by
  unfold Tables.eventsOf
  rw [h, List.filter_append]
  congr 1
  by_cases hid : e.runId = id
  · simp [hid]
  · simp [hid]

/-- An event with the next number is the next. -/
theorem Numbered.append (h : Numbered db) {e : RunEvent} (hev : db'.events = db.events ++ [e])
    (hseq : e.sequence = (db.eventsOf e.runId).length + 1)
    (hold : ∀ r ∈ db.runs, ∃ r' ∈ db'.runs, r'.id = r.id)
    (hrun : ∃ r ∈ db'.runs, r.id = e.runId) : Numbered db' where
  sequences id := by
    have hlog : db'.eventsOf id = db.eventsOf id ++ if e.runId = id then [e] else [] :=
      eventsOf_append hev id
    have hseqs := h.sequences id
    unfold Tables.sequences at hseqs ⊢
    rw [hlog, List.map_append, hseqs, List.length_append]
    by_cases hid : e.runId = id
    · rw [if_pos hid, List.length_singleton, List.range'_concat, List.map_singleton, hseq, hid]
      congr 2
      omega
    · rw [if_neg hid]
      simp
  run x hx := by
    rw [hev, List.mem_append, List.mem_singleton] at hx
    rcases hx with hx | rfl
    · obtain ⟨r, hr, hid⟩ := h.run x hx
      obtain ⟨r', hr', hid'⟩ := hold r hr
      exact ⟨r', hr', hid'.trans hid⟩
    · exact hrun

/-- No transaction removes a run. -/
theorem Effect.run_persists (he : Effect who db db') {r : SearchRun} (hr : r ∈ db.runs) :
    ∃ r' ∈ db'.runs, r.Kept r' := by
  have rewritten : ∀ {x x' : SearchRun}, x ∈ db.runs → x.Kept x' →
      ∃ r' ∈ update (·.id) x.id (fun _ => x') db.runs, r.Kept r' := by
    intro x x' hx hkept
    by_cases hid : r.id = x.id
    · obtain rfl := eq_of_key_eq db.valid.pk_runs hr hx hid
      exact ⟨x', (mem_update_iff db.valid.pk_runs hr).mpr (.inl rfl), hkept⟩
    · exact ⟨r, mem_update_of_ne hr hid, .rfl⟩
  cases he with
  | idle _ hruns => exact ⟨r, hruns ▸ hr, .rfl⟩
  | renewed _ _ _ _ _ _ _ hruns => exact ⟨r, hruns ▸ hr, .rfl⟩
  | runWritten x x' hmem _ _ _ hruns _ hkept => exact hruns ▸ rewritten hmem hkept
  | submitted rows route hsub =>
      exact ⟨r, by rw [hsub.runs]; exact List.mem_append_left _ hr, .rfl⟩
  | moved cur cur' run run' new m => exact m.runs ▸ rewritten m.run_mem m.orderly.ran.toKept

/-- What a transaction that submits nothing logs. -/
theorem Numbered.logged (h : Numbered db) (hlog : Logged db db')
    (hold : ∀ r ∈ db.runs, ∃ r' ∈ db'.runs, r'.id = r.id) : Numbered db' := by
  cases hlog with
  | nothing hev =>
      refine ⟨fun id => ?_, fun e he => ?_⟩
      · have hseq := h.sequences id
        unfold Tables.sequences Tables.eventsOf at hseq ⊢
        rw [hev]
        exact hseq
      · obtain ⟨r, hr, hid⟩ := h.run e (hev ▸ he)
        obtain ⟨r', hr', hid'⟩ := hold r hr
        exact ⟨r', hr', hid'.trans hid⟩
  | event e run hrun hid hseq hev =>
      refine h.append hev ?_ hold ?_
      · rw [hseq, h.nextSequence_eq, hid]
      · obtain ⟨r', hr', hid'⟩ := hold run hrun
        exact ⟨r', hr', hid'.trans hid.symm⟩

/-- A submission's event is the first of its run. -/
theorem Numbered.submitted {rows : SubmissionRows} {route : SearchStep} (h : Numbered db)
    (hsub : Submitted db db' rows route) : Numbered db' := by
  have hruns := hsub.runs
  have hev : db'.events = db.events ++ [rows.event] := by rw [hsub.tables]
  have hnone : db.eventsOf rows.event.runId = [] := by
    unfold Tables.eventsOf
    rw [List.filter_eq_nil_iff]
    intro e he
    obtain ⟨r, hr, hid⟩ := h.run e he
    have hnd := db'.valid.pk_runs
    rw [hruns, List.map_append, List.nodup_append] at hnd
    have hne := hnd.2.2 r.id (List.mem_map_of_mem hr) rows.run.id (by simp)
    rw [hsub.linked.event_run, decide_eq_true_eq, ← hid]
    exact hne
  refine h.append hev ?_ (fun r hr => ⟨r, by rw [hruns]; exact List.mem_append_left _ hr, rfl⟩)
    ⟨rows.run, by rw [hruns]; simp, hsub.linked.event_run.symm⟩
  rw [hsub.linked.event_first, hnone]
  rfl

/-- **Every transaction numbers its event.** -/
theorem Numbered.effect (h : Numbered db) (he : Effect who db db') : Numbered db' := by
  have hold : ∀ r ∈ db.runs, ∃ r' ∈ db'.runs, r'.id = r.id := by
    intro r hr
    obtain ⟨r', hr', hkept⟩ := he.run_persists hr
    exact ⟨r', hr', hkept.id⟩
  cases he with
  | idle _ _ _ hsides => exact h.logged hsides.events hold
  | runWritten _ _ _ _ _ _ _ _ _ _ hsides => exact h.logged hsides.events hold
  | renewed _ _ _ _ _ _ _ _ _ hsides => exact h.logged hsides.events hold
  | submitted rows route hsub => exact h.submitted hsub
  | moved _ _ _ _ _ m => exact h.logged m.sides.events hold

/-- Events are only appended. -/
theorem Effect.events_append (he : Effect who db db') : db.events <+: db'.events := by
  have logged : Logged db db' → db.events <+: db'.events := by
    intro hlog
    cases hlog with
    | nothing hev => rw [hev]
    | event e run _ _ _ hev => exact ⟨[e], hev.symm⟩
  cases he with
  | idle _ _ _ hsides => exact logged hsides.events
  | runWritten _ _ _ _ _ _ _ _ _ _ hsides => exact logged hsides.events
  | renewed _ _ _ _ _ _ _ _ _ hsides => exact logged hsides.events
  | submitted rows route hsub => exact ⟨[rows.event], by rw [hsub.tables]⟩
  | moved _ _ _ _ _ m => exact logged m.sides.events

theorem numbered_reachable (hr : Reachable d w) : Numbered w.db := by
  refine hr.invariant_of (P := fun w => Numbered w.db) (Q := WInv) (fun _ => winv_reachable) ?_ ?_
  · intro s hs
    subst hs
    exact ⟨fun id => rfl, by simp [World.init, Db.empty]⟩
  · intro s t hi hn hs
    obtain ⟨who, he, -⟩ := step_effect hi hs
    exact hn.effect he

/--
**The event log has no gaps.** In every reachable world the events of every run carry
the numbers `1, …, n` in the order they were committed in; a later transaction only
appends to the log.
-/
theorem event_log (hr : Reachable d w) :
    (∀ runId, (w.db.eventsOf runId).map (·.sequence)
      = List.range' 1 (w.db.eventsOf runId).length) ∧
    ∀ w', Relation.ReflTransGen (Step d) w w' → w.db.events <+: w'.db.events := by
  refine ⟨(numbered_reachable hr).sequences, fun w' hrun => ?_⟩
  refine hr.run_rel (R := fun w w' : World => w.db.events <+: w'.db.events)
    (fun w => List.prefix_refl _) (fun u v x huv hvx => huv.trans hvx) ?_ hrun
  intro u v hu huv
  obtain ⟨who, he, -⟩ := step_effect (winv_reachable hu) huv
  exact he.events_append

theorem event_log_sample : ∃ w, Reachable sample w ∧
    (∃ r ∈ w.db.runs, (w.db.eventsOf r.id).length = 5) ∧
    ∀ r ∈ w.db.runs, (w.db.eventsOf r.id).map (·.sequence)
      = List.range' 1 (w.db.eventsOf r.id).length := by
  obtain ⟨w, hr, hp⟩ := exists_reachable sample sampleActions
    (fun w => w.db.runs.any fun r => (w.db.eventsOf r.id).length = 5) (by decide +kernel)
  exact ⟨w, hr, by simpa using hp, fun r _ => (event_log hr).1 r.id⟩

end Sana.Orchestration
