import Sana.Lib.Tasks
import Sana.Migration.Service

/-!
# The migration happens once

The ledger only grows, and its rows are not written again. So what a run has read
in it stays true while other runs go on, and what a write transaction reads under
its lock decides whether there is anything left to write.

* The planner keeps one record for each identity and one import for each text.
* A write transaction adds a ledger row of a new key together with what the row
  stands for, or nothing.
* A run is past a record only when the ledger has a row for it, so a run that has
  completed leaves nothing to do for the next one.
-/

namespace Sana.Migration

open Sana.Lib

variable {d : Digests}

/-! ## The plan -/

/-- What the loop of `build` keeps: its dictionaries are what its records say. -/
structure Draft.Sound (d : Digests) (b : Draft) : Prop where
  identities : b.records.map (·.identity) = b.identities.map (·.1)
  distinct : (b.identities.map (·.1)).Nodup
  contents : (b.records.filter (·.disposition = .import_)).map (·.contentHash d)
    = b.importedContent.map (·.1)
  unique : (b.importedContent.map (·.1)).Nodup

theorem notMem_of_lookup {α β : Type} [BEq α] [LawfulBEq α] {l : List (α × β)} {a : α}
    (h : l.lookup a = none) : a ∉ l.map (·.1) := by
  intro hmem
  obtain ⟨x, hx, rfl⟩ := List.mem_map.mp hmem
  have := List.lookup_eq_none_iff.mp h x hx
  simp at this

/-- A key that is not there yet goes to the end. -/
theorem nodup_snoc {α : Type} {l : List α} {a : α} (h : l.Nodup) (ha : a ∉ l) :
    (l ++ [a]).Nodup :=
  List.nodup_append.mpr ⟨h, List.nodup_singleton a, fun x hx y hy => by
    rw [List.mem_singleton.mp hy]
    exact fun hxa => ha (hxa ▸ hx)⟩

/-- One turn of the loop. -/
theorem Draft.Sound.add {b : Draft} (hb : Draft.Sound d b) (record : LegacyRecord) :
    Draft.Sound d (b.add d record) := by
  unfold Draft.add
  cases hid : b.identities.lookup record.identity with
  | some previousHash =>
      dsimp only
      split
      · exact ⟨hb.identities, hb.distinct, hb.contents, hb.unique⟩
      · exact hb
  | none =>
      have hdistinct : ((b.identities ++ [(record.identity, record.sourceHash)]).map (·.1)).Nodup := by
        rw [List.map_append]
        exact nodup_snoc hb.distinct (notMem_of_lookup hid)
      dsimp only [Draft.keep]
      by_cases himport : record.disposition = .import_
      · rw [if_pos himport]
        cases hcontent : b.importedContent.lookup (record.contentHash d) with
        | some previous =>
            refine ⟨?_, hdistinct, ?_, hb.unique⟩
            · have hsame : (record.duplicate previous).identity = record.identity := rfl
              simp [hb.identities, hsame]
            · simp [hb.contents, LegacyRecord.duplicate]
        | none =>
            refine ⟨?_, hdistinct, ?_, ?_⟩
            · simp [hb.identities]
            · simp [hb.contents, himport]
            · dsimp only
              rw [List.map_append]
              exact nodup_snoc hb.unique (notMem_of_lookup hcontent)
      · rw [if_neg himport]
        refine ⟨?_, hdistinct, ?_, hb.unique⟩
        · simp [hb.identities]
        · simp [hb.contents, himport]

/-- The plan has one record for each identity and one import for each text. -/
theorem build_unique (planner : MigrationPlanner) (d : Digests) (tenantId userId : Uuid)
    (sources : List ReaderResult) :
    let plan := planner.build d tenantId userId sources
    (plan.records.map (·.identity)).Nodup
      ∧ ((plan.records.filter (·.disposition = .import_)).map (·.contentHash d)).Nodup := by
  have hloop : ∀ (records : List LegacyRecord) (b : Draft), Draft.Sound d b →
      Draft.Sound d (records.foldl (Draft.add d) b) := by
    intro records
    induction records with
    | nil => exact fun b hb => hb
    | cons record rest ih => exact fun b hb => ih _ (hb.add record)
  have hsound := hloop (sources.flatMap (·.records)) {} ⟨rfl, List.nodup_nil, rfl, List.nodup_nil⟩
  constructor
  · exact hsound.identities ▸ hsound.distinct
  · exact hsound.contents ▸ hsound.unique

/-! ## The tables -/

/-- The memory a ledger row stands for. -/
def MigrationLedger.importedTarget (row : MigrationLedger) : Option Uuid :=
  if row.status = .imported then row.targetId else none

/-- The tables of a migration that happens once. -/
structure Db.ExactlyOnce (db : Db) : Prop where
  /-- One ledger row for each tenant, source system, source id and version. -/
  ledger : (db.ledger.map (·.key)).Nodup
  /-- A row recorded as imported has a memory item. -/
  recorded : ∀ row ∈ db.ledger, row.status = .imported → row.targetId.isSome = true
  /-- The items are the targets of the rows recorded as imported, one for each. -/
  items : db.items.map (·.id) = db.ledger.filterMap (·.importedTarget)
  distinct : (db.items.map (·.id)).Nodup
  /-- The embeddings are those of the items, one for each. -/
  embeddings : db.embeddings.map (·.memoryItemId) = db.items.map (·.id)

/-- What a write transaction for a key and a source hash does. -/
inductive Write (db : Db) (key : SourceKey) (sourceHash : String) : Db → Prop
  | finished {row : MigrationLedger} (hrow : db.ledgerQuery key = some row)
      (hhash : row.sourceHash = sourceHash) : Write db key sourceHash db
  | imported {item : MemoryItem} {embedding : MemoryEmbedding} {row : MigrationLedger} {db' : Db}
      (hnone : db.ledgerQuery key = none) (hkey : row.key = key)
      (hhash : row.sourceHash = sourceHash) (htarget : row.importedTarget = some item.id)
      (hembedding : embedding.memoryItemId = item.id)
      (hitems : db'.items = db.items ++ [item])
      (hembeddings : db'.embeddings = db.embeddings ++ [embedding])
      (hledger : db'.ledger = db.ledger ++ [row]) (hids : (db'.items.map (·.id)).Nodup) :
      Write db key sourceHash db'
  | archived {row : MigrationLedger} {db' : Db}
      (hnone : db.ledgerQuery key = none) (hkey : row.key = key)
      (hhash : row.sourceHash = sourceHash) (hstatus : row.status = .archived)
      (hitems : db'.items = db.items) (hembeddings : db'.embeddings = db.embeddings)
      (hledger : db'.ledger = db.ledger ++ [row]) : Write db key sourceHash db'

theorem commit_ok {db db' : Db} (h : db.commit = .ok db') :
    db' = db ∧ (db.items.map (·.id)).Nodup := by
  unfold Db.commit at h
  obtain ⟨_, hids, h⟩ := bind_ok_iff.mp h
  obtain ⟨_, -, h⟩ := bind_ok_iff.mp h
  obtain ⟨_, -, h⟩ := bind_ok_iff.mp h
  obtain ⟨_, -, h⟩ := bind_ok_iff.mp h
  obtain ⟨_, -, h⟩ := bind_ok_iff.mp h
  obtain ⟨_, -, h⟩ := bind_ok_iff.mp h
  obtain ⟨_, -, h⟩ := bind_ok_iff.mp h
  obtain ⟨_, -, h⟩ := bind_ok_iff.mp h
  obtain ⟨_, -, h⟩ := bind_ok_iff.mp h
  exact ⟨(pure_ok_iff.mp h).symm, of_decide_eq_true (check_eq_ok.mp hids)⟩

theorem alreadyFinished_ok {db : Db} {key : SourceKey} {sourceHash : String}
    {expected : LedgerStatus} {finished : Bool}
    (h : db.alreadyFinished key sourceHash expected = .ok finished) :
    (finished = false ∧ db.ledgerQuery key = none)
      ∨ finished = true ∧ ∃ row, db.ledgerQuery key = some row ∧ row.sourceHash = sourceHash := by
  unfold Db.alreadyFinished at h
  cases hrow : db.ledgerQuery key with
  | none =>
      simp only [hrow] at h
      exact .inl ⟨(Except.ok.inj h).symm, rfl⟩
  | some row =>
      simp only [hrow] at h
      split at h
      next hsame => exact .inr ⟨(Except.ok.inj h).symm, row, rfl, hsame.1⟩
      next => cases h

theorem importMemory_write {db db' : Db} {c : MemoryImportCommand} {embeddingId ledgerId : Uuid}
    (h : importMemory d db c embeddingId ledgerId = .ok db') :
    Write db (c.record.key c.tenantId c.migrationVersion) c.record.sourceHash db' := by
  obtain ⟨finished, hfinished, h⟩ := bind_ok_iff.mp h
  obtain ⟨rfl, hnone⟩ | ⟨rfl, row, hrow, hhash⟩ := alreadyFinished_ok hfinished
  · obtain ⟨rfl, hids⟩ := commit_ok h
    exact .imported hnone rfl rfl rfl rfl rfl rfl rfl hids
  · obtain rfl := pure_ok_iff.mp h
    exact .finished hrow hhash

theorem archive_write {db db' : Db} {c : ArchiveCommand} {ledgerId : Uuid}
    (h : archive d db c ledgerId = .ok db') :
    Write db (c.record.key c.tenantId c.migrationVersion) c.record.sourceHash db' := by
  obtain ⟨finished, hfinished, h⟩ := bind_ok_iff.mp h
  obtain ⟨rfl, hnone⟩ | ⟨rfl, row, hrow, hhash⟩ := alreadyFinished_ok hfinished
  · obtain ⟨rfl, -⟩ := commit_ok h
    exact .archived hnone rfl rfl rfl rfl rfl rfl
  · obtain rfl := pure_ok_iff.mp h
    exact .finished hrow hhash

section Write

variable {db db' : Db} {key : SourceKey} {sourceHash : String}

/-- The ledger grows at its end, by a row of a new key. -/
theorem Write.ledger (h : Write db key sourceHash db') :
    db' = db ∨ ∃ row, db'.ledger = db.ledger ++ [row] ∧ row.key = key
      ∧ row.sourceHash = sourceHash ∧ db.ledgerQuery key = none := by
  cases h with
  | finished => exact .inl rfl
  | imported hnone hkey hhash _ _ _ _ hledger => exact .inr ⟨_, hledger, hkey, hhash, hnone⟩
  | archived hnone hkey hhash _ _ _ hledger => exact .inr ⟨_, hledger, hkey, hhash, hnone⟩

/-- A row that was found is found again. -/
theorem Write.ledgerQuery (h : Write db key sourceHash db') {k : SourceKey} {row : MigrationLedger}
    (hrow : db.ledgerQuery k = some row) : db'.ledgerQuery k = some row := by
  obtain rfl | ⟨new, hledger, -⟩ := h.ledger
  · exact hrow
  · unfold Db.ledgerQuery Lib.lookup at hrow ⊢
    rw [hledger, List.find?_append, hrow]
    rfl

/-- After the transaction the ledger has a row for its key, with its source hash. -/
theorem Write.recorded (h : Write db key sourceHash db') :
    ∃ row, db'.ledgerQuery key = some row ∧ row.sourceHash = sourceHash := by
  obtain rfl | ⟨new, hledger, hkey, hhash, hnone⟩ := h.ledger
  · cases h with
    | finished hrow hhash => exact ⟨_, hrow, hhash⟩
    | imported _ _ _ _ _ _ _ hledger => simp at hledger
    | archived _ _ _ _ _ _ hledger => simp at hledger
  · refine ⟨new, ?_, hhash⟩
    unfold Db.ledgerQuery Lib.lookup at hnone ⊢
    rw [hledger, List.find?_append, hnone]
    simp [hkey]

/-- A write transaction keeps the tables in order. -/
theorem Write.exactlyOnce (h : Write db key sourceHash db') (hdb : db.ExactlyOnce) :
    db'.ExactlyOnce := by
  have hfresh : db.ledgerQuery key = none → key ∉ db.ledger.map (·.key) := by
    intro hnone hmem
    obtain ⟨row, hrow, hkey⟩ := List.mem_map.mp hmem
    exact lookup_eq_none.mp hnone row hrow hkey
  cases h with
  | finished => exact hdb
  | @imported item embedding row _ hnone hkey hhash htarget hembedding hitems hembeddings hledger hids =>
      have htargetId : row.targetId.isSome = true := by
        unfold MigrationLedger.importedTarget at htarget
        split at htarget
        · rw [htarget]
          rfl
        · cases htarget
      refine ⟨?_, ?_, ?_, hids, ?_⟩
      · rw [hledger, List.map_append]
        refine nodup_snoc hdb.ledger ?_
        show row.key ∉ _
        rw [hkey]
        exact hfresh hnone
      · intro row' hrow'
        rw [hledger] at hrow'
        obtain hold | hnew := List.mem_append.mp hrow'
        · exact hdb.recorded row' hold
        · rw [List.mem_singleton.mp hnew]
          exact fun _ => htargetId
      · rw [hitems, hledger, List.map_append, List.filterMap_append, hdb.items]
        simp [htarget]
      · rw [hembeddings, hitems, List.map_append, List.map_append, hdb.embeddings]
        simp [hembedding]
  | @archived row _ hnone hkey hhash hstatus hitems hembeddings hledger =>
      have htarget : row.importedTarget = none := by
        simp [MigrationLedger.importedTarget, hstatus]
      refine ⟨?_, ?_, ?_, hitems ▸ hdb.distinct, by rw [hembeddings, hitems, hdb.embeddings]⟩
      · rw [hledger, List.map_append]
        refine nodup_snoc hdb.ledger ?_
        show row.key ∉ _
        rw [hkey]
        exact hfresh hnone
      · intro row' hrow' himported
        rw [hledger] at hrow'
        obtain hold | hnew := List.mem_append.mp hrow'
        · exact hdb.recorded row' hold himported
        · rw [List.mem_singleton.mp hnew, hstatus] at himported
          cases himported
      · rw [hitems, hledger, List.filterMap_append, hdb.items]
        simp [htarget]

end Write

/-! ## The runs -/

/-- The ledger key of a record of a run. -/
def ApplyRun.keyOf (run : ApplyRun) (record : LegacyRecord) : SourceKey :=
  record.key run.plan.tenantId run.plan.migrationVersion

/-- The ledger has a row for every record of these that is not skipped. -/
def Covered (db : Db) (run : ApplyRun) (records : List LegacyRecord) : Prop :=
  ∀ record ∈ records, record.disposition ≠ .skip → (db.ledgerQuery (run.keyOf record)).isSome = true

/-- The ledger row of the record has another source hash. -/
def Mismatched (db : Db) (run : ApplyRun) (record : LegacyRecord) : Bool :=
  record.disposition ≠ .skip
    && (db.ledgerQuery (run.keyOf record)).any (·.sourceHash ≠ record.sourceHash)

/-- Every record the run is past is in the ledger, and its conflicts are counted. -/
structure ApplyRun.Sound (db : Db) (run : ApplyRun) : Prop where
  conflictFree : run.plan.conflicts = []
  progress : ∃ done, run.plan.records = done ++ run.rest ∧ Covered db run done
    ∧ run.report.conflicts = done.countP (Mismatched db run)
  completed : ∀ report, run.phase = .completed report →
    run.rest = [] ∧ report.conflicts = run.report.conflicts

/-- Rows that were found are found again. -/
def Grows (db db' : Db) : Prop :=
  ∀ key row, db.ledgerQuery key = some row → db'.ledgerQuery key = some row

theorem Covered.mono {db db' : Db} (hgrows : Grows db db') {run : ApplyRun}
    {records : List LegacyRecord} (h : Covered db run records) : Covered db' run records := by
  intro record hrecord hskip
  obtain ⟨row, hrow⟩ := Option.isSome_iff_exists.mp (h record hrecord hskip)
  rw [hgrows _ row hrow]
  rfl

theorem ApplyRun.Sound.mono {db db' : Db} (hgrows : Grows db db') {run : ApplyRun}
    (h : run.Sound db) : run.Sound db' := by
  obtain ⟨done, hplan, hcovered, hconflicts⟩ := h.progress
  refine ⟨h.conflictFree, ⟨done, hplan, hcovered.mono hgrows, ?_⟩, h.completed⟩
  rw [hconflicts]
  refine List.countP_congr fun record hrecord => ?_
  by_cases hskip : record.disposition = .skip
  · simp [Mismatched, hskip]
  · obtain ⟨row, hrow⟩ := Option.isSome_iff_exists.mp (hcovered record hrecord hskip)
    simp [Mismatched, hrow, hgrows _ row hrow]

/-- The run goes on to the next record: this one is in the ledger or skipped. -/
theorem ApplyRun.Sound.next {db : Db} {run : ApplyRun} (h : run.Sound db) {record : LegacyRecord}
    {rest : List LegacyRecord} (hrest : run.rest = record :: rest) {report : ApplyReport}
    (hcovered : record.disposition ≠ .skip → (db.ledgerQuery (run.keyOf record)).isSome = true)
    (hconflicts : report.conflicts = run.report.conflicts + (Mismatched db run record).toNat) :
    (run.next rest report).Sound db := by
  obtain ⟨done, hplan, hdone, hcount⟩ := h.progress
  refine ⟨h.conflictFree, ⟨done ++ [record], ?_, ?_, ?_⟩, fun _ hphase => by cases hphase⟩
  · show run.plan.records = done ++ [record] ++ rest
    rw [hplan, hrest, List.append_assoc]
    rfl
  · intro r hr hskip
    obtain hr | hr := List.mem_append.mp hr
    · exact hdone r hr hskip
    · obtain rfl := List.mem_singleton.mp hr
      exact hcovered hskip
  · show report.conflicts = (done ++ [record]).countP (Mismatched db run)
    rw [hconflicts, hcount, List.countP_append, List.countP_singleton]
    cases Mismatched db run record <;> rfl

/-- A run that only waits for something else, or raises, is past the same records. -/
theorem ApplyRun.Sound.wait {db : Db} {run : ApplyRun} (h : run.Sound db) {phase : Phase}
    (hphase : ∀ report, phase ≠ .completed report) : ApplyRun.Sound db { run with phase } :=
  ⟨h.conflictFree, h.progress, fun report hcompleted => absurd hcompleted (hphase report)⟩

/-- The phases in which a run reads, or does nothing any more. -/
def Phase.quiet : Phase → Bool
  | .reading | .completed _ | .raised _ => true
  | .archiving | .embedding | .importing _ => false

/-- Reading the ledger keeps what is known of the run. -/
theorem ApplyRun.Sound.read {db : Db} {run : ApplyRun} (h : run.Sound db) : (run.read db).Sound db := by
  unfold ApplyRun.read
  split
  next hrest =>
    refine ⟨h.conflictFree, h.progress, fun report hreport => ⟨hrest, ?_⟩⟩
    obtain rfl := Phase.completed.inj hreport
    simp [h.conflictFree]
  next record rest hrest =>
    by_cases hskip : record.disposition = .skip
    · rw [if_pos hskip]
      exact h.next hrest (fun hne => absurd hskip hne) (by simp [Mismatched, hskip])
    · rw [if_neg hskip]
      split
      next existing hexisting =>
        have hfound : db.ledgerQuery (run.keyOf record) = some existing := hexisting
        unfold ApplyRun.count
        dsimp only
        split
        next hsame =>
          exact h.next hrest (fun _ => by rw [hfound]; rfl) (by simp [Mismatched, hfound, hsame.1])
        next hother =>
          -- every status is one of the two, so the hashes differ
          have hhash : existing.sourceHash ≠ record.sourceHash := by
            intro hsame
            exact hother ⟨hsame, by cases existing.status <;> simp⟩
          exact h.next hrest (fun _ => by rw [hfound]; rfl) (by simp [Mismatched, hfound, hhash, hskip])
      next =>
        refine h.wait fun report => ?_
        split <;> exact fun hcompleted => by cases hcompleted

/-- A run with nothing left to write only reads. -/
theorem read_quiet {db : Db} {run : ApplyRun} (hcovered : Covered db run run.rest) :
    (run.read db).phase.quiet = true := by
  unfold ApplyRun.read
  split
  · rfl
  next record rest hrest =>
    by_cases hskip : record.disposition = .skip
    · rw [if_pos hskip]
      rfl
    · rw [if_neg hskip]
      have hsome := hcovered record (by simp [hrest]) hskip
      split
      · unfold ApplyRun.count
        dsimp only
        split <;> rfl
      next hnone =>
        have hnone : db.ledgerQuery (run.keyOf record) = none := hnone
        rw [hnone] at hsome
        cases hsome

/-! ## Steps -/

namespace World

/-- The run an action is a step of, if it is one of a run that was started. -/
def Action.run : Action → Option Nat
  | .start _ _ _ => none
  | .read i | .embed i _ | .archive i _ _ _ | .importMemory i _ _ _ _ | .fail i => some i

/-- What a step does. -/
inductive Effect (w : World) (a : Action) : World → Prop
  | started {run : ApplyRun} (ha : a.run = none) (hphase : run.phase = .reading)
      (hrun : run.Sound w.db) : Effect w a { w with runs := w.runs ++ [run] }
  | read {i : Nat} {run : ApplyRun} (ha : a.run = some i) (hrun : w.runs[i]? = some run) :
      Effect w a { w with runs := w.runs.set i (run.read w.db) }
  /-- The run waits for something else, or raises. -/
  | waited {i : Nat} {run : ApplyRun} {phase : Phase} (ha : a.run = some i)
      (hrun : w.runs[i]? = some run) (hphase : ∀ report, phase ≠ .completed report)
      (hquiet : run.phase.quiet = true → phase.quiet = true) :
      Effect w a { w with runs := w.runs.set i { run with phase } }
  | wrote {i : Nat} {run next : ApplyRun} {record : LegacyRecord} {rest : List LegacyRecord}
      {report : ApplyReport} {db : Db} (ha : a.run = some i) (hrun : w.runs[i]? = some run)
      (hquiet : run.phase.quiet = false) (hrest : run.rest = record :: rest)
      (hreport : report.conflicts = run.report.conflicts)
      (hwrite : Write w.db (run.keyOf record) record.sourceHash db)
      (hnext : next = run.next rest report ∨ next = { run with phase := .raised .external }) :
      Effect w a { db, runs := w.runs.set i next }

/-- A run that begins is past no record. -/
theorem sound_begin {plan : MigrationPlan} {executedAt : Time} {verified : Bool} {run : ApplyRun}
    (h : ApplyRun.begin plan executedAt verified = .ok run) (db : Db) :
    run.phase = .reading ∧ run.Sound db := by
  obtain ⟨_, -, h⟩ := bind_ok_iff.mp h
  obtain ⟨_, hclean, h⟩ := bind_ok_iff.mp h
  obtain rfl := pure_ok_iff.mp h
  have hclean := check_eq_ok.mp hclean
  simp only [Bool.and_eq_true, List.isEmpty_iff] at hclean
  refine ⟨rfl, hclean.1, ⟨[], rfl, fun _ hmem => absurd hmem List.not_mem_nil, rfl⟩, ?_⟩
  intro report hphase
  cases hphase

/-- The two outcomes of a write transaction. -/
theorem effect_wrote {w : World} {a : Action} {i : Nat} {run : ApplyRun} {record : LegacyRecord}
    {rest : List LegacyRecord} {report : ApplyReport} {acknowledged : Bool}
    {result : Except MigrationError Db} (ha : a.run = some i) (hrun : w.runs[i]? = some run)
    (hquiet : run.phase.quiet = false) (hrest : run.rest = record :: rest)
    (hreport : report.conflicts = run.report.conflicts)
    (hwrite : ∀ db, result = .ok db → Write w.db (run.keyOf record) record.sourceHash db) :
    Effect w a (w.wrote i run rest report acknowledged result) := by
  unfold wrote
  cases result with
  | error e =>
      exact .waited ha hrun (fun report hcompleted => by cases hcompleted) fun _ => rfl
  | ok db =>
      cases acknowledged with
      | true => exact .wrote ha hrun hquiet hrest hreport (hwrite db rfl) (.inl rfl)
      | false => exact .wrote ha hrun hquiet hrest hreport (hwrite db rfl) (.inr rfl)

/-- **What a step can do.** -/
theorem effect_of_act {w w' : World} {a : Action} (h : w.act d a = some w') : Effect w a w' := by
  cases a with
  | start plan executedAt verified =>
      simp only [act] at h
      split at h
      next run hbegin =>
        obtain rfl := Option.some.inj h
        obtain ⟨hphase, hsound⟩ := sound_begin hbegin w.db
        exact .started rfl hphase hsound
      next => cases h
  | read i =>
      simp only [act, Option.bind_eq_bind, Option.bind_eq_some_iff] at h
      obtain ⟨run, hrun, h⟩ := h
      split at h
      next hphase =>
        obtain rfl := Option.some.inj h
        exact .read rfl hrun
      next => cases h
  | embed i embedding =>
      simp only [act, Option.bind_eq_bind, Option.bind_eq_some_iff] at h
      obtain ⟨run, hrun, h⟩ := h
      split at h
      next hphase =>
        obtain rfl := Option.some.inj h
        exact .waited rfl hrun (fun report hcompleted => by cases hcompleted)
          fun hquiet => by simp [hphase, Phase.quiet] at hquiet
      next => cases h
  | archive i archiveId ledgerId acknowledged =>
      simp only [act, Option.bind_eq_bind, Option.bind_eq_some_iff] at h
      obtain ⟨run, hrun, h⟩ := h
      split at h
      next record rest hphase hrest =>
        obtain rfl := Option.some.inj h
        exact effect_wrote rfl hrun (by rw [hphase]; rfl) hrest rfl fun db hdb => archive_write hdb
      next => cases h
  | importMemory i targetId embeddingId ledgerId acknowledged =>
      simp only [act, Option.bind_eq_bind, Option.bind_eq_some_iff] at h
      obtain ⟨run, hrun, h⟩ := h
      split at h
      next embedding record rest hphase hrest =>
        obtain rfl := Option.some.inj h
        exact effect_wrote rfl hrun (by rw [hphase]; rfl) hrest rfl
          fun db hdb => importMemory_write hdb
      next => cases h
  | fail i =>
      simp only [act, Option.bind_eq_bind, Option.bind_eq_some_iff] at h
      obtain ⟨run, hrun, h⟩ := h
      split at h
      · cases h
      · cases h
      · obtain rfl := Option.some.inj h
        exact .waited rfl hrun (fun report hcompleted => by cases hcompleted) fun _ => rfl

/-- The tables are in order, and every run knows what it is past. -/
structure Sound (w : World) : Prop where
  tables : w.db.ExactlyOnce
  runs : ∀ run ∈ w.runs, run.Sound w.db

theorem sound_init {w : World} (h : Init w) : Sound w := by
  subst h
  refine ⟨⟨List.nodup_nil, ?_, rfl, List.nodup_nil, rfl⟩, ?_⟩
  · exact fun row hrow => absurd hrow List.not_mem_nil
  · exact fun run hrun => absurd hrun List.not_mem_nil

theorem Effect.grows {w w' : World} {a : Action} (h : Effect w a w') : Grows w.db w'.db := by
  cases h with
  | started | read | waited => exact fun _ _ hrow => hrow
  | wrote _ _ _ _ _ hwrite _ => exact fun _ _ hrow => hwrite.ledgerQuery hrow

/-- Every step keeps the tables in order and the runs informed. -/
theorem Sound.step {w w' : World} {a : Action} (hw : Sound w) (h : Effect w a w') : Sound w' := by
  have hgrows := h.grows
  cases h with
  | started _ _ hsound =>
      refine ⟨hw.tables, fun run hrun => ?_⟩
      obtain hold | hnew := List.mem_append.mp hrun
      · exact hw.runs run hold
      · rw [List.mem_singleton.mp hnew]
        exact hsound
  | read _ hrun =>
      refine ⟨hw.tables, fun run' hrun' => ?_⟩
      obtain rfl | hold := mem_set_cases hrun'
      · exact (hw.runs _ (List.mem_of_getElem? hrun)).read
      · exact hw.runs run' hold
  | waited _ hrun hphase _ =>
      refine ⟨hw.tables, fun run' hrun' => ?_⟩
      obtain rfl | hold := mem_set_cases hrun'
      · exact (hw.runs _ (List.mem_of_getElem? hrun)).wait hphase
      · exact hw.runs run' hold
  | @wrote i run next record rest report db _ hrun _ hrest hreport hwrite hnext =>
      refine ⟨hwrite.exactlyOnce hw.tables, fun run' hrun' => ?_⟩
      obtain rfl | hold := mem_set_cases hrun'
      · have hsound := (hw.runs run (List.mem_of_getElem? hrun)).mono hgrows
        obtain rfl | rfl := hnext
        · obtain ⟨row, hrow, hhash⟩ := hwrite.recorded
          refine hsound.next hrest (fun _ => by rw [hrow]; rfl) ?_
          simp [Mismatched, hrow, hhash, hreport]
        · exact hsound.wait fun report hcompleted => by cases hcompleted
      · exact (hw.runs run' hold).mono hgrows

theorem sound_reachable {w : World} (h : Reachable Init (Step d) w) : Sound w := by
  refine h.invariant (fun _ => sound_init) ?_
  rintro s t hs ⟨a, ha⟩
  exact hs.step (effect_of_act ha)

/-! ## A further run -/

/-- The runs of a plan that were started after the first `n` only read. -/
structure Quiet (n : Nat) (plan : MigrationPlan) (w : World) : Prop where
  started : n ≤ w.runs.length
  covered : ∀ run : ApplyRun, run.plan = plan → Covered w.db run plan.records
  quiet : ∀ k run, n ≤ k → w.runs[k]? = some run → run.plan = plan → run.phase.quiet = true

/-- The records a run has left are records of its plan. -/
theorem covered_rest {db : Db} {run : ApplyRun} (h : run.Sound db)
    (hcovered : Covered db run run.plan.records) : Covered db run run.rest := by
  obtain ⟨done, hplan, -, -⟩ := h.progress
  exact fun record hrecord => hcovered record (hplan ▸ List.mem_append_right done hrecord)

/-- A step of a run, and what it makes of the others. -/
theorem getElem?_set_run {runs : List ApplyRun} {i k : Nat} {next run : ApplyRun}
    (h : (runs.set i next)[k]? = some run) : (k = i ∧ run = next) ∨ runs[k]? = some run := by
  by_cases hik : i = k
  · subst hik
    rw [List.getElem?_set_self'] at h
    obtain ⟨_, -, rfl⟩ := Option.map_eq_some_iff.mp h
    exact .inl ⟨rfl, rfl⟩
  · rw [List.getElem?_set_ne hik] at h
    exact .inr h

/-- Once a plan is in the ledger, its later runs stay quiet. -/
theorem Quiet.step {n : Nat} {plan : MigrationPlan} {w w' : World} {a : Action} (hw : Sound w)
    (hq : Quiet n plan w) (h : Effect w a w') : Quiet n plan w' := by
  have hgrows := h.grows
  have hcovered : ∀ run : ApplyRun, run.plan = plan → Covered w'.db run plan.records :=
    fun run hplan => (hq.covered run hplan).mono hgrows
  cases h with
  | @started run _ hphase _ =>
      refine ⟨by simp only [List.length_append]; exact Nat.le_add_right_of_le hq.started, hcovered, ?_⟩
      intro k run' hk hrun' hplan
      by_cases hlt : k < w.runs.length
      · rw [List.getElem?_append_left hlt] at hrun'
        exact hq.quiet k run' hk hrun' hplan
      · rw [List.getElem?_append_right (Nat.le_of_not_lt hlt)] at hrun'
        obtain rfl := List.mem_singleton.mp (List.mem_of_getElem? hrun')
        rw [hphase]
        rfl
  | @read i run _ hrun =>
      refine ⟨by simpa using hq.started, hcovered, ?_⟩
      intro k run' hk hrun' hplan
      obtain ⟨-, rfl⟩ | hold := getElem?_set_run hrun'
      · have hsound := hw.runs run (List.mem_of_getElem? hrun)
        have hsame : (run.read w.db).plan = run.plan := by
          unfold ApplyRun.read ApplyRun.count ApplyRun.next
          grind
        rw [hsame] at hplan
        exact read_quiet (covered_rest hsound (hplan ▸ hq.covered run hplan))
      · exact hq.quiet k run' hk hold hplan
  | @waited i run phase _ hrun _ hstays =>
      refine ⟨by simpa using hq.started, hcovered, ?_⟩
      intro k run' hk hrun' hplan
      obtain ⟨rfl, rfl⟩ | hold := getElem?_set_run hrun'
      · exact hstays (hq.quiet k run hk hrun hplan)
      · exact hq.quiet k run' hk hold hplan
  | @wrote i run next record rest report db _ hrun _ _ _ _ hnext =>
      refine ⟨by simpa using hq.started, hcovered, ?_⟩
      intro k run' hk hrun' hplan
      obtain ⟨-, rfl⟩ | hold := getElem?_set_run hrun'
      · obtain rfl | rfl := hnext <;> rfl
      · exact hq.quiet k run' hk hold hplan

/-- A step of a quiet run writes nothing. -/
theorem db_of_quiet {w w' : World} {a : Action} {k : Nat} {run : ApplyRun} (h : Effect w a w')
    (ha : a.run = some k) (hrun : w.runs[k]? = some run) (hquiet : run.phase.quiet = true) :
    w'.db = w.db := by
  cases h with
  | started | read | waited => rfl
  | wrote ha' hrun' hbusy _ _ _ _ =>
      obtain rfl := Option.some.inj (ha.symm.trans ha')
      obtain rfl := Option.some.inj (hrun.symm.trans hrun')
      rw [hquiet] at hbusy
      cases hbusy

/-- What a completed run leaves. -/
structure Completed (w : World) (run : ApplyRun) (report : ApplyReport) : Prop where
  /-- Every record that is not skipped is in the ledger. -/
  covered : Covered w.db run run.plan.records
  /-- Those that are there with other material are the conflicts it reports. -/
  conflicts : report.conflicts = run.plan.records.countP (Mismatched w.db run)

theorem completed_of_sound {w : World} {run : ApplyRun} {report : ApplyReport} (h : run.Sound w.db)
    (hphase : run.phase = .completed report) : Completed w run report := by
  obtain ⟨done, hplan, hcovered, hconflicts⟩ := h.progress
  obtain ⟨hrest, hreport⟩ := h.completed report hphase
  rw [hrest, List.append_nil] at hplan
  exact ⟨hplan ▸ hcovered, by rw [hreport, hconflicts, hplan]⟩

/-- The runs of a plan that is in the ledger are quiet from then on. -/
theorem quiet_of_covered {w w' : World} (hreach : Reachable Init (Step d) w) {run : ApplyRun}
    (hcovered : Covered w.db run run.plan.records) (hrun : Relation.ReflTransGen (Step d) w w') :
    Quiet w.runs.length run.plan w' := by
  induction hrun with
  | refl =>
      refine ⟨le_rfl, fun run' hplan => ?_, fun k run' hk hrun' => ?_⟩
      · intro record hrecord hskip
        have hrow := hcovered record hrecord hskip
        unfold ApplyRun.keyOf at hrow ⊢
        rwa [hplan]
      · rw [List.getElem?_eq_none hk] at hrun'
        cases hrun'
  | tail hu hstep ih =>
      obtain ⟨a, ha⟩ := hstep
      exact ih.step (sound_reachable (hreach.trans hu)) (effect_of_act ha)

/--
**The migration happens once**, with any number of runs of any plans at the same
time, each of which may raise or stop at any point. `w` is any state they reach.
-/
theorem migration_exactly_once (d : Digests) :
    (∀ (planner : MigrationPlanner) tenantId userId sources,
      let plan := planner.build d tenantId userId sources
      (plan.records.map (·.identity)).Nodup
        ∧ ((plan.records.filter (·.disposition = .import_)).map (·.contentHash d)).Nodup)
    ∧ ∀ w, Reachable Init (Step d) w →
      w.db.ExactlyOnce
      ∧ ∀ (i : Nat) run report, w.runs[i]? = some run → run.phase = .completed report →
        Completed w run report
        -- a run of the same plan that is started later writes nothing
        ∧ ∀ w', Relation.ReflTransGen (Step d) w w' →
          ∀ (k : Nat) later, w.runs.length ≤ k → w'.runs[k]? = some later → later.plan = run.plan →
          ∀ a w'', a.run = some k → w'.act d a = some w'' → w''.db = w'.db := by
  refine ⟨fun planner tenantId userId sources => build_unique planner d tenantId userId sources, ?_⟩
  intro w hreach
  have hsound := sound_reachable hreach
  refine ⟨hsound.tables, fun i run report hrun hphase => ?_⟩
  have hcompleted := completed_of_sound (hsound.runs run (List.mem_of_getElem? hrun)) hphase
  refine ⟨hcompleted, fun w' hw' k later hk hlater hplan a w'' ha hact => ?_⟩
  have hquiet := quiet_of_covered hreach hcompleted.covered hw'
  exact db_of_quiet (effect_of_act hact) ha hlater (hquiet.quiet k later hk hlater hplan)

/-! ## One import, and the run after it -/

/-- The digests of the one text and the one source id of the sample. -/
def sampleDigests : Digests where
  sha256 _ := "8f434346648f6b96df89dda901c5176b10a6d83961dd3c1ac88b59b2dc327aa4"
  canonicalHash _ := "1f39ecf72d9e8782f9a405fa49e1f1e29594ee601ddee5b52c4374bb6a911b8b"

/-- A memory whose text is known. -/
def sampleRecord : LegacyRecord where
  sourceSystem := "chroma_memory"
  sourceId := "m1"
  kind := "memory"
  content := some "hi"
  sourceHash := "8f434346648f6b96df89dda901c5176b10a6d83961dd3c1ac88b59b2dc327aa4"
  disposition := .import_
  reason := "recoverable_source_text_reembed"
  identified := by decide
  hashed := by decide
  recoverable := by decide
  bare := by decide

/-- The plan of that one record. -/
def samplePlan : MigrationPlan :=
  MigrationPlanner.build { required := by decide } sampleDigests ⟨1⟩ ⟨2⟩
    [{ manifest := ⟨"chroma_memory", "backup", "", 1⟩, records := [sampleRecord] }]

/-- The embedding of the text. -/
def sampleEmbedding : EmbeddingResult := ⟨"embedder", "v1", [1], by decide⟩

/-- Two runs read the ledger before either writes, and both import; the first one completes. -/
def twoRuns : List Action :=
  [.start samplePlan 0 true, .start samplePlan 0 true, .read 0, .read 1,
    .embed 0 sampleEmbedding, .embed 1 sampleEmbedding, .importMemory 0 ⟨10⟩ ⟨11⟩ ⟨12⟩ true,
    .importMemory 1 ⟨20⟩ ⟨21⟩ ⟨22⟩ true, .read 0]

/-- The state those actions lead to. -/
def afterTwoRuns : World := (twoRuns.foldlM (act sampleDigests) {}).getD {}

theorem migration_exactly_once_two_runs :
    afterTwoRuns.db.items.length = 1 ∧ afterTwoRuns.db.ExactlyOnce
      ∧ ∃ run report, afterTwoRuns.runs[0]? = some run ∧ run.phase = .completed report
        ∧ Completed afterTwoRuns run report := by
  have hsome : (twoRuns.foldlM (act sampleDigests) {}).isSome = true := by decide +kernel
  have hrun : twoRuns.foldlM (act sampleDigests) {} = some afterTwoRuns := by
    obtain ⟨w, hw⟩ := Option.isSome_iff_exists.mp hsome
    rw [afterTwoRuns, hw]
    rfl
  have hreach : Reachable Init (Step sampleDigests) afterTwoRuns :=
    Reachable.of_exec (fun _ a _ ha => ⟨a, ha⟩) (.init rfl) hrun
  have hall := (migration_exactly_once sampleDigests).2 afterTwoRuns hreach
  have hdone : (afterTwoRuns.runs[0]?).any (fun run =>
      match run.phase with
      | .completed _ => true
      | _ => false) = true := by decide +kernel
  obtain ⟨run, hfirst, hphase⟩ := Option.any_eq_true _ _ |>.mp hdone
  split at hphase
  next report hcompleted =>
    exact ⟨by decide +kernel, hall.1, run, report, hfirst, hcompleted,
      (hall.2 0 run report hfirst hcompleted).1⟩
  next => cases hphase

end World

end Sana.Migration
