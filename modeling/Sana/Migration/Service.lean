import Sana.Lib.Table
import Sana.Shared.Json

/-!
# Migration of legacy memory

`MigrationPlanner.build` makes a plan from what the readers found: one record for
each source identity, one import for each text. `MigrationService.apply` goes
through the plan record by record. For each it reads the ledger in one
transaction and writes the target rows with their ledger row in another, so
several runs may be between the two at the same time, and any of them may stop
there for good.

A write transaction first takes the advisory lock of its source identity, which
it keeps until it commits, and reads the ledger again under it: for one identity
the transactions come one after another.
-/

namespace Sana.Migration

open Sana.Lib

/-- The digests the migration uses. -/
structure Digests where
  /-- `hashlib.sha256(text.encode("utf-8")).hexdigest()`. -/
  sha256 : String → String
  /-- `canonical_hash`. -/
  canonicalHash : Json → String

/-! ## Records and plans -/

/-- `MigrationDisposition`. -/
inductive MigrationDisposition
  | import_ | archive | skip
deriving DecidableEq, Repr

/-- The value the enumeration serialises to. -/
def MigrationDisposition.value : MigrationDisposition → String
  | .import_ => "IMPORT"
  | .archive => "ARCHIVE"
  | .skip => "SKIP"

/-- `LegacyRecord`. -/
structure LegacyRecord where
  sourceSystem : String
  sourceId : String
  kind : String
  content : Option String
  sourceHash : String
  disposition : MigrationDisposition
  reason : String
  metadata : List (String × Json) := []
  identified : Text.isBlank sourceSystem = false ∧ Text.isBlank sourceId = false
  hashed : sourceHash.length = 64
  recoverable : disposition = .import_ → content.any (!Text.isBlank ·) = true
  bare : disposition ≠ .import_ → content.getD "" = ""

namespace LegacyRecord

/-- The identity of a record in its source. -/
def identity (r : LegacyRecord) : String × String := (r.sourceSystem, r.sourceId)

/-- The record of a text that another record imports already. -/
def duplicate (r : LegacyRecord) (previous : String × String) : LegacyRecord :=
  { r with
    content := none
    disposition := .skip
    reason := "duplicate_content"
    metadata := [("duplicate_of", .str s!"{previous.1}:{previous.2}")]
    recoverable := by simp
    bare := by simp }

/-- The digest of the text of a record. -/
def contentHash (d : Digests) (r : LegacyRecord) : String := d.sha256 (r.content.getD "")

end LegacyRecord

/-- `SourceManifest`. -/
structure SourceManifest where
  sourceSystem : String
  sourceLocation : String
  sourceHash : String
  recordCount : Nat := 0

/-- `ReaderResult`. -/
structure ReaderResult where
  manifest : SourceManifest
  records : List LegacyRecord
  issues : List String := []

/-- `MigrationPlan`. -/
structure MigrationPlan where
  tenantId : Uuid
  userId : Uuid
  migrationVersion : String
  records : List LegacyRecord
  manifests : List SourceManifest
  conflicts : List String
  issues : List String
  planHash : String

/-- The local variables of `build`. -/
structure Draft where
  records : List LegacyRecord := []
  conflicts : List String := []
  identities : List ((String × String) × String) := []
  importedContent : List (String × (String × String)) := []

namespace Draft

/-- A record of a new identity: an import of a text that is there already is skipped. -/
def keep (d : Digests) (b : Draft) (record : LegacyRecord) : Draft :=
  if record.disposition = .import_ then
    match b.importedContent.lookup (record.contentHash d) with
    | some previous => { b with records := b.records ++ [record.duplicate previous] }
    | none =>
        { b with
          importedContent := b.importedContent ++ [(record.contentHash d, record.identity)]
          records := b.records ++ [record] }
  else { b with records := b.records ++ [record] }

/-- One turn of the loop of `build`. -/
def add (d : Digests) (b : Draft) (record : LegacyRecord) : Draft :=
  match b.identities.lookup record.identity with
  | some previousHash =>
      if previousHash ≠ record.sourceHash then
        { b with
          conflicts := b.conflicts ++ ["source_identity_changed:"
            ++ s!"{record.sourceSystem}:{d.canonicalHash (.str record.sourceId)}"] }
      else b
  | none =>
      { b with identities := b.identities ++ [(record.identity, record.sourceHash)] }.keep d record

end Draft

/-- `MigrationPlanner`. -/
structure MigrationPlanner where
  version : String := "memory-v1"
  required : Text.isBlank version = false

/-- What the plan is hashed from. -/
def planMaterial (tenantId userId : Uuid) (version : String) (draft : Draft)
    (sources : List ReaderResult) (issues : List String) : Json :=
  .obj [
    ("tenant_id", .str tenantId.str),
    ("user_id", .str userId.str),
    ("migration_version", .str version),
    ("records", .arr (draft.records.map fun r => .obj [
      ("source_system", .str r.sourceSystem), ("source_id", .str r.sourceId),
      ("source_hash", .str r.sourceHash), ("disposition", .str r.disposition.value),
      ("reason", .str r.reason)])),
    ("manifests", .arr (sources.map fun s =>
      .arr [.str s.manifest.sourceSystem, .str s.manifest.sourceHash])),
    ("conflicts", .arr (draft.conflicts.map .str)),
    ("issues", .arr (issues.map .str))]

/-- `MigrationPlanner.build`. -/
def MigrationPlanner.build (planner : MigrationPlanner) (d : Digests) (tenantId userId : Uuid)
    (sources : List ReaderResult) : MigrationPlan :=
  let issues := (sources.flatMap (·.issues)).mergeSort (· ≤ ·)
  let draft := (sources.flatMap (·.records)).foldl (Draft.add d) {}
  let material := planMaterial tenantId userId planner.version draft sources issues
  { tenantId
    userId
    migrationVersion := planner.version
    records := draft.records
    manifests := sources.map (·.manifest)
    conflicts := draft.conflicts
    issues
    planHash := d.canonicalHash material }

/-! ## The tables -/

/-- `EmbeddingResult`. -/
structure EmbeddingResult where
  model : String
  version : String
  vector : List Rat
  required : Text.isBlank model = false ∧ Text.isBlank version = false ∧ vector ≠ []
deriving DecidableEq

/-- `memory_items`. -/
structure MemoryItem where
  id : Uuid
  tenantId : Uuid
  userId : Uuid
  kind : String
  content : String
  contentHash : String
  importance : Rat
  memoryMetadata : List (String × Json)
  createdAt : Time
  updatedAt : Time

/-- `memory_embeddings`. -/
structure MemoryEmbedding where
  id : Uuid
  tenantId : Uuid
  memoryItemId : Uuid
  model : String
  modelVersion : String
  dimensions : Nat
  embedding : List Rat
  contentHash : String
  createdAt : Time
deriving DecidableEq

/-- The status of a ledger row. -/
inductive LedgerStatus
  | imported | archived
deriving DecidableEq, Repr

/-- `migration_ledger`. -/
structure MigrationLedger where
  id : Uuid
  tenantId : Uuid
  sourceSystem : String
  sourceId : String
  sourceHash : String
  targetId : Option Uuid
  migrationVersion : String
  status : LedgerStatus
  executedAt : Time
deriving DecidableEq, Repr

/-- The columns of `uq_migration_ledger_source_version`. -/
structure SourceKey where
  tenantId : Uuid
  sourceSystem : String
  sourceId : String
  migrationVersion : String
deriving DecidableEq, Repr

/-- The key of a ledger row. -/
def MigrationLedger.key (row : MigrationLedger) : SourceKey :=
  ⟨row.tenantId, row.sourceSystem, row.sourceId, row.migrationVersion⟩

/-- `legacy_archives`. -/
structure LegacyArchive where
  id : Uuid
  tenantId : Uuid
  sourceSystem : String
  archiveHash : String
  storageUri : String
  manifest : List (String × Json)
  createdAt : Time

/-- The tables the migration writes. -/
structure Db where
  items : List MemoryItem := []
  embeddings : List MemoryEmbedding := []
  ledger : List MigrationLedger := []
  archives : List LegacyArchive := []

/-- What a run of the migration can raise. -/
inductive MigrationError
  | valueError (message : String)
  /-- `MigrationWriteConflict`. -/
  | writeConflict
  /-- A constraint of the database refused the transaction. -/
  | integrity (constraint : String)
  /-- The embedder or the database failed. -/
  | external
deriving DecidableEq, Repr

namespace Db

/-- The transaction commits if the constraints hold. -/
def commit (db : Db) : Except MigrationError Db := do
  check (decide (db.items.map (·.id)).Nodup) (.integrity "pk_memory_items")
  check (decide (db.embeddings.map (·.id)).Nodup) (.integrity "pk_memory_embeddings")
  check (decide (db.embeddings.map fun e => (e.memoryItemId, e.model, e.modelVersion)).Nodup)
    (.integrity "uq_memory_embeddings_item_model_version")
  check (db.embeddings.all fun e => e.memoryItemId ∈ db.items.map (·.id))
    (.integrity "fk_memory_embeddings_memory_item_id_memory_items")
  check (decide (db.ledger.map (·.id)).Nodup) (.integrity "pk_migration_ledger")
  check (decide (db.ledger.map (·.key)).Nodup) (.integrity "uq_migration_ledger_source_version")
  check (db.ledger.all fun l => l.targetId.all (· ∈ db.items.map (·.id)))
    (.integrity "fk_migration_ledger_target_id_memory_items")
  check (decide (db.archives.map (·.id)).Nodup) (.integrity "pk_legacy_archives")
  check (decide (db.archives.map fun a => (a.tenantId, a.sourceSystem, a.archiveHash)).Nodup)
    (.integrity "uq_legacy_archives_source_hash")
  return db

/-- `_ledger_query`. -/
def ledgerQuery (db : Db) (key : SourceKey) : Option MigrationLedger :=
  lookup MigrationLedger.key key db.ledger

/-- `_already_finished`. -/
def alreadyFinished (db : Db) (key : SourceKey) (sourceHash : String) (expected : LedgerStatus) :
    Except MigrationError Bool :=
  match db.ledgerQuery key with
  | none => .ok false
  | some existing =>
      if existing.sourceHash = sourceHash ∧ existing.status = expected then .ok true
      else .error .writeConflict

end Db

/-! ## The store -/

/-- `MemoryImportCommand`. -/
structure MemoryImportCommand where
  targetId : Uuid
  tenantId : Uuid
  userId : Uuid
  record : LegacyRecord
  contentHash : String
  embedding : EmbeddingResult
  migrationVersion : String
  executedAt : Time

/-- `ArchiveCommand`. -/
structure ArchiveCommand where
  archiveId : Uuid
  tenantId : Uuid
  record : LegacyRecord
  migrationVersion : String
  executedAt : Time

/-- The ledger key of a record in a migration. -/
def LegacyRecord.key (r : LegacyRecord) (tenantId : Uuid) (version : String) : SourceKey :=
  ⟨tenantId, r.sourceSystem, r.sourceId, version⟩

/-- `metadata[key] = value`. -/
def setMember (metadata : List (String × Json)) (key : String) (value : Json) :
    List (String × Json) :=
  if metadata.any (·.1 = key) then metadata.map fun m => if m.1 = key then (key, value) else m
  else metadata ++ [(key, value)]

/-- The metadata of an imported memory. -/
def MemoryImportCommand.memoryMetadata (d : Digests) (c : MemoryImportCommand) :
    List (String × Json) :=
  setMember c.record.metadata "migration" (.obj [
    ("source_system", .str c.record.sourceSystem),
    ("source_id_hash", .str (d.canonicalHash (.str c.record.sourceId))),
    ("source_hash", .str c.record.sourceHash),
    ("migration_version", .str c.migrationVersion),
    ("reason", .str c.record.reason)])

/-- The ledger row of a record. -/
def ledgerRow (id tenantId : Uuid) (record : LegacyRecord) (targetId : Option Uuid)
    (version : String) (status : LedgerStatus) (executedAt : Time) : MigrationLedger where
  id := id
  tenantId := tenantId
  sourceSystem := record.sourceSystem
  sourceId := record.sourceId
  sourceHash := record.sourceHash
  targetId := targetId
  migrationVersion := version
  status := status
  executedAt := executedAt

/-- `import_memory`. The other two ids are the defaults of their columns. -/
def importMemory (d : Digests) (db : Db) (c : MemoryImportCommand) (embeddingId ledgerId : Uuid) :
    Except MigrationError Db := do
  if ← db.alreadyFinished (c.record.key c.tenantId c.migrationVersion) c.record.sourceHash
      .imported then
    return db
  let item : MemoryItem :=
    { id := c.targetId
      tenantId := c.tenantId
      userId := c.userId
      kind := c.record.kind
      content := c.record.content.getD ""
      contentHash := c.contentHash
      importance := 1 / 2
      memoryMetadata := c.memoryMetadata d
      createdAt := c.executedAt
      updatedAt := c.executedAt }
  let embedding : MemoryEmbedding :=
    { id := embeddingId
      tenantId := c.tenantId
      memoryItemId := c.targetId
      model := c.embedding.model
      modelVersion := c.embedding.version
      dimensions := c.embedding.vector.length
      embedding := c.embedding.vector
      contentHash := c.contentHash
      createdAt := c.executedAt }
  { db with
    items := db.items ++ [item]
    embeddings := db.embeddings ++ [embedding]
    ledger := db.ledger ++ [ledgerRow ledgerId c.tenantId c.record (some c.targetId)
      c.migrationVersion .imported c.executedAt] : Db }.commit

/-- The archive row of a record, unless its material is archived already. -/
def archiveRow (d : Digests) (db : Db) (c : ArchiveCommand) : List LegacyArchive :=
  if db.archives.any fun a => a.tenantId = c.tenantId ∧ a.sourceSystem = c.record.sourceSystem
      ∧ a.archiveHash = c.record.sourceHash then []
  else
    [{ id := c.archiveId
       tenantId := c.tenantId
       sourceSystem := c.record.sourceSystem
       archiveHash := c.record.sourceHash
       storageUri := "legacy-record://" ++ s!"{c.record.sourceSystem}/"
         ++ d.canonicalHash (.str c.record.sourceId)
       manifest := [
         ("source_hash", .str c.record.sourceHash),
         ("reason", .str c.record.reason),
         ("metadata", .obj c.record.metadata),
         ("migration_version", .str c.migrationVersion)]
       createdAt := c.executedAt }]

/-- `archive`. -/
def archive (d : Digests) (db : Db) (c : ArchiveCommand) (ledgerId : Uuid) :
    Except MigrationError Db := do
  if ← db.alreadyFinished (c.record.key c.tenantId c.migrationVersion) c.record.sourceHash
      .archived then
    return db
  { db with
    archives := db.archives ++ archiveRow d db c
    ledger := db.ledger ++ [ledgerRow ledgerId c.tenantId c.record none c.migrationVersion
      .archived c.executedAt] : Db }.commit

/-! ## `apply` -/

/-- `ApplyReport`, and the counters of a run. -/
structure ApplyReport where
  imported : Nat := 0
  archived : Nat := 0
  skippedByPlan : Nat := 0
  skippedIdempotent : Nat := 0
  conflicts : Nat := 0
deriving DecidableEq, Repr

/-- The await a run is suspended in, or how it ended. -/
inductive Phase
  /-- At `ledger_entry` for the next record, or past the last one. -/
  | reading
  | archiving
  | embedding
  | importing (embedding : EmbeddingResult)
  | completed (report : ApplyReport)
  | raised (e : MigrationError)

/-- A run of `apply`: the records that are left, the first of them the current one. -/
structure ApplyRun where
  plan : MigrationPlan
  executedAt : Time
  rest : List LegacyRecord
  report : ApplyReport := {}
  phase : Phase := .reading

namespace ApplyRun

/-- The checks of `apply`, and the run after them. -/
def begin (plan : MigrationPlan) (executedAt : Time) (backupManifestVerified : Bool) :
    Except MigrationError ApplyRun := do
  check (backupManifestVerified && !plan.manifests.isEmpty)
    (.valueError "A verified read-only backup manifest is required")
  check (plan.conflicts.isEmpty && plan.issues.isEmpty)
    (.valueError "Migration plan conflicts and source issues must be resolved")
  return { plan, executedAt, rest := plan.records }

/-- The run is done with its current record. -/
def next (run : ApplyRun) (rest : List LegacyRecord) (report : ApplyReport) : ApplyRun :=
  { run with rest, report, phase := .reading }

/-- The run counts a record whose ledger row it has read. -/
def count (run : ApplyRun) (record : LegacyRecord) (rest : List LegacyRecord)
    (existing : MigrationLedger) : ApplyRun :=
  let report := run.report
  if existing.sourceHash = record.sourceHash ∧ existing.status ∈ [.imported, .archived] then
    run.next rest { report with skippedIdempotent := report.skippedIdempotent + 1 }
  else run.next rest { report with conflicts := report.conflicts + 1 }

/-- From `reading` to the next await. -/
def read (db : Db) (run : ApplyRun) : ApplyRun :=
  let report := run.report
  match run.rest with
  | [] =>
      let conflicts := report.conflicts + run.plan.conflicts.length
      { run with phase := .completed { report with conflicts } }
  | record :: rest =>
      if record.disposition = .skip then
        run.next rest { report with skippedByPlan := report.skippedByPlan + 1 }
      else
        match db.ledgerQuery (record.key run.plan.tenantId run.plan.migrationVersion) with
        | some existing => run.count record rest existing
        | none =>
            let phase := if record.disposition = .archive then .archiving else .embedding
            { run with phase }

/-- The command for `archive`. -/
def archiveCommand (run : ApplyRun) (record : LegacyRecord) (archiveId : Uuid) : ArchiveCommand :=
  ⟨archiveId, run.plan.tenantId, record, run.plan.migrationVersion, run.executedAt⟩

/-- The command for `import_memory`. -/
def importCommand (d : Digests) (run : ApplyRun) (record : LegacyRecord)
    (embedding : EmbeddingResult) (targetId : Uuid) : MemoryImportCommand :=
  ⟨targetId, run.plan.tenantId, run.plan.userId, record, record.contentHash d, embedding,
    run.plan.migrationVersion, run.executedAt⟩

end ApplyRun

/-- The database and the runs that were started. A run that is interrupted takes no more steps. -/
structure World where
  db : Db := {}
  runs : List ApplyRun := []

namespace World

/-- What can happen next. -/
inductive Action
  | start (plan : MigrationPlan) (executedAt : Time) (backupManifestVerified : Bool)
  | read (i : Nat)
  | embed (i : Nat) (embedding : EmbeddingResult)
  /-- The transaction commits; the run may or may not hear of it. -/
  | archive (i : Nat) (archiveId ledgerId : Uuid) (acknowledged : Bool)
  | importMemory (i : Nat) (targetId embeddingId ledgerId : Uuid) (acknowledged : Bool)
  /-- The await raises, and what it was about did not happen. -/
  | fail (i : Nat)

/-- A write transaction ended: the run goes on with the rest, or raises. -/
def wrote (w : World) (i : Nat) (run : ApplyRun) (rest : List LegacyRecord) (report : ApplyReport)
    (acknowledged : Bool) (result : Except MigrationError Db) : World :=
  match result with
  | .ok db =>
      { db
        runs := w.runs.set i (if acknowledged then run.next rest report
          else { run with phase := .raised .external }) }
  | .error e => { w with runs := w.runs.set i { run with phase := .raised e } }

/-- What an action does, when the run it names is at that await. -/
def act (d : Digests) (w : World) : Action → Option World
  | .start plan executedAt verified =>
      match ApplyRun.begin plan executedAt verified with
      | .ok run => some { w with runs := w.runs ++ [run] }
      | .error _ => none
  | .read i => do
      let run ← w.runs[i]?
      match run.phase with
      | .reading => some { w with runs := w.runs.set i (run.read w.db) }
      | _ => none
  | .embed i embedding => do
      let run ← w.runs[i]?
      match run.phase with
      | .embedding =>
          some { w with runs := w.runs.set i { run with phase := .importing embedding } }
      | _ => none
  | .archive i archiveId ledgerId acknowledged => do
      let run ← w.runs[i]?
      match run.phase, run.rest with
      | .archiving, record :: rest =>
          let report := { run.report with archived := run.report.archived + 1 }
          some (w.wrote i run rest report acknowledged
            (Migration.archive d w.db (run.archiveCommand record archiveId) ledgerId))
      | _, _ => none
  | .importMemory i targetId embeddingId ledgerId acknowledged => do
      let run ← w.runs[i]?
      match run.phase, run.rest with
      | .importing embedding, record :: rest =>
          let report := { run.report with imported := run.report.imported + 1 }
          let command := run.importCommand d record embedding targetId
          some (w.wrote i run rest report acknowledged
            (Migration.importMemory d w.db command embeddingId ledgerId))
      | _, _ => none
  | .fail i => do
      let run ← w.runs[i]?
      match run.phase with
      | .completed _ | .raised _ => none
      | _ => some { w with runs := w.runs.set i { run with phase := .raised .external } }

/-- Empty tables and no run yet. -/
def Init (w : World) : Prop := w = {}

/-- One action. -/
def Step (d : Digests) (w w' : World) : Prop := ∃ a, w.act d a = some w'

end World

end Sana.Migration
