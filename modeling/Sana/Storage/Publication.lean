import Mathlib
import Sana.Lib.FileSystem
import Sana.Lib.Simulation
import Sana.Storage.CampaignReports

/-!
# How files are published

Both stores write a payload to a temporary file, sync it, and only then give it its final name: one
by replacing whatever has the name, the other by a hard link, after which it reads the file back.
Here every call of the operating system is a step of its own, any number of threads take their steps
in any order, any call may fail, processes are killed, and the power is lost.

Over it stands what the methods promise: a store that puts and gets in one step (`AtomicStore`), as
`LocalArtifactStore.putBytes` and `getBytes` do.
-/

namespace Sana.Storage

open Sana.Lib

/-- What a method does with the files. -/
inductive FileCall
  /-- `_write_atomic`. -/
  | write (file : List String) (payload : ByteArray) (digest : String)
  /-- `path.read_bytes()`, and a look at the hash. -/
  | read (file : List String) (digest : String)

namespace FileCall

def file : FileCall → List String
  | write file _ _ => file
  | read file _ => file

def digest : FileCall → String
  | write _ _ digest => digest
  | read _ digest => digest

/-- What is to be written. -/
def payload : FileCall → ByteArray
  | write _ payload _ => payload
  | read _ _ => .empty

def isWrite : FileCall → Bool
  | write .. => true
  | read .. => false

end FileCall

/-- Why a method raises. A `FileNotFoundError` that it does not translate is an `OSError`. -/
inductive Failure
  | raised (error : Exn)
  | osError
deriving DecidableEq

/-- A store by its methods: what a request asks of the files, and what is returned for what was
written or read. -/
structure Store (ρ α : Type) where
  starts : ρ → Except Exn FileCall
  returns : ρ → ByteArray → Except Exn α
  /-- The final name is given by `os.link` where it can be, and what has it is read back. -/
  hardLinks : Bool
  existingCorrupted : Exn
  writtenCorrupted : Exn
  readCorrupted : Exn
  notFound : Exn

/-! ## The two stores -/

namespace LocalArtifactStore

inductive Request
  | put (tenantId runId : Uuid) (payload : ByteArray)
  | get (tenantId : Uuid) (reference : Orchestration.Aggregate.ArtifactRef)
deriving DecidableEq

inductive Value
  | reference (reference : Orchestration.Aggregate.ArtifactRef)
  | payload (payload : ByteArray)
deriving DecidableEq

variable {δ : Type} (b : StoreBuiltins δ)

/-- `put_bytes` and `get_bytes`. -/
def store : Store Request Value where
  starts
    | .put tenantId runId payload =>
      if payload.size = 0 then .error (.valueError "Artifact payload must be non-empty bytes")
      else .ok (.write (path tenantId runId (b.sha256 payload)) payload (b.sha256 payload))
    | .get tenantId reference => do
      let (referenceTenant, runId, digest) ← parse b reference
      if referenceTenant = tenantId then .ok (.read (path referenceTenant runId digest) digest)
      else .error tenantMismatch
  returns
    | .put tenantId runId payload, _ => do
      let reference ← Orchestration.Aggregate.ArtifactRef.make
        (uri tenantId runId (b.sha256 payload)) (b.sha256 payload)
      .ok (.reference reference)
    | .get _ _, payload => .ok (.payload payload)
  hardLinks := false
  existingCorrupted :=
    contentError "artifact_corrupted" "Existing artifact failed its content hash check"
  -- what was written is not read back
  writtenCorrupted :=
    contentError "artifact_corrupted" "Existing artifact failed its content hash check"
  readCorrupted := contentError "artifact_corrupted" "Artifact failed its content hash check"
  notFound := .typed ⟨.content, "artifact_not_found", "Artifact payload is unavailable", true⟩

end LocalArtifactStore

namespace LocalCampaignReportStore

inductive Request
  | put (tenantId campaignId : Uuid) (payload : ByteArray) (mediaType : String)
  | get (tenantId campaignId : Uuid) (uri : String)
deriving DecidableEq

inductive Value
  | uri (uri : String)
  | payload (payload : ByteArray)
deriving DecidableEq

variable {δ : Type} (b : StoreBuiltins δ)

/-- `put` and `get`. -/
def store : Store Request Value where
  starts
    | .put tenantId campaignId payload mediaType => do
      if payload.size = 0 then
        .error (.valueError "Campaign report payload must be non-empty bytes")
      else if mediaType ∉ mediaTypes then
        .error (.valueError "Campaign report media type is not allowlisted")
      else
        let file ← path tenantId campaignId (b.sha256 payload)
        .ok (.write file payload (b.sha256 payload))
    | .get tenantId campaignId uri => do
      let (uriTenant, uriCampaign, digest) ← parse b uri
      if uriTenant ≠ tenantId ∨ uriCampaign ≠ campaignId then .error scopeMismatch
      else
        let file ← path uriTenant uriCampaign digest
        .ok (.read file digest)
  returns
    | .put tenantId campaignId payload _, _ => .ok (.uri (uri tenantId campaignId (b.sha256 payload)))
    | .get _ _ _, payload => .ok (.payload payload)
  hardLinks := true
  existingCorrupted := corrupted "Existing Campaign artifact failed its content hash check"
  writtenCorrupted := corrupted "Campaign artifact failed post-write verification"
  readCorrupted := corrupted "Campaign artifact failed its content hash check"
  notFound := notFound

end LocalCampaignReportStore

/-! ## Threads -/

abbrev Files := FileSystem (List String) UInt8

/-- `uuid4().hex`. -/
def hex (nonce : Uuid) : String := String.ofList nonce.digits

/-- `path.with_name(f".{path.name}.{uuid4().hex}.tmp")`. -/
def temporary (file : List String) (nonce : Uuid) : List String :=
  file.dropLast ++ ["." ++ file.getLastD "" ++ "." ++ hex nonce ++ ".tmp"]

/-- What a file is read for: because it exists already, because it could not be replaced, to verify
what was published, or for whoever asked for it. -/
inductive Reader
  | existing
  | fallback
  | written
  | asked
deriving DecidableEq

/-- Where a thread is in `_write_atomic`, or in reading. -/
inductive Pc
  /-- Before `path.exists()`. -/
  | checking
  /-- Before `uuid4()`. -/
  | naming
  /-- Before `temporary.open("xb")`. -/
  | creating
  /-- The file that was created, and what of the payload is not written yet. -/
  | writing (i : Nat) (left : List UInt8)
  /-- The temporary file is synced and closed. -/
  | publishing
  /-- `os.link` raised an `OSError`. -/
  | replacing
  /-- `os.replace` raised one, too. -/
  | converging
  | opening (why : Reader)
  /-- The file that is open, and what has been read of it. -/
  | reading (why : Reader) (i : Nat) (got : List UInt8)
  /-- Before `temporary.unlink`. -/
  | cleaning (result : Except Failure ByteArray)
  | done (result : Except Failure ByteArray)

structure Thread where
  call : FileCall
  /-- The name of the temporary file, once there is one. -/
  temporary : List String := []
  pc : Pc

/-- How a call of the operating system ends. -/
inductive Choice
  | go
  /-- So many bytes are read or written, and one more. -/
  | bytes (n : Nat)
  /-- It raises an `OSError`, before it has had its effect or after. -/
  | fault (late : Bool)
  | nonce (nonce : Uuid)

namespace Thread

variable {ρ α : Type} (s : Store ρ α) (sha256 : ByteArray → String) (t : Thread)

/-- A method that writes starts with `path.exists()`, one that reads with opening the file. -/
def start (call : FileCall) : Thread where
  call
  pc := if call.isWrite then .checking else .opening .asked

/-- The thread goes on elsewhere; the files are as they were. -/
def goto (fs : Files) (pc : Pc) : Files × Thread := (fs, { t with pc })

/-- Reading raises: inside the block that ends with removing the temporary file, or outside it. -/
def raises (why : Reader) (failure : Failure) : Pc :=
  match why with
  | .existing | .asked => .done (.error failure)
  | .fallback | .written => .cleaning (.error failure)

/-- The file to be read is not there. -/
def missing (why : Reader) : Pc :=
  raises why (if why = .asked then .raised s.notFound else .osError)

/-- All of the file has been read. -/
def finished (why : Reader) (bytes : ByteArray) : Pc :=
  if sha256 bytes = t.call.digest then
    match why with
    | .existing | .asked => .done (.ok bytes)
    | .fallback => .opening .written
    | .written => .cleaning (.ok bytes)
  else
    match why with
    | .existing => raises why (.raised s.existingCorrupted)
    -- the error of `os.replace` is raised again
    | .fallback => raises why .osError
    | .written => raises why (.raised s.writtenCorrupted)
    | .asked => raises why (.raised s.readCorrupted)

/-- One call of the operating system, and what is done until the next. -/
def step (fs : Files) : Choice → Option (Files × Thread)
  | .go =>
    match t.pc with
    | .checking =>
      some (t.goto fs (if fs.entry t.call.file = none then .naming else .opening .existing))
    | .creating =>
      if fs.entry t.temporary = none then
        some (t.goto (fs.create t.temporary) (.writing fs.next t.call.payload.data.toList))
      else some (t.goto fs (.cleaning (.error .osError)))
    | .writing i [] => some (t.goto (fs.sync i) .publishing)
    | .publishing =>
      if s.hardLinks then
        -- a file that has the name already is left to the verification
        if fs.entry t.temporary = none then some (t.goto fs .replacing)
        else some (t.goto (fs.link t.temporary t.call.file) (.opening .written))
      else if fs.entry t.temporary = none then some (t.goto fs (.cleaning (.error .osError)))
      else some (t.goto (fs.replace t.temporary t.call.file) (.cleaning (.ok t.call.payload)))
    | .replacing =>
      if fs.entry t.temporary = none then some (t.goto fs .converging)
      else some (t.goto (fs.replace t.temporary t.call.file) (.opening .written))
    | .converging => some (t.goto fs
        (if fs.entry t.call.file = none then .cleaning (.error .osError) else .opening .fallback))
    | .opening why =>
      match fs.entry t.call.file with
      | none => some (t.goto fs (missing s why))
      | some i => some (t.goto fs (.reading why i []))
    | .reading why i got =>
      if (fs.file i).data.drop got.length = [] then
        some (t.goto fs (finished s sha256 t why ⟨got.toArray⟩))
      else none
    | .cleaning result => some (t.goto (fs.unlink t.temporary) (.done result))
    | _ => none
  | .nonce nonce =>
    match t.pc with
    | .naming => some (fs, { t with temporary := Storage.temporary t.call.file nonce, pc := .creating })
    | _ => none
  | .bytes n =>
    match t.pc with
    | .writing i (byte :: left) => some (t.goto (fs.append i ((byte :: left).take (n + 1)))
        (.writing i ((byte :: left).drop (n + 1))))
    | .reading why i got =>
      if (fs.file i).data.drop got.length = [] then none
      else some (t.goto fs
        (.reading why i (got ++ ((fs.file i).data.drop got.length).take (n + 1))))
    | _ => none
  | .fault late =>
    match t.pc with
    | .checking => some (t.goto fs (.done (.error .osError)))
    | .creating => some (t.goto
        (if late = true ∧ fs.entry t.temporary = none then fs.create t.temporary else fs)
        (.cleaning (.error .osError)))
    | .writing _ _ => some (t.goto fs (.cleaning (.error .osError)))
    | .publishing =>
      if s.hardLinks then
        some (t.goto (if late then fs.link t.temporary t.call.file else fs) .replacing)
      else some (t.goto (if late then fs.replace t.temporary t.call.file else fs)
        (.cleaning (.error .osError)))
    | .replacing =>
      some (t.goto (if late then fs.replace t.temporary t.call.file else fs) .converging)
    | .converging => some (t.goto fs (.cleaning (.error .osError)))
    | .opening why => some (t.goto fs (raises why .osError))
    | .reading why _ _ => some (t.goto fs (raises why .osError))
    | .cleaning _ => some (t.goto (if late then fs.unlink t.temporary else fs) (.done (.error .osError)))
    | _ => none

end Thread

/-! ## Any number of threads -/

/-- A call of a method: the thread it runs in, or what it raised before it came to the files. -/
structure Call (ρ : Type) where
  request : ρ
  thread : Except Exn Thread

/-- What is seen from outside. -/
inductive Event (ρ α : Type)
  | call (pid : Nat) (request : ρ)
  | ret (pid : Nat) (result : Except Failure α)
  /-- Processes are killed with their threads. -/
  | kill (pids : List Nat)
  | powerLoss
deriving DecidableEq

/-- Without the threads that were killed. -/
def without {γ : Type} (pids : List Nat) (calls : Nat → Option γ) (pid : Nat) : Option γ :=
  if pid ∈ pids then none else calls pid

/-- The result of a method, by what its calls of the file system ended with. -/
def Store.result {ρ α : Type} (s : Store ρ α) (request : ρ) : Except Failure ByteArray → Except Failure α
  | .error failure => .error failure
  | .ok bytes => (s.returns request bytes).mapError .raised

/-- What the call returns or raises, once it does. -/
def Call.result {ρ α : Type} (s : Store ρ α) (c : Call ρ) : Option (Except Failure α) :=
  match c.thread with
  | .error e => some (.error (.raised e))
  | .ok t =>
    match t.pc with
    | .done result => some (s.result c.request result)
    | _ => none

structure StoreWorld (ρ : Type) where
  files : Files
  calls : Nat → Option (Call ρ)
  /-- The random identifiers that have been drawn. -/
  nonces : List Uuid

def StoreWorld.empty {ρ : Type} : StoreWorld ρ := ⟨.empty, fun _ => none, []⟩

/-- The request puts nothing else. -/
def Store.Puts {ρ α : Type} (s : Store ρ α) (payloads : Set ByteArray) (request : ρ) : Prop :=
  ∀ file payload digest, s.starts request = .ok (.write file payload digest) → payload ∈ payloads

/-- What happens to the store. A random identifier is drawn once. -/
inductive StoreWorld.Step {ρ α : Type} (s : Store ρ α) (sha256 : ByteArray → String)
    (payloads : Set ByteArray) : Moves (StoreWorld ρ) (Event ρ α)
  | call {w : StoreWorld ρ} {pid : Nat} (request : ρ) (hfree : w.calls pid = none)
      (hputs : s.Puts payloads request) :
      Step s sha256 payloads w (some (.call pid request))
        { w with
          calls := Function.update w.calls pid
            (some ⟨request, (s.starts request).map Thread.start⟩) }
  | thread {w : StoreWorld ρ} {pid : Nat} {request : ρ} {t t' : Thread} {files : Files}
      (choice : Choice) (hcall : w.calls pid = some ⟨request, .ok t⟩)
      (hstep : t.step s sha256 w.files choice = some (files, t'))
      (hchoice : ∀ nonce, choice ≠ .nonce nonce) :
      Step s sha256 payloads w none
        ⟨files, Function.update w.calls pid (some ⟨request, .ok t'⟩), w.nonces⟩
  | draw {w : StoreWorld ρ} {pid : Nat} {request : ρ} {t t' : Thread} {files : Files}
      (nonce : Uuid) (hcall : w.calls pid = some ⟨request, .ok t⟩)
      (hstep : t.step s sha256 w.files (.nonce nonce) = some (files, t'))
      (hfresh : nonce ∉ w.nonces) :
      Step s sha256 payloads w none
        ⟨files, Function.update w.calls pid (some ⟨request, .ok t'⟩), nonce :: w.nonces⟩
  | ret {w : StoreWorld ρ} {pid : Nat} {c : Call ρ} {result : Except Failure α}
      (hcall : w.calls pid = some c) (hresult : c.result s = some result) :
      Step s sha256 payloads w (some (.ret pid result))
        { w with calls := Function.update w.calls pid none }
  | kill {w : StoreWorld ρ} (pids : List Nat) :
      Step s sha256 payloads w (some (.kill pids)) { w with calls := without pids w.calls }
  | powerLoss {w : StoreWorld ρ} {files : Files} (h : w.files.Loses files) :
      Step s sha256 payloads w (some .powerLoss) ⟨files, fun _ => none, w.nonces⟩

/-- What can be made to happen. -/
inductive Act (ρ : Type)
  | call (pid : Nat) (request : ρ)
  | thread (pid : Nat) (choice : Choice)
  | ret (pid : Nat)
  | kill (pids : List Nat)

/-- A step other than a loss of power: what is seen of it, and what it leads to. -/
def StoreWorld.act {ρ α : Type} (s : Store ρ α) (sha256 : ByteArray → String) (w : StoreWorld ρ) :
    Act ρ → Option (Option (Event ρ α) × StoreWorld ρ)
  | .call pid request =>
    if (w.calls pid).isSome then none
    else some (some (.call pid request), { w with
      calls := Function.update w.calls pid
        (some ⟨request, (s.starts request).map Thread.start⟩) })
  | .thread pid choice =>
    match w.calls pid with
    | some ⟨request, .ok t⟩ =>
      match t.step s sha256 w.files choice with
      | none => none
      | some (files, t') =>
        let calls := Function.update w.calls pid (some ⟨request, .ok t'⟩)
        match choice with
        | .nonce nonce =>
          if nonce ∈ w.nonces then none else some (none, ⟨files, calls, nonce :: w.nonces⟩)
        | _ => some (none, ⟨files, calls, w.nonces⟩)
    | _ => none
  | .ret pid =>
    match w.calls pid with
    | none => none
    | some c => (c.result s).map fun result =>
      (some (.ret pid result), { w with calls := Function.update w.calls pid none })
  | .kill pids => some (some (.kill pids), { w with calls := without pids w.calls })

/-- One step after the other; the events are those seen. -/
def StoreWorld.execute {ρ α : Type} (s : Store ρ α) (sha256 : ByteArray → String)
    (w : StoreWorld ρ) : List (Act ρ) → Option (List (Event ρ α) × StoreWorld ρ)
  | [] => some ([], w)
  | act :: acts => do
    let (event, w') ← w.act s sha256 act
    let (events, w'') ← w'.execute s sha256 acts
    some (event.toList ++ events, w'')

/-! ## What the methods promise -/

/-- A method as one step on the disk. -/
def Store.perform {ρ α : Type} (s : Store ρ α) (sha256 : ByteArray → String) (request : ρ) :
    Method Exn Disk α := do
  match ← .ofExcept (s.starts request) with
  | .write file payload digest =>
    let disk ← get
    if (disk.files file).isSome then
      let existing ← LocalArtifactStore.readBytes file
      .require (existing.map sha256 = some digest) s.existingCorrupted
    else
      modify fun disk => { disk with
        files := fun other => if other = file then some payload else disk.files other }
    .ofExcept (s.returns request payload)
  | .read file digest =>
    match ← LocalArtifactStore.readBytes file with
    | none => throw s.notFound
    | some payload => do
      .require (sha256 payload = digest) s.readCorrupted
      .ofExcept (s.returns request payload)

/-- A call that is waiting for its step, or has taken it. -/
structure Pending (ρ α : Type) where
  request : ρ
  decision : Option (Except Failure α)

/-- A store whose methods take one step. -/
structure AtomicStore (ρ α : Type) where
  disk : Disk
  calls : Nat → Option (Pending ρ α)

def AtomicStore.empty {ρ α : Type} : AtomicStore ρ α := ⟨⟨fun _ => none, []⟩, fun _ => none⟩

/-- A call takes its one step at some time between its start and its end. A method that comes to the
files may raise an `OSError` instead, before this step or after; a loss of power takes files away and
leaves the others as they are. -/
inductive AtomicStore.Step {ρ α : Type} (s : Store ρ α) (sha256 : ByteArray → String)
    (payloads : Set ByteArray) : Moves (AtomicStore ρ α) (Event ρ α)
  | call {a : AtomicStore ρ α} {pid : Nat} (request : ρ) (hfree : a.calls pid = none)
      (hputs : s.Puts payloads request) :
      Step s sha256 payloads a (some (.call pid request))
        { a with calls := Function.update a.calls pid (some ⟨request, none⟩) }
  | perform {a : AtomicStore ρ α} {pid : Nat} {request : ρ}
      (hcall : a.calls pid = some ⟨request, none⟩) :
      Step s sha256 payloads a none
        { disk := ((s.perform sha256 request).call a.disk).2
          calls := Function.update a.calls pid
            (some ⟨request, some (((s.perform sha256 request).call a.disk).1.mapError .raised)⟩) }
  | fail {a : AtomicStore ρ α} {pid : Nat} {p : Pending ρ α} {call : FileCall}
      (hcall : a.calls pid = some p) (hstarts : s.starts p.request = .ok call) :
      Step s sha256 payloads a none
        { a with calls := Function.update a.calls pid (some ⟨p.request, some (.error .osError)⟩) }
  | ret {a : AtomicStore ρ α} {pid : Nat} {request : ρ} {result : Except Failure α}
      (hcall : a.calls pid = some ⟨request, some result⟩) :
      Step s sha256 payloads a (some (.ret pid result))
        { a with calls := Function.update a.calls pid none }
  | kill {a : AtomicStore ρ α} (pids : List Nat) :
      Step s sha256 payloads a (some (.kill pids)) { a with calls := without pids a.calls }
  | powerLoss {a : AtomicStore ρ α} {disk : Disk}
      (h : ∀ file, disk.files file = a.disk.files file ∨ disk.files file = none) :
      Step s sha256 payloads a (some .powerLoss) ⟨disk, fun _ => none⟩

end Sana.Storage
