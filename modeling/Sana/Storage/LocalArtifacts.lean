import Sana.Lib.PyRecord
import Sana.Lib.Url
import Sana.Orchestration.Aggregate

/-!
# The artifact store

`LocalArtifactStore` keeps payloads in files that are named by the digests of what is in them, under
the tenant and the run. A reference says all three, and whoever reads by it must be the tenant.
-/

namespace Sana.Storage

open Sana.Lib

open Orchestration.Aggregate (ArtifactRef)

/-- The files under the root. -/
structure Disk where
  files : List String → Option ByteArray
  /-- Which files were looked into; the code does not see this. -/
  reads : List (List String)

/-- What the store calls. -/
structure StoreBuiltins (δ : Type) where
  /-- `hashlib.sha256(payload).hexdigest()`. -/
  sha256 : ByteArray → String
  checks : Url.Checks
  floats : PyJson.Floats δ
  /-- `repr` of a float. -/
  repr : δ → List Char

namespace LocalArtifactStore

variable {δ : Type} (b : StoreBuiltins δ)

/-- A `TypedError` about what is stored. -/
def contentError (code message : String) : Exn := .typed ⟨.content, code, message, false⟩

def tenantMismatch : Exn := .typed ⟨.permanent, "artifact_tenant_mismatch",
  "Artifact does not belong to the active tenant", false⟩

/-- `_path`, below the root. -/
def path (tenantId runId : Uuid) (digest : String) : List String :=
  [tenantId.str, runId.str, String.ofList (digest.toList.take 2), digest]

/-- `_uri`. -/
def uri (tenantId runId : Uuid) (digest : String) : String :=
  "artifact://" ++ tenantId.str ++ "/" ++ runId.str ++ "/" ++ digest

/-- `_parse`. Parameters of a path are split off only for other schemes, which are refused. -/
def parse (reference : ArtifactRef) : Except Exn (Uuid × Uuid × String) :=
  match Url.urlsplit b.checks reference.uri.toList with
  | none => .error (.valueError "Invalid URL")
  | some parsed =>
    match (parsed.path.splitOn '/').filter (· ≠ []) with
    | [run, digest] =>
      if parsed.scheme ≠ "artifact".toList then
        .error (contentError "invalid_artifact_uri" "Artifact reference URI is invalid")
      else
        match Uuid.parse (String.ofList parsed.netloc), Uuid.parse (String.ofList run) with
        | some tenantId, some runId =>
          if String.ofList digest ≠ reference.sha256 then
            .error (contentError "artifact_digest_mismatch" "Artifact URI and digest do not match")
          else .ok (tenantId, runId, String.ofList digest)
        | _, _ => .error (contentError "invalid_artifact_uri" "Artifact reference identity is invalid")
    | _ => .error (contentError "invalid_artifact_uri" "Artifact reference URI is invalid")

/-- `path.read_bytes()`, `none` where there is no file. -/
def readBytes (file : List String) : Method Exn Disk (Option ByteArray) := do
  let disk ← get
  modify fun disk => { disk with reads := file :: disk.reads }
  return disk.files file

/-- `_write_atomic`: a file that is there already is only checked. -/
def writeAtomic (file : List String) (payload : ByteArray) (digest : String) :
    Method Exn Disk Unit := do
  let disk ← get
  if (disk.files file).isSome then
    let existing ← readBytes file
    .require (existing.map b.sha256 = some digest)
      (contentError "artifact_corrupted" "Existing artifact failed its content hash check")
  else
    modify fun disk => { disk with
      files := fun other => if other = file then some payload else disk.files other }

/-- `put_bytes`. -/
def putBytes (tenantId runId : Uuid) (payload : ByteArray) : Method Exn Disk ArtifactRef := do
  .require (payload.size ≠ 0) (.valueError "Artifact payload must be non-empty bytes")
  let digest := b.sha256 payload
  writeAtomic b (path tenantId runId digest) payload digest
  .ofExcept (ArtifactRef.make (uri tenantId runId digest) digest)

/-- `get_bytes`. -/
def getBytes (tenantId : Uuid) (reference : ArtifactRef) : Method Exn Disk ByteArray := do
  let (referenceTenant, runId, digest) ← .ofExcept (parse b reference)
  .require (referenceTenant = tenantId) tenantMismatch
  match ← readBytes (path referenceTenant runId digest) with
  | none => throw (.typed
      ⟨.content, "artifact_not_found", "Artifact payload is unavailable", true⟩)
  | some payload => do
    .require (b.sha256 payload = digest)
      (contentError "artifact_corrupted" "Artifact failed its content hash check")
    return payload

/-- The payload of a value; `none` for a `UnicodeEncodeError`. -/
def encoded (payload : PyJson δ) : Option ByteArray := (payload.dumpsSorted b.repr .compact).encode

/-- `put_json`. -/
def putJson (tenantId runId : Uuid) (payload : PyJson δ) : Method Exn Disk ArtifactRef :=
  match encoded b payload with
  | none => throw (.valueError "'utf-8' codec can't encode characters: surrogates not allowed")
  | some bytes => putBytes b tenantId runId bytes

/-- `get_json`. -/
def getJson (tenantId : Uuid) (reference : ArtifactRef) : Method Exn Disk (PyJson δ) := do
  let payload ← getBytes b tenantId reference
  match (String.fromUTF8? payload).bind fun text => PyJson.loads b.floats text.toList with
  | none => throw (contentError "artifact_json_invalid" "Artifact is not valid UTF-8 JSON")
  | some value => return value

end LocalArtifactStore

open LocalArtifactStore

/-- What happens on the disk: any tenant writes a payload of `payloads`, or reads by any reference. -/
inductive Disk.Step {δ : Type} (b : StoreBuiltins δ) (payloads : Set ByteArray) :
    Disk → Disk → Prop
  | put (tenantId runId : Uuid) {payload : ByteArray} (h : payload ∈ payloads) (disk : Disk) :
      Step b payloads disk ((putBytes b tenantId runId payload).call disk).2
  | get (tenantId : Uuid) (reference : ArtifactRef) (disk : Disk) :
      Step b payloads disk ((getBytes b tenantId reference).call disk).2

/-- A disk without files. -/
def Disk.Empty (disk : Disk) : Prop := ∀ file, disk.files file = none

end Sana.Storage
