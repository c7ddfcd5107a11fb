import Sana.Lib.Dict
import Sana.Lib.PyText

/-!
# Redaction of diagnostics

`TelemetryRedactor.diagnostic_payload` goes through a payload. A value under a name of the allowlists
is gone through in turn, any other is replaced; strings stay only if they are short tokens.
-/

namespace Sana.Telemetry

open Lib

/-- A diagnostic payload; its floats are of type `φ`. -/
inductive Payload (φ : Type) where
  | none
  | bool (b : Bool)
  | int (n : Int)
  | float (x : φ)
  | str (s : PyStr)
  /-- A list or a tuple. -/
  | list (items : List (Payload φ))
  | mapping (members : List (PyStr × Payload φ))
  /-- An object of another type. -/
  | other (typeName : PyStr)

/-- `_DIAGNOSTIC_CONTAINER_KEYS`. -/
def diagnosticContainerKeys : List String :=
  ["metrics", "baseline", "candidate", "delta", "coverage", "usage"]

/-- `_DIAGNOSTIC_VALUE_KEYS`. -/
def diagnosticValueKeys : List String :=
  ["mode", "status", "stop_reason", "answer_quality", "policy_version", "provider", "model", "role",
    "error_type", "error_code", "reason_codes", "latency_ms", "duration_ms", "count", "total", "open",
    "covered", "verified", "partial", "ratio", "cost_usd", "upgraded", "plan_revision",
    "covered_facts", "total_facts", "citation_traceability", "query_pollution_count"]

/-- The names under which values are kept. -/
def allowlist : List PyStr :=
  (diagnosticContainerKeys ++ diagnosticValueKeys).map PyStr.ofString

local instance lawfulBEqKey : LawfulBEq PyStr := inferInstance

/-- `str(raw_key)[:128]`. -/
def diagnosticKey (rawKey : PyStr) : PyStr := rawKey.take 128

def redacted {φ : Type} : Payload φ := .str (PyStr.ofString "[REDACTED]")

def truncated {φ : Type} : Payload φ := .str (PyStr.ofString "[TRUNCATED]")

variable {φ : Type}

-- `\w` of Unicode's tables, for patterns of strings
variable (isWord : Char → Bool)

/-- `_SAFE_STRING` matches the whole string. -/
def isSafe (s : PyStr) : Bool :=
  1 ≤ s.length && s.length ≤ 128 && s.all fun
    | .scalar c => isWord c || c ∈ ['.', '/', ':', '@', '+', '-']
    | .lone _ => false

mutual

/-- `diagnostic_payload`. -/
def diagnosticPayload (depth : Nat) (value : Payload φ) : Payload φ :=
  if depth > 5 then truncated
  else match value with
    | .mapping members => .mapping (diagnosticMembers depth [] members)
    | .list items => .list ((diagnosticItems depth items).take 50)
    | .str s => if isSafe isWord s then .str s else redacted
    | .none => .none
    | .bool b => .bool b
    | .int n => .int n
    | .float x => .float x
    | .other typeName => .str (.scalar '<' :: (typeName ++ [.scalar '>']))

def diagnosticItems (depth : Nat) : List (Payload φ) → List (Payload φ)
  | [] => []
  | item :: items => diagnosticPayload (depth + 1) item :: diagnosticItems depth items

/-- The loop over a mapping, with what `result` holds so far. -/
def diagnosticMembers (depth : Nat) (result : List (PyStr × Payload φ)) :
    List (PyStr × Payload φ) → List (PyStr × Payload φ)
  | [] => result
  | (rawKey, item) :: members =>
      let key := diagnosticKey rawKey
      -- a name that looks sensitive is replaced like any other
      diagnosticMembers depth
        (Dict.set key (if key ∈ allowlist then diagnosticPayload (depth + 1) item else redacted)
          result) members

end

end Sana.Telemetry
