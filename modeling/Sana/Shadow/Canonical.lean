import Mathlib.Logic.Relation
import Sana.Lib.Decimal
import Sana.Lib.PyRecord
import Sana.Lib.Ranking
import Sana.Orchestration.Aggregate

/-!
# Canonical snapshots

What decides provenance is hashed as JSON text: the keys of every mapping sorted, a set as
the array of its members in the order of their texts, and every leaf that JSON does not have
as a string. A value can also be frozen before; then its sets have become tuples. Not every
canonical value has a text: an integer may have too many digits, and a string may have a
surrogate on its own, which UTF-8 does not encode.
-/

namespace Sana.Shadow

open Sana.Lib Orchestration Aggregate

/-- A Python object, as far as the functions look at it; its floats are of type `φ`. -/
inductive PyValue (φ : Type)
  | none
  | bool (b : Bool)
  | int (n : Int)
  | float (x : φ)
  | decimal (d : Decimal)
  | str (s : PyStr)
  | strEnum (value : PyStr)
  | uuid (id : Uuid)
  | datetime (t : DateTime)
  | mapping (members : List (PyStr × PyValue φ))
  /-- A list or a tuple. -/
  | sequence (items : List (PyValue φ))
  /-- A set or a frozenset, in the order in which it is iterated. -/
  | set (items : List (PyValue φ))
  | dataclass (typeName : String) (fields : List (PyStr × PyValue φ))
  /-- An object of another type. -/
  | other (typeName : String)

/-- The standard library's conversions and digests that the functions call. -/
structure SnapshotBuiltins (φ : Type) where
  /-- `math.isfinite`. -/
  isFinite : φ → Bool
  /-- `float.__repr__`. -/
  repr : φ → List Char
  /-- `float`, as `json.loads` calls it. -/
  floats : PyJson.Floats φ
  /-- `value.astimezone(UTC).isoformat(timespec="auto").replace("+00:00", "Z")`. -/
  isoformat : Time → String
  /-- `hashlib.sha256(raw).hexdigest()`. -/
  sha256 : ByteArray → String

variable {φ : Type}

/-! ## Writing -/

/-- `str(n)` refuses an integer of more than 4300 digits, the limit that is set by default. -/
def isPrintable (n : Int) : Bool := n.natAbs < 10 ^ 4300

mutual

/-- Every integer in a JSON value, at any depth, can be written. -/
def printable : PyJson φ → Bool
  | .int n => isPrintable n
  | .arr items => printableItems items
  | .obj members => printableMembers members
  | .null | .bool _ | .real _ | .str _ => true

def printableItems : List (PyJson φ) → Bool
  | [] => true
  | v :: vs => printable v && printableItems vs

def printableMembers : List (PyStr × PyJson φ) → Bool
  | [] => true
  | (_, v) :: ms => printable v && printableMembers ms

end

/-- `sorted(items, key=key)`: every key is computed before anything is compared. -/
def sortedBy {α : Type} (key : α → Except Exn (List Nat)) (items : List α) :
    Except Exn (List α) := do
  let keyed ← items.mapM fun item => do return (← key item, item)
  return (rank (·.1) keyed).map (·.2)

namespace SnapshotBuiltins

variable (b : SnapshotBuiltins φ)

/-- `json.dumps(v, ensure_ascii=False, sort_keys=True, separators=(",", ":"), allow_nan=False)`. -/
def jsonText (v : PyJson φ) : Except Exn PyStr :=
  if printable v then .ok (PyJson.dumpsSorted b.repr .compact v)
  else .error (.valueError "Exceeds the limit (4300 digits) for integer string conversion")

mutual

/-- `_canonical_value`. -/
def canonicalValue : PyValue φ → Except Exn (PyJson φ)
  | .strEnum value => .ok (.str value)
  | .decimal d =>
      if d.isFinite then .ok (.str (PyStr.ascii d.format))
      else .error (.valueError "Decimal values must be finite")
  | .datetime t =>
      if t.aware then .ok (PyJson.text (b.isoformat t.instant))
      else .error (.valueError "canonical datetime must be timezone-aware")
  | .uuid id => .ok (PyJson.text id.str)
  | .float x =>
      if b.isFinite x then .ok (.real x) else .error (.valueError "Float values must be finite")
  | .dataclass _ fields => do return .obj (← canonicalMembers fields)
  | .mapping members => do return .obj (← canonicalMembers members)
  | .sequence items => do return .arr (← canonicalItems items)
  | .set items => do
      let normalized ← canonicalItems items
      return .arr (← sortedBy (fun item => do return PyStr.order (← b.jsonText item)) normalized)
  | .none => .ok .null
  | .str s => .ok (.str s)
  | .bool x => .ok (.bool x)
  | .int n => .ok (.int n)
  | .other typeName => .error (.valueError ("Unsupported canonical value type: " ++ typeName))

/-- The canonical values of items. -/
def canonicalItems : List (PyValue φ) → Except Exn (List (PyJson φ))
  | [] => .ok []
  | v :: vs => do
      let w ← canonicalValue v
      let ws ← canonicalItems vs
      return w :: ws

/-- The canonical values of members. -/
def canonicalMembers : List (PyStr × PyValue φ) → Except Exn (List (PyStr × PyJson φ))
  | [] => .ok []
  | (k, v) :: ms => do
      let w ← canonicalValue v
      let ws ← canonicalMembers ms
      return (k, w) :: ws

end

/-- `canonical_json_bytes`. -/
def canonicalJsonBytes (v : PyValue φ) : Except Exn ByteArray := do
  let normalized ← b.canonicalValue v
  let text ← b.jsonText normalized
  match text.encode with
  | some raw => .ok raw
  | none => .error (.valueError "surrogates not allowed")

/-- `snapshot_hash`. -/
def snapshotHash (v : PyValue φ) : Except Exn String := do
  return b.sha256 (← b.canonicalJsonBytes v)

end SnapshotBuiltins

/-! ## Reading back -/

mutual

/-- What `json.loads` makes of a JSON value. -/
def PyValue.ofJson : PyJson φ → PyValue φ
  | .null => .none
  | .bool b => .bool b
  | .int n => .int n
  | .real x => .float x
  | .str s => .str s
  | .arr items => .sequence (ofJsonItems items)
  | .obj members => .mapping (ofJsonMembers members)

/-- What it makes of the items of an array. -/
def ofJsonItems : List (PyJson φ) → List (PyValue φ)
  | [] => []
  | v :: vs => PyValue.ofJson v :: ofJsonItems vs

/-- What it makes of the members of an object. -/
def ofJsonMembers : List (PyStr × PyJson φ) → List (PyStr × PyValue φ)
  | [] => []
  | (k, v) :: ms => (k, PyValue.ofJson v) :: ofJsonMembers ms

end

namespace SnapshotBuiltins

variable (b : SnapshotBuiltins φ)

/--
`canonical_snapshot`. The limit on digits is also one of `json.loads`, and a text that was written
keeps it.
-/
def canonicalSnapshot (v : PyValue φ) : Except Exn (PyValue φ) := do
  let raw ← b.canonicalJsonBytes v
  match String.fromUTF8? raw with
  | some text =>
      match PyJson.loads b.floats text.toList with
      | some loaded => .ok (.ofJson loaded)
      | none => .error (.valueError "JSONDecodeError")
  | none => .error (.valueError "UnicodeDecodeError")

/-! ## Freezing -/

mutual

/-- `freeze_json`. -/
def freezeJson : PyValue φ → Except Exn (PyValue φ)
  | .mapping members => do return .mapping (← freezeMembers members)
  | .sequence items => do return .sequence (← freezeItems items)
  | .set items => do
      let frozen ← freezeItems items
      return .sequence
        (← sortedBy (fun item => do return Utf8.order (← b.canonicalJsonBytes item)) frozen)
  | .dataclass typeName _ | .other typeName =>
      .error (.valueError ("Unsupported canonical value type: " ++ typeName))
  | v => .ok v

/-- The frozen items. -/
def freezeItems : List (PyValue φ) → Except Exn (List (PyValue φ))
  | [] => .ok []
  | v :: vs => do
      let w ← freezeJson v
      let ws ← freezeItems vs
      return w :: ws

/-- The frozen members. -/
def freezeMembers : List (PyStr × PyValue φ) → Except Exn (List (PyStr × PyValue φ))
  | [] => .ok []
  | (k, v) :: ms => do
      let w ← freezeJson v
      let ws ← freezeMembers ms
      return (k, w) :: ws

end

end SnapshotBuiltins

/-! ## Order -/

mutual

/-- No mapping in a value has a key twice. -/
def PyValue.Distinct : PyValue φ → Prop
  | .mapping members | .dataclass _ members => (members.map (·.1)).Nodup ∧ DistinctEntries members
  | .sequence items | .set items => DistinctElements items
  | _ => True

/-- No mapping in any of the items has a key twice. -/
def DistinctElements : List (PyValue φ) → Prop
  | [] => True
  | v :: vs => v.Distinct ∧ DistinctElements vs

/-- No mapping in any of the members has a key twice. -/
def DistinctEntries : List (PyStr × PyValue φ) → Prop
  | [] => True
  | (_, v) :: ms => v.Distinct ∧ DistinctEntries ms

end

/--
One mapping in a value is given with its members in another order, or one set is iterated in
another order.
-/
inductive Reorders : PyValue φ → PyValue φ → Prop
  | members {ms ms' : List (PyStr × PyValue φ)} (h : ms.Perm ms') :
      Reorders (.mapping ms) (.mapping ms')
  | elements {vs vs' : List (PyValue φ)} (h : vs.Perm vs') : Reorders (.set vs) (.set vs')
  | inMember (before after : List (PyStr × PyValue φ)) (k : PyStr) {v v' : PyValue φ}
      (h : Reorders v v') :
      Reorders (.mapping (before ++ (k, v) :: after)) (.mapping (before ++ (k, v') :: after))
  | inItem (before after : List (PyValue φ)) {v v' : PyValue φ} (h : Reorders v v') :
      Reorders (.sequence (before ++ v :: after)) (.sequence (before ++ v' :: after))
  | inElement (before after : List (PyValue φ)) {v v' : PyValue φ} (h : Reorders v v') :
      Reorders (.set (before ++ v :: after)) (.set (before ++ v' :: after))

/-- Values that differ in the order of members and elements only. -/
abbrev Reordered : PyValue φ → PyValue φ → Prop := Relation.ReflTransGen Reorders

end Sana.Shadow
