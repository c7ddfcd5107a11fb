import Sana.Lib.PyDumps
import Sana.Migration.Service
import Sana.Shared.Basic

/-!
# Reading a user profile

`UserProfileReader.parse` takes the name and three categories of preferences out of a profile. What
stands under a name that looks secret is skipped, and so are the categories of the old
configuration; for what is skipped only a digest is kept.
-/

namespace Sana.Migration

open Sana.Lib Lib.PyJson

/-- `_SAFE_CATEGORIES`, sorted. -/
def safeCategories : List String := ["gaming_preferences", "general_preferences", "relationships"]

/-- `_EXCLUDED_CATEGORIES`, sorted. -/
def excludedCategories : List String :=
  ["model_config", "official_sources", "search_history", "web_tool"]

/-- The pattern of `_SECRET_KEY`. -/
def secretKeyPattern : String := "(api.?key|token|secret|password|authorization)"

/-- What the reader uses of the standard library. -/
structure ProfileBuiltins (δ : Type) where
  /-- A pattern, with `re.I`, is found in a string. -/
  search : String → PyStr → Bool
  /-- `float.__repr__`. -/
  repr : δ → List Char
  /-- `hashlib.sha256(encoded).hexdigest()`. -/
  sha256 : ByteArray → String

/-- A `LegacyRecord` of a profile, whose texts need not be Unicode texts. -/
structure ProfileRecord where
  sourceId : PyStr
  kind : String
  content : Option PyStr
  sourceHash : String
  disposition : MigrationDisposition
  reason : String
  metadata : List (String × PyStr)
deriving DecidableEq, Repr

/-- `s.strip()`. -/
def stripPy (s : PyStr) : PyStr :=
  let isSpace : CodePoint → Bool
    | .scalar c => Text.isSpace c
    | .lone _ => false
  ((s.dropWhile isSpace).reverse.dropWhile isSpace).reverse

variable {δ : Type} (b : ProfileBuiltins δ)

namespace ProfileBuiltins

/-- The name matches `_SECRET_KEY`. -/
def Secret (key : PyStr) : Prop := b.search secretKeyPattern key = true

instance : DecidablePred b.Secret := fun _ => inferInstanceAs (Decidable (_ = _))

/-- `canonical_hash`, `none` where the text cannot be encoded. -/
def canonicalHash (v : PyJson δ) : Option String :=
  ((dumpsSorted b.repr .compact v).encode).map b.sha256

/-- `_record`; `none` where something to be digested cannot be encoded. -/
def record (sourceId : PyStr) (kind : String) (content : Option PyStr)
    (disposition : MigrationDisposition) (reason : String) (metadata : List (String × PyStr))
    (sourceValue : PyJson δ) : Option ProfileRecord := do
  let material : PyJson δ := match sourceValue with
    | .null => content.elim .null .str
    | value => value
  let sourceHash ← b.canonicalHash material
  return { sourceId, kind, content, sourceHash, disposition, reason, metadata }

/-- The record of the name. -/
def nameRecords (data : List (PyStr × PyJson δ)) : List (Option ProfileRecord) :=
  match data.lookup (PyStr.ofString "name") with
  | some (.str name) =>
      if stripPy name = [] then []
      else
        [b.record (PyStr.ofString "name") "profile_identity" (some (stripPy name)) .import_
          "recoverable_profile_identity" [("field", PyStr.ofString "name")] .null]
  | _ => []

/-- `json.dumps(value, ensure_ascii=False, sort_keys=True)`. -/
def content (value : PyJson δ) : PyStr := dumpsSorted b.repr .spaced value

/-- The record of one preference. -/
def preferenceRecord (category : String) (key : PyStr) (value : PyJson δ) : Option ProfileRecord :=
  let sourceId := PyStr.ofString category ++ (.scalar ':' :: key)
  if b.Secret key then do
    let keyHash ← b.canonicalHash (.str key)
    b.record sourceId "profile_preference" none .skip "excluded_secret"
      [("category", PyStr.ofString category), ("key_hash", PyStr.ofString keyHash)] value
  else
    b.record sourceId (if category = "relationships" then "relationship" else "preference")
      (some (b.content value)) .import_ "recoverable_profile_preference"
      [("category", PyStr.ofString category), ("key", key)] .null

/-- The records of one category. -/
def categoryRecords (category : String) : PyJson δ → List (Option ProfileRecord)
  | .obj values =>
      (rank (fun m => PyStr.order m.1) values).map fun (key, value) =>
        b.preferenceRecord category key value
  | values =>
      [b.record (PyStr.ofString category) "profile_preference" none .skip
        "invalid_preference_category" [("category", PyStr.ofString category)] values]

/-- The record of an excluded category, if the profile has it. -/
def excludedRecords (data : List (PyStr × PyJson δ)) (category : String) :
    List (Option ProfileRecord) :=
  match data.lookup (PyStr.ofString category) with
  | some value =>
      [b.record (PyStr.ofString category) "excluded_configuration" none .skip
        "excluded_configuration" [("category", PyStr.ofString category)] value]
  | none => []

/-- `data.get(category, {})`. -/
def preferences (data : List (PyStr × PyJson δ)) (category : String) : PyJson δ :=
  (data.lookup (PyStr.ofString category)).getD (.obj [])

/-- The records as they are made one after another. -/
def records (data : List (PyStr × PyJson δ)) : List (Option ProfileRecord) :=
  b.nameRecords data
    ++ safeCategories.flatMap (fun category => b.categoryRecords category (preferences data category))
    ++ excludedCategories.flatMap (b.excludedRecords data)

/-- `UserProfileReader.parse`; `none` where it raises `UnicodeEncodeError`. -/
def parse (data : List (PyStr × PyJson δ)) : Option (List ProfileRecord) := (b.records data).mapM id

end ProfileBuiltins

end Sana.Migration
