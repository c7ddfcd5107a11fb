import Sana.Lib.JsonText
import Sana.Lib.Lines
import Sana.Shadow.Manifest

/-!
# Manifest files

A manifest is read from a JSONL file: every line that is not blank is one case, with exactly
the fields a case has. A case goes back into a file as one compact line of JSON that keeps
what is not ASCII.
-/

namespace Sana.Shadow.Manifest

open Sana.Lib Orchestration Evidence
open Lib.JsonText (Value Decoder numeral fraction intText dumps)
open Lib.Lines (splitLines join)

/-! ## Decimals -/

/-- A decimal is written as its coefficient and its exponent. -/
def Decimal.text (d : Decimal) : List Char := intText d.coefficient ++ 'E' :: intText d.exponent

/-- The number of digits with a sign in front. -/
def signedDigits (cs : List Char) : Int :=
  match cs with
  | '-' :: ds => -(Nat.ofDigitChars 10 ds 0 : Int)
  | '+' :: ds => Nat.ofDigitChars 10 ds 0
  | ds => Nat.ofDigitChars 10 ds 0

/-- `Decimal(token)` of a number token of JSON. -/
def Decimal.ofToken (cs : List Char) : Except Exn Decimal :=
  match numeral cs with
  | some (m, []) =>
      let point := (fraction m.tail).drop 1
      let exp := (Lib.JsonText.exponent (m.tail.drop (fraction m.tail).length)).drop 1
      let digits : Int := Nat.ofDigitChars 10 (m.whole ++ point) 0
      .ok ⟨if m.negative then -digits else digits, signedDigits exp - point.length⟩
  | _ => .error (.valueError "Invalid literal for Decimal")

/-! ## What the file is read with -/

/-- The standard library's conversions and digests that the parser calls. -/
structure FileBuiltins where
  /-- `text.casefold()`. -/
  casefold : String → String
  /-- `repr(value)`. -/
  repr : Value Decimal → String
  /-- `Decimal(text)`, `none` where it raises, and nothing inside where it is not finite. -/
  decimalOf : String → Option (Option Decimal)
  isoformat : Time → String
  /-- `datetime.fromisoformat(text)`: the instant, and whether it is aware. -/
  fromisoformat : String → Option (Time × Bool)
  /-- `hashlib.sha256(raw).hexdigest()`. -/
  sha256 : ByteArray → String

/-- `_CASE_FIELDS`. -/
def caseFields : List String :=
  ["manifest_version", "id", "prompt", "locale", "expected_mode", "category", "answerability",
    "minimum_required_facts", "gold_assertions", "oracle_type", "valid_from", "valid_until",
    "required_source_classes", "forbidden_query_terms", "must_not_complete", "tags", "smoke"]

/-- `_ASSERTION_FIELDS`. -/
def assertionFields : List String := ["id", "operator", "expected", "critical"]

/-- The member of an object that is known to have it. -/
def field (members : List (String × Value Decimal)) (name : String) : Value Decimal :=
  match members.find? (·.1 = name) with
  | some m => m.2
  | none => .null

/-- Any member of an enumeration, by its value. -/
def ofValue {α : Type} (b : FileBuiltins) (name : String) (all : List α) (value : α → String)
    (v : Value Decimal) : Except Exn α :=
  match v with
  | .str s =>
      match all.find? (value · = s) with
      | some a => .ok a
      | none => .error (.valueError (b.repr v ++ " is not a valid " ++ name))
  | _ => .error (.valueError (b.repr v ++ " is not a valid " ++ name))

/-- `SearchMode(value)`. -/
def modeOf (b : FileBuiltins) : Value Decimal → Except Exn SearchMode :=
  ofValue b "SearchMode" [.fast, .research] SearchMode.value

/-- `CaseCategory(value)`. -/
def categoryOf (b : FileBuiltins) : Value Decimal → Except Exn CaseCategory :=
  ofValue b "CaseCategory"
    [.version, .background, .comparison, .multiFact, .conflict, .noAnswer, .providerResilience,
      .pollutionRegression] CaseCategory.value

/-- `Answerability(value)`. -/
def answerabilityOf (b : FileBuiltins) : Value Decimal → Except Exn Answerability :=
  ofValue b "Answerability" [.answerable, .intentionallyUnanswerable] Answerability.value

/-- `OracleType(value)`. -/
def oracleTypeOf (b : FileBuiltins) : Value Decimal → Except Exn OracleType :=
  ofValue b "OracleType" [.deterministic, .manualRequired, .notApplicable] OracleType.value

/-- `SourceAuthority(value)`. -/
def authorityOf (b : FileBuiltins) : Value Decimal → Except Exn SourceAuthority :=
  ofValue b "SourceAuthority" [.official, .independent, .unknown] SourceAuthority.value

/-- The strings of an array of strings. -/
def strings? : Value Decimal → Option (List String)
  | .arr items => items.mapM fun v =>
      match v with
      | .str s => some s
      | _ => none
  | _ => none

/-- `_string_tuple`. -/
def stringTuple (v : Value Decimal) (name : String) : Except Exn (List String) :=
  match strings? v with
  | some items => .ok (items.map Text.strip)
  | none => .error (.valueError (name ++ " must be an array of strings"))

/-- `_parse_datetime`. -/
def parseDatetime (b : FileBuiltins) (v : Value Decimal) (name : String) :
    Except Exn (Option Time) :=
  match v with
  | .null => .ok none
  | .str s =>
      match b.fromisoformat (Text.replace s "Z" "+00:00") with
      | none => .error (.valueError (name ++ " must be an RFC3339 timestamp"))
      | some (t, aware) =>
          if aware then .ok (some t)
          else .error (.valueError (name ++ " must be timezone-aware"))
  | _ => .error (.valueError (name ++ " must be an RFC3339 string or null"))

/-! ## Assertions -/

/-- `_decimal`. -/
def decimalOf (b : FileBuiltins) (v : Value Decimal) (name : String) : Except Exn Decimal :=
  match v with
  | .real d => .ok d
  | .int n => .ok ⟨n, 0⟩
  | .str s =>
      match b.decimalOf s with
      | some (some d) => .ok d
      | some none => .error (.valueError (name ++ " must be finite"))
      | none => .error (.valueError (name ++ " must be numeric"))
  | _ => .error (.valueError (name ++ " must be numeric"))

/-- What `GoldAssertion` makes of an operator and what it expects. -/
def expectation (b : FileBuiltins) (operator : String) (expected : Value Decimal) :
    Except Exn Expectation :=
  if operator = "normalized_contains_all" ∨ operator = "set_contains" then
    match strings? expected with
    | some items =>
        .ok (if operator = "set_contains" then .setContains items else .normalizedContainsAll items)
    | none => .error (.valueError (operator ++ " expects non-empty string values"))
  else if operator = "normalized_equals" then
    match expected with
    | .str s => .ok (.normalizedEquals (.text s))
    | .int n => .ok (.normalizedEquals (.int n))
    | .real d => .ok (.normalizedEquals (.decimal d))
    | _ => .error (.valueError "normalized_equals expects a scalar value")
  else if operator = "number_in_range" then
    match expected with
    | .obj members =>
        if (members.map (·.1)).Perm ["min", "max"] then do
          let minimum ← decimalOf b (field members "min") "number range min"
          let maximum ← decimalOf b (field members "max") "number range max"
          return .numberInRange minimum maximum
        else .error (.valueError "number_in_range expects min and max")
    | _ => .error (.valueError "number_in_range expects min and max")
  else if operator = "source_class_at_least" then do
    let authority ← authorityOf b expected
    return .sourceClassAtLeast authority
  else .error (.valueError ("Unknown gold assertion operator: " ++ operator))

/-- `GoldAssertion`, with its constructor. -/
def GoldAssertion.make (b : FileBuiltins) (id operator : String) (expected : Value Decimal)
    (critical : Bool) : Except Exn GoldAssertion :=
  if hid : Text.strip id ≠ "" ∧ (Text.strip id).length ≤ 100 then
    match expectation b operator expected with
    | .error e => .error e
    | .ok expected =>
        match hok : expected.check with
        | .error e => .error e
        | .ok () => .ok ⟨Text.strip id, expected, critical, Text.strip_strip id, hid, hok⟩
  else .error (.valueError "Gold assertion ID must contain between 1 and 100 characters")

/-- An object has all the fields that are asked for, and no others. -/
def checkFields (b : FileBuiltins) (subject : String) (expected : List String)
    (members : List (String × Value Decimal)) : Except Exn Unit := do
  let names := members.map (·.1)
  let sorted (l : List String) := b.repr (.arr ((l.mergeSort fun x y => decide (x ≤ y)).map .str))
  check (names.all (· ∈ expected))
    (.valueError (subject ++ " has unknown fields: " ++ sorted (names.filter (· ∉ expected))))
  check (expected.all (· ∈ names))
    (.valueError (subject ++ " is missing fields: " ++ sorted (expected.filter (· ∉ names))))

/-- `_parse_assertion`. -/
def parseAssertion (b : FileBuiltins) (caseId : String) (v : Value Decimal) :
    Except Exn GoldAssertion :=
  match v with
  | .obj members => do
      checkFields b ("Case " ++ caseId ++ " gold assertion") assertionFields members
      match field members "id", field members "operator", field members "critical" with
      | .str id, .str operator, .bool critical =>
          GoldAssertion.make b id operator (field members "expected") critical
      | .str _, .str _, _ =>
          .error (.valueError ("Case " ++ caseId ++ " assertion critical must be boolean"))
      | _, _, _ =>
          .error (.valueError ("Case " ++ caseId ++ " assertion ID/operator must be strings"))
  | _ => .error (.valueError ("Case " ++ caseId ++ " gold assertion must be an object"))

/-! ## Cases -/

/-- A field that has to be a string. -/
def stringField (members : List (String × Value Decimal)) (name message : String) :
    Except Exn String :=
  match field members name with
  | .str s => .ok s
  | _ => .error (.valueError message)

/-- `_parse_case`: the version a line names, and its case. -/
def parseCase (b : FileBuiltins) (lineNumber : Nat) (v : Value Decimal) :
    Except Exn (String × ShadowCase) :=
  let line := "Manifest line " ++ toString lineNumber
  match v with
  | .obj members => do
      checkFields b line caseFields members
      let version ← stringField members "manifest_version" (line ++ " has invalid manifest_version")
      check (!Text.isBlank version) (.valueError (line ++ " has invalid manifest_version"))
      let id ← stringField members "id" (line ++ " case ID must be a string")
      let problem (rest : String) : Exn := .valueError ("Case " ++ id ++ rest)
      let prompt ← stringField members "prompt" ("Case " ++ id ++ " prompt must be a string")
      let locale ← stringField members "locale" ("Case " ++ id ++ " locale must be a string")
      match field members "minimum_required_facts", field members "gold_assertions",
          field members "must_not_complete", field members "smoke" with
      | .int minimumRequiredFacts, .arr assertions, .bool mustNotComplete, .bool smoke => do
          let goldAssertions ← assertions.mapM (parseAssertion b id)
          let expectedMode ← modeOf b (field members "expected_mode")
          let category ← categoryOf b (field members "category")
          let answerability ← answerabilityOf b (field members "answerability")
          let oracleType ← oracleTypeOf b (field members "oracle_type")
          let validFrom ← parseDatetime b (field members "valid_from")
            ("Case " ++ id ++ " valid_from")
          let validUntil ← parseDatetime b (field members "valid_until")
            ("Case " ++ id ++ " valid_until")
          let sources ← stringTuple (field members "required_source_classes")
            ("Case " ++ id ++ " required_source_classes")
          let requiredSourceClasses ← sources.mapM fun s => authorityOf b (.str s)
          let forbiddenQueryTerms ← stringTuple (field members "forbidden_query_terms")
            ("Case " ++ id ++ " forbidden_query_terms")
          let tags ← stringTuple (field members "tags") ("Case " ++ id ++ " tags")
          let c ← ShadowCase.make {
            id, prompt, locale, expectedMode, category, answerability, minimumRequiredFacts
            goldAssertions, oracleType, validFrom, validUntil, requiredSourceClasses
            forbiddenQueryTerms, mustNotComplete, tags, smoke }
          return (Text.strip version, c)
      | .int _, .arr _, _, _ => .error (problem " flags must be booleans")
      | .int _, _, _, _ => .error (problem " gold_assertions must be an array")
      | _, _, _, _ => .error (problem " minimum_required_facts must be an integer")
  | _ => .error (.valueError (line ++ " must be an object"))

/-! ## Files -/

/-- The first key that stands in front already. -/
def repeatedKey (keys : List String) : Option String :=
  (keys.zipIdx.find? fun x => x.1 ∈ keys.take x.2).map (·.1)

/-- `_strict_json_object`. -/
def strictJsonObject (pairs : List (String × Value Decimal)) :
    Except Exn (List (String × Value Decimal)) := do
  check (decide (pairs.map (·.1)).Nodup) (.valueError ("Manifest contains duplicate JSON key: "
    ++ (repeatedKey (pairs.map (·.1))).getD ""))
  return pairs

/-- How a line is decoded. -/
def decoder (lineNumber : Nat) : Decoder Exn Decimal where
  malformed := .valueError ("Manifest line " ++ toString lineNumber ++ " is invalid JSON")
  real := Decimal.ofToken
  constant := fun value => .error (.valueError ("Manifest contains non-finite JSON value: " ++ value))
  object := strictJsonObject

/-- The line has nothing on it. -/
def isBlankLine (line : List Char) : Bool := line.all Text.isSpace

/-- The loop over the lines, from a line number on. -/
def parseLines (b : FileBuiltins) : Nat → List (List Char) → Except Exn (List (String × ShadowCase))
  | _, [] => .ok []
  | n, line :: lines =>
      if isBlankLine line then parseLines b (n + 1) lines
      else do
        let value ← (decoder n).loads line
        let parsed ← parseCase b n value
        let rest ← parseLines b (n + 1) lines
        return parsed :: rest

/-- `parse_manifest_bytes`. -/
def parseManifestBytes (b : FileBuiltins) (raw : ByteArray) (now : Time) (activeWindow : Duration) :
    Except Exn ShadowManifest := do
  check (!raw.isEmpty) (.valueError "Shadow manifest is empty")
  match String.fromUTF8? raw with
  | none => .error (.valueError "Shadow manifest must be UTF-8")
  | some text => do
      let parsed ← parseLines b 1 (splitLines text.toList)
      match parsed with
      | [] => .error (.valueError "Shadow manifest is empty")
      | (version, _) :: _ => do
          check (parsed.all (·.1 = version))
            (.valueError "All manifest cases must use one manifest_version")
          let cases := parsed.map (·.2)
          validateDistribution b.casefold cases now activeWindow
          return ⟨version, cases, b.sha256 raw⟩

/-! ## Writing -/

/-- What a gold assertion expects, as it is written. -/
def Expectation.document : Expectation → Value Decimal
  | .normalizedContainsAll items | .setContains items => .arr (items.map .str)
  | .normalizedEquals (.text s) => .str s
  | .normalizedEquals (.int n) => .int n
  | .normalizedEquals (.decimal d) => .real d
  | .numberInRange minimum maximum => .obj [("min", .real minimum), ("max", .real maximum)]
  | .sourceClassAtLeast authority => .str authority.value

def GoldAssertion.document (a : GoldAssertion) : Value Decimal := .obj [
  ("id", .str a.id), ("operator", .str a.expected.operator), ("expected", a.expected.document),
  ("critical", .bool a.critical)]

/-- A moment, as it is written. -/
def momentDocument (b : FileBuiltins) : Option Time → Value Decimal
  | none => .null
  | some t => .str (b.isoformat t)

/-- The members of the object a case is written as. -/
def ShadowCase.members (b : FileBuiltins) (version : String) (c : ShadowCase) :
    List (String × Value Decimal) := [
  ("manifest_version", .str version),
  ("id", .str c.id),
  ("prompt", .str c.prompt),
  ("locale", .str c.locale),
  ("expected_mode", .str c.expectedMode.value),
  ("category", .str c.category.value),
  ("answerability", .str c.answerability.value),
  ("minimum_required_facts", .int c.minimumRequiredFacts),
  ("gold_assertions", .arr (c.goldAssertions.map (·.document))),
  ("oracle_type", .str c.oracleType.value),
  ("valid_from", momentDocument b c.validFrom),
  ("valid_until", momentDocument b c.validUntil),
  ("required_source_classes", .arr (c.requiredSourceClasses.map fun a => .str a.value)),
  ("forbidden_query_terms", .arr (c.forbiddenQueryTerms.map .str)),
  ("must_not_complete", .bool c.mustNotComplete),
  ("tags", .arr (c.tags.map .str)),
  ("smoke", .bool c.smoke)]

/-- The object a case is written as. -/
def ShadowCase.document (b : FileBuiltins) (version : String) (c : ShadowCase) : Value Decimal :=
  .obj (c.members b version)

/-- The line a case is written as. -/
def ShadowCase.line (b : FileBuiltins) (version : String) (c : ShadowCase) : List Char :=
  dumps Decimal.text (c.document b version)

/--
A manifest as a JSONL file. Its strings are Unicode texts: a string with an unpaired
surrogate could not be encoded.
-/
def manifestText (b : FileBuiltins) (version : String) (cases : List ShadowCase) : String :=
  String.ofList (join (cases.map (·.line b version)))

/-- The strings an assertion expects. -/
def Expectation.strings : Expectation → List String
  | .normalizedContainsAll items | .setContains items => items
  | .normalizedEquals (.text s) => [s]
  | .normalizedEquals (.int _) | .normalizedEquals (.decimal _) => []
  | .numberInRange _ _ | .sourceClassAtLeast _ => []

/-- The strings of a case. -/
def ShadowCase.strings (c : ShadowCase) : List String :=
  [c.id, c.prompt, c.locale] ++ c.goldAssertions.flatMap (fun a => a.id :: a.expected.strings)
    ++ c.forbiddenQueryTerms ++ c.tags

end Sana.Shadow.Manifest
