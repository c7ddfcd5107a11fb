import Mathlib.Data.Rat.Defs
import Mathlib.Algebra.Order.Ring.Rat
import Mathlib.Algebra.Order.Field.Power
import Sana.Orchestration.Aggregate
import Sana.Evidence.Domain

/-!
# Shadow manifests

A manifest is a list of cases: what is asked, in which mode and language, and what is known
of the answer. A case and its gold assertions check themselves when they are built. The
manifest as a whole has a fixed distribution: forty cases, ten for every mode and language,
and enough of them answerable, deterministic, unanswerable and short.
-/

namespace Sana.Shadow.Manifest

open Sana.Lib Orchestration Evidence

/-! ## Values -/

/-- A finite `Decimal`, as it is written: `coefficient * 10 ** exponent`. -/
structure Decimal where
  coefficient : Int
  exponent : Int
deriving DecidableEq, Repr

/-- The number a `Decimal` is. -/
def Decimal.value (d : Decimal) : Rat := d.coefficient * (10 : Rat) ^ d.exponent

/-- `CaseCategory`. -/
inductive CaseCategory
  | version | background | comparison | multiFact | conflict | noAnswer | providerResilience
  | pollutionRegression
deriving DecidableEq, Repr

def CaseCategory.value : CaseCategory → String
  | .version => "version"
  | .background => "background"
  | .comparison => "comparison"
  | .multiFact => "multi_fact"
  | .conflict => "conflict"
  | .noAnswer => "no_answer"
  | .providerResilience => "provider_resilience"
  | .pollutionRegression => "pollution_regression"

/-- `Answerability`. -/
inductive Answerability
  | answerable | intentionallyUnanswerable
deriving DecidableEq, Repr

def Answerability.value : Answerability → String
  | .answerable => "answerable"
  | .intentionallyUnanswerable => "intentionally_unanswerable"

/-- `OracleType`. -/
inductive OracleType
  | deterministic | manualRequired | notApplicable
deriving DecidableEq, Repr

def OracleType.value : OracleType → String
  | .deterministic => "deterministic"
  | .manualRequired => "manual_required"
  | .notApplicable => "not_applicable"

/-! ## Gold assertions -/

/-- What `normalized_equals` compares with. -/
inductive Scalar
  | text (value : String)
  | int (value : Int)
  | decimal (value : Decimal)
deriving DecidableEq, Repr

/-- An operator of `ALLOWED_OPERATORS` and what it expects. -/
inductive Expectation
  | normalizedContainsAll (items : List String)
  | normalizedEquals (value : Scalar)
  | numberInRange (minimum maximum : Decimal)
  | setContains (items : List String)
  | sourceClassAtLeast (authority : SourceAuthority)
deriving DecidableEq, Repr

def Expectation.operator : Expectation → String
  | .normalizedContainsAll _ => "normalized_contains_all"
  | .normalizedEquals _ => "normalized_equals"
  | .numberInRange _ _ => "number_in_range"
  | .setContains _ => "set_contains"
  | .sourceClassAtLeast _ => "source_class_at_least"

/-- What an operator asks of what it expects. -/
def Expectation.check (e : Expectation) : Except Exn Unit :=
  match e with
  | .normalizedContainsAll items | .setContains items =>
      Lib.check (!items.isEmpty && items.all (!Text.isBlank ·))
        (.valueError (e.operator ++ " expects non-empty string values"))
  | .numberInRange minimum maximum =>
      Lib.check (minimum.value ≤ maximum.value) (.valueError "number range min cannot exceed max")
  | .normalizedEquals _ | .sourceClassAtLeast _ => .ok ()

/-- `GoldAssertion`, after `__post_init__`. -/
structure GoldAssertion where
  id : String
  expected : Expectation
  critical : Bool
  /-- The identifier was stripped. -/
  stripped : Text.strip id = id
  bounded : id ≠ "" ∧ id.length ≤ 100
  expected_ok : expected.check = .ok ()
deriving DecidableEq, Repr

/-! ## Cases -/

/-- A code point of a case ID; the first one is no mark. -/
def isIdChar (c : Char) : Bool :=
  ('a' ≤ c && c ≤ 'z') || ('0' ≤ c && c ≤ '9') || c = '.' || c = '_' || c = '-'

/-- `CASE_ID_PATTERN.fullmatch(id)`. -/
def isCaseId (id : String) : Bool :=
  match id.toList with
  | [] => false
  | c :: rest =>
      (('a' ≤ c && c ≤ 'z') || ('0' ≤ c && c ≤ '9')) && rest.all isIdChar && rest.length ≤ 79

/-- The fields of a `ShadowCase`; its moments are aware. -/
structure CaseFields where
  id : String
  prompt : String
  locale : String
  expectedMode : SearchMode
  category : CaseCategory
  answerability : Answerability
  minimumRequiredFacts : Int
  goldAssertions : List GoldAssertion
  oracleType : OracleType
  validFrom : Option Time
  validUntil : Option Time
  requiredSourceClasses : List SourceAuthority
  forbiddenQueryTerms : List String
  mustNotComplete : Bool
  tags : List String
  smoke : Bool
deriving DecidableEq, Repr

namespace CaseFields

variable (f : CaseFields)

def isAnswerable : Bool := f.answerability = .answerable

/-- A `ValueError` about the case. -/
def problem (rest : String) : Exn := .valueError ("Case " ++ f.id ++ rest)

/-- The checks of the oracle and its window. -/
def checkOracle : Except Exn Unit :=
  if f.oracleType = .deterministic then do
    check (f.isAnswerable && !f.goldAssertions.isEmpty)
      (f.problem " deterministic oracle requires assertions")
    match f.validFrom, f.validUntil with
    | some validFrom, some validUntil =>
        check (validFrom < validUntil) (f.problem " oracle window is invalid")
    | _, _ => throw (f.problem " deterministic oracle requires a window")
  else
    check (f.goldAssertions.isEmpty && f.validFrom.isNone && f.validUntil.isNone)
      (f.problem " non-deterministic oracle must not carry assertions")

/-- `__post_init__`. -/
def postInit : Except Exn Unit := do
  check (isCaseId f.id) (.valueError ("Invalid case ID: " ++ f.id))
  check (!Text.isBlank f.prompt && f.prompt.length ≤ 100000) (f.problem " prompt length is invalid")
  check (f.locale = "zh-CN" || f.locale = "en") (f.problem " locale is unsupported")
  check (1 ≤ f.minimumRequiredFacts && f.minimumRequiredFacts ≤ 50)
    (f.problem " minimum_required_facts is invalid")
  check (decide (f.goldAssertions.map (·.id)).Nodup) (f.problem " has duplicate gold assertion IDs")
  check ((f.forbiddenQueryTerms ++ f.tags).all (!Text.isBlank ·))
    (f.problem " contains empty terms or tags")
  check (f.mustNotComplete != f.isAnswerable) (f.problem " answerability/must_not_complete mismatch")
  f.checkOracle
  check (!(f.oracleType = .manualRequired && !f.isAnswerable))
    (f.problem " manual oracle must be answerable")
  check (!(f.oracleType = .notApplicable && f.isAnswerable))
    (f.problem " answerable oracle cannot be not_applicable")

end CaseFields

/-- `ShadowCase`. -/
structure ShadowCase extends CaseFields where
  valid : toCaseFields.postInit = .ok ()
deriving DecidableEq, Repr

def ShadowCase.make : CaseFields → Except Exn ShadowCase :=
  Aggregate.checked CaseFields.postInit ShadowCase.mk

/-- A mode and a language. -/
abbrev Stratum := SearchMode × String

def CaseFields.stratum (f : CaseFields) : Stratum := (f.expectedMode, f.locale)

/-! ## The manifest -/

/-- `ShadowManifest`. -/
structure ShadowManifest where
  version : String
  cases : List ShadowCase
  sha256 : String

/-- `smoke_cases`. -/
def ShadowManifest.smokeCases (m : ShadowManifest) : List ShadowCase := m.cases.filter (·.smoke)

/-- `_STRATA`. -/
def strata : List Stratum :=
  [(.fast, "zh-CN"), (.research, "zh-CN"), (.fast, "en"), (.research, "en")]

/-- The strata in the order in which reviews are selected and distributions are checked. -/
def stratumPairs : List Stratum :=
  [(.fast, "zh-CN"), (.fast, "en"), (.research, "zh-CN"), (.research, "en")]

/-- How a stratum is printed in a message. -/
def printStratum (s : Stratum) : String :=
  "(<SearchMode." ++ s.1.value ++ ": '" ++ s.1.value ++ "'>, '" ++ s.2 ++ "')"

/-- The checks of `_validate_distribution` for one stratum. -/
def checkStratum (cases : List ShadowCase) (s : Stratum) : Except Exn Unit := do
  check (5 ≤ cases.countP fun c => c.stratum = s && c.isAnswerable)
    (.valueError ("Stratum " ++ printStratum s ++ " must contain at least 5 answerable cases"))
  check (4 ≤ cases.countP fun c => c.stratum = s && c.oracleType = .deterministic)
    (.valueError ("Stratum " ++ printStratum s ++ " must contain at least 4 deterministic cases"))

/-- The window of a deterministic case covers the campaign. -/
def checkWindow (now : Time) (activeWindow : Duration) (c : ShadowCase) : Except Exn Unit :=
  check (c.oracleType ≠ .deterministic
      || (c.validFrom.all (· ≤ now) && c.validUntil.all (now + activeWindow ≤ ·)))
    (c.problem " oracle does not cover the active Campaign window")

/--
`_validate_distribution`. With ten cases in each of the four strata no other stratum is left
among forty.
-/
def validateDistribution (casefold : String → String) (cases : List ShadowCase) (now : Time)
    (activeWindow : Duration) : Except Exn Unit := do
  check (cases.length = 40) (.valueError "Shadow manifest must contain exactly 40 cases")
  check (decide (cases.map (·.id)).Nodup)
    (.valueError "Shadow manifest contains a duplicate case ID")
  check (cases.countP (·.expectedMode = .fast) = 20 && cases.countP (·.expectedMode = .research) = 20)
    (.valueError "Shadow manifest must contain 20 FAST and 20 RESEARCH cases")
  check (strata.all fun s => cases.countP (·.stratum = s) = 10)
    (.valueError "Each expected-mode/locale stratum must contain 10 cases")
  stratumPairs.forM (checkStratum cases)
  check (8 ≤ cases.countP fun c => !c.isAnswerable)
    (.valueError "Shadow manifest requires at least 8 unanswerable/conflict cases")
  check (6 ≤ cases.countP fun c => c.category = .pollutionRegression
      || (c.tags.map casefold).contains "apex")
    (.valueError "Shadow manifest requires at least 6 Apex/pollution cases")
  let smoke := cases.filter (·.smoke)
  check (smoke.length = 6) (.valueError "Shadow manifest must contain exactly 6 smoke cases")
  check (smoke.countP (·.expectedMode = .fast) = 3 && smoke.countP (·.expectedMode = .research) = 3)
    (.valueError "Smoke cases must contain 3 FAST and 3 RESEARCH cases")
  check (smoke.any fun c => !c.isAnswerable)
    (.valueError "Smoke cases require an intentionally unanswerable case")
  cases.forM (checkWindow now activeWindow)

end Sana.Shadow.Manifest
