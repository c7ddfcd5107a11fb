import Sana.Evidence.ModelVerifier
import Sana.Shared.Words

/-!
# The registry of HTTP methods

`_deterministic_registry_boolean` accepts the registry's table for a fact that names a method and a
property, if the table has a row for the method. Which cells the row has does not matter to it. The
patterns are searched here as `re` does: from the left, with letters that `re.I` does not tell
apart. After `" ".join(quote.split())` every `\s+` is one blank.
-/

namespace Sana.Evidence

open Sana.Lib Sana.Planning

/-- What is used of Unicode's tables. -/
structure RegistryText where
  /-- `\w`. -/
  isWord : Char → Bool
  /-- `str.upper`. -/
  upper : String → String

/-- `url.split("#", 1)[0].split("?", 1)[0]`. -/
def urlBase (url : String) : String :=
  String.ofList ((url.toList.takeWhile (· ≠ '#')).takeWhile (· ≠ '?'))

/-- `[A-Za-z]`, with `re.I`. -/
def isLetter (c : Char) : Bool := 'a' ≤ ignoreCase c && ignoreCase c ≤ 'z'

/-- `[A-Z-]`, with `re.I`. -/
def isLetterOrDash (c : Char) : Bool := isLetter c || c == '-'

/-- The text starts with the word, with `re.I`. -/
def startsWithWord (word text : List Char) : Bool :=
  word.map ignoreCase == (text.take word.length).map ignoreCase

/-- `(?<![A-Za-z])(safe|idempotent)(?![A-Za-z])` at a place. -/
def propertyAt (text : List Char) (p : Nat) : Option (List Char) :=
  if (text.take p).getLast?.any isLetter then none
  else
    ["safe", "idempotent"].findSome? fun word =>
      if startsWithWord word.toList (text.drop p) &&
          !((text.drop (p + word.length)).head?.any isLetter) then
        some ((text.drop p).take word.length)
      else none

/-- The group of the first match of the property. -/
def propertyMatch (text : String) : Option String :=
  ((List.range (text.length + 1)).findSome? (propertyAt text.toList)).map String.ofList

section Method

variable (t : RegistryText)

/-- The longest `[A-Z][A-Z-]{1,20}` in front that ends at a word boundary. -/
def methodGroup : List Char → Option (List Char)
  | [] => none
  | c :: rest =>
      if !isLetter c then none
      else
        let run := (rest.takeWhile isLetterOrDash).take 20
        ((List.range run.length).reverse.find? fun n =>
          (((c :: rest).take (n + 2)).getLast?.any t.isWord) !=
            (((c :: rest).drop (n + 2)).head?.any t.isWord)).map fun n => (c :: rest).take (n + 2)

/-- `\bHTTP\s+([A-Z][A-Z-]{1,20})\b` at a place. -/
def methodAt (text : List Char) (p : Nat) : Option (List Char) :=
  if (text.take p).getLast?.any t.isWord || !startsWithWord "http".toList (text.drop p) then none
  else
    let rest := text.drop (p + 4)
    if (rest.takeWhile Text.isSpace).isEmpty then none
    else methodGroup t (rest.dropWhile Text.isSpace)

/-- The group of the first match of the method. -/
def methodMatch (text : String) : Option String :=
  ((List.range (text.length + 1)).findSome? (methodAt t text.toList)).map String.ofList

end Method

/-! ## The table -/

/-- `\s+` in front, and what is behind it. -/
def takeBlank : List Char → Option (List Char)
  | ' ' :: rest => some rest
  | _ => none

/-- A cell in front, `yes` or `no`, and what is behind it. -/
def takeCell (text : List Char) : Option (Bool × List Char) :=
  if startsWithWord "yes".toList text then some (true, text.drop 3)
  else if startsWithWord "no".toList text then some (false, text.drop 2)
  else none

/-- The cells of a row of the method at a place: safe, and idempotent. -/
def rowAt (method text : List Char) (p : Nat) : Option (Bool × Bool) :=
  if (text.take p).getLast?.any isLetterOrDash || !startsWithWord method (text.drop p) then none
  else do
    let rest ← takeBlank (text.drop (p + method.length))
    let (safe, rest) ← takeCell rest
    let rest ← takeBlank rest
    let (idempotent, rest) ← takeCell rest
    let rest ← takeBlank rest
    if rest.head? = some '[' then some (safe, idempotent) else none

/-- The columns of the table. -/
def tableHeader : List Char := "Method Name Safe Idempotent Reference".toList

/-- The first row of the method behind the header. -/
def registryRow (method compact : List Char) : Option (Bool × Bool) :=
  ((List.range (compact.length + 1)).find? fun p =>
    startsWithWord tableHeader (compact.drop p)).bind fun p =>
      (List.range (compact.length + 1)).findSome? fun q =>
        if p + tableHeader.length ≤ q then rowAt method compact q else none

/-! ## The adapter -/

section Adapter

variable (t : RegistryText)

/-- `fact_text`. -/
def registryFactText (fact : FactRequirement) : String :=
  fact.key ++ " " ++ fact.subject ++ " " ++ fact.description

/-- `method`: the method that a fact names. -/
def registryMethod (fact : FactRequirement) : Option String :=
  (methodMatch t (registryFactText fact)).map t.upper

/-- The cells of the method's row in a quote. -/
def registryCells (method quote : String) : Option (Bool × Bool) :=
  registryRow method.toList (Text.squeeze quote).toList

/-- `_deterministic_registry_boolean`. -/
def deterministicRegistryBoolean (candidate : SelectedCandidate) : Option ProposedVerification :=
  if candidate.sourceAuthority ≠ .official ∨ candidate.score < 4 / 5 ∨
      urlBase candidate.url ≠ "https://www.iana.org/assignments/http-methods/http-methods.xhtml" then
    none
  else
    match propertyMatch (registryFactText candidate.fact), registryMethod t candidate.fact with
    | some _, some method =>
        match registryCells method candidate.quote with
        | none => none
        | some _ => some {
            factId := candidate.factId
            candidateId := candidate.id
            supportType := .supports
            quote := candidate.quote
            confidence := 99 / 100
            reasonCodes := ["direct_support", "explicit_value"] }
    | _, _ => none

/-- The version that `_deterministic_proposal` gives to what this adapter accepts. -/
def registryVersion : String := "deterministic-registry-table-v1"

end Adapter

end Sana.Evidence
