import Sana.Answer.Domain
import Sana.Evidence.Registry

/-!
# Sentences of the fallback

`_derived_fallback_text` puts what a reviewed adapter accepted into a sentence. It goes by the
version that the adapter left on the evidence and by words of the fact. What the patterns find is
left to `re`.
-/

namespace Sana.Answer

open Sana.Lib Sana.Evidence Sana.Planning

/-- What is used of `re` and of Unicode's tables. -/
structure FallbackPatterns where
  casefold : String → String
  /-- The groups of `Type name:\s*([A-Za-z0-9.+-]+).*?Subtype name:\s*([A-Za-z0-9.+-]+)`. -/
  mediaType : String → Option (String × String)
  /-- The groups of `\bTLS\s*(\d)\.(\d)\b`. -/
  tlsVersion : String → Option (String × String)
  /-- The group of `/rfc/rfc(\d+)(?:[./]|$)` in a URL. -/
  rfcNumber : String → Option String
  /-- `\bSHA-?256\b` is found. -/
  namesSha256 : String → Bool
  /-- `SHA-256.*?256-bit.*?message digests` is found. -/
  hasDigests : String → Bool
  /-- The match of `_RFC3339_Z_TIMESTAMP`. -/
  timestamp : String → Option String

variable (py : FallbackPatterns) (fact : FactRequirement) (cited : List VerifiedEvidence)

/-- `fact_text`. -/
def derivedFactText : String := fact.key ++ " " ++ fact.description ++ " " ++ fact.subject

/-- `folded`. -/
def foldedFactText : String := py.casefold (derivedFactText fact)

/-- `version in verifier_versions`. -/
def hasVersion (version : String) : Bool := cited.any (·.verifierVersion = version)

/-- `quotes`. -/
def citedQuotes : List String := cited.map (·.candidate.quote)

/-- The first quote behind some words. -/
def quoted (words : String) : Option String := (citedQuotes cited).head?.map (words ++ ·)

def dnsText : Option String :=
  let has := Text.contains (foldedFactText py fact)
  if !hasVersion cited "deterministic-dns-registry-v1" then none
  else if has "transport" && has "port" then
    some "DNS conventionally uses port 53 over both TCP and UDP."
  else if has "dns_port" then some "DNS conventionally uses port 53."
  else if has "dns_tcp" then some "DNS conventionally uses TCP transport."
  else if has "dns_udp" then some "DNS conventionally uses UDP transport."
  else some "DNS conventionally uses port 53 over both TCP and UDP."

def pythonText : Option String :=
  let has := Text.contains (foldedFactText py fact)
  if !hasVersion cited "deterministic-python-origin-v1" then none
  else if ["creator", "created", "创建"].any has then some "Python was created by Guido van Rossum."
  else if ["first_public", "first public", "release_year", "首次公开"].any has then
    some "Python was first publicly released in 1991."
  else none

def jsonText : Option String :=
  if !hasVersion cited "deterministic-json-literals-v1" then none
  else some "The three lowercase JSON literal names are true, false, and null."

def statusText : Option String :=
  if !hasVersion cited "deterministic-http-status-v1" then none
  else
    let has201 := (citedQuotes cited).any (Text.contains · "201 (Created)")
    let has204 := (citedQuotes cited).any (Text.contains · "204 (No Content)")
    if has201 && has204 then
      some ("HTTP 201 Created reports creation of one or more resources; " ++
        "HTTP 204 No Content reports successful fulfillment with no " ++
        "additional response content.")
    else if has201 then some "HTTP 201 Created means one or more resources were created."
    else if has204 then
      some ("HTTP 204 No Content means the request succeeded with no " ++
        "additional response content.")
    else none

def registryText : Option String :=
  let has := Text.contains (foldedFactText py fact)
  if !hasVersion cited registryVersion then none
  else if has "idempotent" then some "HTTP GET is idempotent."
  else if has "safe" then some "HTTP GET is safe."
  else none

def acidText : Option String :=
  if !hasVersion cited "deterministic-acid-v1" then none
  else
    (["Atomicity", "Consistency", "Isolation", "Durability"].find? fun value =>
      Text.contains (foldedFactText py fact) (py.casefold value)).bind fun name =>
        quoted cited (name ++ ": ")

def sqliteText : Option String :=
  let has := Text.contains (foldedFactText py fact)
  if !hasVersion cited "deterministic-sqlite-v1" then none
  else if has "public_domain" || (has "public domain" && !has "jurisdiction") then
    some "SQLite is in the public domain."
  else quoted cited "SQLite: "

/-- The first quote, behind the words of the version. -/
def versionedText (version words : String) : Option String :=
  if !hasVersion cited version then none else quoted cited words

def gitStateText : Option String :=
  if !hasVersion cited "deterministic-git-state-v1" then none
  else
    (["modified", "staged", "committed"].find? (Text.contains (foldedFactText py fact) ·)).bind
      fun state => quoted cited (state ++ ": ")

def gitObjectText : Option String :=
  let reviewed := cited.any fun e =>
    urlBase e.source.url = "https://git-scm.com/docs/gitdatamodel.html"
  let has := Text.contains (py.casefold fact.key)
  let quotes := (citedQuotes cited).map py.casefold
  if !(reviewed && Text.contains (foldedFactText py fact) "git") then none
  else if has "git_object_types" && quotes.any fun quote =>
      ["commits", "trees", "blobs", "tag objects"].all (Text.contains quote ·) then
    some "Git has four object types: commit, tree, blob, and tag."
  else if has "blob_purpose" && quotes.any fun quote =>
      Text.contains quote "contains a file's contents" ||
        Text.contains quote "contains a file\u2019s contents" then
    some "A Git blob object contains a file's contents."
  else if has "tree_purpose" && quotes.any (Text.contains · "represents a directory") then
    some ("A Git tree object represents a directory and can contain files " ++
      "or subtrees.")
  else if has "commit_purpose" &&
      quotes.any (Text.contains · "a commit contains these required fields") then
    some ("A Git commit object records its top-level tree, parent commits, " ++
      "author and committer metadata, and commit message.")
  else if has "tag_purpose" &&
      quotes.any (Text.contains · "tag objects contain these required fields") then
    some ("A Git tag object records the referenced object's ID and type, " ++
      "tagger metadata, and a tag message.")
  else none

def mediaTypeText : Option String :=
  let has := Text.contains (foldedFactText py fact)
  if !(has "media type" && has "json") then none
  else ((citedQuotes cited).findSome? py.mediaType).map fun found =>
    py.casefold found.1 ++ "/" ++ py.casefold found.2

def tlsText : Option String :=
  match py.tlsVersion (derivedFactText fact) with
  | none => none
  | some tls =>
      if !Text.contains (foldedFactText py fact) "rfc" then none
      else (cited.findSome? fun e => py.rfcNumber e.source.url).map fun number =>
        "TLS " ++ tls.1 ++ "." ++ tls.2 ++ " is specified by RFC " ++ number ++ "."

def digestText : Option String :=
  if py.namesSha256 (derivedFactText fact) && Text.contains (foldedFactText py fact) "digest" &&
      (citedQuotes cited).any py.hasDigests then
    some "The SHA-256 digest length is 256 bits（SHA-256 的摘要长度为 256 位）。"
  else none

def timestampText : Option String :=
  let has := Text.contains (foldedFactText py fact)
  if !(has "rfc 3339" && has "example" && Text.contains (derivedFactText fact) "+00:00") then none
  else if !(citedQuotes cited).any (Text.contains · "\"Z\" or \"+00:00\"") then none
  else ((citedQuotes cited).findSome? py.timestamp).map fun timestamp =>
    String.ofList timestamp.toList.dropLast ++ "+00:00"

/-- `_derived_fallback_text`, given the evidence of the identifiers in order. -/
def derivedFallbackText : Option String :=
  dnsText py fact cited <|> pythonText py fact cited <|> jsonText cited <|> statusText cited
    <|> registryText py fact cited <|> acidText py fact cited
    <|> versionedText cited "deterministic-cap-v1" "" <|> sqliteText py fact cited
    <|> versionedText cited "deterministic-deepseek-pricing-v1" "deepseek-v4-flash — "
    <|> versionedText cited "deterministic-postgresql-support-v1" "PostgreSQL: "
    <|> versionedText cited "deterministic-postgresql-isolation-v1" ""
    <|> gitStateText py fact cited <|> gitObjectText py fact cited <|> mediaTypeText py fact cited
    <|> tlsText py fact cited <|> digestText py fact cited <|> timestampText py fact cited

end Sana.Answer
