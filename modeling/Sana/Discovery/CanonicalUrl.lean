import Sana.Lib.Url
import Sana.Shared.Basic

/-!
# Canonical URLs

`canonicalize_url` takes a search result's URL apart, drops the tracking parameters, and puts the
rest together again. Its result is what is fetched, and what hits and documents go by.
-/

namespace Sana.Discovery

open Sana.Lib Lib.Url

/-- What of `str`, `bytes` and `urllib.parse` goes by tables. -/
structure UrlText where
  checks : Checks
  lower : List Char → List Char
  casefold : List Char → List Char
  /-- `bytes.decode("utf-8", errors="replace")`. -/
  decode : List UInt8 → List Char

/-- `_TRACKING_PARAMETERS`. -/
def trackingParameters : List (List Char) :=
  ["utm_source", "utm_medium", "utm_campaign", "utm_term", "utm_content", "gclid"].map String.toList

/-- The port a scheme has if none is given. -/
def defaultPort (scheme : List Char) : Nat := if scheme = "http".toList then 80 else 443

variable (t : UrlText)

namespace UrlText

/-- A field of a query whose name is no tracking parameter. -/
def Kept (field : List Char × List Char) : Prop :=
  t.casefold (Percent.unquotePlus t.decode field.1) ∉ trackingParameters

instance : DecidablePred t.Kept := fun _ => inferInstanceAs (Decidable (_ ∉ _))

/-- `parse_qsl(query, keep_blank_values=True)`, without the tracking parameters. -/
def keptPairs (query : List Char) : List (List Char × List Char) :=
  ((fields query).filter (t.Kept ·)).map fun (k, v) =>
    (Percent.unquotePlus t.decode k, Percent.unquotePlus t.decode v)

/-- The network location of the canonical form. -/
def canonicalNetloc (scheme hostname : List Char) (port : Option Nat) : List Char :=
  let host := t.lower hostname
  -- a port of 0 counts as none
  if port.any fun port => decide (port ≠ 0 ∧ port ≠ defaultPort scheme) then
    host ++ ':' :: Nat.toDigits 10 (port.getD 0)
  else host

/-- `canonicalize_url` of a URL that is split; `none` for a `ValueError`. -/
def canonical (parsed : SplitResult) : Option (List Char) :=
  let scheme := t.lower parsed.scheme
  (parsed.hostname t.lower).bind fun hostname =>
    if scheme ∉ ["http".toList, "https".toList] then none
    else if parsed.username ≠ none ∨ parsed.password ≠ none then none
    else parsed.port.map fun port => urlunsplit {
      scheme := scheme
      netloc := t.canonicalNetloc scheme hostname port
      path := if parsed.path = [] then ['/'] else parsed.path
      query := urlencode (t.keptPairs parsed.query)
      fragment := [] }

/-- `canonicalize_url`. -/
def canonicalizeUrl (url : List Char) : Option (List Char) :=
  (urlsplit t.checks (Text.stripChars url)).bind t.canonical

end UrlText

/-! ## Resources -/

/-- What a URL names. -/
structure Resource where
  scheme : List Char
  /-- The host is an IP literal, in brackets. -/
  literal : Bool
  host : List Char
  port : Nat
  path : List Char
  /-- Names and values of the query without the tracking parameters, percent-decoded. -/
  pairs : List (List UInt8 × List UInt8)
deriving DecidableEq, Repr

namespace UrlText

/-- The bytes of a name or a value. -/
def bytesOf (text : List Char) : List UInt8 := Percent.unquoteToBytes (Percent.plusToSpace text)

/-- The pairs of a query without the tracking parameters, byte for byte. -/
def rawPairs (query : List Char) : List (List UInt8 × List UInt8) :=
  ((fields query).filter (t.Kept ·)).map fun (k, v) => (bytesOf k, bytesOf v)

/-- What a URL that is split names. -/
def resourceOf (parsed : SplitResult) : Option Resource := do
  let hostname ← parsed.hostname t.lower
  let port ← parsed.port
  return {
    scheme := parsed.scheme
    literal := parsed.literal
    host := t.lower hostname
    port := port.getD (defaultPort parsed.scheme)
    path := if parsed.path = [] then ['/'] else parsed.path
    pairs := t.rawPairs parsed.query }

/-- What a URL names. -/
def resource (url : List Char) : Option Resource :=
  (urlsplit t.checks (Text.stripChars url)).bind t.resourceOf

end UrlText

end Sana.Discovery
