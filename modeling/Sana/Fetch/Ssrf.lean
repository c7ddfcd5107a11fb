import Sana.Shared.Basic

/-!
# The SSRF guard

`SSRFGuard` decides whether a URL may be requested: from its text, and from the
addresses its host resolves to. The library functions it reads text with are
parameters, since the results hold for any of them. What the resolver answers is
an argument of each call: the same host may resolve differently the next time.
-/

namespace Sana.Fetch

open Sana.Lib

/-- What `urlsplit` finds in a URL, with its `port` converted. -/
structure SplitResult where
  scheme : String
  username : Option String
  password : Option String
  hostname : Option String
  port : Option Nat
deriving DecidableEq, Repr

/-- An `ipaddress` object: its `str` and its `is_global`. -/
structure IPAddress where
  text : String
  isGlobal : Bool
deriving DecidableEq, Repr

/-- The library functions on text. `none` is a `ValueError` or a `UnicodeError`. -/
structure Builtins where
  urlsplit : String → Option SplitResult
  urljoin : String → String → Option String
  lower : String → String
  /-- `host.encode("idna").decode("ascii")`. -/
  idna : String → Option String
  /-- `ipaddress.ip_address`. -/
  ipAddress : String → Option IPAddress
  /-- `int(text)`. -/
  int : String → Option Int
  /-- `hashlib.sha256(body).hexdigest()`. -/
  sha256 : List UInt8 → String

/-- What leaves a block of the fetcher as an exception. -/
inductive Raised
  | typed (error : TypedError)
  /-- `SSRFBlocked(message)`, which is a `TypedError`. -/
  | blocked (message : String)
  /-- `TimeoutError`. -/
  | timeout
  /-- `httpx.TimeoutException` or `httpx.NetworkError`, with its `str`. -/
  | network (message : String)
  /-- The task is cancelled by the `asyncio.timeout` of `fetch`. -/
  | expired
  /-- Any other exception, and a cancellation from outside. -/
  | other
deriving DecidableEq, Repr

/-- The `TypedError` that an `SSRFBlocked` is. -/
def ssrfBlocked (message : String) : TypedError where
  category := .permanent
  code := "ssrf_blocked"
  message := message
  retryable := false

/-- `ResolvedTarget`. -/
structure ResolvedTarget where
  url : String
  host : String
  port : Nat
  addresses : List IPAddress
deriving DecidableEq, Repr

/-- `SSRFGuard`. -/
structure SSRFGuard where
  allowedPorts : List Nat := [80, 443]
  maxUrlCharacters : Nat := 2048

namespace SSRFGuard

/-- `_BLOCKED_SUFFIXES`. -/
def blockedSuffixes : List String :=
  [".localhost", ".local", ".internal", ".home", ".lan", ".onion"]

/-- `_BLOCKED_HOSTS`. -/
def blockedHosts : List String :=
  ["localhost", "metadata.google.internal", "metadata.azure.internal"]

/-- `host.rstrip(".")`. -/
def rstripDots (host : String) : String :=
  String.ofList (host.toList.reverse.dropWhile (· = '.')).reverse

/-- `text.endswith(suffix)`. -/
def endsWith (text suffix : String) : Bool := suffix.toList.reverse.isPrefixOf text.toList.reverse

/-- The port of a URL; `0` counts as no port. -/
def resolvedPort (scheme : String) (port : Option Nat) : Nat :=
  match port with
  | some (p + 1) => p + 1
  | _ => if scheme = "https" then 443 else 80

/-- `validate_syntax`: the host and the port of an acceptable URL. -/
def validateSyntax (g : SSRFGuard) (py : Builtins) (url : String) : Except Raised (String × Nat) := do
  check (!url.isEmpty && url.length ≤ g.maxUrlCharacters)
    (.blocked "URL is empty or exceeds the length limit")
  let some parsed := py.urlsplit url | .error (.blocked "URL contains an invalid host or port")
  check (py.lower parsed.scheme ∈ ["http", "https"])
    (.blocked "Only HTTP and HTTPS URLs are allowed")
  check (parsed.username.isNone && parsed.password.isNone)
    (.blocked "URL credentials are forbidden")
  let hostname := parsed.hostname.getD ""
  check (!hostname.isEmpty) (.blocked "URL hostname is required")
  let host := py.lower (rstripDots hostname)
  check (!host.toList.contains '%') (.blocked "IPv6 zone identifiers are forbidden")
  let some host := py.idna host | .error (.blocked "URL hostname is not valid IDNA")
  check (host ∉ blockedHosts && !blockedSuffixes.any (endsWith host))
    (.blocked "Local or internal hostnames are forbidden")
  let port := resolvedPort (py.lower parsed.scheme) parsed.port
  check (port ∈ g.allowedPorts) (.blocked "URL port is not allowed")
  return (host, port)

/-- `_public_address`. -/
def publicAddress (py : Builtins) (value : String) : Except Raised IPAddress := do
  let some address := py.ipAddress value | .error (.blocked "DNS returned an invalid IP address")
  check address.isGlobal (.blocked s!"Non-public IP address is forbidden: {address.text}")
  return address

/-- How the await of the resolver ends. -/
inductive DnsAnswer
  | answered (values : List String)
  /-- `OSError`, which `socket.gaierror` is one of. -/
  | failed
  | raised (e : Raised)
deriving DecidableEq, Repr

/-- The addresses to check: the host itself if it is one, else what the resolver answers. -/
def addressTexts (py : Builtins) (host : String) (answer : DnsAnswer) :
    Except Raised (List String) :=
  match py.ipAddress host with
  | some literal => .ok [literal.text]
  | none =>
      match answer with
      | .answered values => .ok values
      | .failed => .error (.typed
          { category := .transient, code := "dns_resolution_failed"
            message := s!"Could not resolve fetch hostname: {host}", retryable := true })
      | .raised e => .error e

/-- `resolve_and_validate`, when the resolver answers like this. -/
def resolveAndValidate (g : SSRFGuard) (py : Builtins) (url : String) (answer : DnsAnswer) :
    Except Raised ResolvedTarget := do
  let (host, port) ← g.validateSyntax py url
  let values ← addressTexts py host answer
  check (!values.isEmpty) (.typed
    { category := .transient, code := "dns_resolution_empty"
      message := s!"DNS returned no addresses for: {host}", retryable := true })
  let addresses ← values.mapM (publicAddress py)
  return { url, host, port, addresses }

end SSRFGuard

end Sana.Fetch
