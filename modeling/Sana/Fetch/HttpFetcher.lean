import Sana.Fetch.Ssrf
import Sana.Lib.Method

/-!
# The HTTP fetcher

`HttpContentFetcher.fetch` follows redirects one hop at a time. The local
variables that its `except` clause reads are the state of the computation: they
keep what was written to them before an exception. The state also carries the
`trace` of what was validated, requested and answered, which the code does not
have and which the results are about.

Everything the fetcher awaits is given by an environment: one `Hop` for each turn
of the loop, with the readings of the clock, the answers of the resolver, the
response of the server, and for each await the exception it may end with.
-/

namespace Sana.Fetch

open Sana.Lib

/-! ## Requests and artifacts -/

/-- `FetchRequest`. -/
structure FetchRequest where
  url : String
  deadline : Time
  maxResponseBytes : Nat := 5000000
  maxRedirects : Nat := 3
  required : Text.isBlank url = false ∧ 1 ≤ maxResponseBytes
deriving DecidableEq, Repr

/-- `FetchStatus`. -/
inductive FetchStatus
  | succeeded | failed | blocked
deriving DecidableEq, Repr

/-- `FetchArtifact`. -/
structure FetchArtifact where
  requestUrl : String
  finalUrl : String
  status : FetchStatus
  httpStatus : Option Nat
  mediaType : Option String
  body : List UInt8
  contentHash : Option String
  fetchedAt : Time
  redirects : List String := []
  responseHeaders : List (String × String) := []
  error : Option TypedError := none
deriving DecidableEq, Repr

/-- The constructor of `FetchArtifact`. The `ValueError` is not one the fetcher handles. -/
def FetchArtifact.make (py : Builtins) (a : FetchArtifact) : Except Raised FetchArtifact := do
  if a.status = .succeeded then
    check (!a.body.isEmpty && a.contentHash = some (py.sha256 a.body) && a.error.isNone) .other
  else
    check (a.body.isEmpty && a.contentHash.isNone && a.error.isSome) .other
  return a

/-! ## What the network does -/

/-- What `get_extra_info` returns for an address. -/
inductive ServerInfo
  | tuple (parts : List String)
  | value (text : String) (truthy : Bool)
deriving DecidableEq, Repr

/-- The `network_stream` of a response, when it has `get_extra_info`. -/
structure NetworkStream where
  serverAddr : Option ServerInfo
  peername : Option ServerInfo
deriving DecidableEq, Repr

/-- A response. Headers are merged by lower-case name. -/
structure Response where
  statusCode : Nat
  headers : List (String × String)
  networkStream : Option NetworkStream
  /-- What `aiter_bytes` yields, and the exception it ends with. -/
  chunks : List (List UInt8)
  aborted : Option Raised := none
deriving DecidableEq, Repr

/-- One turn of the loop, as the network and the clock decide it. -/
structure Hop where
  now : Time
  /-- The resolver before the request, after the response and for the redirect target. -/
  resolved : SSRFGuard.DnsAnswer
  resolvedAgain : SSRFGuard.DnsAnswer
  resolvedNext : SSRFGuard.DnsAnswer
  response : Except Raised Response
  /-- Exceptions at the host limiter and at the end of the response. -/
  entering : Option Raised := none
  closing : Option Raised := none
  leaving : Option Raised := none
  fetchedAt : Time

/-- What happens to one fetch. -/
structure Environment where
  started : Time
  hops : Nat → Hop
  failed : Time

/-- What the fetcher did, in order. -/
inductive Event
  /-- `resolve_and_validate` returned. -/
  | validated (target : ResolvedTarget)
  /-- A GET was sent. -/
  | requested (url : String)
  | responded (response : Response)
deriving DecidableEq, Repr

/-- The local variables of `_fetch_within_deadline`, and the trace. -/
structure FetchState where
  currentUrl : String
  redirects : List String := []
  httpStatus : Option Nat := none
  mediaType : Option String := none
  trace : List Event := []
deriving DecidableEq, Repr

/-- A block of the fetcher. -/
abbrev FetchM := Method Raised FetchState

/-- Write to the trace. -/
def log (e : Event) : FetchM PUnit := modify fun s => { s with trace := s.trace ++ [e] }

/-- Return the result or raise the exception. -/
def ofExcept {α : Type} : Except Raised α → FetchM α
  | .ok a => pure a
  | .error e => throw e

/-- An await that returns nothing. -/
def await : Option Raised → FetchM Unit
  | none => pure ()
  | some e => throw e

/-- Leave a context manager: what its exit raises replaces what the block did. -/
def exiting {α : Type} (block : FetchM α) (exit : Option Raised) : FetchM α := do
  let a ← tryCatch block fun e => throw (exit.getD e)
  await exit
  return a

/-! ## The fetcher -/

/-- `HttpContentFetcher`. -/
structure HttpContentFetcher where
  guard : SSRFGuard
  py : Builtins

/-- `_ALLOWED_MEDIA_TYPES`. -/
def allowedMediaTypes : List String :=
  ["text/html", "application/xhtml+xml", "text/plain", "text/csv", "application/json",
    "application/pdf"]

/-- `_REDIRECT_STATUSES`. -/
def redirectStatuses : List Nat := [301, 302, 303, 307, 308]

/-- The response headers that are kept. -/
def keptHeaders : List String := ["content-type", "content-length", "etag", "last-modified"]

/-- The error of a fetch that ran out of time. -/
def deadlineExceeded : TypedError where
  category := .budget
  code := "fetch_deadline_exceeded"
  message := "Fetch deadline was exhausted"
  retryable := false

/-- A `CONTENT` error. -/
def contentError (code message : String) : Raised :=
  .typed { category := .content, code, message, retryable := false }

/-- `_peer_address`. -/
def peerAddress (response : Response) : Option String := do
  let stream ← response.networkStream
  match stream.serverAddr <|> stream.peername with
  | some (.tuple (host :: _)) => some host
  | some (.value text true) => some text
  | _ => none

/-- The header, when it is there and not empty. -/
def Response.header (r : Response) (name : String) : Option String :=
  (r.headers.lookup name).filter (!·.isEmpty)

namespace HttpContentFetcher

variable (f : HttpContentFetcher)

/-- `await self._guard.resolve_and_validate(url)`. -/
def validate (url : String) (answer : SSRFGuard.DnsAnswer) : FetchM ResolvedTarget := do
  let target ← ofExcept (f.guard.resolveAndValidate f.py url answer)
  log (.validated target)
  return target

/-- The peer of a response is checked. -/
def validatePeer (response : Response) : FetchM Unit := do
  let some peer := peerAddress response
    | throw (.blocked "Connected peer address could not be verified")
  let _ ← ofExcept (SSRFGuard.publicAddress f.py peer)
  return

/-- The branch for a redirect: the target becomes the current URL. -/
def followRedirect (request : FetchRequest) (hop : Hop) (response : Response) : FetchM Unit := do
  let some location := response.header "location"
    | throw (contentError "redirect_without_location" "Redirect response did not include Location")
  let s ← get
  Method.require (s.redirects.length < request.maxRedirects)
    (contentError "too_many_redirects" "Fetch exceeded redirect limit")
  let some nextUrl := f.py.urljoin s.currentUrl location | throw .other
  let _ ← f.validate nextUrl hop.resolvedNext
  modify fun s => { s with redirects := s.redirects ++ [nextUrl], currentUrl := nextUrl }

/-- The checks of the status of a response that is no redirect. -/
def checkStatus (response : Response) : FetchM Unit := do
  Method.require (¬ (response.statusCode = 429 ∨ 500 ≤ response.statusCode))
    (.typed { category := .transient, code := s!"fetch_http_{response.statusCode}"
              message := s!"Fetch returned HTTP {response.statusCode}", retryable := true })
  Method.require (response.statusCode < 400)
    (contentError s!"fetch_http_{response.statusCode}" s!"Fetch returned HTTP {response.statusCode}")

/-- `response.headers.get("content-type", "").split(";", 1)[0].lower()`. -/
def mediaTypeOf (response : Response) : String :=
  f.py.lower (String.ofList
    (((response.headers.lookup "content-type").getD "").toList.takeWhile (· ≠ ';')))

/-- The media type is kept, and has to be an allowed one. -/
def checkMediaType (response : Response) : FetchM Unit := do
  let mediaType := f.mediaTypeOf response
  modify fun s => { s with mediaType := some mediaType }
  let shown := if mediaType.isEmpty then "missing" else mediaType
  Method.require (mediaType ∈ allowedMediaTypes)
    (contentError "unsupported_content_type" s!"Fetch content type is not allowed: {shown}")

/-- The error of a body over the limit. -/
def responseTooLarge : Raised :=
  contentError "response_too_large" "Fetch response exceeded size limit"

/-- The declared length has to be a number within the limit. -/
def checkDeclaredLength (request : FetchRequest) (response : Response) : FetchM Unit := do
  let some declared := response.header "content-length" | return
  let some size := f.py.int declared
    | throw (contentError "invalid_content_length" "Fetch returned invalid Content-Length")
  Method.require (size ≤ request.maxResponseBytes) responseTooLarge

/-- The loop over `aiter_bytes`: the chunks so far, their size, and what is still to come. -/
def readChunks (limit : Nat) (aborted : Option Raised) :
    List (List UInt8) → Nat → List (List UInt8) → Except Raised (List (List UInt8))
  | chunks, _, [] =>
      match aborted with
      | none => .ok chunks
      | some e => .error e
  | chunks, size, chunk :: rest =>
      if limit < size + chunk.length then .error responseTooLarge
      else readChunks limit aborted (chunks ++ [chunk]) (size + chunk.length) rest

/-- The body of the response, read within the limit and not empty. -/
def readBody (request : FetchRequest) (response : Response) : Except Raised (List UInt8) := do
  let chunks ← readChunks request.maxResponseBytes response.aborted [] 0 response.chunks
  let body := chunks.flatten
  check (!body.isEmpty) (contentError "empty_response_body" "Fetch returned an empty response body")
  return body

/-- The block of `async with self._client.stream(...) as response`; `none` is `continue`. -/
def receive (request : FetchRequest) (hop : Hop) (response : Response) :
    FetchM (Option FetchArtifact) := do
  modify fun s => { s with httpStatus := some response.statusCode }
  f.validatePeer response
  let s ← get
  let _ ← f.validate s.currentUrl hop.resolvedAgain
  if response.statusCode ∈ redirectStatuses then
    f.followRedirect request hop response
    return none
  checkStatus response
  f.checkMediaType response
  f.checkDeclaredLength request response
  let body ← ofExcept (readBody request response)
  let s ← get
  let artifact ← ofExcept (FetchArtifact.make f.py
    { requestUrl := request.url
      finalUrl := s.currentUrl
      status := .succeeded
      httpStatus := some response.statusCode
      mediaType := s.mediaType
      body
      contentHash := some (f.py.sha256 body)
      fetchedAt := hop.fetchedAt
      redirects := s.redirects
      responseHeaders := response.headers.filter (f.py.lower ·.1 ∈ keptHeaders) })
  return some artifact

/-- The inner `except` clauses. -/
def translating {α : Type} (block : FetchM α) : FetchM α :=
  tryCatch block fun e =>
    match e with
    | .timeout => throw (.typed deadlineExceeded)
    | .network message => throw (.typed
        { category := .transient, code := "fetch_network_failure"
          message := if message.isEmpty then "Fetch network failure" else message
          retryable := true })
    | e => throw e

/-- The request of one hop and what is made of the response. -/
def exchange (request : FetchRequest) (hop : Hop) : FetchM (Option FetchArtifact) := do
  let s ← get
  log (.requested s.currentUrl)
  let response ← ofExcept hop.response
  log (.responded response)
  exiting (f.receive request hop response) hop.closing

/-- One turn of the loop; `none` is `continue`. -/
def turn (request : FetchRequest) (hop : Hop) : FetchM (Option FetchArtifact) := do
  Method.require (0 < request.deadline - hop.now) (.typed deadlineExceeded)
  let s ← get
  let _ ← f.validate s.currentUrl hop.resolved
  await hop.entering
  exiting (translating (f.exchange request hop)) hop.leaving

/--
`while True`, for at most `n` turns. A turn that continues has added a redirect,
so the turns run out before `max_redirects + 1` of them do.
-/
def loop (request : FetchRequest) (hops : Nat → Hop) : Nat → FetchM FetchArtifact
  | 0 => throw .other
  | n + 1 => do
      let s ← get
      match ← f.turn request (hops s.redirects.length) with
      | some artifact => return artifact
      | none => loop request hops n

/-- The artifact of a fetch that ended with a `TypedError`. -/
def failure (request : FetchRequest) (now : Time) (status : FetchStatus) (error : TypedError) :
    FetchM FetchArtifact := do
  let s ← get
  ofExcept (FetchArtifact.make f.py
    { requestUrl := request.url
      finalUrl := s.currentUrl
      status
      httpStatus := s.httpStatus
      mediaType := s.mediaType
      body := []
      contentHash := none
      fetchedAt := now
      redirects := s.redirects
      error := some error })

/-- `_fetch_within_deadline`. -/
def fetchWithinDeadline (env : Environment) (request : FetchRequest) : FetchM FetchArtifact :=
  tryCatch (f.loop request env.hops (request.maxRedirects + 1)) fun e =>
    match e with
    | .typed error => f.failure request env.failed .failed error
    | .blocked message => f.failure request env.failed .blocked (ssrfBlocked message)
    | e => throw e

/-- `_deadline_failure`. -/
def deadlineFailure (request : FetchRequest) (now : Time) : FetchArtifact where
  requestUrl := request.url
  finalUrl := request.url
  status := .failed
  httpStatus := none
  mediaType := none
  body := []
  contentHash := none
  fetchedAt := now
  error := some deadlineExceeded

/-- `fetch`: the artifact or the exception that leaves it, and the trace. -/
def fetch (env : Environment) (request : FetchRequest) : Except Raised FetchArtifact × List Event :=
  if request.deadline - env.started ≤ 0 then
    ((deadlineFailure request env.failed).make f.py, [])
  else
    match (f.fetchWithinDeadline env request).call { currentUrl := request.url } with
    | (.ok artifact, s) => (.ok artifact, s.trace)
    | (.error .timeout, s) | (.error .expired, s) =>
        ((deadlineFailure request env.failed).make f.py, s.trace)
    | (.error e, s) => (.error e, s.trace)

end HttpContentFetcher

end Sana.Fetch
