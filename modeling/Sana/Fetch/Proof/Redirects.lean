import Sana.Fetch.HttpFetcher

/-!
# Redirects are validated hop by hop

The results are about the trace of a fetch: what was validated, requested and
answered, in order. Three facts are carried through the loop. There is one request
for each redirect that was followed, and one more while a response is being looked
at. A request stands right after the validation of its URL. And the peers of all
responses so far were public, or the fetch is on its way to an exception.

Each block of the fetcher gets one triple. Whatever raises leaves `Bounded`, which
is all a failed fetch promises; the three facts reach the end of a block only when
it returns.
-/

namespace Sana.Fetch

open Sana.Lib Sana.Lib.Method

/-! ## Traces -/

/-- The event is a request. -/
def Event.isRequest : Event → Bool
  | .requested _ => true
  | .validated _ | .responded _ => false

/-- The event is a response. -/
def Event.isResponse : Event → Bool
  | .responded _ => true
  | .validated _ | .requested _ => false

/-- Each request follows a validation of its URL, with no response in between. -/
def ValidatedFirst (trace : List Event) : Prop :=
  ∀ before url after, trace = before ++ .requested url :: after →
    ∃ earlier target between, before = earlier ++ .validated target :: between
      ∧ target.url = url ∧ ∀ e ∈ between, e.isResponse = false

/-- What the trace calls validated was returned by the guard, for some answer of the resolver. -/
def Genuine (f : HttpContentFetcher) (trace : List Event) : Prop :=
  ∀ target, .validated target ∈ trace →
    ∃ answer, f.guard.resolveAndValidate f.py target.url answer = .ok target

/-- The peer of the response is known, and is a public address. -/
def PublicPeer (f : HttpContentFetcher) (response : Response) : Prop :=
  ∃ peer address, peerAddress response = some peer ∧ f.py.ipAddress peer = some address
    ∧ address.isGlobal = true

/-- The peers of all responses were public. -/
def PublicPeers (f : HttpContentFetcher) (trace : List Event) : Prop :=
  ∀ response, .responded response ∈ trace → PublicPeer f response

theorem validatedFirst_nil : ValidatedFirst [] := by
  intro before url after h
  simp at h

/-- A longer trace splits at its new event, or where the old one does. -/
theorem split_snoc {trace before after : List Event} {e e' : Event}
    (h : trace ++ [e'] = before ++ e :: after) :
    (trace = before ∧ e' = e ∧ after = []) ∨ ∃ rest, trace = before ++ e :: rest := by
  obtain rfl | ⟨rest, last, rfl⟩ := List.eq_nil_or_concat' after
  · obtain ⟨htrace, hlast⟩ := List.append_inj' h rfl
    exact .inl ⟨htrace, (List.cons.inj hlast).1, rfl⟩
  · have hassoc : trace ++ [e'] = (before ++ e :: rest) ++ [last] := by
      rw [h, List.append_assoc]
      rfl
    exact .inr ⟨rest, (List.append_inj' hassoc rfl).1⟩

/-- An event that is no request leaves the requests as they are. -/
theorem ValidatedFirst.snoc {trace : List Event} {e : Event} (h : ValidatedFirst trace)
    (he : e.isRequest = false) : ValidatedFirst (trace ++ [e]) := by
  intro before url after hsplit
  obtain ⟨-, rfl, -⟩ | ⟨rest, hrest⟩ := split_snoc hsplit
  · cases he
  · exact h before url rest hrest

/-- A request right after the validation of its URL. -/
theorem ValidatedFirst.request {trace : List Event} {target : ResolvedTarget}
    (h : ValidatedFirst (trace ++ [.validated target])) :
    ValidatedFirst (trace ++ [.validated target] ++ [.requested target.url]) := by
  intro before url after hsplit
  obtain ⟨hbefore, hurl, -⟩ | ⟨rest, hrest⟩ := split_snoc hsplit
  · exact ⟨trace, target, [], hbefore.symm, Event.requested.inj hurl, by simp⟩
  · exact h before url rest hrest

/-! ## What is carried through the loop -/

variable {f : HttpContentFetcher} {request : FetchRequest} {hop : Hop} {response : Response}
variable {k pending : Nat}

/-- What every exit of the loop leaves. -/
structure Bounded (f : HttpContentFetcher) (request : FetchRequest) (trace : List Event) : Prop where
  requests : trace.countP Event.isRequest ≤ request.maxRedirects + 1
  first : ValidatedFirst trace
  genuine : Genuine f trace

/--
`k` redirects have been followed, and `pending` requests have been sent besides
those that they answered.
-/
structure Tracked (f : HttpContentFetcher) (request : FetchRequest) (k pending : Nat)
    (s : FetchState) : Prop where
  requests : s.trace.countP Event.isRequest = k + pending
  redirects : s.redirects.length = k
  room : k ≤ request.maxRedirects
  first : ValidatedFirst s.trace
  genuine : Genuine f s.trace

theorem Tracked.bounded {s : FetchState} (h : Tracked f request k pending s)
    (hp : pending ≤ 1) : Bounded f request s.trace := by
  have hrequests := h.requests
  have hroom := h.room
  exact ⟨by omega, h.first, h.genuine⟩

/-- A validation adds nothing but itself. -/
theorem Tracked.validated {s : FetchState} (h : Tracked f request k pending s)
    {target : ResolvedTarget} (answer : SSRFGuard.DnsAnswer)
    (ht : f.guard.resolveAndValidate f.py target.url answer = .ok target) :
    Tracked f request k pending { s with trace := s.trace ++ [.validated target] } := by
  refine ⟨?_, h.redirects, h.room, h.first.snoc rfl, ?_⟩
  · simpa [Event.isRequest] using h.requests
  · intro target' hmem
    obtain hmem | hmem := List.mem_append.mp hmem
    · exact h.genuine target' hmem
    · obtain rfl := Event.validated.inj (List.mem_singleton.mp hmem)
      exact ⟨answer, ht⟩

theorem PublicPeers.snoc {trace : List Event} {e : Event} (h : PublicPeers f trace)
    (he : ∀ response, e = .responded response → PublicPeer f response) :
    PublicPeers f (trace ++ [e]) := by
  intro response hmem
  obtain hmem | hmem := List.mem_append.mp hmem
  · exact h response hmem
  · exact he response (List.mem_singleton.mp hmem).symm

/-- The target the guard returns is one for the URL it was asked about. -/
theorem url_of_resolveAndValidate {g : SSRFGuard} {py : Builtins} {url : String}
    {answer : SSRFGuard.DnsAnswer} {target : ResolvedTarget}
    (h : g.resolveAndValidate py url answer = .ok target) : target.url = url := by
  obtain ⟨⟨host, port⟩, -, h⟩ := bind_ok_iff.mp h
  obtain ⟨values, -, h⟩ := bind_ok_iff.mp h
  obtain ⟨-, -, h⟩ := bind_ok_iff.mp h
  obtain ⟨addresses, -, h⟩ := bind_ok_iff.mp h
  exact (pure_ok_iff.mp h) ▸ rfl

/-! ## One triple for each block -/

theorem ensures_ofExcept {α : Type} {P E : FetchState → Prop} {r : Except Raised α}
    (h : ∀ s, P s → E s) : Ensures P (ofExcept r) (fun a s => P s ∧ r = .ok a) E := by
  intro s hs
  cases r with
  | ok a => exact ⟨hs, rfl⟩
  | error e => exact h s hs

theorem ensures_await {P E : FetchState → Prop} {exit : Option Raised} (h : ∀ s, P s → E s) :
    Ensures P (await exit) (fun _ => P) E := by
  intro s hs
  cases exit with
  | none => exact hs
  | some e => exact h s hs

/-- Leaving a context manager, when what the block leaves is also what an exception may leave. -/
theorem Ensures.exiting {α : Type} {P E : FetchState → Prop} {Q : α → FetchState → Prop}
    {block : FetchM α} {exit : Option Raised} (h : Ensures P block Q E)
    (hQ : ∀ a s, Q a s → E s) : Ensures P (exiting block exit) Q E := by
  refine Ensures.bind (h.tryCatch fun e => ensures_throw fun _ hs => hs) fun a => ?_
  exact Ensures.bind (ensures_await (hQ a)) fun _ => ensures_pure fun _ hs => hs

theorem Ensures.translating {α : Type} {P E : FetchState → Prop} {Q : α → FetchState → Prop}
    {block : FetchM α} (h : Ensures P block Q E) :
    Ensures P (HttpContentFetcher.translating block) Q E := by
  refine h.tryCatch fun e => ?_
  split <;> exact ensures_throw fun _ hs => hs

/-- `validate` returns a target for the URL, and logs it. -/
theorem ensures_validate {url : String} {answer : SSRFGuard.DnsAnswer}
    {P : FetchState → Prop} (hP : ∀ s, P s → Tracked f request k pending s) (hp : pending ≤ 1) :
    Ensures P (f.validate url answer)
      (fun target s => ∃ before, P before ∧ target.url = url
        ∧ s = { before with trace := before.trace ++ [.validated target] }
        ∧ Tracked f request k pending s)
      (fun s => Bounded f request s.trace) := by
  intro s hs
  unfold HttpContentFetcher.validate
  rw [call_bind]
  cases hr : f.guard.resolveAndValidate f.py url answer with
  | error e => exact (hP s hs).bounded hp
  | ok target =>
      have hurl := url_of_resolveAndValidate hr
      exact ⟨s, hs, hurl, rfl, (hP s hs).validated answer (hurl ▸ hr)⟩

/-- A response has come, and its peer is yet to be looked at. -/
structure Answered (f : HttpContentFetcher) (request : FetchRequest) (k : Nat) (response : Response)
    (s : FetchState) : Prop where
  tracked : Tracked f request k 1 s
  last : ∃ before, s.trace = before ++ [.responded response] ∧ PublicPeers f before

/-- The peer and the URL of the response have been checked. -/
structure Checked (f : HttpContentFetcher) (request : FetchRequest) (k : Nat) (response : Response)
    (s : FetchState) : Prop where
  tracked : Tracked f request k 1 s
  peers : PublicPeers f s.trace
  last : ∃ before target, s.trace = before ++ [.responded response, .validated target]
    ∧ target.url = s.currentUrl

/-- The top of the loop. -/
structure AtTop (f : HttpContentFetcher) (request : FetchRequest) (k : Nat) (s : FetchState) : Prop where
  tracked : Tracked f request k 0 s
  peers : PublicPeers f s.trace

/-- What a successful artifact promises. -/
structure Succeeded (f : HttpContentFetcher) (request : FetchRequest) (a : FetchArtifact)
    (trace : List Event) : Prop where
  /-- The peers of all responses were public. -/
  peers : PublicPeers f trace
  /-- The trace ends with the last response and the validation of its URL. -/
  last : ∃ before response target, trace = before ++ [.responded response, .validated target]
    ∧ a.finalUrl = target.url ∧ a.httpStatus = some response.statusCode
    ∧ response.statusCode ∉ redirectStatuses ∧ response.statusCode < 400
    ∧ a.mediaType = some (f.mediaTypeOf response) ∧ f.mediaTypeOf response ∈ allowedMediaTypes
    ∧ a.body = response.chunks.flatten
  nonempty : a.body ≠ []
  size : a.body.length ≤ request.maxResponseBytes
  hash : a.contentHash = some (f.py.sha256 a.body)

theorem publicPeer_of_publicAddress {peer : String} {address : IPAddress}
    (hpeer : peerAddress response = some peer)
    (h : SSRFGuard.publicAddress f.py peer = .ok address) : PublicPeer f response := by
  unfold SSRFGuard.publicAddress at h
  cases ha : f.py.ipAddress peer with
  | none => simp [ha] at h
  | some found =>
      simp only [ha] at h
      obtain ⟨_, hglobal, h⟩ := bind_ok_iff.mp h
      exact ⟨peer, found, hpeer, ha, check_eq_ok.mp hglobal⟩

theorem ensures_validatePeer :
    Ensures (Answered f request k response) (f.validatePeer response)
      (fun _ s => Tracked f request k 1 s ∧ PublicPeers f s.trace
        ∧ ∃ before, s.trace = before ++ [.responded response])
      (fun s => Bounded f request s.trace) := by
  unfold HttpContentFetcher.validatePeer
  cases hpeer : peerAddress response with
  | none => exact ensures_throw fun s hs => hs.tracked.bounded le_rfl
  | some peer =>
      refine Ensures.bind (ensures_ofExcept fun s hs => hs.tracked.bounded le_rfl) fun address => ?_
      refine ensures_pure fun s hs => ?_
      obtain ⟨hs, haddress⟩ := hs
      obtain ⟨before, htrace, hpublic⟩ := hs.last
      refine ⟨hs.tracked, ?_, before, htrace⟩
      rw [htrace]
      refine hpublic.snoc fun response' he => ?_
      obtain rfl := Event.responded.inj he
      exact publicPeer_of_publicAddress hpeer haddress

/-- Following a redirect uses up the request that was answered with it. -/
theorem ensures_followRedirect :
    Ensures (Checked f request k response) (f.followRedirect request hop response)
      (fun _ => AtTop f request (k + 1)) (fun s => Bounded f request s.trace) := by
  unfold HttpContentFetcher.followRedirect
  have hbounded : ∀ s, Checked f request k response s → Bounded f request s.trace :=
    fun s hs => hs.tracked.bounded le_rfl
  cases response.header "location" with
  | none => exact ensures_throw hbounded
  | some location =>
      refine Ensures.bind ensures_get fun s₀ => ?_
      refine Ensures.bind (ensures_require fun s hs => hbounded s hs.1) fun _ => ?_
      cases f.py.urljoin s₀.currentUrl location with
      | none => exact ensures_throw fun s hs => hbounded s hs.1.1
      | some nextUrl =>
          refine Ensures.bind (ensures_validate (fun s hs => hs.1.1.tracked) le_rfl) fun target => ?_
          refine ensures_modify fun s hs => ?_
          obtain ⟨before, ⟨⟨hchecked, hsame⟩, hroom⟩, -, rfl, htracked⟩ := hs
          subst hsame
          have hredirects := htracked.redirects
          refine ⟨⟨htracked.requests, ?_, ?_, htracked.first, htracked.genuine⟩, ?_⟩
          · rw [List.length_append, hredirects]
            rfl
          · rw [← hredirects]
            exact hroom
          · exact hchecked.peers.snoc fun response' he => by cases he

/-- Reading keeps the chunks in order and their size within the limit. -/
theorem readChunks_ok {limit size : Nat} {aborted : Option Raised}
    {chunks rest result : List (List UInt8)}
    (h : HttpContentFetcher.readChunks limit aborted chunks size rest = .ok result)
    (hsize : chunks.flatten.length = size) (hlimit : size ≤ limit) :
    result = chunks ++ rest ∧ result.flatten.length ≤ limit := by
  induction rest generalizing chunks size with
  | nil =>
      unfold HttpContentFetcher.readChunks at h
      cases aborted with
      | none =>
          obtain rfl := Except.ok.inj h
          exact ⟨(List.append_nil _).symm, hsize ▸ hlimit⟩
      | some e => cases h
  | cons chunk rest ih =>
      unfold HttpContentFetcher.readChunks at h
      split at h
      · cases h
      next hroom =>
        obtain ⟨hresult, hle⟩ := ih h (by simp [← hsize]) (by omega)
        exact ⟨by simpa using hresult, hle⟩

theorem readBody_ok {body : List UInt8}
    (h : HttpContentFetcher.readBody request response = .ok body) :
    body = response.chunks.flatten ∧ body.length ≤ request.maxResponseBytes := by
  obtain ⟨chunks, hchunks, h⟩ := bind_ok_iff.mp h
  obtain ⟨-, -, h⟩ := bind_ok_iff.mp h
  obtain rfl := pure_ok_iff.mp h
  obtain ⟨rfl, hle⟩ := readChunks_ok hchunks rfl (Nat.zero_le _)
  exact ⟨rfl, hle⟩

/-- An artifact that is made is the one that was given, and its content state is consistent. -/
theorem make_ok {py : Builtins} {a made : FetchArtifact} (h : a.make py = .ok made) :
    made = a ∧ (a.status = .succeeded → a.body ≠ [] ∧ a.contentHash = some (py.sha256 a.body))
      ∧ (a.status ≠ .succeeded → a.body = [] ∧ a.error.isSome = true) := by
  unfold FetchArtifact.make at h
  split at h
  next hstatus =>
    obtain ⟨_, hcheck, h⟩ := bind_ok_iff.mp h
    have hcheck := check_eq_ok.mp hcheck
    simp only [Bool.and_eq_true, decide_eq_true_eq] at hcheck
    exact ⟨(pure_ok_iff.mp h).symm, fun _ => ⟨by simpa using hcheck.1.1, hcheck.1.2⟩,
      fun hne => absurd hstatus hne⟩
  next hstatus =>
    obtain ⟨_, hcheck, h⟩ := bind_ok_iff.mp h
    have hcheck := check_eq_ok.mp hcheck
    simp only [Bool.and_eq_true] at hcheck
    exact ⟨(pure_ok_iff.mp h).symm, fun hs => absurd hs hstatus,
      fun _ => ⟨by simpa using hcheck.1.1, hcheck.2⟩⟩

/-- What a block that may `continue` leaves. -/
def AfterTurn (f : HttpContentFetcher) (request : FetchRequest) (k : Nat) :
    Option FetchArtifact → FetchState → Prop
  | none, s => AtTop f request (k + 1) s
  | some a, s => Tracked f request k 1 s ∧ a.status = .succeeded ∧ Succeeded f request a s.trace

theorem AfterTurn.bounded {result : Option FetchArtifact} {s : FetchState}
    (h : AfterTurn f request k result s) : Bounded f request s.trace := by
  cases result with
  | none => exact h.tracked.bounded (Nat.zero_le 1)
  | some a => exact h.1.bounded le_rfl

theorem Checked.bounded {s : FetchState} (h : Checked f request k response s) :
    Bounded f request s.trace := h.tracked.bounded le_rfl

theorem ensures_checkStatus :
    Ensures (Checked f request k response) (HttpContentFetcher.checkStatus response)
      (fun _ s => Checked f request k response s ∧ response.statusCode < 400)
      (fun s => Bounded f request s.trace) := by
  refine Ensures.bind (ensures_require fun s hs => hs.bounded) fun _ => ?_
  exact Ensures.weaken (ensures_require fun s hs => hs) (fun s hs => hs.1) (fun _ s hs => hs)
    fun s hs => hs.bounded

/-- The status and the media type are acceptable. -/
structure Acceptable (f : HttpContentFetcher) (request : FetchRequest) (k : Nat) (response : Response)
    (s : FetchState) : Prop where
  checked : Checked f request k response s
  status : response.statusCode < 400
  mediaType : s.mediaType = some (f.mediaTypeOf response)
  allowed : f.mediaTypeOf response ∈ allowedMediaTypes

theorem ensures_checkMediaType :
    Ensures (fun s => Checked f request k response s ∧ response.statusCode < 400)
      (f.checkMediaType response) (fun _ => Acceptable f request k response)
      (fun s => Bounded f request s.trace) := by
  refine Ensures.bind (ensures_modify (S := fun s => Checked f request k response s
    ∧ response.statusCode < 400 ∧ s.mediaType = some (f.mediaTypeOf response)) fun s hs => ?_)
    fun _ => ?_
  · obtain ⟨hchecked, hlt⟩ := hs
    exact ⟨⟨⟨hchecked.tracked.requests, hchecked.tracked.redirects, hchecked.tracked.room,
      hchecked.tracked.first,
      hchecked.tracked.genuine⟩, hchecked.peers, hchecked.last⟩, hlt, rfl⟩
  · refine Ensures.weaken (ensures_require fun s hs => hs) (fun s hs => hs) ?_
      fun s hs => hs.1.bounded
    intro _ s hs
    exact ⟨hs.1.1, hs.1.2.1, hs.1.2.2, hs.2⟩

theorem ensures_checkDeclaredLength :
    Ensures (Acceptable f request k response) (f.checkDeclaredLength request response)
      (fun _ => Acceptable f request k response) (fun s => Bounded f request s.trace) := by
  unfold HttpContentFetcher.checkDeclaredLength
  cases response.header "content-length" with
  | none => exact ensures_pure fun s hs => hs
  | some declared =>
      cases hsize : f.py.int declared with
      | none =>
          simp only [hsize]
          exact ensures_throw fun s hs => hs.checked.bounded
      | some size =>
          simp only [hsize]
          exact Ensures.weaken (ensures_require fun s hs => hs) (fun s hs => hs)
            (fun _ s hs => hs.1) fun s hs => hs.checked.bounded

/-- The block around a response, from the moment it has come. -/
theorem ensures_receive :
    Ensures (Answered f request k response) (f.receive request hop response) (AfterTurn f request k)
      (fun s => Bounded f request s.trace) := by
  unfold HttpContentFetcher.receive
  refine Ensures.bind (ensures_modify (S := Answered f request k response) fun s hs => ?_) fun _ => ?_
  · exact ⟨⟨hs.tracked.requests, hs.tracked.redirects, hs.tracked.room, hs.tracked.first, hs.tracked.genuine⟩,
      hs.last⟩
  refine Ensures.bind ensures_validatePeer fun _ => ?_
  refine Ensures.bind ensures_get fun s₀ => ?_
  refine Ensures.bind (ensures_validate (fun s hs => hs.1.1) le_rfl) fun target => ?_
  -- from here on the trace ends with this response and the validation of its URL
  refine (?_ : Ensures (Checked f request k response) _ (AfterTurn f request k)
    fun s => Bounded f request s.trace).weaken ?_ (fun _ _ hs => hs) fun _ hs => hs
  · by_cases hredirect : response.statusCode ∈ redirectStatuses
    · rw [if_pos hredirect]
      exact Ensures.bind ensures_followRedirect fun _ => ensures_pure fun s hs => hs
    · rw [if_neg hredirect]
      refine Ensures.bind ensures_checkStatus fun _ => ?_
      refine Ensures.bind ensures_checkMediaType fun _ => ?_
      refine Ensures.bind ensures_checkDeclaredLength fun _ => ?_
      refine Ensures.bind (ensures_ofExcept fun s hs => hs.checked.bounded) fun body => ?_
      refine Ensures.bind ensures_get fun s₁ => ?_
      refine Ensures.bind (ensures_ofExcept fun s hs => hs.1.1.checked.bounded) fun artifact => ?_
      refine ensures_pure fun s hs => ?_
      obtain ⟨⟨⟨hacceptable, hbody⟩, rfl⟩, hmake⟩ := hs
      obtain ⟨rfl, hgood, -⟩ := make_ok hmake
      obtain ⟨hflatten, hsize⟩ := readBody_ok hbody
      obtain ⟨before, target', htrace, hurl⟩ := hacceptable.checked.last
      refine ⟨hacceptable.checked.tracked, rfl, ⟨hacceptable.checked.peers, ?_, (hgood rfl).1,
        hsize, (hgood rfl).2⟩⟩
      exact ⟨before, response, target', htrace, hurl.symm, rfl, hredirect, hacceptable.status,
        hacceptable.mediaType, hacceptable.allowed, hflatten⟩
  · rintro s ⟨before, ⟨⟨htracked, hpeers, earlier, htrace⟩, rfl⟩, hurl, rfl, htracked'⟩
    refine ⟨htracked', hpeers.snoc fun response' he => (by cases he), earlier, target, ?_, hurl⟩
    show s₀.trace ++ [_] = _
    rw [htrace, List.append_assoc]
    rfl

/-- A hop's request, sent right after the validation of its URL. -/
theorem ensures_exchange :
    Ensures (fun s => ∃ before target, AtTop f request k before ∧ target.url = before.currentUrl
        ∧ s = { before with trace := before.trace ++ [.validated target] }
        ∧ Tracked f request k 0 s)
      (f.exchange request hop) (AfterTurn f request k) (fun s => Bounded f request s.trace) := by
  unfold HttpContentFetcher.exchange
  refine Ensures.bind ensures_get fun s₀ => ?_
  refine Ensures.bind (ensures_modify (S := fun s => Tracked f request k 1 s ∧ PublicPeers f s.trace)
    fun s hs => ?_) fun _ => ?_
  · obtain ⟨⟨before, target, htop, hurl, rfl, htracked⟩, rfl⟩ := hs
    refine ⟨⟨?_, htracked.redirects, htracked.room, ?_, ?_⟩, ?_⟩
    · have hrequests := htracked.requests
      rw [List.countP_append, hrequests]
      rfl
    · show ValidatedFirst (before.trace ++ [.validated target] ++ [.requested before.currentUrl])
      rw [← hurl]
      exact htracked.first.request
    · intro target' hmem
      obtain hmem | hmem := List.mem_append.mp hmem
      · exact htracked.genuine target' hmem
      · cases List.mem_singleton.mp hmem
    · refine PublicPeers.snoc ?_ fun response' he => by cases he
      exact htop.peers.snoc fun response' he => by cases he
  refine Ensures.bind (ensures_ofExcept fun s hs => hs.1.bounded le_rfl) fun response => ?_
  refine Ensures.bind (ensures_modify (S := Answered f request k response) fun s hs => ?_) fun _ => ?_
  · obtain ⟨⟨htracked, hpeers⟩, -⟩ := hs
    refine ⟨⟨?_, htracked.redirects, htracked.room, htracked.first.snoc rfl, ?_⟩, s.trace, rfl, hpeers⟩
    · simpa [Event.isRequest] using htracked.requests
    · intro target' hmem
      obtain hmem | hmem := List.mem_append.mp hmem
      · exact htracked.genuine target' hmem
      · cases List.mem_singleton.mp hmem
  exact Ensures.exiting ensures_receive fun result s hs => hs.bounded

/-- One turn of the loop. -/
theorem ensures_turn (hop : Hop) :
    Ensures (AtTop f request k) (f.turn request hop) (AfterTurn f request k)
      (fun s => Bounded f request s.trace) := by
  have hbounded : ∀ s, AtTop f request k s → Bounded f request s.trace :=
    fun s hs => hs.tracked.bounded (Nat.zero_le 1)
  unfold HttpContentFetcher.turn
  refine Ensures.bind (ensures_require hbounded) fun _ => ?_
  refine Ensures.bind ensures_get fun s₀ => ?_
  refine Ensures.bind (ensures_validate (fun s hs => hs.1.1.tracked) (Nat.zero_le 1)) fun target => ?_
  refine Ensures.bind (ensures_await fun s hs => ?_) fun _ => ?_
  · obtain ⟨before, -, -, -, htracked⟩ := hs
    exact htracked.bounded (Nat.zero_le 1)
  refine Ensures.exiting (Ensures.translating ?_) fun result s hs => hs.bounded
  refine Ensures.weaken ensures_exchange ?_ (fun _ _ hs => hs) fun _ hs => hs
  rintro s ⟨before, ⟨⟨htop, -⟩, rfl⟩, hurl, rfl, htracked⟩
  exact ⟨s₀, target, htop, hurl, rfl, htracked⟩

/-- **The loop.** By induction on the turns that are left; each starts where one continued. -/
theorem ensures_loop {hops : Nat → Hop} (n : Nat) :
    Ensures (AtTop f request k) (f.loop request hops n)
      (fun a s => Bounded f request s.trace ∧ a.status = .succeeded ∧ Succeeded f request a s.trace)
      (fun s => Bounded f request s.trace) := by
  induction n generalizing k with
  | zero => exact ensures_throw fun s hs => hs.tracked.bounded (Nat.zero_le 1)
  | succ n ih =>
      refine Ensures.bind ensures_get fun s₀ => ?_
      refine Ensures.bind (Ensures.weaken (ensures_turn (k := k) _) (fun s hs => hs.1)
        (fun _ _ hs => hs) fun _ hs => hs) fun result => ?_
      cases result with
      | none => exact ih
      | some a => exact ensures_pure fun s hs => ⟨hs.1.bounded le_rfl, hs.2⟩

/-- The loop ends by itself: with a turn for each redirect that is left and one more, further
turns make no difference. -/
theorem loop_succ {hops : Nat → Hop} {n : Nat} {s : FetchState} (hs : AtTop f request k s)
    (hn : request.maxRedirects + 1 ≤ k + n) :
    (f.loop request hops (n + 1)).call s = (f.loop request hops n).call s := by
  induction n generalizing k s with
  | zero =>
      have hroom := hs.tracked.room
      omega
  | succ n ih =>
      have hturn := ensures_turn (hops s.redirects.length) s hs
      rw [HttpContentFetcher.loop, HttpContentFetcher.loop, call_bind, call_bind, call_get]
      simp only
      rw [call_bind, call_bind]
      rcases hcall : (f.turn request (hops s.redirects.length)).call s with ⟨result, t⟩
      rw [hcall] at hturn
      cases result with
      | error e => rfl
      | ok result =>
          cases result with
          | some a => rfl
          | none => exact ih hturn (by omega)

/-! ## The fetch -/

/-- An artifact that is not a success carries an error and nothing else. -/
structure NotSucceeded (a : FetchArtifact) : Prop where
  status : a.status = .failed ∨ a.status = .blocked
  empty : a.body = []
  error : a.error.isSome = true

theorem ensures_failure {now : Time} {status : FetchStatus} {error : TypedError}
    (hstatus : status = .failed ∨ status = .blocked) :
    Ensures (fun s => Bounded f request s.trace) (f.failure request now status error)
      (fun a s => Bounded f request s.trace ∧ NotSucceeded a)
      (fun s => Bounded f request s.trace) := by
  unfold HttpContentFetcher.failure
  refine Ensures.bind ensures_get fun s₀ => ?_
  refine Ensures.weaken (ensures_ofExcept fun s hs => hs) (fun s hs => hs) ?_ fun s hs => hs.1
  rintro a s ⟨⟨hbounded, rfl⟩, hmake⟩
  obtain ⟨rfl, -, -⟩ := make_ok hmake
  exact ⟨hbounded, hstatus, rfl, rfl⟩

/-- What `_fetch_within_deadline` returns. -/
theorem ensures_fetchWithinDeadline (env : Environment) :
    Ensures (AtTop f request k) (f.fetchWithinDeadline env request)
      (fun a s => Bounded f request s.trace
        ∧ (a.status = .succeeded ∧ Succeeded f request a s.trace ∨ NotSucceeded a))
      (fun s => Bounded f request s.trace) := by
  unfold HttpContentFetcher.fetchWithinDeadline
  refine Ensures.tryCatch (E := fun s => Bounded f request s.trace)
    (Ensures.weaken (ensures_loop _) (fun _ hs => hs) (fun a s hs => ⟨hs.1, .inl hs.2⟩)
      fun _ hs => hs) fun e => ?_
  split
  · exact Ensures.weaken (ensures_failure (.inl rfl)) (fun _ hs => hs)
      (fun a s hs => ⟨hs.1, .inr hs.2⟩) fun _ hs => hs
  · exact Ensures.weaken (ensures_failure (.inr rfl)) (fun _ hs => hs)
      (fun a s hs => ⟨hs.1, .inr hs.2⟩) fun _ hs => hs
  · exact ensures_throw fun _ hs => hs

theorem deadlineFailure_notSucceeded (py : Builtins) {now : Time} {a : FetchArtifact}
    (h : (HttpContentFetcher.deadlineFailure request now).make py = .ok a) : NotSucceeded a := by
  obtain ⟨rfl, -, -⟩ := make_ok h
  exact ⟨.inl rfl, rfl, rfl⟩

/--
**Redirect chains are validated hop by hop**, whatever the servers, the resolver
and the clock do.
-/
theorem fetch_validates_every_hop (f : HttpContentFetcher) (env : Environment)
    (request : FetchRequest) :
    Bounded f request (f.fetch env request).2
      ∧ ∀ a, (f.fetch env request).1 = .ok a →
        a.status = .succeeded ∧ Succeeded f request a (f.fetch env request).2
          ∨ NotSucceeded a := by
  have hnil : Bounded f request [] :=
    ⟨Nat.zero_le _, validatedFirst_nil, fun _ hmem => absurd hmem List.not_mem_nil⟩
  have htop : AtTop f request 0 { currentUrl := request.url } :=
    ⟨⟨rfl, rfl, Nat.zero_le _, hnil.first, hnil.genuine⟩, fun _ hmem => absurd hmem List.not_mem_nil⟩
  have hrun := ensures_fetchWithinDeadline env _ htop
  unfold HttpContentFetcher.fetch
  split
  · exact ⟨hnil, fun a ha => .inr (deadlineFailure_notSucceeded f.py ha)⟩
  · rcases hcall : (f.fetchWithinDeadline env request).call { currentUrl := request.url }
      with ⟨result, s⟩
    rw [hcall] at hrun
    cases result with
    | ok a =>
        refine ⟨hrun.1, fun a' ha => ?_⟩
        obtain rfl := Except.ok.inj ha
        exact hrun.2
    | error e =>
        cases e with
        | timeout | expired =>
            exact ⟨hrun, fun a ha => .inr (deadlineFailure_notSucceeded f.py ha)⟩
        | typed | blocked | network | other =>
            exact ⟨hrun, fun a ha => by cases ha⟩

/-! ## A redirect that is followed -/

/-- The library functions on the texts of one fetch. -/
def plainText : Builtins where
  urlsplit url :=
    if url = "https://a.org/" then some ⟨"https", none, none, some "a.org", none⟩
    else if url = "https://b.org/" then some ⟨"https", none, none, some "b.org", none⟩
    else none
  urljoin _ location := some location
  lower text := text
  idna host := some host
  ipAddress text := if text = "8.8.8.8" then some ⟨"8.8.8.8", true⟩ else none
  int _ := none
  sha256 _ := "8f434346648f6b96df89dda901c5176b10a6d83961dd3c1ac88b59b2dc327aa4"

/-- A fetcher with that reading of text. -/
def plainFetcher : HttpContentFetcher := ⟨{}, plainText⟩

/-- A response from the public address. -/
def fromPublic (statusCode : Nat) (headers : List (String × String)) : Response where
  statusCode := statusCode
  headers := headers
  networkStream := some ⟨some (.tuple ["8.8.8.8"]), none⟩
  chunks := [[104], [105]]

/-- A hop on which every name resolves to the public address. -/
def publicHop (response : Response) : Hop where
  now := 0
  resolved := .answered ["8.8.8.8"]
  resolvedAgain := .answered ["8.8.8.8"]
  resolvedNext := .answered ["8.8.8.8"]
  response := .ok response
  fetchedAt := 1

/-- The first host redirects to the second, which answers. -/
def oneRedirect : Environment where
  started := 0
  failed := 1
  hops k := if k = 0 then publicHop (fromPublic 301 [("location", "https://b.org/")])
    else publicHop (fromPublic 200 [("content-type", "text/html")])

/-- A request for the first host. -/
def sampleRequest : FetchRequest where
  url := "https://a.org/"
  deadline := 10
  required := by decide

/-- The artifact of that fetch. -/
def fetchedPage : FetchArtifact where
  requestUrl := "https://a.org/"
  finalUrl := "https://b.org/"
  status := .succeeded
  httpStatus := some 200
  mediaType := some "text/html"
  body := [104, 105]
  contentHash := some "8f434346648f6b96df89dda901c5176b10a6d83961dd3c1ac88b59b2dc327aa4"
  fetchedAt := 1
  redirects := ["https://b.org/"]
  responseHeaders := [("content-type", "text/html")]

theorem fetch_validates_every_hop_redirect :
    (plainFetcher.fetch oneRedirect sampleRequest).2.countP Event.isRequest = 2
      ∧ Succeeded plainFetcher sampleRequest fetchedPage
        (plainFetcher.fetch oneRedirect sampleRequest).2 := by
  refine ⟨by decide +kernel, ?_⟩
  obtain ⟨-, hsucceeded⟩ | hnot :=
    (fetch_validates_every_hop plainFetcher oneRedirect sampleRequest).2 fetchedPage
      (by decide +kernel)
  · exact hsucceeded
  · obtain h | h := hnot.status <;> cases h

end Sana.Fetch
