import Mathlib.Algebra.Order.Ring.Rat
import Sana.Lib.Method
import Sana.ModelGateway.Domain

/-!
# The gateway

`generate` asks a provider for an answer, parses it, and asks once more if the answer cannot be
parsed. Each of the two goes through `_invoke`, which repeats a call that failed in a way worth
repeating. A call is reserved before it is made: by the audit sink if the gateway has one, else in
the budget the caller passes.

What the outside does is given as turns, one for each time round the loop of `_invoke`: two
readings of the clock, what the audit sink returns or raises, and what comes of the provider. The
object the methods change is the budget, with a trace of what the outside was told.
-/

namespace Sana.ModelGateway

open Sana.Lib

/-! ## Exceptions -/

/-- What can be raised around a call. -/
inductive Raised
  | exn (error : Exn)
  | timeoutError
  /-- `asyncio.CancelledError`. -/
  | cancelled
  | attributeError (name : String)
  | assertionError
deriving DecidableEq, Repr

namespace Raised

/-- The `TypedError` it is; an `InvariantViolation` is one. -/
def typed? : Raised → Option TypedError
  | .exn (.typed error) => some error
  | .exn (.invariant message code) => some ⟨.permanent, code, message, false⟩
  | _ => none

def ofTyped (error : TypedError) : Raised := .exn (.typed error)

end Raised

/-- What `except (ValueError, TypeError, KeyError)` catches. -/
def unparsable : Exn → Bool
  | .valueError _ => true
  | .typeError _ => true
  | .keyError _ => true
  | _ => false

/-- `ModelBudgetExceeded`. -/
def modelBudgetExceeded (limit : String) : Raised :=
  .ofTyped ⟨.budget, "model_budget_exceeded", "Model budget exceeded: " ++ limit, false⟩

/-- `ModelDeadlineExceeded`. -/
def modelDeadlineExceeded : Raised :=
  .ofTyped ⟨.budget, "model_deadline_exceeded",
    "Model call cannot start after the run deadline", false⟩

/-- `ModelOutputError`. -/
def modelOutputError (message : String) : Raised :=
  .ofTyped ⟨.modelOutput, "invalid_structured_output", Text.strip message, false⟩

/-- What a provider that runs out of its time is turned into. -/
def modelProviderTimeout : TypedError :=
  ⟨.transient, "model_provider_timeout", "Model provider exceeded its wall-clock budget", true⟩

/-- `RedactedInvocationError.from_exception`. `ErrorCategory` has no `INFRASTRUCTURE`. -/
def RedactedInvocationError.fromException (raised : Raised) :
    Except Raised RedactedInvocationError :=
  match raised.typed? with
  | some error => .ok (.ofTyped error)
  | none => match raised with
    | .cancelled => .ok ⟨ErrorCategory.cancelled.value, "model_call_cancelled", false⟩
    | _ => .error (.attributeError "INFRASTRUCTURE")

/-! ## Configuration, requests and budgets -/

/-- `RoleConfig`, with the checks of its constructor. -/
structure RoleConfig where
  provider : String
  model : String
  temperature : Rat
  maxOutputTokens : Nat
  maxRetries : Nat
  requestTimeoutSeconds : Rat
  outputFormat : OutputFormat
  thinkingMode : ThinkingMode
  promptTemplateVersion : String
  parserSchemaVersion : String
  named : Text.isBlank provider = false ∧ Text.isBlank model = false
  limited : 1 ≤ maxOutputTokens
  timed : 0 < requestTimeoutSeconds
  versioned : Text.isBlank promptTemplateVersion = false ∧ Text.isBlank parserSchemaVersion = false

/-- The constructor of `ModelRequest`. -/
def ModelRequest.make (r : ModelRequest) : Except Exn ModelRequest :=
  if Text.isBlank r.model = true ∨ r.messages = [] then
    .error (.valueError "Model and messages are required")
  else if r.maxOutputTokens < 1 then
    .error (.valueError "max_output_tokens must be positive")
  else if Text.isBlank r.promptTemplateVersion = true then
    .error (.valueError "prompt_template_version cannot be empty")
  else if Text.isBlank r.parserSchemaVersion = true then
    .error (.valueError "parser_schema_version cannot be empty")
  else .ok r

/-- The request of a role. -/
def RoleConfig.request (config : RoleConfig) (role : ModelRole) (messages : List ModelMessage)
    (temperature : Rat) : ModelRequest where
  role := role
  model := config.model
  messages := messages
  temperature := temperature
  maxOutputTokens := config.maxOutputTokens
  outputFormat := config.outputFormat
  thinkingMode := config.thinkingMode
  promptTemplateVersion := config.promptTemplateVersion
  parserSchemaVersion := config.parserSchemaVersion

/-- `ModelCallBudget`. -/
structure ModelCallBudget where
  maxCalls : Nat
  maxTotalTokens : Nat
  usedCalls : Nat := 0
  usedPromptTokens : Nat := 0
  usedCompletionTokens : Nat := 0
deriving DecidableEq, Repr

namespace ModelCallBudget

def usedTotalTokens (b : ModelCallBudget) : Nat := b.usedPromptTokens + b.usedCompletionTokens

def reserveCall (b : ModelCallBudget) : Except Raised ModelCallBudget :=
  if b.usedCalls + 1 > b.maxCalls then .error (modelBudgetExceeded "calls")
  else .ok { b with usedCalls := b.usedCalls + 1 }

/-- `record_tokens`; the counts of a response are not negative. -/
def recordTokens (b : ModelCallBudget) (promptTokens completionTokens : Nat) :
    Except Raised ModelCallBudget :=
  if b.usedTotalTokens + promptTokens + completionTokens > b.maxTotalTokens then
    .error (modelBudgetExceeded "tokens")
  else .ok { b with
    usedPromptTokens := b.usedPromptTokens + promptTokens
    usedCompletionTokens := b.usedCompletionTokens + completionTokens }

end ModelCallBudget

/-- A deadline; a naive one has no time zone. -/
structure Deadline where
  instant : Time
  aware : Bool := true
deriving DecidableEq, Repr

/-- `_MODEL_COMPLETION_MARGIN_SECONDS`. -/
def completionMarginSeconds : Rat := 2

/-- `_remaining_seconds`, at a reading of the clock. -/
def remainingSeconds (deadline : Deadline) (now : Time) : Except Raised Rat :=
  if deadline.aware = false then
    .error (.exn (.valueError "Model deadline must be timezone-aware"))
  else
    let remaining := ((deadline.instant - now : Int) : Rat) / 1000000
    if remaining ≤ 0 then .error modelDeadlineExceeded else .ok remaining

/-- `_remaining_seconds` and the check of the margin after it. -/
def remainingBeforeMargin (deadline : Deadline) (now : Time) : Except Raised Rat := do
  let remaining ← remainingSeconds deadline now
  if remaining ≤ completionMarginSeconds then throw modelDeadlineExceeded else return remaining

/-! ## One generate -/

namespace Service

/-- What the outside does in one turn of the loop. -/
structure Turn where
  now : Time
  /-- `audit.reuse`. -/
  reuse : Except Raised (Option ReusedModelResponse)
  /-- `audit.start`. -/
  start : Except Raised ModelInvocationReservation
  /-- The clock when the call is reserved. -/
  later : Time
  /-- `provider.invoke`. -/
  outcome : Except Raised ProviderResponse
  /-- `audit.complete`, or `audit.fail`. -/
  sealed : Except Raised Unit

/-- What the outside was told. -/
inductive Event
  | started (callNo : Nat) (reservation : ModelInvocationReservation)
  | called (request : ModelRequest) (timeoutSeconds : Rat)
  | answered (response : ProviderResponse)
  | completed (reservation : ModelInvocationReservation) (response : ProviderResponse)
  | failed (reservation : ModelInvocationReservation) (error : RedactedInvocationError)
deriving DecidableEq, Repr

/-- The budget, the turns taken, and what was told, in order. -/
structure Progress where
  budget : ModelCallBudget
  turn : Nat := 0
  trace : List Event := []
deriving DecidableEq, Repr

abbrev Gatewaying := Method Raised Progress

def tell (event : Event) : Gatewaying Unit := modify fun s => { s with trace := s.trace ++ [event] }

/-- A method of the budget. -/
def spend (f : ModelCallBudget → Except Raised ModelCallBudget) : Gatewaying Unit := do
  let s ← get
  let budget ← Method.ofExcept (f s.budget)
  modify fun s => { s with budget }

/-- `ModelGateway`, less the objects behind the names. -/
structure Gateway where
  providers : List String
  roles : ModelRole → Option RoleConfig
  /-- There is an audit sink. -/
  audited : Bool

/-- The arguments of `_invoke`. -/
structure Invocation where
  request : ModelRequest
  config : RoleConfig
  deadline : Deadline
  context : Option ModelInvocationContext
  callNoStart : Nat

/-- How a turn of the loop ends, with the calls made so far: with a response, or in a failure worth
repeating. -/
inductive Ended
  | answered (response : ProviderResponse) (calls : Nat)
  | again (lastError : Raised) (calls : Nat)
deriving DecidableEq, Repr

section Invoke

variable (g : Gateway) (turns : Nat → Turn) (inv : Invocation)

def nextTurn : Gatewaying Turn := do
  let s ← get
  modify fun s => { s with turn := s.turn + 1 }
  return turns s.turn

/-- A completed response to use instead of a call, or the reservation of a call. -/
def reserve (turn : Turn) (callNo : Nat) :
    Gatewaying (ProviderResponse ⊕ Option ModelInvocationReservation) :=
  if g.audited then
    match inv.context with
    | none => throw (.exn (.valueError
        "Model invocation context is required when audit is enabled"))
    | some _ => do
      match ← Method.ofExcept turn.reuse with
      | some reused => return .inl reused.response
      | none =>
        let reservation ← Method.ofExcept turn.start
        tell (.started callNo reservation)
        return .inr (some reservation)
  else do
    spend ModelCallBudget.reserveCall
    return .inr none

/-- The block that calls the provider. -/
def callProvider (turn : Turn) : Gatewaying ProviderResponse := do
  let providerRemaining ← Method.ofExcept (remainingBeforeMargin inv.deadline turn.later)
  let providerTimeout :=
    min inv.config.requestTimeoutSeconds (providerRemaining - completionMarginSeconds)
  tell (.called inv.request providerTimeout)
  let response ← Method.ofExcept turn.outcome
  tell (.answered response)
  return response

/-- `audit.fail`, if the audit has reserved the call. -/
def failCall (turn : Turn) (reservation : Option ModelInvocationReservation) (raised : Raised) :
    Gatewaying Unit :=
  match reservation with
  | none => return ()
  | some reservation => do
    let error ← Method.ofExcept (RedactedInvocationError.fromException raised)
    Method.ofExcept turn.sealed
    tell (.failed reservation error)

/-- The handlers of that block: raise, or go on with the error. -/
def handle (turn : Turn) (reservation : Option ModelInvocationReservation) (attempt : Nat)
    (raised : Raised) : Gatewaying Raised :=
  match raised with
  | .timeoutError => do
    let error := Raised.ofTyped modelProviderTimeout
    failCall turn reservation error
    if attempt ≥ inv.config.maxRetries then throw error else return error
  | raised => do
    failCall turn reservation raised
    match raised.typed? with
    | none => throw raised
    | some error =>
      if error.retryable = false ∨ attempt ≥ inv.config.maxRetries then throw raised
      else return raised

/-- `audit.complete`, or the tokens in the budget. -/
def settle (turn : Turn) (reservation : Option ModelInvocationReservation)
    (response : ProviderResponse) : Gatewaying Unit :=
  match reservation with
  | some reservation => do
    Method.ofExcept turn.sealed
    tell (.completed reservation response)
  | none => spend fun b => b.recordTokens response.promptTokens response.completionTokens

/-- One time round the loop. -/
def takeTurn (attempt calls : Nat) : Gatewaying Ended := do
  let turn ← nextTurn turns
  let _ ← Method.ofExcept (remainingBeforeMargin inv.deadline turn.now)
  match ← reserve g inv turn (inv.callNoStart + calls + 1) with
  | .inl response => return .answered response calls
  | .inr reservation =>
    let outcome ← tryCatch (Except.ok <$> callProvider inv turn)
      fun raised => Except.error <$> handle inv turn reservation attempt raised
    match outcome with
    | .error lastError => return .again lastError (calls + 1)
    | .ok response =>
      settle turn reservation response
      return .answered response (calls + 1)

/-- The loop, with `left` turns to go. -/
def attempts (attempt calls : Nat) (lastError : Option Raised) :
    (left : Nat) → Gatewaying (ProviderResponse × Nat)
  | 0 => match lastError with
    | none => throw .assertionError
    | some error => throw error
  | left + 1 => do
    match ← takeTurn g turns inv attempt calls with
    | .answered response calls => return (response, calls)
    | .again error calls => attempts (attempt + 1) calls (some error) left

/-- `_invoke`. -/
def invoke : Gatewaying (ProviderResponse × Nat) :=
  if inv.config.provider ∈ g.providers then
    attempts g turns inv 0 0 none (inv.config.maxRetries + 1)
  else throw (.exn (.valueError ("Unknown model provider: " ++ inv.config.provider)))

end Invoke

/-- `StructuredOutputParser`, and the text of the errors it raises. -/
structure Parser (α : Type) where
  parse : String → Except Exn α
  repairInstruction : Exn → String
  /-- `str(error)`. -/
  errorText : Exn → String

/-- `ModelResult`. -/
structure ModelResult (α : Type) where
  text : String
  model : String
  parsed : Option α
  promptTokens : Nat
  completionTokens : Nat
  providerCalls : Nat
  repaired : Bool
  reused : Bool
deriving DecidableEq, Repr

/-- `_result`, with its defaults. -/
def ModelResult.of {α : Type} (response : ProviderResponse) (parsed : Option α) (calls : Nat) :
    ModelResult α where
  text := response.text
  model := response.model
  parsed := parsed
  promptTokens := response.promptTokens
  completionTokens := response.completionTokens
  providerCalls := calls
  repaired := false
  reused := false

/-- The messages of the repair: the answer, and the instruction. -/
def repairMessages {α : Type} (parser : Parser α) (messages : List ModelMessage) (text : String)
    (firstError : Exn) : Except Exn (List ModelMessage) := do
  let answer ← ModelMessage.make .assistant (if text = "" then "<empty>" else text)
  let instruction ← ModelMessage.make .user (parser.repairInstruction firstError)
  return messages ++ [answer, instruction]

/-- An exception of the language, as one that is raised around a call. -/
def raising {α : Type} (r : Except Exn α) : Gatewaying α := Method.ofExcept (r.mapError .exn)

/-- The arguments of `generate`, less the parser and the budget. -/
structure Asking where
  role : ModelRole
  messages : List ModelMessage
  deadline : Deadline
  context : Option ModelInvocationContext

section Generate

variable {α : Type} (g : Gateway) (turns : Nat → Turn) (ask : Asking)

def Asking.invocation (config : RoleConfig) (request : ModelRequest) (callNoStart : Nat) :
    Invocation :=
  ⟨request, config, ask.deadline, ask.context, callNoStart⟩

/-- The handler of the first answer's parser: ask once more. -/
def repair (config : RoleConfig) (parser : Parser α) (response : ProviderResponse) (calls : Nat)
    (firstError : Exn) : Gatewaying (ModelResult α) := do
  let messages ← raising (repairMessages parser ask.messages response.text firstError)
  let request ← raising (config.request ask.role messages 0).make
  let (repaired, repairCalls) ← invoke g turns (ask.invocation config request (max calls 1))
  match parser.parse repaired.text with
  | .error secondError =>
    if unparsable secondError then
      throw (modelOutputError ("Structured output remained invalid after one repair: " ++
        parser.errorText secondError))
    else throw (.exn secondError)
  | .ok parsed => return {
      ModelResult.of repaired (some parsed) (calls + repairCalls) with
      promptTokens := response.promptTokens + repaired.promptTokens
      completionTokens := response.completionTokens + repaired.completionTokens
      repaired := true }

/-- `generate`. -/
def generate (parser : Option (Parser α)) : Gatewaying (ModelResult α) :=
  match g.roles ask.role with
  | none => throw (.exn (.valueError "Model role is not configured"))
  | some config => do
    let request ← raising (config.request ask.role ask.messages config.temperature).make
    let (response, calls) ← invoke g turns (ask.invocation config request 0)
    match parser with
    | none => return { ModelResult.of response none calls with reused := calls == 0 }
    | some parser =>
      match parser.parse response.text with
      | .ok parsed => return ModelResult.of response (some parsed) calls
      | .error firstError =>
        if unparsable firstError then repair g turns ask config parser response calls firstError
        else throw (.exn firstError)

end Generate

end Service

end Sana.ModelGateway
