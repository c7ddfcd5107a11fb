import Sana.Shared.Basic

/-!
# Model requests and the calls they cause

What the gateway asks a provider for and what it is answered. A call is made on
behalf of one attempt of one step; the database row that reserves it is in
`Orchestration.Store`.
-/

namespace Sana.ModelGateway

open Sana.Lib

/-- `ModelRole`. -/
inductive ModelRole
  | router | planner | verifier | synthesizer | conversation | memory
deriving DecidableEq, Repr

/-- `MessageRole`. -/
inductive MessageRole
  | system | user | assistant
deriving DecidableEq, Repr

/-- `OutputFormat`. -/
inductive OutputFormat
  | text | jsonObject
deriving DecidableEq, Repr

/-- `ThinkingMode`. -/
inductive ThinkingMode
  | disabled | enabled
deriving DecidableEq, Repr

/-- `ModelInvocationStatus`. -/
inductive ModelInvocationStatus
  | started | completed | failed | abandoned | reused
deriving DecidableEq, Repr

/-- `BillingDisposition`. -/
inductive BillingDisposition
  | notBilled | billed | possiblyBilled
deriving DecidableEq, Repr

/-- `ModelMessage`, with the check of its constructor. -/
@[ext]
structure ModelMessage where
  role : MessageRole
  content : String
  nonblank : Text.isBlank content = false
deriving Repr

instance : DecidableEq ModelMessage := fun _ _ => decidable_of_iff _ ModelMessage.ext_iff.symm

/-- The constructor of `ModelMessage`. -/
def ModelMessage.make (role : MessageRole) (content : String) : Except Exn ModelMessage :=
  if h : Text.isBlank content = false then .ok ⟨role, content, h⟩
  else .error (.valueError "Model message content cannot be empty")

/-- `ModelRequest`. -/
structure ModelRequest where
  role : ModelRole
  model : String
  messages : List ModelMessage
  temperature : Rat
  maxOutputTokens : Nat
  outputFormat : OutputFormat
  thinkingMode : ThinkingMode
  promptTemplateVersion : String
  parserSchemaVersion : String
deriving DecidableEq, Repr

/-- `ModelInvocationContext`: on whose behalf a call is made. -/
structure ModelInvocationContext where
  runId : Uuid
  stepId : Uuid
  stepKey : String
  attemptId : Uuid
  attemptNo : Nat
  inputRefs : List String
deriving DecidableEq, Repr

/-- `ModelInvocationReservation`. -/
structure ModelInvocationReservation where
  id : Uuid
  callNo : Nat
  logicalCallKey : String
deriving DecidableEq, Repr

/-- `ProviderResponse`. -/
structure ProviderResponse where
  text : String
  model : String
  promptTokens : Nat
  completionTokens : Nat
  responseId : Option String
deriving DecidableEq, Repr

/-- `ReusedModelResponse`. -/
structure ReusedModelResponse where
  response : ProviderResponse
  sourceInvocationId : Uuid
deriving DecidableEq, Repr

/-- `RedactedInvocationError`. -/
structure RedactedInvocationError where
  category : String
  code : String
  retryable : Bool
deriving DecidableEq, Repr

/-- `RedactedInvocationError.from_exception`, for a typed error. -/
def RedactedInvocationError.ofTyped (e : TypedError) : RedactedInvocationError :=
  ⟨e.category.value, e.code, e.retryable⟩

end Sana.ModelGateway
