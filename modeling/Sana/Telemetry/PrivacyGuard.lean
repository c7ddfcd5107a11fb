import Sana.Lib.PyJson

/-!
# The guard of published reports

`ReportPrivacyGuard` reads a report and goes through the value it decodes to.
-/

namespace Sana.Telemetry

open Lib

/-- `_REPORT_FORBIDDEN_KEYS`. -/
def reportForbiddenKeys : List PyStr :=
  ["access_token", "answer", "api_key", "authorization", "content", "cookie", "message", "password",
    "prompt", "provider_response_id", "provider_token", "query", "query_text", "quote",
    "raw_provider", "reasoning", "rendered_url", "reviewed_at", "reviewer_user_id", "secret",
    "snippet", "token", "url"].map PyStr.ofString

/-- The pattern of `_REPORT_SECRET_VALUE`. -/
def reportSecretValue : String :=
  "(?:\\bBearer\\s+[A-Za-z0-9._~+/=-]\x7b8,\x7d|" ++
  "\\b(?:sk|ds|api)[_-][A-Za-z0-9._-]\x7b12,\x7d|" ++
  "https?://[^\\s/:]+:[^\\s/@]+@|" ++
  "[?&](?:access_token|api_key|key|password|secret|token)=[^\\s&#]+|" ++
  "\\b(?:password|secret|token)\\s*[=:]\\s*[^\\s,;]\x7b6,\x7d)"

/-- What the guard uses of the standard library. -/
structure GuardBuiltins (δ : Type) where
  floats : PyJson.Floats δ
  /-- `value == value` and neither of the infinities. -/
  isFinite : δ → Bool
  casefold : PyStr → PyStr
  /-- A pattern, with `re.I`, is found in a string. -/
  search : String → PyStr → Bool

variable {δ : Type} (b : GuardBuiltins δ)

namespace GuardBuiltins

/-- The name is forbidden in some letter case. -/
def Forbidden (key : PyStr) : Prop := b.casefold key ∈ reportForbiddenKeys

instance (key : PyStr) : Decidable (b.Forbidden key) := inferInstanceAs (Decidable (_ ∈ _))

/-- The string matches the credential pattern. -/
def Secret (s : PyStr) : Prop := b.search reportSecretValue s = true

instance (s : PyStr) : Decidable (b.Secret s) := inferInstanceAs (Decidable (_ = _))

end GuardBuiltins

/-- The message of a `ValueError`. -/
def guardError (message : String) (path : PyStr) : PyStr := PyStr.ofString message ++ path

def pathKey (path key : PyStr) : PyStr := path ++ (.scalar '.' :: key)

def pathIndex (path : PyStr) (index : Nat) : PyStr :=
  path ++ PyStr.ofString (String.ofList ('[' :: (Nat.toDigits 10 index ++ [']'])))

mutual

/-- `validate_payload`. -/
def validatePayload (path : PyStr) : PyJson δ → Except PyStr Unit
  | .obj members => validateMembers path members
  | .arr items => validateItems path 0 items
  | .str s =>
      if b.Secret s then .error (guardError "Report contains a credential-like value at " path)
      else .ok ()
  | .real x =>
      if b.isFinite x then .ok ()
      else .error (guardError "Report contains a non-finite number at " path)
  | .null | .bool _ | .int _ => .ok ()

def validateItems (path : PyStr) (index : Nat) : List (PyJson δ) → Except PyStr Unit
  | [] => .ok ()
  | v :: vs => do
      validatePayload (pathIndex path index) v
      validateItems path (index + 1) vs

def validateMembers (path : PyStr) : List (PyStr × PyJson δ) → Except PyStr Unit
  | [] => .ok ()
  | (k, v) :: ms => do
      if b.Forbidden k then
        .error (guardError "Report contains forbidden field at " (pathKey path k))
      validatePayload (pathKey path k) v
      validateMembers path ms

end

/-- What the text of a report says, or nothing where it is no UTF-8 or no JSON. -/
def reportTree (payload : ByteArray) : Option (PyJson δ) :=
  (String.fromUTF8? payload).bind fun text => PyJson.syntaxTree b.floats text.toList

/-- `validate_json_bytes`. -/
def validateJsonBytes (payload : ByteArray) : Except PyStr Unit :=
  match (String.fromUTF8? payload).bind fun text => PyJson.loads b.floats text.toList with
  | some decoded => validatePayload b (PyStr.ofString "$") decoded
  | none => .error (PyStr.ofString "Report is not canonical UTF-8 JSON")

end Sana.Telemetry
