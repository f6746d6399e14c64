import RagStack.Chat.Types

/-!
# Errors of the provider

`OpenAiGatewayError` and `mapOpenAiError`
(`services/api/src/openai/openai-error.mapper.ts`): whatever a request to the provider
throws, its callers see a gateway error. The cause that an error carries is left out.

* `retryable_iff_code`: of the errors that are made here, exactly the rate limit, the time-out and
  the transient errors may be tried again.
-/

namespace RagStack.OpenAi

open RagStack.Worker (Text)
open RagStack.Chat (UsageView)

/-- `OpenAiRequestType` (openai.types.ts, lines 4–7). -/
inductive OpenAiRequestType
  | queryEmbedding | groundedChat | evalGroundedChat
deriving DecidableEq, Repr

/-- `OPENAI_AUTH_ERROR` and so on. -/
inductive OpenAiErrorCode
  | authError | rateLimit | timeout | transientError | invalidRequest | responseEmpty
  | embeddingFailed | chatFailed
deriving DecidableEq, Repr

/-- `OpenAiSafeErrorMetadata` (openai.types.ts, lines 122–127). -/
structure OpenAiSafeErrorMetadata where
  model : Option Text := none
  latencyMs : Option ℤ := none
  providerStatus : Option ℕ := none
  attempts : Option ℕ := none
deriving DecidableEq, Repr

/-- `OpenAiGatewayError` (openai.types.ts, lines 129–156). -/
structure OpenAiGatewayError where
  code : OpenAiErrorCode
  message : String
  requestType : OpenAiRequestType
  retryable : Bool
  metadata : OpenAiSafeErrorMetadata
deriving DecidableEq, Repr

/-- The error classes of the client library that the code tells apart. A
    `connectionTimeout` is a `connection` error too. -/
inductive ApiErrorClass
  | authentication | permissionDenied | rateLimit | connectionTimeout | connection
  | internalServer | badRequest | unprocessableEntity | conflict | notFound
deriving DecidableEq, Repr

/-- What may be thrown: an error of the gateway, one of the client library with its status,
    or any other, such as a `TypeError`. -/
inductive Thrown
  | gateway (error : OpenAiGatewayError)
  | api (kind : ApiErrorClass) (status : Option ℕ)
  | other
deriving DecidableEq, Repr

/-- What `mapOpenAiError` knows of the request. -/
structure RequestInfo where
  requestType : OpenAiRequestType
  model : Option Text := none
  latencyMs : Option ℤ := none

/-- An error of a request that the provider's answer, or none, made fail. -/
def RequestInfo.failure (params : RequestInfo) (code : OpenAiErrorCode) (message : String)
    (retryable : Bool) (providerStatus : Option ℕ) : OpenAiGatewayError where
  code := code
  message := message
  requestType := params.requestType
  retryable := retryable
  metadata :=
    { latencyMs := params.latencyMs, model := params.model, providerStatus := providerStatus }

/-- `mapOpenAiError` (lines 15–115). -/
def mapOpenAiError (params : RequestInfo) : Thrown → OpenAiGatewayError
  | .gateway error => error
  | .api .authentication status | .api .permissionDenied status =>
    params.failure .authError "OpenAI authentication failed" false (some (status.getD 401))
  | .api .rateLimit status =>
    params.failure .rateLimit "OpenAI rate limit exceeded" true (some (status.getD 429))
  | .api .connectionTimeout _ => params.failure .timeout "OpenAI request timed out" true none
  | .api .connection _ =>
    params.failure .transientError "OpenAI request failed with a transient error" true none
  | .api .internalServer status =>
    params.failure .transientError "OpenAI request failed with a transient error" true
      (some (status.getD 500))
  | .api .badRequest status | .api .unprocessableEntity status | .api .conflict status
  | .api .notFound status =>
    params.failure .invalidRequest "OpenAI rejected the request" false (some (status.getD 400))
  | .other => params.failure .transientError "OpenAI request failed unexpectedly" true none

/-- The codes that the policy of retries lets a request be tried again for. -/
def OpenAiErrorCode.transient (code : OpenAiErrorCode) : Bool :=
  code = .rateLimit ∨ code = .timeout ∨ code = .transientError

theorem retryable_iff_code {params : RequestInfo} {thrown : Thrown}
    (h : ∀ error, thrown ≠ .gateway error) :
    (mapOpenAiError params thrown).retryable = (mapOpenAiError params thrown).code.transient := by
  cases thrown with
  | gateway error => exact absurd rfl (h error)
  | api kind status => cases kind <;> rfl
  | other => rfl

/-! ## Usage -/

/-- The counts of a response; the API of chat completions names them otherwise than the
    other one. -/
structure CompletionUsage where
  input_tokens : Option ℕ := none
  prompt_tokens : Option ℕ := none
  output_tokens : Option ℕ := none
  completion_tokens : Option ℕ := none
  total_tokens : Option ℕ := none
  input_cached_tokens : Option ℕ := none
  prompt_cached_tokens : Option ℕ := none
  output_reasoning_tokens : Option ℕ := none
  completion_reasoning_tokens : Option ℕ := none

/-- `OpenAiUsage` (openai.types.ts, lines 50–53). -/
structure OpenAiUsage extends UsageView where
  cachedInputTokens : ℕ := 0
  reasoningTokens : ℕ := 0
deriving DecidableEq, Repr

/-- `OpenAiUsageMapperService.map`. -/
def mapUsage (usage : CompletionUsage) : OpenAiUsage where
  inputTokens := (usage.input_tokens.or usage.prompt_tokens).getD 0
  outputTokens := (usage.output_tokens.or usage.completion_tokens).getD 0
  totalTokens := usage.total_tokens.getD 0
  cachedInputTokens := (usage.input_cached_tokens.or usage.prompt_cached_tokens).getD 0
  reasoningTokens := (usage.output_reasoning_tokens.or usage.completion_reasoning_tokens).getD 0

end RagStack.OpenAi
