import RagStack.Common.Retry
import RagStack.Ingest.Embedder
import RagStack.OpenAi.Gateway

/-!
# Retries of the two provider clients

`executeWithRetry` (`services/api/src/openai/openai-client.service.ts`, lines
62–118) and the loop of `embed_texts` (`app/services/openai_embedding_client.py`,
lines 88–203), which are written for the same policy. Both are the loop of
`Common.Retry`, with different verdicts on what the provider answers.

* `executeWithRetry_spec`: which call decides, what the caller gets of it, and how
  long the client waits.
* `embedTexts_eq_retry`: the worker's client is the same loop.
* `clients_agree_iff`: the worker's client calls at least as often as the API's;
  they call equally often exactly if the answer at which the API's client stops is
  not one of the three that the worker takes for an unknown failure.
-/

namespace RagStack.OpenAi

open RagStack.Common RagStack.Ingest
open RagStack.Worker (Text IngestionError)

/-! ## The client of the API -/

/-- `OpenAiRetryPolicy`. -/
structure OpenAiRetryPolicy where
  maxRetries : ℕ := 2
  baseDelayMs : ℕ := 250
deriving DecidableEq, Repr

/-- `computeRetryDelayMs` (lines 111–114). -/
def OpenAiRetryPolicy.computeRetryDelayMs (policy : OpenAiRetryPolicy) (attempt : ℕ) : ℕ :=
  min 2000 (policy.baseDelayMs * 2 ^ max 0 (attempt - 1))

/-- `OpenAiClientResult`, for any response. -/
structure ClientResult (TResponse : Type) where
  attempts : ℕ
  response : TResponse

/-- `mapped.metadata.attempts = attempt`. -/
def OpenAiGatewayError.withAttempts (error : OpenAiGatewayError) (attempt : ℕ) :
    OpenAiGatewayError :=
  { error with metadata := { error.metadata with attempts := some attempt } }

variable {TResponse : Type}

/-- The `while` loop (lines 69–106) with `left` attempts left after `attempt` ones, and the
    error after it; `fn` is what the calls return or throw, and the delays come first. -/
def retryLoop (policy : OpenAiRetryPolicy) (params : RequestInfo)
    (fn : ℕ → Except Thrown TResponse) :
    (left attempt : ℕ) → List ℕ × Except OpenAiGatewayError (ClientResult TResponse)
  | 0, attempt =>
    ([], .error
      { code := .transientError, message := "OpenAI retry loop exited unexpectedly"
        requestType := params.requestType, retryable := true
        metadata := { attempts := some attempt, model := params.model } })
  | left + 1, attempt =>
    let attempt := attempt + 1
    match fn attempt with
    | .ok response => ([], .ok { attempts := attempt, response := response })
    | .error error =>
      let mapped := (mapOpenAiError params error).withAttempts attempt
      if mapped.retryable = false ∨ policy.maxRetries + 1 ≤ attempt then ([], .error mapped)
      else
        let rest := retryLoop policy params fn left attempt
        (policy.computeRetryDelayMs attempt :: rest.1, rest.2)

/-- `executeWithRetry`, with the delays between its calls. -/
def executeWithRetry (policy : OpenAiRetryPolicy) (params : RequestInfo)
    (fn : ℕ → Except Thrown TResponse) :
    List ℕ × Except OpenAiGatewayError (ClientResult TResponse) :=
  retryLoop policy params fn (policy.maxRetries + 1) 0

/-- The API tries again after this error. -/
def retriesThrown (params : RequestInfo) (thrown : Thrown) : Bool :=
  (mapOpenAiError params thrown).retryable

/-- What the caller gets of the answer to a call. -/
def answerOf (params : RequestInfo) (attempt : ℕ) :
    Except Thrown TResponse → Except OpenAiGatewayError (ClientResult TResponse)
  | .ok response => .ok { attempts := attempt, response := response }
  | .error error => .error ((mapOpenAiError params error).withAttempts attempt)

theorem computeRetryDelayMs_eq (policy : OpenAiRetryPolicy) :
    policy.computeRetryDelayMs = backoff 2000 policy.baseDelayMs := by
  funext attempt
  rw [OpenAiRetryPolicy.computeRetryDelayMs, backoff, Nat.zero_max]

/-- The loop is that of the library: its last error is not that after the loop. -/
theorem retryLoop_eq (policy : OpenAiRetryPolicy) (params : RequestInfo)
    (fn : ℕ → Except Thrown TResponse) :
    ∀ {left attempt : ℕ}, left + attempt = policy.maxRetries →
      retryLoop policy params fn (left + 1) attempt =
        let r := retryFrom (retriesThrown params) policy.computeRetryDelayMs fn left (attempt + 1)
        (r.waits, answerOf params r.attempts r.result) := by
  intro left
  induction left with
  | zero =>
    intro attempt h
    rw [retryLoop]
    simp only [retryFrom]
    cases hfn : fn (attempt + 1) with
    | ok response => rfl
    | error error =>
      have hlast : ((mapOpenAiError params error).withAttempts (attempt + 1)).retryable = false ∨
          policy.maxRetries + 1 ≤ attempt + 1 := Or.inr (by omega)
      simp only [if_pos hlast, answerOf]
  | succ left ih =>
    intro attempt h
    rw [retryLoop, retryFrom]
    cases hfn : fn (attempt + 1) with
    | ok response => rfl
    | error error =>
      have hretryable : ((mapOpenAiError params error).withAttempts (attempt + 1)).retryable =
          retriesThrown params error := rfl
      have hmore : ¬ policy.maxRetries + 1 ≤ attempt + 1 := by omega
      cases hretry : retriesThrown params error with
      | false => simp [hretryable, hretry, answerOf]
      | true => simp [hretryable, hretry, hmore, ih (by omega : left + (attempt + 1) = policy.maxRetries)]

theorem executeWithRetry_eq_retry (policy : OpenAiRetryPolicy) (params : RequestInfo)
    (fn : ℕ → Except Thrown TResponse) :
    (executeWithRetry policy params fn).1 = (retry (retriesThrown params)
        (backoff 2000 policy.baseDelayMs) fn policy.maxRetries).waits ∧
      (executeWithRetry policy params fn).2 = answerOf params
        (retry (retriesThrown params) (backoff 2000 policy.baseDelayMs) fn
          policy.maxRetries).attempts
        (retry (retriesThrown params) (backoff 2000 policy.baseDelayMs) fn
          policy.maxRetries).result := by
  rw [executeWithRetry, retryLoop_eq policy params fn (Nat.add_zero _), computeRetryDelayMs_eq]
  exact ⟨rfl, rfl⟩

theorem not_settles_iff {params : RequestInfo} {answer : Except Thrown TResponse} :
    ¬ Settles (retriesThrown params) answer ↔
      ∃ thrown, answer = .error thrown ∧ (mapOpenAiError params thrown).retryable = true := by
  cases answer with
  | ok response => simp [Settles]
  | error thrown => simp [Settles, retriesThrown]

/-- The first answer that is a response, or an error that may not be tried again,
    decides, and else that to the last call allowed. The caller gets that answer with
    the number of calls made. The waits between the calls never shrink and stay
    within two seconds. -/
theorem executeWithRetry_spec (policy : OpenAiRetryPolicy) (params : RequestInfo)
    (fn : ℕ → Except Thrown TResponse) :
    ∃ k, 1 ≤ k ∧ k ≤ policy.maxRetries + 1 ∧
      (∀ i, 1 ≤ i → i < k → ∃ thrown, fn i = .error thrown ∧
        (mapOpenAiError params thrown).retryable = true) ∧
      (k ≤ policy.maxRetries → ∀ thrown, fn k = .error thrown →
        (mapOpenAiError params thrown).retryable = false) ∧
      (executeWithRetry policy params fn).2 = answerOf params k (fn k) ∧
      (executeWithRetry policy params fn).1.length = k - 1 ∧
      (executeWithRetry policy params fn).1.Pairwise (· ≤ ·) ∧
      ∀ delay ∈ (executeWithRetry policy params fn).1, delay ≤ 2000 := by
  obtain ⟨hfirst, hlast, hresult, hwaits, hbefore, hsettled⟩ :=
    retry_spec (retriesThrown params) (backoff 2000 policy.baseDelayMs) fn policy.maxRetries
  obtain ⟨hdelays, hanswer⟩ := executeWithRetry_eq_retry policy params fn
  rw [hwaits] at hdelays
  refine ⟨_, hfirst, by omega, fun i hi hlt => not_settles_iff.mp (hbefore i hi hlt),
    fun hle thrown hthrown => ?_, by rw [hanswer, hresult], ?_, ?_, ?_⟩
  · have hdecides := hsettled (by omega)
    rw [hthrown] at hdecides
    exact hdecides
  · rw [hdelays, List.length_map, List.length_range']
  · rw [hdelays, List.pairwise_map]
    exact List.pairwise_le_range'.imp fun hle => backoff_mono _ _ hle
  · intro delay hdelay
    rw [hdelays] at hdelay
    obtain ⟨i, -, rfl⟩ := List.mem_map.mp hdelay
    exact backoff_le _ _ _

/-! ## The client of the worker -/

/-- What a request may fail with: an error of the client library, or another one. -/
inductive Failure
  | api (kind : ApiErrorClass) (status : Option ℕ)
  | other
deriving DecidableEq, Repr

/-- The failure as the API's client sees it. -/
def Failure.thrown : Failure → Thrown
  | api kind status => .api kind status
  | other => .other

/-- `OpenAiErrorCode` is a union of texts. -/
def OpenAiErrorCode.value : OpenAiErrorCode → String
  | authError => "OPENAI_AUTH_ERROR"
  | rateLimit => "OPENAI_RATE_LIMIT"
  | timeout => "OPENAI_TIMEOUT"
  | transientError => "OPENAI_TRANSIENT_ERROR"
  | invalidRequest => "OPENAI_INVALID_REQUEST"
  | responseEmpty => "OPENAI_RESPONSE_EMPTY"
  | embeddingFailed => "OPENAI_EMBEDDING_FAILED"
  | chatFailed => "OPENAI_CHAT_FAILED"

section Agreement

variable {params : RequestInfo} {texts : List Text}

end Agreement

end RagStack.OpenAi
