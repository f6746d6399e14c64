import RagStack.OpenAi.Retries

/-!
# `createQueryEmbedding`

`services/api/src/openai/openai-embedding.service.ts`: the embedding of a question.
Whatever the provider does, the caller gets a result, and retrieval goes on without
an embedding when there is none.

* `createQueryEmbedding_spec`: the result has a vector exactly if the deciding answer
  of the provider has one, and the attempts that are recorded are the calls made.
-/

namespace RagStack.OpenAi

open RagStack.Common
open RagStack.Worker (Text)

/-- The part of `OpenAiEmbeddingModelConfig` that is read. -/
structure OpenAiEmbeddingModelConfig where
  model : Text
  featureEnabled : Bool
  available : Bool

/-- A response: `embedding` of each item of `data`, and the usage. -/
structure OpenAiEmbeddingResponse where
  data : List (Option (List ℚ))
  usage : CompletionUsage := {}

/-- `QueryEmbeddingResult`; `dimensions` is the length of the vector. -/
inductive QueryEmbeddingResult
  | disabled (reason : String) (model : Text)
  | failed (model : Text) (latencyMs : ℤ) (errorCode : OpenAiErrorCode)
  | success (model : Text) (usage : OpenAiUsage) (latencyMs : ℤ) (embedding : List ℚ)

/-- What `OpenAiObservabilityService` records of a request. -/
inductive Recorded
  | success (attempts : ℕ)
  | failure (errorCode : OpenAiErrorCode) (attempts : ℕ)
deriving DecidableEq, Repr

/-- The body of the `try` (lines 51–103), with the time at its end. -/
def embeddingRequest (modelConfig : OpenAiEmbeddingModelConfig) (requestType : OpenAiRequestType)
    (latencyMs : ℤ)
    (completed : Except OpenAiGatewayError (ClientResult OpenAiEmbeddingResponse)) :
    Except OpenAiGatewayError (ClientResult (List ℚ × OpenAiUsage)) :=
  match completed with
  | .error error => .error error
  | .ok result =>
    match result.response.data.head?.join with
    | some (x :: embedding) =>
      .ok
        { attempts := result.attempts
          response := (x :: embedding, mapUsage result.response.usage) }
    | _ =>
      .error
        { code := .embeddingFailed
          message := "OpenAI returned no embedding vector"
          requestType := requestType
          retryable := false
          metadata :=
            { attempts := some result.attempts, latencyMs := some latencyMs,
              model := some modelConfig.model } }

/-- `createQueryEmbedding` (lines 24–140), and what it records; `completed` is what the
    client returns or throws, `latencyMs` and `failedLatencyMs` are the times of lines
    61 and 105. -/
def createQueryEmbedding (modelConfig : OpenAiEmbeddingModelConfig)
    (requestType : OpenAiRequestType) (latencyMs failedLatencyMs : ℤ)
    (completed : Except OpenAiGatewayError (ClientResult OpenAiEmbeddingResponse)) :
    QueryEmbeddingResult × Option Recorded :=
  if modelConfig.featureEnabled = false then
    (.disabled "feature_disabled" modelConfig.model, none)
  else if modelConfig.available = false then
    (.disabled "api_key_missing" modelConfig.model, none)
  else
    match embeddingRequest modelConfig requestType latencyMs completed with
    | .ok result =>
      (.success modelConfig.model result.response.2 latencyMs result.response.1,
        some (.success result.attempts))
    | .error error =>
      let mapped := mapOpenAiError
        { requestType := requestType, model := some modelConfig.model,
          latencyMs := some failedLatencyMs }
        (.gateway error)
      (.failed modelConfig.model failedLatencyMs mapped.code,
        some (.failure mapped.code (mapped.metadata.attempts.getD 1)))

/-- The number of calls that were recorded. -/
def Recorded.attempts : Recorded → ℕ
  | success attempts | failure _ attempts => attempts

/-- The vector of a result. -/
def QueryEmbeddingResult.embedding? : QueryEmbeddingResult → Option (List ℚ)
  | success _ _ _ embedding => some embedding
  | _ => none

/-- The vector of an answer of the provider. -/
def vectorOf : Except Thrown OpenAiEmbeddingResponse → Option (List ℚ)
  | .ok response => response.data.head?.join.filter fun embedding => embedding ≠ []
  | .error _ => none

theorem embeddingRequest_answerOf {modelConfig : OpenAiEmbeddingModelConfig} {params : RequestInfo}
    {requestType : OpenAiRequestType} {latencyMs failedLatencyMs : ℤ} {k : ℕ}
    {answer : Except Thrown OpenAiEmbeddingResponse}
    (hfeature : modelConfig.featureEnabled = true) (havailable : modelConfig.available = true) :
    (createQueryEmbedding modelConfig requestType latencyMs failedLatencyMs
        (answerOf params k answer)).1.embedding? = vectorOf answer ∧
      (createQueryEmbedding modelConfig requestType latencyMs failedLatencyMs
        (answerOf params k answer)).2.map Recorded.attempts = some k := by
  simp only [createQueryEmbedding, hfeature, havailable, Bool.true_eq_false, if_false]
  cases answer with
  | error thrown => exact ⟨rfl, rfl⟩
  | ok response =>
    simp only [answerOf, embeddingRequest, vectorOf]
    cases response.data.head?.join with
    | none => exact ⟨rfl, rfl⟩
    | some embedding =>
      cases embedding with
      | nil => exact ⟨rfl, rfl⟩
      | cons x embedding => exact ⟨rfl, rfl⟩

/-- When embeddings are available, the result has a vector exactly if the answer to the
    last call has one that is not empty, and it is that one; the attempts that are
    recorded are one more than the delays between the calls. Otherwise no call is
    recorded. -/
theorem createQueryEmbedding_spec (policy : OpenAiRetryPolicy)
    (modelConfig : OpenAiEmbeddingModelConfig) (requestType : OpenAiRequestType)
    (latencyMs failedLatencyMs : ℤ) (fn : ℕ → Except Thrown OpenAiEmbeddingResponse) :
    let params : RequestInfo := { requestType := requestType, model := some modelConfig.model }
    let completed := executeWithRetry policy params fn
    let result := createQueryEmbedding modelConfig requestType latencyMs failedLatencyMs completed.2
    if modelConfig.featureEnabled = true ∧ modelConfig.available = true then
      result.1.embedding? = vectorOf (fn (completed.1.length + 1)) ∧
        result.2.map Recorded.attempts = some (completed.1.length + 1)
    else result.1.embedding? = none ∧ result.2 = none := by
  intro params completed result
  split_ifs with havailable
  · obtain ⟨hdelays, hanswer⟩ := executeWithRetry_eq_retry policy params fn
    have hspec := retry_spec (retriesThrown params) (backoff 2000 policy.baseDelayMs) fn
      policy.maxRetries
    have hlength := length_waits (retriesThrown params) (backoff 2000 policy.baseDelayMs) fn
      policy.maxRetries
    rw [← hdelays] at hlength
    rw [hspec.result, ← hlength] at hanswer
    simp only [result, completed, hanswer]
    exact embeddingRequest_answerOf havailable.1 havailable.2
  · rcases hfeature : modelConfig.featureEnabled with _ | _
    · simp [result, createQueryEmbedding, hfeature, QueryEmbeddingResult.embedding?]
    · have hnone : modelConfig.available = false := by simpa [hfeature] using havailable
      simp [result, createQueryEmbedding, hfeature, hnone, QueryEmbeddingResult.embedding?]

end RagStack.OpenAi
