import RagStack.Common.Pack
import RagStack.Ingest.Pipeline

/-!
# `Embedder` and `OpenAiEmbeddingClient`

`app/services/embedder.py` and `app/services/openai_embedding_client.py`. The
chunks are objects: a list of chunks is a list of references to a heap, and
`embed_chunks` writes through the references of one batch after the other. The
answers of the provider are a parameter, one for each request and attempt.

* `batchesOf_buildBatches`: the batches are the chunks, cut within both limits.
* `embedTexts_inOrder`: a result has one embedding for each text, in order.
* `embedChunks_spec`: after `embed_chunks` a chunk has the embedding of its own
  content, and is otherwise as it was.
* `pipeline_embedChunks`: what the pipeline sees of it.
-/

namespace RagStack.Ingest

open RagStack.Common RagStack.Worker

/-! ## The client -/

/-- The settings that the embedder and its client read (settings.py). -/
structure EmbeddingSettings where
  openaiApiKey : Option String
  openaiEmbeddingsEnabled : Bool := true
  openaiEmbeddingModel : String := "text-embedding-3-small"
  openaiMaxRetries : ℕ := 2
  openaiEmbeddingBatchSize : ℕ := 32
  openaiEmbeddingBatchTokenLimit : ℕ := 12000
  batch_size_ge : 1 ≤ openaiEmbeddingBatchSize := by decide
  batch_token_limit_ge : 1 ≤ openaiEmbeddingBatchTokenLimit := by decide

/-- The exceptions of the `openai` package that `embed_texts` tells apart. -/
inductive ProviderError
  | authentication | permissionDenied | rateLimit | apiTimeout | apiConnection
  | internalServer | badRequest | other
deriving DecidableEq, Repr

/-- `response.usage`. -/
structure ResponseUsage where
  promptTokens : Option ℤ
  totalTokens : Option ℤ

/-- A response: `item.embedding` for each item of `response.data`, and the usage. -/
structure EmbeddingResponse where
  data : List (Option (List Rat))
  usage : Option ResponseUsage

/-- `EmbeddingBatchUsage`. -/
structure EmbeddingBatchUsage where
  inputTokens : ℤ
  totalTokens : ℤ

/-- `EmbeddingBatchResult` less its latency. -/
structure EmbeddingBatchResult where
  embeddings : List (List Rat)
  usage : EmbeddingBatchUsage
  attempts : ℕ

/-- What the provider answers to the texts of a batch, at an attempt. -/
abbrev Provider := (batchIndex attempt : ℕ) → List Text → Except ProviderError EmbeddingResponse

/-- The errors of the `except` clauses (lines 126–196). -/
def mapProviderError : ProviderError → IngestionError
  | .authentication | .permissionDenied =>
    { code := .openaiAuthError, message := "OpenAI authentication failed for embeddings",
      retryable := false }
  | .rateLimit =>
    { code := .openaiRateLimit, message := "OpenAI rate limit exceeded during embeddings",
      retryable := true }
  | .apiTimeout =>
    { code := .openaiTimeout, message := "OpenAI embeddings request timed out", retryable := true }
  | .apiConnection | .internalServer =>
    { code := .openaiTransientError,
      message := "OpenAI embeddings request failed with a transient error", retryable := true }
  | .badRequest =>
    { code := .openaiInvalidRequest, message := "OpenAI rejected the embeddings request",
      retryable := false }
  | .other =>
    { code := .openaiEmbeddingFailed, message := "Embedding generation failed unexpectedly",
      retryable := true }

/-- `OpenAiEmbeddingClient.enabled`: the client was made (lines 43–55). -/
def EmbeddingSettings.enabled (settings : EmbeddingSettings) : Bool :=
  (settings.openaiApiKey.any fun key => key ≠ "") && settings.openaiEmbeddingsEnabled

/-- The body of the `try` statement (lines 92–124), with the error it ends in. -/
def embedAttempt (texts : List Text) (attempt : ℕ) (reply : Except ProviderError EmbeddingResponse) :
    Except IngestionError EmbeddingBatchResult :=
  match reply with
  | .error e => .error (mapProviderError e)
  | .ok response =>
    let embeddings := response.data.map fun item => item.getD []
    if embeddings.length ≠ texts.length then
      .error { code := .openaiEmbeddingFailed,
               message := "OpenAI returned an incomplete embeddings batch", retryable := false }
    else if embeddings.any fun embedding => embedding = [] then
      .error { code := .openaiResponseEmpty,
               message := "OpenAI returned an empty embedding vector", retryable := false }
    else
      .ok { embeddings := embeddings,
            usage := { inputTokens := (response.usage.bind ResponseUsage.promptTokens).getD 0,
                       totalTokens := (response.usage.bind ResponseUsage.totalTokens).getD 0 },
            attempts := attempt }

/-- The loop of `embed_texts` (lines 90–196) from `attempt` on, with `left` attempts left:
    an error that is not retryable, or that of the last attempt, is raised. -/
def embedLoop (maxAttempts : ℕ) (texts : List Text)
    (reply : ℕ → Except ProviderError EmbeddingResponse) :
    (left attempt : ℕ) → Except IngestionError EmbeddingBatchResult
  | 0, _ =>
    .error { code := .openaiEmbeddingFailed, message := "Embedding generation failed unexpectedly",
             retryable := true }
  | left + 1, attempt =>
    match embedAttempt texts attempt (reply attempt) with
    | .ok result => .ok result
    | .error e =>
      if e.retryable = false ∨ maxAttempts ≤ attempt then .error e
      else embedLoop maxAttempts texts reply left (attempt + 1)

/-- `embed_texts` (lines 74–203). -/
def EmbeddingSettings.embedTexts (settings : EmbeddingSettings) (texts : List Text)
    (reply : ℕ → Except ProviderError EmbeddingResponse) :
    Except IngestionError EmbeddingBatchResult :=
  if settings.enabled then
    let maxAttempts := settings.openaiMaxRetries + 1
    embedLoop maxAttempts texts reply maxAttempts 1
  else
    .error { code := .openaiEmbeddingFailed,
             message := "OpenAI embeddings are unavailable because the feature is disabled or " ++
               "OPENAI_API_KEY is missing",
             retryable := false }

/-! ## The embedder -/

/-- `Embedder.__init__`. -/
structure Embedder where
  settings : EmbeddingSettings
  tokenCounter : TokenCounter

/-- A reference to a chunk object. -/
abbrev Ref := ℕ

/-- The chunk objects. -/
abbrev Heap := Ref → ChunkRecord

/-- The loop body of `_build_batches` (lines 71–83). -/
def Embedder.batchStep (em : Embedder) (heap : Heap) (s : PackState Ref) (chunk : Ref) :
    PackState Ref :=
  let chunkTokens := em.tokenCounter.count (heap chunk).content
  let s :=
    if s.current ≠ [] ∧ (em.settings.openaiEmbeddingBatchSize ≤ s.current.length ∨
        em.settings.openaiEmbeddingBatchTokenLimit < s.tokens + chunkTokens) then
      { packed := s.packed ++ [s.current], current := [], tokens := 0 }
    else s
  { s with current := s.current ++ [chunk], tokens := s.tokens + chunkTokens }

/-- `_build_batches` (lines 66–87). -/
def Embedder.buildBatches (em : Embedder) (heap : Heap) (chunks : List Ref) : List (List Ref) :=
  (chunks.foldl (em.batchStep heap) { packed := [], current := [], tokens := 0 }).finish

/-- The three assignments of the inner loop of `embed_chunks` (lines 46–48). -/
def Embedder.writeEmbedding (em : Embedder) (heap : Heap) (chunk : Ref) (embedding : List Rat) :
    Heap :=
  Function.update heap chunk
    (attachEmbedding em.settings.openaiEmbeddingModel (heap chunk) embedding)

/-- The inner loop of `embed_chunks`; `none` when `zip(…, strict=True)` raises. -/
def Embedder.writeBatch (em : Embedder) (heap : Heap) (batch : List Ref)
    (embeddings : List (List Rat)) : Option Heap :=
  if batch.length = embeddings.length then
    some ((batch.zip embeddings).foldl (fun heap p => em.writeEmbedding heap p.1 p.2) heap)
  else none

/-- The loop of `embed_chunks` over the batches, from `batch_index` on. -/
def Embedder.embedBatches (em : Embedder) (provider : Provider) :
    (batchIndex : ℕ) → Heap → List (List Ref) → Except Raised Heap
  | _, heap, [] => .ok heap
  | batchIndex, heap, batch :: batches =>
    match em.settings.embedTexts (batch.map fun chunk => (heap chunk).content)
        (fun attempt => provider batchIndex attempt (batch.map fun chunk => (heap chunk).content)) with
    | .error e => .error (.ingestion e)
    | .ok result =>
      match em.writeBatch heap batch result.embeddings with
      | none => .error .other
      | some heap => em.embedBatches provider (batchIndex + 1) heap batches

/-- `embed_chunks` (lines 25–64): the objects, and the list that is returned. -/
def Embedder.embedChunks (em : Embedder) (provider : Provider) (heap : Heap) (chunks : List Ref) :
    Except Raised (Heap × List Ref) :=
  if em.settings.enabled then
    match em.embedBatches provider 1 heap (em.buildBatches heap chunks) with
    | .error raised => .error raised
    | .ok heap => .ok (heap, chunks)
  else .ok (heap, chunks)

/-! ## The batches -/

/-- The batches are the chunks, cut into non-empty batches within both limits. -/
structure BatchesOf (em : Embedder) (heap : Heap) (chunks : List Ref) (batches : List (List Ref)) :
    Prop where
  elements : batches.flatten = chunks
  batches_ne_nil : ∀ batch ∈ batches, batch ≠ []
  length_le : ∀ batch ∈ batches, batch.length ≤ em.settings.openaiEmbeddingBatchSize
  tokens_le : ∀ batch ∈ batches,
    (batch.map fun chunk => em.tokenCounter.count (heap chunk).content).sum ≤
      em.settings.openaiEmbeddingBatchTokenLimit ∨ ∃ chunk, batch = [chunk]

variable (em : Embedder) (heap : Heap)

/-- The condition under which `_build_batches` closes the open batch. -/
def Embedder.batchFull (s : PackState Ref) (chunk : Ref) : Bool :=
  em.settings.openaiEmbeddingBatchSize ≤ s.current.length ∨
    em.settings.openaiEmbeddingBatchTokenLimit <
      s.tokens + em.tokenCounter.count (heap chunk).content

theorem batchStep_eq : em.batchStep heap =
    cutStep (fun chunk => em.tokenCounter.count (heap chunk).content) (em.batchFull heap) := by
  funext s chunk
  simp only [Embedder.batchStep, cutStep, Embedder.batchFull, decide_eq_true_eq]
  split_ifs
  · simp
  · rfl

/-- Both limits hold of a batch as long as it is not full. -/
theorem cutGroup_batch :
    CutGroup (fun chunk => em.tokenCounter.count (heap chunk).content) (em.batchFull heap)
      fun batch => batch.length ≤ em.settings.openaiEmbeddingBatchSize ∧
        ((batch.map fun chunk => em.tokenCounter.count (heap chunk).content).sum ≤
          em.settings.openaiEmbeddingBatchTokenLimit ∨ ∃ chunk, batch = [chunk]) := by
  refine ⟨fun chunk => ⟨em.settings.batch_size_ge, Or.inr ⟨chunk, rfl⟩⟩, ?_⟩
  intro s chunk _ hweight hfull
  simp only [Embedder.batchFull, decide_eq_false_iff_not, not_or, not_le, not_lt] at hfull
  refine ⟨?_, Or.inl ?_⟩
  · rw [List.length_append]
    exact hfull.1
  · rw [List.map_append, List.sum_append, ← hweight]
    simpa using hfull.2

theorem batchesOf_buildBatches (chunks : List Ref) :
    BatchesOf em heap chunks (em.buildBatches heap chunks) := by
  obtain ⟨helements, hgroups⟩ := finish_cut (cutGroup_batch em heap) chunks
  rw [← batchStep_eq] at helements hgroups
  exact
    { elements := helements
      batches_ne_nil := fun batch hbatch => (hgroups batch hbatch).1
      length_le := fun batch hbatch => (hgroups batch hbatch).2.1
      tokens_le := fun batch hbatch => (hgroups batch hbatch).2.2 }

/-! ## The results of the client -/

/-- A reply has, in the order of the texts, embeddings computed from them. -/
def RepliesInOrder (embeds : Text → List Rat → Prop) (provider : Provider) : Prop :=
  ∀ batchIndex attempt texts response, provider batchIndex attempt texts = .ok response →
    ∀ text embedding, (text, some embedding) ∈ texts.zip response.data → embeds text embedding

/-- One embedding for each text, computed from it. -/
def EmbeddingsOf (embeds : Text → List Rat → Prop) (texts : List Text)
    (embeddings : List (List Rat)) : Prop :=
  embeddings.length = texts.length ∧
    ∀ text embedding, (text, embedding) ∈ texts.zip embeddings → embeds text embedding

/-- An attempt succeeds only with a complete batch of non-empty embeddings. -/
theorem embedAttempt_ok {texts : List Text} {attempt : ℕ}
    {reply : Except ProviderError EmbeddingResponse} {result : EmbeddingBatchResult}
    (h : embedAttempt texts attempt reply = .ok result) :
    ∃ response, reply = .ok response ∧ result.embeddings.length = texts.length ∧
      response.data = result.embeddings.map some := by
  unfold embedAttempt at h
  split at h
  · cases h
  · rename_i response
    simp only at h
    split_ifs at h with hlength hempty
    cases h
    refine ⟨response, rfl, by simpa using hlength, ?_⟩
    simp only [List.map_map]
    conv_lhs => rw [← List.map_id response.data]
    apply List.map_congr_left
    intro item hitem
    cases item with
    | none =>
      exact absurd (List.any_eq_true.mpr ⟨[], List.mem_map.mpr ⟨none, hitem, rfl⟩, rfl⟩) hempty
    | some embedding => rfl

/-- The loop returns what one of its attempts returns. -/
theorem embedLoop_ok {maxAttempts : ℕ} {texts : List Text}
    {reply : ℕ → Except ProviderError EmbeddingResponse} {result : EmbeddingBatchResult} :
    ∀ {left attempt : ℕ}, embedLoop maxAttempts texts reply left attempt = .ok result →
      ∃ attempt, embedAttempt texts attempt (reply attempt) = .ok result := by
  intro left
  induction left with
  | zero => intro attempt h; cases h
  | succ left ih =>
    intro attempt h
    rw [embedLoop] at h
    split at h
    · rename_i hattempt
      cases h
      exact ⟨attempt, hattempt⟩
    · split_ifs at h
      exact ih h

theorem embedTexts_inOrder {embeds : Text → List Rat → Prop} {provider : Provider}
    (hprovider : RepliesInOrder embeds provider) {settings : EmbeddingSettings} {batchIndex : ℕ}
    {texts : List Text} {result : EmbeddingBatchResult}
    (h : settings.embedTexts texts (fun attempt => provider batchIndex attempt texts) = .ok result) :
    EmbeddingsOf embeds texts result.embeddings := by
  unfold EmbeddingSettings.embedTexts at h
  split_ifs at h
  obtain ⟨attempt, hattempt⟩ := embedLoop_ok h
  obtain ⟨response, hreply, hlength, hdata⟩ := embedAttempt_ok hattempt
  refine ⟨hlength, fun text embedding hmem => ?_⟩
  apply hprovider batchIndex attempt texts response hreply
  rw [hdata, List.zip_map_right]
  exact List.mem_map.mpr ⟨(text, embedding), hmem, rfl⟩

/-! ## Writing the embeddings -/

/-- `heap'` is `heap` with embeddings of their own contents on the chunks of `written`. -/
structure OwnEmbeddings (em : Embedder) (embeds : Text → List Rat → Prop) (heap heap' : Heap)
    (written : List Ref) : Prop where
  own : ∀ chunk ∈ written, ∃ embedding, embeds (heap chunk).content embedding ∧
    heap' chunk = { heap chunk with
      embedding := some embedding
      embeddingModel := some em.settings.openaiEmbeddingModel
      embeddingDim := some embedding.length }
  others : ∀ chunk, chunk ∉ written → heap' chunk = heap chunk

variable {em heap} {embeds : Text → List Rat → Prop}

theorem OwnEmbeddings.nil : OwnEmbeddings em embeds heap heap [] :=
  ⟨fun _ hmem => absurd hmem List.not_mem_nil, fun _ _ => rfl⟩

theorem OwnEmbeddings.content {heap' : Heap} {written : List Ref}
    (h : OwnEmbeddings em embeds heap heap' written) (chunk : Ref) :
    (heap' chunk).content = (heap chunk).content := by
  by_cases hmem : chunk ∈ written
  · obtain ⟨embedding, -, heq⟩ := h.own chunk hmem
    rw [heq]
  · rw [h.others chunk hmem]

/-- One write after the others. -/
theorem OwnEmbeddings.write {heap' : Heap} {written : List Ref}
    (h : OwnEmbeddings em embeds heap heap' written) {chunk : Ref} {embedding : List Rat}
    (hembeds : embeds (heap chunk).content embedding) :
    OwnEmbeddings em embeds heap (em.writeEmbedding heap' chunk embedding) (written ++ [chunk]) := by
  refine ⟨fun other hother => ?_, fun other hother => ?_⟩
  · by_cases heq : other = chunk
    · subst heq
      refine ⟨embedding, hembeds, ?_⟩
      rw [Embedder.writeEmbedding, Function.update_self]
      by_cases hmem : other ∈ written
      · obtain ⟨earlier, -, hearlier⟩ := h.own other hmem
        rw [hearlier]
        rfl
      · rw [h.others other hmem]
        rfl
    · obtain ⟨embedding', hembeds', heap_other⟩ := h.own other (by simpa [heq] using hother)
      refine ⟨embedding', hembeds', ?_⟩
      rw [Embedder.writeEmbedding, Function.update_of_ne heq, heap_other]
  · rw [List.mem_append, List.mem_singleton, not_or] at hother
    rw [Embedder.writeEmbedding, Function.update_of_ne hother.2, h.others other hother.1]

theorem OwnEmbeddings.writes (pairs : List (Ref × List Rat)) :
    ∀ {heap' : Heap} {written : List Ref}, OwnEmbeddings em embeds heap heap' written →
      (∀ p ∈ pairs, embeds (heap p.1).content p.2) →
      OwnEmbeddings em embeds heap
        (pairs.foldl (fun heap p => em.writeEmbedding heap p.1 p.2) heap')
        (written ++ pairs.map Prod.fst) := by
  induction pairs with
  | nil => intro heap' written h _; simpa using h
  | cons p pairs ih =>
    intro heap' written h hpairs
    have := ih (h.write (hpairs p List.mem_cons_self))
      fun q hq => hpairs q (List.mem_cons_of_mem p hq)
    simpa using this

/-- A batch is written after the others. -/
theorem OwnEmbeddings.batch {heap' heap'' : Heap} {written batch : List Ref}
    (h : OwnEmbeddings em embeds heap heap' written) {embeddings : List (List Rat)}
    (hof : EmbeddingsOf embeds (batch.map fun chunk => (heap' chunk).content) embeddings)
    (hwrite : em.writeBatch heap' batch embeddings = some heap'') :
    OwnEmbeddings em embeds heap heap'' (written ++ batch) := by
  unfold Embedder.writeBatch at hwrite
  split_ifs at hwrite with hlength
  cases hwrite
  have hpairs : ∀ p ∈ batch.zip embeddings, embeds (heap p.1).content p.2 := by
    intro p hp
    rw [← h.content p.1]
    apply hof.2
    rw [List.zip_map_left]
    exact List.mem_map.mpr ⟨p, hp, rfl⟩
  have hwritten := h.writes (batch.zip embeddings) hpairs
  rwa [List.map_fst_zip hlength.le] at hwritten

/-- The loop over the batches, by induction on them. -/
theorem OwnEmbeddings.batches {provider : Provider} (hprovider : RepliesInOrder embeds provider)
    (batches : List (List Ref)) :
    ∀ {batchIndex : ℕ} {heap' heap'' : Heap} {written : List Ref},
      OwnEmbeddings em embeds heap heap' written →
      em.embedBatches provider batchIndex heap' batches = .ok heap'' →
      OwnEmbeddings em embeds heap heap'' (written ++ batches.flatten) := by
  induction batches with
  | nil =>
    intro batchIndex heap' heap'' written h hrun
    cases hrun
    simpa using h
  | cons batch batches ih =>
    intro batchIndex heap' heap'' written h hrun
    rw [Embedder.embedBatches] at hrun
    split at hrun
    · cases hrun
    · rename_i result hresult
      split at hrun
      · cases hrun
      · rename_i next hnext
        have hnext' := h.batch (embedTexts_inOrder hprovider hresult) hnext
        simpa using ih hnext' hrun

/-- The batches are within both limits and lose no chunk; and when `embed_chunks` returns
    with the provider enabled, each chunk has the embedding of its own content, and is
    otherwise as it was, in its place. -/
theorem embedChunks_spec (em : Embedder) (heap : Heap) (chunks : List Ref) (provider : Provider)
    (embeds : Text → List Rat → Prop) (hprovider : RepliesInOrder embeds provider) :
    BatchesOf em heap chunks (em.buildBatches heap chunks) ∧
      ∀ heap' returned, em.settings.enabled = true →
        em.embedChunks provider heap chunks = .ok (heap', returned) →
        returned = chunks ∧ OwnEmbeddings em embeds heap heap' chunks := by
  have hbatches := batchesOf_buildBatches em heap chunks
  refine ⟨hbatches, fun heap' returned henabled hrun => ?_⟩
  rw [Embedder.embedChunks, if_pos henabled] at hrun
  split at hrun
  · cases hrun
  · rename_i final hfinal
    cases hrun
    have hown := OwnEmbeddings.nil.batches hprovider _ hfinal
    rw [hbatches.elements, List.nil_append] at hown
    exact ⟨rfl, hown⟩

/-- Three chunks with contents of one, two and three letters. -/
def sampleHeap : Heap := fun chunk =>
  { chunkNo := chunk + 1, content := List.replicate (chunk + 1) 'a', searchText := [],
    tokenCount := 1, sectionTitle := none, pageNumber := none, sourceTitle := "Runbook",
    language := none, chunkingStrategy := "section_aware", chunkingVersion := "section_v2",
    checksum := "",
    metadataJson :=
      { pageNumbers := [], pageStart := none, pageEnd := none, pageMappingAvailable := false,
        tokenEstimator := "char_approx", unitCount := 1, blockKinds := [.paragraph],
        sourceBlockStart := none, sourceBlockEnd := none, sectionTitles := [],
        sectionPath := none, sectionPaths := [], parser := "txt", parserType := "txt",
        extractionWarnings := [], normalization := none,
        chunking := { strategy := "section_aware", version := "section_v2", targetTokens := 800,
                      overlapTokens := 120 },
        containsStructuredContent := false } }

/-- An embedder whose batches have at most two chunks. -/
def sampleEmbedder : Embedder where
  settings := { openaiApiKey := some "test-key", openaiEmbeddingBatchSize := 2 }
  tokenCounter := TokenCounter.charApprox

/-- A provider that is limited at the first attempt, and then embeds a text as its length. -/
def sampleProvider : Provider := fun _ attempt texts =>
  if attempt = 1 then .error .rateLimit
  else .ok { data := texts.map fun text => some [(text.length : ℚ)], usage := none }

theorem repliesInOrder_sampleProvider :
    RepliesInOrder (fun text embedding => embedding = [(text.length : ℚ)]) sampleProvider := by
  intro batchIndex attempt texts response hreply text embedding hmem
  unfold sampleProvider at hreply
  split_ifs at hreply
  cases hreply
  rw [List.zip_map_right, List.mem_map] at hmem
  obtain ⟨⟨left, right⟩, hpair, heq⟩ := hmem
  rw [List.zip_eq_zipWith, List.zipWith_self, List.mem_map] at hpair
  obtain ⟨text', -, hsame⟩ := hpair
  cases hsame
  cases heq
  rfl

theorem embedChunks_spec_sample :
    sampleEmbedder.buildBatches sampleHeap [0, 1, 2] = [[0, 1], [2]] ∧
      ∃ heap', sampleEmbedder.embedChunks sampleProvider sampleHeap [0, 1, 2] =
          .ok (heap', [0, 1, 2]) ∧
        OwnEmbeddings sampleEmbedder (fun text embedding => embedding = [(text.length : ℚ)])
          sampleHeap heap' [0, 1, 2] := by
  refine ⟨rfl, _, rfl, ?_⟩
  exact ((embedChunks_spec sampleEmbedder sampleHeap [0, 1, 2] sampleProvider _
    repliesInOrder_sampleProvider).2 _ _ rfl rfl).2

/-- What the pipeline sees of it: the embeddings of the chunks, in their order. -/
theorem pipeline_embedChunks {em : Embedder} {p : Pipeline}
    (henabled : p.embedderEnabled = em.settings.enabled)
    (hmodel : p.embeddingModel = em.settings.openaiEmbeddingModel) {provider : Provider}
    {heap heap' : Heap} {chunks returned : List Ref}
    (hrun : em.embedChunks provider heap chunks = .ok (heap', returned)) :
    ∃ embeddings, p.embedChunks (.ok embeddings) (chunks.map heap) = .ok (returned.map heap') := by
  unfold Embedder.embedChunks at hrun
  unfold Pipeline.embedChunks
  rw [henabled, hmodel]
  split_ifs at hrun with hon
  · split at hrun
    · cases hrun
    · rename_i final hfinal
      cases hrun
      have hreplies : RepliesInOrder (fun _ _ => True) provider := by
        intro _ _ _ _ _ _ _ _
        trivial
      have hown := OwnEmbeddings.nil.batches hreplies _ hfinal
      rw [(batchesOf_buildBatches em heap chunks).elements, List.nil_append] at hown
      refine ⟨chunks.map fun chunk => (heap' chunk).embedding.getD [], ?_⟩
      rw [if_pos hon]
      simp only [List.length_map, if_true, List.zipWith_map, List.zipWith_self]
      congr 1
      apply List.map_congr_left
      intro chunk hchunk
      obtain ⟨embedding, -, heq⟩ := hown.own chunk hchunk
      rw [heq]
      rfl
  · cases hrun
    exact ⟨[], by rw [if_neg hon]⟩

end RagStack.Ingest
