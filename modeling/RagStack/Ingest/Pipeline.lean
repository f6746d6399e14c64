import RagStack.Ingest.Indexer
import RagStack.Chunking.Document

/-!
# `IngestPipeline.process` and `IngestConsumer._process_job`

`app/services/ingest_pipeline.py` and `app/workers/ingest_consumer.py`: one
delivery of a job. What the delivery meets outside the database (the fetched and
parsed document, the embeddings, errors of the connection) is an `Attempt`.

* `process_cases`: everything a delivery can do, transaction by transaction.
* `process_raises_activeChunks`: a delivery that raises leaves the active chunks
  alone, unless `mark_success` fails after `persist_chunks` committed.
-/

namespace RagStack.Ingest

open RagStack.Common RagStack.Worker RagStack.Chunking

/-! ## Stages -/

/-- `IngestPipeline.__init__`. The embedder is its `enabled` property and its
    model; the fetcher and the parsers are in the `Attempt`. -/
structure Pipeline where
  statusManager : StatusManager
  indexer : Indexer
  chunker : Chunker
  embedderEnabled : Bool
  embeddingModel : String

/-- What one delivery meets: the parsed document (or what fetching and parsing
    raise), the embeddings of the chunk contents, the UUIDs and times it draws,
    and the transactions whose connection fails, with the error. -/
structure Attempt where
  parsed : Except Raised ParsedDocument
  embeddings : Except Raised (List (List Rat)) := .ok []
  newId : ℕ → Id := id
  startedAt : Time := 0
  persistedAt : Time := 0
  finishedAt : Time := 0
  activateFault : Option Raised := none
  persistFault : Option Raised := none
  successFault : Option Raised := none
  failureFault : Option Raised := none

/-- `chunk.embedding = embedding` and the two fields after it. -/
def attachEmbedding (model : String) (c : ChunkRecord) (embedding : List Rat) : ChunkRecord :=
  { c with embedding := some embedding, embeddingModel := some model,
           embeddingDim := some embedding.length }

/-- `embed_chunks` (embedder.py): the batches cover the chunks in order, and
    `zip(…, strict=True)` raises when the number of embeddings is wrong. -/
def Pipeline.embedChunks (p : Pipeline) (embeddings : Except Raised (List (List Rat)))
    (chunks : List ChunkRecord) : Except Raised (List ChunkRecord) :=
  if p.embedderEnabled then
    match embeddings with
    | .error raised => .error raised
    | .ok es =>
      if es.length = chunks.length then .ok (List.zipWith (attachEmbedding p.embeddingModel) chunks es)
      else .error .other
  else .ok chunks

/-- Lines 51–55: fetch, parse, normalize, chunk, embed. -/
def Pipeline.runStages (p : Pipeline) (a : Attempt) : Except Raised (List ChunkRecord) :=
  match a.parsed with
  | .error raised => .error raised
  | .ok parsed =>
    match normalizeDocument p.chunker.unicode parsed with
    | .error e => .error (.ingestion e)
    | .ok normalized =>
      match p.chunker.chunkDocument normalized with
      | .error e => .error (.ingestion e)
      | .ok chunks => p.embedChunks a.embeddings chunks

/-- Embedding keeps the chunks and their numbers. -/
theorem numbered_embedChunks {p : Pipeline} {embeddings : Except Raised (List (List Rat))}
    {chunks embedded : List ChunkRecord} (h : p.embedChunks embeddings chunks = .ok embedded)
    (hchunks : Numbered chunks) : Numbered embedded := by
  have hzip : ∀ (cs : List ChunkRecord) (es : List (List Rat)), es.length = cs.length →
      (List.zipWith (attachEmbedding p.embeddingModel) cs es).map ChunkRecord.chunkNo =
        cs.map ChunkRecord.chunkNo := by
    intro cs
    induction cs with
    | nil => simp
    | cons c cs ih =>
      intro es hlen
      cases es with
      | nil => simp at hlen
      | cons e es => simpa [attachEmbedding] using ih es (by simpa using hlen)
  unfold Pipeline.embedChunks at h
  split at h
  · split at h
    · cases h
    · split_ifs at h with hlen
      cases h
      rw [Numbered, hzip _ _ hlen, List.length_zipWith, hlen, Nat.min_self]
      exact hchunks
  · cases h
    exact hchunks

/-- The stages give numbered chunks. -/
theorem numbered_runStages {p : Pipeline} {a : Attempt} {chunks : List ChunkRecord}
    (h : p.runStages a = .ok chunks) : Numbered chunks := by
  unfold Pipeline.runStages at h
  split at h
  · cases h
  · split at h
    · cases h
    · split at h
      · cases h
      · rename_i hchunks
        exact numbered_embedChunks h (numbered_chunkDocument hchunks)

/-! ## Failures -/

/-- Lines 80–84. -/
def unhandledError : IngestionError :=
  { code := .transientExternalError, message := "Unhandled ingestion worker error", retryable := true }

/-- The error that `process` handles and raises (lines 76–86). -/
def Raised.wrapped : Raised → IngestionError
  | .ingestion e => e
  | .postgres _ | .other => unhandledError

/-- The transaction that `_handle_failure` chooses (lines 232–236). -/
def failureFinish (ctx : JobContext) (e : IngestionError) : Finish :=
  let deadLetter := e.retryable && ctx.maxAttempts ≤ ctx.attemptNo
  if e.retryable && !deadLetter then .retryWaiting e else .failure e deadLetter

/-- `_handle_failure` and the `raise` after it. -/
def Pipeline.handleFailure (p : Pipeline) (a : Attempt) (ctx : JobContext) (e : IngestionError)
    (db : Database) : Database × Raised :=
  match a.failureFault with
  | some raised => (db, raised)
  | none => (p.statusManager.finish ctx (failureFinish ctx e) a.finishedAt db, .ingestion e)

/-! ## One delivery -/

/-- `process`'s result (lines 46 and 75). -/
inductive ProcessResult
  | skipped
  | completed (chunkCount : ℕ)
deriving DecidableEq, Repr

/-- The body of the `try` (lines 51–75): the stages, `persist_chunks` and
    `mark_success`; the database is the one after the last commit. -/
def Pipeline.work (p : Pipeline) (a : Attempt) (ctx : JobContext) (db : Database) :
    Database × Except Raised ℕ :=
  match p.runStages a with
  | .error raised => (db, .error raised)
  | .ok chunks =>
    match p.indexer.persistChunks ctx chunks a.newId a.persistedAt a.persistFault db with
    | .error raised => (db, .error raised)
    | .ok persisted =>
      match a.successFault with
      | some raised => (persisted, .error raised)
      | none =>
        (p.statusManager.finish ctx (.success chunks.length) a.finishedAt persisted,
          .ok chunks.length)

/-- `process` (lines 39–86). -/
def Pipeline.process (p : Pipeline) (payload : IngestJobPayload) (a : Attempt) (db : Database) :
    Database × Except Raised ProcessResult :=
  match a.activateFault with
  | some raised => (db, .error raised)
  | none =>
    match p.statusManager.markJobActive payload a.startedAt db with
    | .error raised => (db, .error raised)
    | .ok (ctx, active) =>
      if ctx.attemptNo = 0 then (active, .ok .skipped)
      else
        match p.work a ctx active with
        | (done, .ok chunkCount) => (done, .ok (.completed chunkCount))
        | (last, .error raised) =>
          let (failed, raised) := p.handleFailure a ctx raised.wrapped last
          (failed, .error raised)

/-- What the queue sees of a delivery (ingest_consumer.py, lines 72–91). -/
inductive Delivery
  | returned | exception | unrecoverable
deriving DecidableEq, Repr

/-- `_process_job` (lines 58–91): an `IngestionError` becomes an ordinary
    exception or an `UnrecoverableError`; other exceptions pass through. -/
def Pipeline.processJob (p : Pipeline) (payload : IngestJobPayload) (a : Attempt) (db : Database) :
    Database × Delivery :=
  let (db, result) := p.process payload a db
  (db,
    match result with
    | .ok _ => .returned
    | .error (.ingestion e) => if e.retryable then .exception else .unrecoverable
    | .error _ => .exception)

/-! ## What a delivery does -/

section Specs

variable {p : Pipeline} {payload : IngestJobPayload} {a : Attempt} {ctx : JobContext}
  {db : Database}

/-- The body of the `try`: it raises before the first commit, between the two
    commits, or not at all. -/
theorem work_cases (p : Pipeline) (a : Attempt) (ctx : JobContext) (db : Database) :
    (∃ raised, p.work a ctx db = (db, .error raised)) ∨
      ∃ chunks persisted, p.runStages a = .ok chunks ∧
        p.indexer.persistTransaction ctx chunks a.newId a.persistedAt db = some persisted ∧
        ((∃ raised, a.successFault = some raised ∧ p.work a ctx db = (persisted, .error raised)) ∨
          a.successFault = none ∧ p.work a ctx db =
            (p.statusManager.finish ctx (.success chunks.length) a.finishedAt persisted,
              .ok chunks.length)) := by
  unfold Pipeline.work
  cases hstages : p.runStages a with
  | error raised => exact Or.inl ⟨raised, rfl⟩
  | ok chunks =>
    simp only
    cases hpersist : p.indexer.persistChunks ctx chunks a.newId a.persistedAt a.persistFault db with
    | error raised => exact Or.inl ⟨raised, rfl⟩
    | ok persisted =>
      refine Or.inr ⟨chunks, persisted, rfl, persistChunks_eq_ok hpersist, ?_⟩
      cases a.successFault with
      | some raised => exact Or.inl ⟨raised, rfl, rfl⟩
      | none => exact Or.inr ⟨rfl, rfl⟩

/-- `_handle_failure` raises; it runs one transaction, or none. -/
theorem handleFailure_cases (p : Pipeline) (a : Attempt) (ctx : JobContext) (e : IngestionError)
    (db : Database) :
    (p.handleFailure a ctx e db).1 = db ∨
      (p.handleFailure a ctx e db).1 =
        p.statusManager.finish ctx (failureFinish ctx e) a.finishedAt db := by
  unfold Pipeline.handleFailure
  cases a.failureFault with
  | some raised => exact Or.inl rfl
  | none => exact Or.inr rfl

@[simp] theorem activeChunks_finish (sm : StatusManager) (f : Finish) (now : Time) (v : Id) :
    (sm.finish ctx f now db).activeChunks v = db.activeChunks v := by
  rw [Database.activeChunks, Database.chunkRows, chunks_finish]
  rfl

theorem activeChunks_handleFailure (p : Pipeline) (a : Attempt) (ctx : JobContext)
    (e : IngestionError) (db : Database) (v : Id) :
    (p.handleFailure a ctx e db).1.activeChunks v = db.activeChunks v := by
  rcases handleFailure_cases p a ctx e db with h | h
  · rw [h]
  · rw [h, activeChunks_finish]

theorem activeChunks_markJobActive {sm : StatusManager} {now : Time} {active : Database}
    (h : sm.markJobActive payload now db = .ok (ctx, active)) (v : Id) :
    active.activeChunks v = db.activeChunks v := by
  obtain ⟨job, document, -, ⟨-, rfl, -⟩ | ⟨-, job', -, -, rfl⟩⟩ := markJobActive_cases h
  · rfl
  · rfl

/-- The version of a context is the version of the payload. -/
theorem context_of_markJobActive {sm : StatusManager} {now : Time} {active : Database}
    (h : sm.markJobActive payload now db = .ok (ctx, active)) :
    ctx.ingestJobId = payload.ingestJobId ∧ ctx.documentVersionId = payload.documentVersionId ∧
      ctx.documentId = payload.documentId ∧ ctx.kbId = payload.kbId := by
  obtain ⟨job, document, -, ⟨-, -, rfl⟩ | ⟨-, job', -, rfl, -⟩⟩ := markJobActive_cases h
  · exact ⟨rfl, rfl, rfl, rfl⟩
  · exact ⟨rfl, rfl, rfl, rfl⟩

/-- A delivery that raises keeps the active chunks of every version, unless
    `mark_success` fails after `persist_chunks` has committed: then the version
    has all the chunks of this attempt and no others. -/
theorem process_raises_activeChunks {raised : Raised}
    (h : (p.process payload a db).2 = .error raised) :
    (∀ v, (p.process payload a db).1.activeChunks v = db.activeChunks v) ∨
      a.successFault ≠ none ∧ ∃ ctx chunks, p.runStages a = .ok chunks ∧
        ctx.documentVersionId = payload.documentVersionId ∧
        List.Forall₂ (p.indexer.RowOf ctx a.persistedAt) chunks
          ((p.process payload a db).1.activeChunks payload.documentVersionId) ∧
        ∀ v ≠ payload.documentVersionId,
          (p.process payload a db).1.activeChunks v = db.activeChunks v := by
  unfold Pipeline.process at h ⊢
  cases hfault : a.activateFault with
  | some r => exact Or.inl fun v => rfl
  | none =>
    rw [hfault] at h
    simp only at h ⊢
    cases hactive : p.statusManager.markJobActive payload a.startedAt db with
    | error r => exact Or.inl fun v => rfl
    | ok active =>
      obtain ⟨ctx, active⟩ := active
      have hchunks := activeChunks_markJobActive hactive
      obtain ⟨-, hversion, -, -⟩ := context_of_markJobActive hactive
      rw [hactive] at h
      simp only at h ⊢
      split_ifs at h ⊢ with hskip
      rcases work_cases p a ctx active with
        ⟨r, hwork⟩ | ⟨chunks, persisted, hstages, hpersist, ⟨r, hsuccess, hwork⟩ | ⟨-, hwork⟩⟩
      · left
        intro v
        rw [hwork, activeChunks_handleFailure, hchunks]
      · right
        refine ⟨by simp [hsuccess], ctx, chunks, hstages, hversion, ?_, ?_⟩
        · rw [hwork, activeChunks_handleFailure, ← hversion]
          exact activeChunks_persistTransaction hpersist
        · intro v hv
          rw [hwork, activeChunks_handleFailure,
            activeChunks_persistTransaction_of_ne hpersist (by rwa [hversion]), hchunks]
      · simp [hwork] at h

end Specs

/-! ## A small database -/

/-- A document with one version, and one job that was never activated. -/
def manualDocument : Document :=
  { id := 1, kbId := 1, name := "Manual", type := "text/plain", status := .queued, createdAt := 0,
    updatedAt := 0 }

def manualVersion : DocumentVersion :=
  { id := 1, documentId := 1, storageBucket := some "documents", s3Key := "manual.txt",
    createdAt := 0, updatedAt := 0 }

def manualJob : IngestJob := { id := 1, documentVersionId := 1, createdAt := 0, updatedAt := 0 }

def manualDatabase : Database where
  jobs := ⟨[manualJob], by simp⟩
  versions := ⟨[manualVersion], by simp⟩
  documents := ⟨[manualDocument], by simp⟩
  chunks := ⟨⟨[], by simp⟩, by simp⟩
  knowledgeBases := ⟨[{ id := 1 }], by simp⟩
  members := ⟨[{ kbId := 1, userId := 1 }], by simp⟩

/-- The payload of its job. -/
def manualPayload : IngestJobPayload where
  ingestJobId := 1
  documentId := 1
  documentVersionId := 1
  kbId := 1
  bucket := "documents"
  s3Key := "manual.txt"
  mimeType := "text/plain"
  sourceTitle := "Manual"
  correlationId := none
  pipelineVersion := "phase2.v1"
  ingestVersion := 1

/-- A worker without embeddings. -/
def manualPipeline : Pipeline where
  statusManager := { embeddingsEnabled := false }
  indexer := { serialize := id }
  chunker := sampleChunker "418f97d3d80d05d7fbf4ac93719ef2fdfbe7aefbe9cb81b89674497acc1a1d7d"
  embedderEnabled := false
  embeddingModel := "text-embedding-3-small"

/-- A delivery that parses one paragraph. -/
def manualAttempt : Attempt where
  parsed := .ok
    { fileType := "txt", sourceTitle := "Manual",
      blocks := [{ text := "Restart the ingest worker after updates.".toList }] }

/-- `mark_success` fails after `persist_chunks` has committed. -/
def lostSuccess : Attempt := { manualAttempt with successFault := some .other }

theorem process_raises_activeChunks_lostSuccess :
    (manualPipeline.process manualPayload lostSuccess manualDatabase).2 =
        .error (.ingestion unhandledError) ∧
      ((∀ v, (manualPipeline.process manualPayload lostSuccess manualDatabase).1.activeChunks v =
          manualDatabase.activeChunks v) ∨
        lostSuccess.successFault ≠ none ∧ ∃ ctx chunks,
          manualPipeline.runStages lostSuccess = .ok chunks ∧
          ctx.documentVersionId = manualPayload.documentVersionId ∧
          List.Forall₂ (manualPipeline.indexer.RowOf ctx lostSuccess.persistedAt) chunks
            ((manualPipeline.process manualPayload lostSuccess manualDatabase).1.activeChunks
              manualPayload.documentVersionId) ∧
          ∀ v ≠ manualPayload.documentVersionId,
            (manualPipeline.process manualPayload lostSuccess manualDatabase).1.activeChunks v =
              manualDatabase.activeChunks v) := by
  have h : (manualPipeline.process manualPayload lostSuccess manualDatabase).2 =
      .error (.ingestion unhandledError) := by decide +kernel
  exact ⟨h, process_raises_activeChunks h⟩

/-- The delivery raises, but the version has a chunk that it did not have. -/
theorem chunks_replaced_by_failed_attempt :
    ¬ ∀ (p : Pipeline) (payload : IngestJobPayload) (a : Attempt) (db : Database) (raised : Raised),
      (p.process payload a db).2 = .error raised →
      (p.process payload a db).1.activeChunks payload.documentVersionId =
        db.activeChunks payload.documentVersionId := by
  intro hall
  have h := hall manualPipeline manualPayload lostSuccess manualDatabase
    (.ingestion unhandledError) (by decide +kernel)
  have hlength := congrArg List.length h
  revert hlength
  decide +kernel

end RagStack.Ingest
