import RagStack.Common.Table
import RagStack.Worker.Models

/-!
# The ingest tables

`services/api/prisma/schema.prisma` and the CHECK and UNIQUE constraints of
`prisma/migrations/20260404210000_phase7_schema_hardening`. A row carries the
constraints on its own columns as fields, so a statement that would violate one
cannot produce a row; primary keys are in `Table`, and the partial unique index
on active chunks is in `ChunkTable`.

Identifiers and times are natural numbers. Columns that no modelled statement
reads or writes are left out.
-/

namespace RagStack.Ingest

open RagStack.Common RagStack.Worker

/-- A UUID. -/
abbrev Id := ℕ

/-- A timestamp. -/
abbrev Time := ℕ

/-! ## Enumerations -/

/-- `enum IngestJobStatus`. -/
inductive IngestJobStatus
  | waiting | active | completed | failed | deadLetter
deriving DecidableEq, Repr

/-- `enum DocumentVersionStatus`. -/
inductive DocumentVersionStatus
  | queued | processing | indexed | failed
deriving DecidableEq, Repr

/-- `enum DocumentStatus`. -/
inductive DocumentStatus
  | uploaded | queued | processing | indexed | failed | archived
deriving DecidableEq, Repr

/-- `enum VectorizationStatus`. -/
inductive VectorizationStatus
  | pending | disabled | completed | failed
deriving DecidableEq, Repr

/-- `enum KbStatus`. -/
inductive KbStatus
  | active | archived
deriving DecidableEq, Repr

/-- `status in {"COMPLETED", "FAILED", "DEAD_LETTER"}`. -/
def IngestJobStatus.Terminal : IngestJobStatus → Prop
  | waiting | active => False
  | completed | failed | deadLetter => True

instance (s : IngestJobStatus) : Decidable s.Terminal := by
  cases s <;> unfold IngestJobStatus.Terminal <;> infer_instance

/-- `status: { in: [IngestJobStatus.WAITING, IngestJobStatus.ACTIVE] }`. -/
def IngestJobStatus.Open (s : IngestJobStatus) : Prop := s = waiting ∨ s = active

instance (s : IngestJobStatus) : Decidable s.Open := inferInstanceAs (Decidable (_ ∨ _))

/-- A status is either open or terminal. -/
theorem IngestJobStatus.not_terminal_iff {s : IngestJobStatus} : ¬ s.Terminal ↔ s.Open := by
  cases s <;> simp [Terminal, Open]

/-! ## Rows -/

/-- `IngestJob`, with its CHECK constraints. -/
structure IngestJob where
  id : Id
  documentVersionId : Id
  status : IngestJobStatus := .waiting
  errorCode : Option String := none
  errorMessage : Option String := none
  retryable : Bool := true
  attempts : ℕ := 0
  maxAttempts : ℕ := 3
  correlationId : Option String := none
  startedAt : Option Time := none
  finishedAt : Option Time := none
  createdAt : Time
  updatedAt : Time
  maxAttempts_pos : 0 < maxAttempts := by decide
  attempts_le : attempts ≤ maxAttempts := by decide
deriving DecidableEq

/-- `DocumentVersion`. -/
structure DocumentVersion where
  id : Id
  documentId : Id
  storageBucket : Option String := none
  s3Key : String
  versionNumber : ℕ := 1
  status : DocumentVersionStatus := .queued
  ingestVersion : ℕ := 1
  pipelineVersion : String := "phase2.v1"
  vectorizationStatus : VectorizationStatus := .pending
  chunkCount : ℕ := 0
  lastErrorCode : Option String := none
  lastErrorMessage : Option String := none
  startedAt : Option Time := none
  finishedAt : Option Time := none
  indexedAt : Option Time := none
  createdAt : Time
  updatedAt : Time
deriving DecidableEq, Repr

/-- `Document`. -/
structure Document where
  id : Id
  kbId : Id
  name : String
  type : String
  status : DocumentStatus := .uploaded
  lastErrorCode : Option String := none
  lastErrorMessage : Option String := none
  indexedAt : Option Time := none
  createdAt : Time
  updatedAt : Time
deriving DecidableEq, Repr

/-- `length(trim(text)) > 0`. -/
def nonblank (text : Text) : Bool := !(text.all fun c => c == ' ')

/-- `DocumentChunk_embedding_consistency_check`. -/
def EmbeddingConsistent (embedding : Option (List Rat)) (model : Option String) (dim : Option ℕ) :
    Prop :=
  match embedding, model, dim with
  | none, none, none => True
  | some vector, some _, some dim => 0 < dim ∧ vector.length = dim
  | _, _, _ => False

instance (embedding : Option (List Rat)) (model : Option String) (dim : Option ℕ) :
    Decidable (EmbeddingConsistent embedding model dim) := by
  unfold EmbeddingConsistent
  split <;> infer_instance

/-- `DocumentChunk`, with its CHECK constraints. -/
structure DocumentChunk where
  id : Id
  documentId : Id
  documentVersionId : Id
  kbId : Id
  chunkNo : ℕ
  content : Text
  searchText : Text
  tokenCount : ℕ
  sectionTitle : Option Text
  pageNumber : Option ℤ
  sourceTitle : String
  language : Option String
  chunkingStrategy : String
  chunkingVersion : String
  embeddingModel : Option String
  embeddingDim : Option ℕ
  embedding : Option (List Rat)
  checksum : String
  metadataJson : ChunkMetadata
  supersededAt : Option Time
  createdAt : Time
  updatedAt : Time
  chunkNo_pos : 0 < chunkNo
  tokenCount_pos : 0 < tokenCount
  strategy_nonblank : nonblank chunkingStrategy.toList = true
  version_nonblank : nonblank chunkingVersion.toList = true
  checksum_nonblank : nonblank checksum.toList = true
  embedding_consistent : EmbeddingConsistent embedding embeddingModel embeddingDim
deriving DecidableEq

/-- `"supersededAt" IS NULL`. -/
def DocumentChunk.isActive (c : DocumentChunk) : Bool := c.supersededAt.isNone

/-- `KnowledgeBase`. -/
structure KnowledgeBase where
  id : Id
  status : KbStatus := .active
deriving DecidableEq, Repr

/-- `KbMember`; its key is the pair of knowledge base and user. -/
structure KbMember where
  kbId : Id
  userId : Id
deriving DecidableEq, Repr

/-- The columns of `DocumentChunk_active_version_chunk_key`. -/
def DocumentChunk.versionChunk (c : DocumentChunk) : Id × ℕ := (c.documentVersionId, c.chunkNo)

/-- The chunk table: no two active chunks of a version share a `chunkNo`. -/
structure ChunkTable where
  table : Table DocumentChunk DocumentChunk.id
  active_nodup : ((table.rows.filter DocumentChunk.isActive).map DocumentChunk.versionChunk).Nodup

/-- `KbMember`'s key. -/
def KbMember.key (m : KbMember) : Id × Id := (m.kbId, m.userId)

/-- The part of the database that ingestion and retrieval touch. -/
structure Database where
  jobs : Table IngestJob IngestJob.id
  versions : Table DocumentVersion DocumentVersion.id
  documents : Table Document Document.id
  chunks : ChunkTable
  knowledgeBases : Table KnowledgeBase KnowledgeBase.id
  members : Table KbMember KbMember.key

/-- The rows of the chunk table. -/
def Database.chunkRows (db : Database) : List DocumentChunk := db.chunks.table.rows

/-- The active chunks of a version. -/
def Database.activeChunks (db : Database) (versionId : Id) : List DocumentChunk :=
  db.chunkRows.filter fun c => c.documentVersionId = versionId ∧ c.isActive

end RagStack.Ingest
