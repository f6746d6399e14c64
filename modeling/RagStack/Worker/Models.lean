import RagStack.Worker.Text

/-!
# The worker's records

`app/services/errors.py`, `app/services/models.py` and the fields of
`app/core/settings.py` that ingestion reads. The bounds that
`Settings.validate_security_and_bounds` checks are fields of `Settings`, so
only admitted settings exist. Metadata dictionaries are records with one
optional field for each key that is read.
-/

namespace RagStack.Worker

/-! ## Errors -/

/-- `IngestionErrorCode` (errors.py, lines 5–25). -/
inductive IngestionErrorCode
  | fileNotFound | unsupportedFileType | fileParseFailed | emptyDocument | lowQualityExtraction
  | normalizationFailed | chunkingFailed | openaiAuthError | openaiRateLimit | openaiTimeout
  | openaiTransientError | openaiInvalidRequest | openaiResponseEmpty | openaiEmbeddingFailed
  | openaiChatFailed | embeddingApiFailed | vectorPersistFailed | dbWriteFailed
  | objectStorageFailed | transientExternalError
deriving DecidableEq, Repr

/-- `IngestionErrorCode.value`. -/
def IngestionErrorCode.value : IngestionErrorCode → String
  | fileNotFound => "FILE_NOT_FOUND"
  | unsupportedFileType => "UNSUPPORTED_FILE_TYPE"
  | fileParseFailed => "FILE_PARSE_FAILED"
  | emptyDocument => "EMPTY_DOCUMENT"
  | lowQualityExtraction => "LOW_QUALITY_EXTRACTION"
  | normalizationFailed => "NORMALIZATION_FAILED"
  | chunkingFailed => "CHUNKING_FAILED"
  | openaiAuthError => "OPENAI_AUTH_ERROR"
  | openaiRateLimit => "OPENAI_RATE_LIMIT"
  | openaiTimeout => "OPENAI_TIMEOUT"
  | openaiTransientError => "OPENAI_TRANSIENT_ERROR"
  | openaiInvalidRequest => "OPENAI_INVALID_REQUEST"
  | openaiResponseEmpty => "OPENAI_RESPONSE_EMPTY"
  | openaiEmbeddingFailed => "OPENAI_EMBEDDING_FAILED"
  | openaiChatFailed => "OPENAI_CHAT_FAILED"
  | embeddingApiFailed => "EMBEDDING_API_FAILED"
  | vectorPersistFailed => "VECTOR_PERSIST_FAILED"
  | dbWriteFailed => "DB_WRITE_FAILED"
  | objectStorageFailed => "OBJECT_STORAGE_FAILED"
  | transientExternalError => "TRANSIENT_EXTERNAL_ERROR"

/-- `IngestionError` (errors.py, lines 28–36); `details` is only logged. -/
structure IngestionError where
  code : IngestionErrorCode
  message : String
  retryable : Bool
deriving DecidableEq, Repr

/-! ## Documents -/

/-- `BlockKind` (models.py, line 7). -/
inductive BlockKind
  | heading | paragraph | listItem | tableRow | qaPair
deriving DecidableEq, Repr

/-- The kinds in the order in which Python sorts their names. -/
def BlockKind.sorted : List BlockKind := [heading, listItem, paragraph, qaPair, tableRow]

/-- The flags `TextNormalizer._normalize_block` raises. -/
inductive NormalizationFlag
  | blankRunsCollapsed | dehyphenatedBreaks | noiseLinesRemoved | softWrapJoins
deriving DecidableEq, Repr

/-- `ParsedBlock.metadata`. `heading_level` is `none` when the key is missing or
    its value is not an integer. -/
structure BlockMetadata where
  headingLevel : Option ℤ := none
  qaLabel : Option Text := none
  normalizationFlags : Option (List NormalizationFlag) := none
deriving DecidableEq, Repr

/-- `ParsedBlock` (models.py, lines 41–46). -/
structure ParsedBlock where
  text : Text
  kind : BlockKind := .paragraph
  pageNumber : Option ℤ := none
  metadata : BlockMetadata := {}
deriving DecidableEq, Repr

/-- `metadata["normalization"]` of a normalized document. -/
structure NormalizationInfo where
  version : String
  blocksIn : ℕ
  blocksOut : ℕ
  dehyphenatedBreaks : ℕ
  softWrapJoins : ℕ
  blankRunsCollapsed : ℕ
  noiseLinesRemoved : ℕ
deriving DecidableEq, Repr

/-- `ParsedDocument.metadata`. -/
structure DocumentMetadata where
  parser : Option String := none
  pageMappingAvailable : Option Bool := none
  extractionWarnings : Option (List String) := none
  normalization : Option NormalizationInfo := none
deriving DecidableEq, Repr

/-- `ParsedDocument` (models.py, lines 49–55). -/
structure ParsedDocument where
  fileType : String
  sourceTitle : String
  blocks : List ParsedBlock
  language : Option String := none
  metadata : DocumentMetadata := {}
deriving DecidableEq, Repr

/-! ## Settings -/

/-- The settings that ingestion reads (settings.py, lines 52–56), with the
    bounds that `validate_security_and_bounds` enforces on them. -/
structure Settings where
  chunkTargetTokens : ℕ := 800
  chunkOverlapTokens : ℕ := 120
  chunkingStrategy : String := "section_aware"
  chunkingVersion : String := "section_v2"
  target_ge : 20 ≤ chunkTargetTokens := by decide
  overlap_lt : chunkOverlapTokens < chunkTargetTokens := by decide

/-! ## Chunks -/

/-- `metadata_json["chunking"]`. -/
structure ChunkingInfo where
  strategy : String
  version : String
  targetTokens : ℕ
  overlapTokens : ℕ
deriving DecidableEq, Repr

/-- `metadata_json` as `Chunker._make_chunk` builds it (chunker.py, lines 418–446). -/
structure ChunkMetadata where
  pageNumbers : List ℤ
  pageStart : Option ℤ
  pageEnd : Option ℤ
  pageMappingAvailable : Bool
  tokenEstimator : String
  unitCount : ℕ
  blockKinds : List BlockKind
  sourceBlockStart : Option ℕ
  sourceBlockEnd : Option ℕ
  sectionTitles : List Text
  sectionPath : Option (List Text)
  sectionPaths : List (List Text)
  parser : String
  parserType : String
  extractionWarnings : List String
  normalization : Option NormalizationInfo
  chunking : ChunkingInfo
  containsStructuredContent : Bool
deriving DecidableEq, Repr

/-- `ChunkRecord` (models.py, lines 58–74). Embedding components are rationals. -/
structure ChunkRecord where
  chunkNo : ℕ
  content : Text
  searchText : Text
  tokenCount : ℕ
  sectionTitle : Option Text
  pageNumber : Option ℤ
  sourceTitle : String
  language : Option String
  chunkingStrategy : String
  chunkingVersion : String
  checksum : String
  metadataJson : ChunkMetadata
  embedding : Option (List Rat) := none
  embeddingModel : Option String := none
  embeddingDim : Option ℕ := none
deriving DecidableEq, Repr

/-- The chunk numbers are `1, …, n` in list order. -/
def Numbered (chunks : List ChunkRecord) : Prop :=
  chunks.map ChunkRecord.chunkNo = List.range' 1 chunks.length

instance (chunks : List ChunkRecord) : Decidable (Numbered chunks) :=
  inferInstanceAs (Decidable (_ = _))

end RagStack.Worker
