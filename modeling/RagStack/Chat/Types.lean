import RagStack.Api.Basic
import RagStack.Retrieval.Candidates

/-!
# The records of the chat

`services/api/src/chat/chat.types.ts`. Scores are exact rationals; what decides on near
duplicates and on the window of a snippet rounds them to doubles (`Api.double`). Stage
timings are left out; nothing but the log reads them.
-/

namespace RagStack.Chat

open RagStack.Api
open RagStack.Worker (Text)
open RagStack.Ingest (Id Time)

/-- `ChatStatus` (line 4). -/
inductive ChatStatus
  | grounded | insufficientData | outOfScope
deriving DecidableEq, Repr

/-- `EvidenceStrength` (line 5). -/
inductive EvidenceStrength
  | low | medium | high
deriving DecidableEq, Repr

/-- `ChatFilters` (lines 9–12). -/
structure ChatFilters where
  documentIds : Option (List Id) := none
  languages : Option (List String) := none
deriving DecidableEq, Repr

/-- `RetrievalSource` (line 14). -/
inductive RetrievalSource
  | semantic | lexical
deriving DecidableEq, Repr

/-- `NormalizedRetrievalQuery` (lines 16–24). -/
structure NormalizedRetrievalQuery where
  rawQuery : Text
  normalizedText : Text
  lexicalText : Text
  tokens : List Text
  phrases : List Text
  freshnessIntent : Bool
  questionLike : Bool
deriving DecidableEq, Repr

/-- `RetrievalScoreWeights` (lines 26–32). -/
structure RetrievalScoreWeights where
  semantic : ℚ
  lexical : ℚ
  metadata : ℚ
  recency : ℚ
  structural : ℚ
deriving DecidableEq, Repr

/-! ## Candidates -/

/-- `RetrievalCandidateDebug` (lines 34–47). -/
structure RetrievalCandidateDebug where
  retrievedBy : List RetrievalSource
  rawSemanticDistance : Option ℚ
  rawSemanticSimilarity : Option ℚ
  rawLexicalScore : Option ℚ
  lexicalTokenCoverage : ℚ := 0
  lexicalPhraseCoverage : ℚ := 0
  metadataSignals : List String := []
  structuralSignals : List String := []
  selectionReason : String := ""
  rankBeforeDedup : Option ℕ := none
  rankAfterDedup : Option ℕ := none
  dedupReason : Option Text := none
deriving DecidableEq, Repr

/-- `RetrievalCandidate` (lines 49–74). -/
structure RetrievalCandidate where
  chunkId : Id
  documentId : Id
  documentTitle : Text
  documentVersionId : Id
  kbId : Id
  chunkNo : ℕ
  content : Text
  searchText : Text
  checksum : String
  sectionTitle : Option Text
  pageNumber : Option ℤ
  sourceTitle : Option Text
  language : Option Text
  metadataJson : Option (List (Text × Json))
  semanticScore : ℚ
  lexicalScore : ℚ := 0
  recencyScore : ℚ := 0
  metadataScore : ℚ := 0
  structuralScore : ℚ := 0
  hybridScore : ℚ := 0
  semanticRank : Option ℕ
  lexicalRank : Option ℕ
  indexedAt : Option Time
  debug : RetrievalCandidateDebug

/-- The columns of `ChunkSearchRow` (retrieval-query.repository.ts, lines 10–26) that
    do not depend on the question. -/
structure ChunkSearchRow where
  chunkId : Id
  documentId : Id
  documentTitle : Text
  documentVersionId : Id
  kbId : Id
  chunkNo : ℕ
  content : Text
  searchText : Text
  checksum : String
  sectionTitle : Option Text
  pageNumber : Option ℤ
  sourceTitle : Option Text
  language : Option Text
  metadataJson : Option (List (Text × Json))
  indexedAt : Option Time

/-- The stored row of a candidate. -/
def RetrievalCandidate.row (candidate : RetrievalCandidate) : ChunkSearchRow where
  chunkId := candidate.chunkId
  documentId := candidate.documentId
  documentTitle := candidate.documentTitle
  documentVersionId := candidate.documentVersionId
  kbId := candidate.kbId
  chunkNo := candidate.chunkNo
  content := candidate.content
  searchText := candidate.searchText
  checksum := candidate.checksum
  sectionTitle := candidate.sectionTitle
  pageNumber := candidate.pageNumber
  sourceTitle := candidate.sourceTitle
  language := candidate.language
  metadataJson := candidate.metadataJson
  indexedAt := candidate.indexedAt

/-- `RetrievalDebugCandidate` (lines 76–92). -/
structure RetrievalDebugCandidate where
  chunkId : Id
  documentId : Id
  semanticScore : ℚ
  lexicalScore : ℚ
  metadataMatchScore : ℚ
  recencyScore : ℚ
  structuralScore : ℚ
  finalScore : ℚ
  selectionReason : String
  rankBeforeDedup : Option ℕ
  rankAfterDedup : Option ℕ
  retrievedBy : List RetrievalSource
  semanticRank : Option ℕ
  lexicalRank : Option ℕ
  dedupReason : Option Text
deriving DecidableEq, Repr

/-- `RetrievalDebugView["limits"]` (lines 111–116). -/
structure RetrievalLimits where
  semanticTopN : ℕ
  lexicalTopN : ℕ
  rerankPoolLimit : ℕ
  groundingTopK : ℕ
deriving DecidableEq, Repr

/-- `RetrievalDebugView` (lines 103–120), with the fields of its `query` beside the others. -/
structure RetrievalDebugView where
  normalizedText : Text
  lexicalText : Text
  tokens : List Text := []
  phrases : List Text := []
  freshnessIntent : Bool := false
  limits : RetrievalLimits
  weights : RetrievalScoreWeights
  rankedCandidates : List RetrievalDebugCandidate := []
deriving DecidableEq, Repr

/-- `RetrievalResult` (lines 122–130). -/
structure RetrievalResult where
  normalizedQuery : Text
  embeddingsEnabled : Bool
  semanticUsed : Bool
  lexicalUsed : Bool
  totalCandidates : ℕ
  selectedChunks : List RetrievalCandidate
  debug : RetrievalDebugView

/-! ## Answers -/

/-- `RetrievalSelectionView` (lines 132–135). -/
structure RetrievalSelectionView where
  chunkId : Id
  score : ℚ
deriving DecidableEq, Repr

/-- `RetrievalMetaView` (lines 137–147). -/
structure RetrievalMetaView where
  correlationId : Option String
  embeddingsEnabled : Bool
  filters : ChatFilters
  lexicalUsed : Bool
  semanticUsed : Bool
  totalCandidates : ℕ
  selectedChunks : List RetrievalSelectionView
  normalizedQuery : Text
  topScore : ℚ
deriving DecidableEq, Repr

/-- `ModelAnswer` (lines 159–163). -/
structure ModelAnswer where
  status : ChatStatus
  answer : Text
  usedChunkIds : List Text
deriving DecidableEq, Repr

/-- `CitationView` (lines 165–174). -/
structure CitationView where
  rank : ℕ
  score : ℚ
  chunkId : Id
  documentId : Id
  documentTitle : Text
  snippet : Text
  page : Option ℤ
  «section» : Option Text
deriving DecidableEq, Repr

/-- `CitationAssemblyRejection` (lines 178–181). -/
structure CitationAssemblyRejection where
  chunkId : Text
  reason : String
deriving DecidableEq, Repr

/-- `CitationAssemblyDebug` (lines 183–190). -/
structure CitationAssemblyDebug where
  policyVersion : String
  granularity : String
  maxCitations : ℕ
  requestedChunkIds : List Text
  acceptedChunkIds : List Text
  rejectedChunkIds : List CitationAssemblyRejection
deriving DecidableEq, Repr

/-- `CitationAssemblyResult` (lines 192–195). -/
structure CitationAssemblyResult where
  citations : List CitationView
  debug : CitationAssemblyDebug
deriving DecidableEq, Repr

/-- `UsageView` (lines 197–201). -/
structure UsageView where
  inputTokens : ℕ := 0
  outputTokens : ℕ := 0
  totalTokens : ℕ := 0
deriving DecidableEq, Repr

/-- `ChatResponseView` (lines 203–213). -/
structure ChatResponseView where
  conversationId : Id
  messageId : Id
  answer : Text
  citations : List CitationView
  usage : UsageView
  latencyMs : ℕ
  status : ChatStatus
deriving DecidableEq, Repr

end RagStack.Chat
