import RagStack.Chat.Ask
import RagStack.Common.Views

/-!
# The retrieval queries

`services/api/src/chat/retrieval-query.repository.ts` from the rows that the WHERE
clauses admit to the candidates, and the reads that `ask` makes: the count of the
indexed chunks and the two queries of `retrieve`.

* `askReads` — these reads, with the checks that come before them.
* `askReads_of_asked`: they are the reads of `ask`, although it has stored the
  question by then.
-/

namespace RagStack.Chat

open RagStack.Common RagStack.Api
open RagStack.Worker (Text BlockKind NormalizationInfo ChunkMetadata)
open RagStack.Ingest (Id Time DocumentChunk)
open RagStack.Access (AuthenticatedUser assertKnowledgeBaseRead getAccessibleConversation)
open RagStack.Retrieval (SqlFunctions NormalizedChatFilters Scope Joined buildBaseFromClause
  semanticWhere lexicalWhere lexicalDocumentText candidates)

/-! ## Rows -/

/-- What the queries call beside the functions of their clauses: `<=>`, `none` for
    `NaN`, `ts_rank_cd` on the vector of a text, and whether `to_tsquery` accepts a
    query. -/
structure SearchFunctions extends SqlFunctions where
  distance : List Rat → List Rat → Option ℚ
  rankCd : Text → String → ℚ
  acceptsQuery : String → Bool

/-- The columns of a knowledge base that the queries read. -/
def searchKb (kb : KnowledgeBase) : Ingest.KnowledgeBase where
  id := kb.id
  status := kb.status

/-- The columns of a member that the queries read. -/
def searchMember (m : KbMember) : Ingest.KbMember where
  kbId := m.kbId
  userId := m.userId

/-- The tables as the queries read them. -/
def searchTables (db : Database) : Ingest.Database where
  jobs := db.jobs
  versions := db.versions
  documents := db.documents
  chunks := db.chunks
  knowledgeBases := db.knowledgeBases.map searchKb fun _ => rfl
  members := db.members.map searchMember fun _ => rfl

section SearchTables

variable (db : Database)

@[simp] theorem versions_searchTables : (searchTables db).versions = db.versions := rfl

@[simp] theorem documents_searchTables : (searchTables db).documents = db.documents := rfl

@[simp] theorem get?_knowledgeBases_searchTables (kbId : Id) :
    (searchTables db).knowledgeBases.get? kbId = (db.knowledgeBases.get? kbId).map searchKb :=
  Table.get?_map db.knowledgeBases searchKb (fun _ => rfl) kbId

@[simp] theorem get?_members_searchTables (key : Id × Id) :
    (searchTables db).members.get? key = (db.members.get? key).map searchMember :=
  Table.get?_map db.members searchMember (fun _ => rfl) key

end SearchTables

/-- The name of a kind of block. -/
def blockKindName : BlockKind → Text
  | .heading => "heading".toList
  | .paragraph => "paragraph".toList
  | .listItem => "list_item".toList
  | .tableRow => "table_row".toList
  | .qaPair => "qa_pair".toList

/-- An optional value as JSON. -/
def jsonOrNull {α : Type} (value : Option α) (toJson : α → Json) : Json :=
  (value.map toJson).getD .null

/-- `metadata_json["normalization"]`, which is empty for a document that was not
    normalized. -/
def normalizationJson (info : Option NormalizationInfo) : Json :=
  match info with
  | none => .obj []
  | some info => .obj
    [("version".toList, .str info.version.toList),
      ("blocks_in".toList, .num info.blocksIn),
      ("blocks_out".toList, .num info.blocksOut),
      ("soft_wrap_joins".toList, .num info.softWrapJoins),
      ("dehyphenated_breaks".toList, .num info.dehyphenatedBreaks),
      ("noise_lines_removed".toList, .num info.noiseLinesRemoved),
      ("blank_runs_collapsed".toList, .num info.blankRunsCollapsed)]

/-- `metadataJson` as a JSON object, with the keys in the order of `jsonb`. -/
def metadataObject (metadata : ChunkMetadata) : List (Text × Json) :=
  let strings := fun titles : List Text => Json.arr (titles.map Json.str)
  [("parser".toList, .str metadata.parser.toList),
    ("chunking".toList, .obj
      [("version".toList, .str metadata.chunking.version.toList),
        ("strategy".toList, .str metadata.chunking.strategy.toList),
        ("target_tokens".toList, .num metadata.chunking.targetTokens),
        ("overlap_tokens".toList, .num metadata.chunking.overlapTokens)]),
    ("page_end".toList, jsonOrNull metadata.pageEnd fun page => .num page),
    ("page_start".toList, jsonOrNull metadata.pageStart fun page => .num page),
    ("unit_count".toList, .num metadata.unitCount),
    ("block_kinds".toList, strings (metadata.blockKinds.map blockKindName)),
    ("parser_type".toList, .str metadata.parserType.toList),
    ("page_numbers".toList, .arr (metadata.pageNumbers.map fun page => .num page)),
    ("section_path".toList, jsonOrNull metadata.sectionPath strings),
    ("normalization".toList, normalizationJson metadata.normalization),
    ("section_paths".toList, .arr (metadata.sectionPaths.map strings)),
    ("section_titles".toList, strings metadata.sectionTitles),
    ("token_estimator".toList, .str metadata.tokenEstimator.toList),
    ("source_block_end".toList, jsonOrNull metadata.sourceBlockEnd fun index => .num index),
    ("source_block_start".toList, jsonOrNull metadata.sourceBlockStart fun index => .num index),
    ("extraction_warnings".toList, strings (metadata.extractionWarnings.map String.toList)),
    ("page_mapping_available".toList, .bool metadata.pageMappingAvailable),
    ("contains_structured_content".toList, .bool metadata.containsStructuredContent)]

/-- `RETRIEVAL_BASE_SELECT` (lines 36–52). -/
def chunkSearchRow (dc : DocumentChunk) (joined : Joined) : ChunkSearchRow where
  chunkId := dc.id
  documentId := dc.documentId
  documentTitle := joined.d.name.toList
  documentVersionId := dc.documentVersionId
  kbId := dc.kbId
  chunkNo := dc.chunkNo
  content := dc.content
  searchText := dc.searchText
  checksum := dc.checksum
  sectionTitle := dc.sectionTitle
  pageNumber := dc.pageNumber
  sourceTitle := some dc.sourceTitle.toList
  language := dc.language.map String.toList
  metadataJson := some (metadataObject dc.metadataJson)
  indexedAt := joined.dv.indexedAt

/-! ## Candidates -/

/-- `calculateMetadataSignals` (lines 278–298). -/
def calculateMetadataSignals (uni : EcmaUnicode) (row : ChunkSearchRow)
    (filters : NormalizedChatFilters) : List String :=
  (if filters.documentIds.contains row.documentId then ["document_filter"] else []) ++
    if row.language.any fun language =>
      language ≠ [] ∧ String.ofList (uni.toLowerCase language) ∈ filters.languages then
        ["language_filter"]
    else []

/-- What `toCandidate` gets beside the row. -/
structure CandidateScores where
  semanticDistance : Option ℚ := none
  semanticSimilarity : Option ℚ := none
  rawLexicalScore : Option ℚ := none
  semanticRank : Option ℕ := none
  lexicalRank : Option ℕ := none

/-- `toCandidate` (lines 216–276). -/
def toCandidate (uni : EcmaUnicode) (filters : NormalizedChatFilters) (row : ChunkSearchRow)
    (scores : CandidateScores) : RetrievalCandidate where
  chunkId := row.chunkId
  documentId := row.documentId
  documentTitle := row.documentTitle
  documentVersionId := row.documentVersionId
  kbId := row.kbId
  chunkNo := row.chunkNo
  content := row.content
  searchText := row.searchText
  checksum := row.checksum
  sectionTitle := row.sectionTitle
  pageNumber := row.pageNumber
  sourceTitle := row.sourceTitle
  language := row.language
  metadataJson := row.metadataJson
  semanticScore := normalizeSemanticDistance scores.semanticDistance
  semanticRank := scores.semanticRank
  lexicalRank := scores.lexicalRank
  indexedAt := row.indexedAt
  debug :=
    { retrievedBy := if scores.semanticRank.isSome then [.semantic] else [.lexical]
      rawSemanticDistance := scores.semanticDistance
      rawSemanticSimilarity := scores.semanticSimilarity
      rawLexicalScore := scores.rawLexicalScore
      metadataSignals := calculateMetadataSignals uni row filters }

/-- An order in which a missing value comes last. -/
def compareNoneLast {α : Type} (compare : α → α → Ordering) : Option α → Option α → Ordering
  | none, none => .eq
  | none, some _ => .gt
  | some _, none => .lt
  | some a, some b => compare a b

/-- `dv."indexedAt" DESC NULLS LAST, dc."id" ASC`. -/
def compareRecent (a b : ChunkSearchRow) : Ordering :=
  (compareNoneLast (fun s t : Time => compare t s) a.indexedAt b.indexedAt).then
    (compare a.chunkId b.chunkId)

/-- The parameters that both queries have. -/
structure FetchParams where
  scope : Scope
  candidateLimit : ℕ

/-- The admitted chunks with the rows that are joined to them. -/
def joinedCandidates (db : Database) (scope : Scope) (clause : DocumentChunk → Joined → Bool) :
    List (DocumentChunk × Joined) :=
  (candidates (searchTables db) scope clause).filterMap fun dc =>
    (buildBaseFromClause (searchTables db) scope.userId dc).map fun joined => (dc, joined)

/-- `fetchSemanticCandidates` (lines 72–107). -/
def fetchSemanticCandidates (uni : EcmaUnicode) (search : SearchFunctions) (db : Database)
    (params : FetchParams) (queryEmbedding : List Rat) (embeddingDim : ℕ)
    (embeddingModel : String) : List RetrievalCandidate :=
  let rows := (joinedCandidates db params.scope
    (semanticWhere search.toSqlFunctions params.scope embeddingModel embeddingDim)).map
      fun (dc, joined) =>
        (chunkSearchRow dc joined, search.distance (dc.embedding.getD []) queryEmbedding)
  let ordered := rows.mergeSort fun a b =>
    ((compareNoneLast compare a.2 b.2).then (compareRecent a.1 b.1)).isLE
  (ordered.take params.candidateLimit).mapIdx fun index (row, distance) =>
    toCandidate uni params.scope.filters row
      { semanticDistance := distance
        semanticSimilarity := distance.map fun d => 1 - d
        semanticRank := some (index + 1) }

/-- `fetchLexicalCandidates` (lines 109–146); the error is that of `to_tsquery`. -/
def fetchLexicalCandidates (uni : EcmaUnicode) (search : SearchFunctions) (db : Database)
    (params : FetchParams) (query : NormalizedRetrievalQuery) :
    Except HttpException (List RetrievalCandidate) :=
  let tsQuery := String.ofList (buildLexicalTsQuery uni query)
  if tsQuery = "" then .ok []
  else if !search.acceptsQuery tsQuery then .error .internal
  else
    let rows := (joinedCandidates db params.scope
      (lexicalWhere search.toSqlFunctions params.scope tsQuery)).map fun (dc, joined) =>
        (chunkSearchRow dc joined, search.rankCd (lexicalDocumentText dc joined) tsQuery)
    let ordered := rows.mergeSort fun a b =>
      ((compare b.2 a.2).then (compareRecent a.1 b.1)).isLE
    .ok ((ordered.take params.candidateLimit).mapIdx fun index (row, rank) =>
      toCandidate uni params.scope.filters row
        { rawLexicalScore := some rank, lexicalRank := some (index + 1) })

/-! ## The reads of `ask` -/

/-- What `retrieve` reads from the configuration, and `createQueryEmbedding`: the
    embedding of a text with its dimension, or `none` when there is none. -/
structure RetrievalSettings where
  semanticCandidateLimit : ℕ
  lexicalCandidateLimit : ℕ
  configuredEmbeddingModel : String
  createQueryEmbedding : Text → Option (List Rat × ℕ)

/-- `normalizeFilters` (retrieval.service.ts, lines 286–293). -/
def normalizeFilters (uni : EcmaUnicode) (filters : Option ChatFilters) :
    NormalizedChatFilters where
  documentIds := (filters.bind ChatFilters.documentIds).getD []
  languages := ((filters.bind ChatFilters.languages).getD []).map fun language =>
    String.ofList (uni.toLowerCase language.toList)

/-- What `ask` has read before it decides. -/
structure AskReads where
  kbId : Id
  indexedChunkCount : ℕ
  semantic : List RetrievalCandidate
  lexical : Except HttpException (List RetrievalCandidate)

/-- The count (chat.service.ts, lines 326–345) and the two queries of `retrieve`
    (retrieval.service.ts, lines 34–124) in a knowledge base. -/
def retrievalReads (uni : EcmaUnicode) (search : SearchFunctions) (settings : RetrievalSettings)
    (db : Database) (user : AuthenticatedUser) (kbId : Id) (dto : AskQuestionDto) : AskReads :=
  let query := preprocess uni dto.question
  let scope : Scope :=
    { kbId := kbId
      userId := user.id
      isAdmin := user.isAdmin
      filters := normalizeFilters uni dto.filters }
  { kbId := kbId
    indexedChunkCount := countIndexedChunks uni db kbId dto.filters
    semantic :=
      if query.normalizedText = [] then []
      else
        match settings.createQueryEmbedding query.normalizedText with
        | none => []
        | some (embedding, dimensions) =>
          fetchSemanticCandidates uni search db
            { scope := scope, candidateLimit := settings.semanticCandidateLimit } embedding
            dimensions settings.configuredEmbeddingModel
    lexical :=
      if query.normalizedText = [] ∨ query.lexicalText = [] then .ok []
      else
        fetchLexicalCandidates uni search db
          { scope := scope, candidateLimit := settings.lexicalCandidateLimit } query }

/-- The check of `ensureConversationForAsk` for an existing conversation. -/
def checkConversation (db : Database) (user : AuthenticatedUser) (kbId : Id)
    (conversationId : Option Id) : Except HttpException Unit :=
  match conversationId with
  | none => .ok ()
  | some conversationId =>
    match getAccessibleConversation db user conversationId with
    | .error e => .error e
    | .ok conversation =>
      if conversation.kbId ≠ kbId then
        .error (.badRequest "Conversation KB scope does not match request KB")
      else .ok ()

/-- The reads of `ask` after the checks that it makes first. -/
def askReads (uni : EcmaUnicode) (search : SearchFunctions) (settings : RetrievalSettings)
    (db : Database) (user : AuthenticatedUser) (dto : AskQuestionDto) :
    Except HttpException AskReads :=
  match resolveKbScope db user dto with
  | .error e => .error e
  | .ok kb =>
    match checkConversation db user kb.id dto.conversationId with
    | .error e => .error e
    | .ok () => .ok (retrievalReads uni search settings db user kb.id dto)

theorem checkConversation_of_ensure {db db' : Database} {io : AskIo} {user : AuthenticatedUser}
    {kbId : Id} {conversationId : Option Id} {question : Text} {conversation : Conversation}
    (h : ensureConversationForAsk db io user kbId conversationId question =
      .ok (db', conversation)) :
    checkConversation db user kbId conversationId = .ok () := by
  unfold ensureConversationForAsk at h
  unfold checkConversation
  split at h
  · split at h
    · cases h
    · rename_i hfound
      split_ifs at h with hkb
      simp only [hfound, if_neg hkb]
  · rfl

/-- When `ask` has stored the question, its reads are those of `askReads` before. -/
theorem askReads_of_asked {uni : EcmaUnicode} {search : SearchFunctions}
    {settings : RetrievalSettings} {db db₁ db₂ : Database} {io : AskIo} {user : AuthenticatedUser}
    {dto : AskQuestionDto} {kb : KnowledgeBase} {conversation : Conversation}
    (hkb : resolveKbScope db user dto = .ok kb)
    (hconversation : ensureConversationForAsk db io user kb.id dto.conversationId dto.question =
      .ok (db₁, conversation))
    (hmessage : createUserMessage db₁ io conversation.id dto.question = some db₂) :
    askReads uni search settings db user dto =
      .ok (retrievalReads uni search settings db₂ user kb.id dto) := by
  have hcheck := checkConversation_of_ensure hconversation
  obtain ⟨_, rfl⟩ := ensureConversationForAsk_spec hconversation
  obtain ⟨_, _, rfl⟩ := createUserMessage_spec hmessage
  simp only [askReads, hkb, hcheck]
  rfl

end RagStack.Chat
