import RagStack.Chat.Conversations
import RagStack.Chat.GroundedAnswer
import RagStack.Chat.PhraseSearch

/-!
# Asking a question

`ask` of `services/api/src/chat/chat.service.ts`, with the result of the
retrieval and the provider as parameters. The four ways to an answer meet in
`persistAnswerOutcome`.

* `ask_contract`: what holds whenever `ask` returns, and that an answer that is
  not stored leaves no row of its own.
-/

namespace RagStack.Chat

open RagStack.Common RagStack.Api
open RagStack.Worker (Text)
open RagStack.Ingest (Id DocumentChunk)
open RagStack.Access (AuthenticatedUser assertKnowledgeBaseRead getAccessibleConversation)

def GROUNDABLE_EVIDENCE_SCORE_THRESHOLD : ℚ := 2 / 10

def LOW_EVIDENCE_SCORE_THRESHOLD : ℚ := 1 / 10

def LOW_EVIDENCE_SCORE_THRESHOLD_LEXICAL_ONLY : ℚ := 2 / 100

/-- `AskQuestionDto`. -/
structure AskQuestionDto where
  kbId : Option Id := none
  conversationId : Option Id := none
  question : Text
  filters : Option ChatFilters := none
deriving DecidableEq, Repr

/-- The settings that `ask` reads. -/
structure ChatConfig where
  citationLimit : ℕ := 3
  promptHistoryLimit : ℕ := 6
  isConfigured : Bool := true
  configuredChatModel : String
deriving DecidableEq, Repr

/-- `PromptContextMessage`. -/
structure PromptContextMessage where
  role : MessageRole
  content : Text
deriving DecidableEq, Repr

/-- What the prompt is built from. -/
structure PromptParams where
  question : Text
  evidenceStrength : EvidenceStrength
  conversationHistory : List PromptContextMessage
  selectedChunks : List RetrievalCandidate

/-- The provider: an output with its usage, or `none` for an `OpenAiGatewayError`. -/
abbrev Gateway := PromptParams → Option (GroundedOutput × UsageView)

/-! ## Scope -/

/-- `resolveKbScope` (lines 306–324). -/
def resolveKbScope (db : Database) (user : AuthenticatedUser) (dto : AskQuestionDto) :
    Except HttpException KnowledgeBase :=
  match dto.kbId, dto.conversationId with
  | some kbId, _ => assertKnowledgeBaseRead db user kbId
  | none, none => .error (.badRequest "kbId or conversationId is required")
  | none, some conversationId =>
    match getAccessibleConversation db user conversationId with
    | .error e => .error e
    | .ok conversation => assertKnowledgeBaseRead db user conversation.kbId

/-- The condition that `countIndexedChunks` counts by. -/
def isIndexedChunk (uni : EcmaUnicode) (db : Database) (kbId : Id) (filters : Option ChatFilters)
    (dc : DocumentChunk) : Bool :=
  let documentIds := (filters.bind ChatFilters.documentIds).getD []
  let languages := ((filters.bind ChatFilters.languages).getD []).map fun language =>
    String.ofList (uni.toLowerCase language.toList)
  decide (dc.kbId = kbId) && dc.isActive &&
    (db.documents.get? dc.documentId).any (fun d => d.status = .indexed) &&
    (db.versions.get? dc.documentVersionId).any (fun v => v.status = .indexed) &&
    (documentIds = [] || documentIds.contains dc.documentId) &&
    (languages = [] || dc.language.any languages.contains)

/-- `countIndexedChunks` (lines 326–345). -/
def countIndexedChunks (uni : EcmaUnicode) (db : Database) (kbId : Id)
    (filters : Option ChatFilters) : ℕ :=
  db.chunkRows.countP (isIndexedChunk uni db kbId filters)

/-! ## Answering -/

/-- `retrieval.selectedChunks[0]?.hybridScore ?? 0`. -/
def RetrievalResult.topScore (retrieval : RetrievalResult) : ℚ :=
  (retrieval.selectedChunks.head?.map RetrievalCandidate.hybridScore).getD 0

/-- `resolveEvidenceStrength` (lines 347–355). -/
def resolveEvidenceStrength (topScore : ℚ) : EvidenceStrength :=
  if 6 / 10 ≤ topScore then .high
  else if GROUNDABLE_EVIDENCE_SCORE_THRESHOLD ≤ topScore then .medium
  else .low

/-- `resolveLowEvidenceThreshold` (lines 357–363). -/
def resolveLowEvidenceThreshold (retrieval : RetrievalResult) : ℚ :=
  if !retrieval.semanticUsed && retrieval.lexicalUsed then LOW_EVIDENCE_SCORE_THRESHOLD_LEXICAL_ONLY
  else LOW_EVIDENCE_SCORE_THRESHOLD

/-- `assertRetrievedChunksStayInKb` (lines 709–734). -/
def assertRetrievedChunksStayInKb (retrieval : RetrievalResult) (kbId : Id) :
    Except HttpException Unit :=
  match retrieval.selectedChunks.find? fun chunk => chunk.kbId ≠ kbId with
  | none => .ok ()
  | some _ => .error (.serviceUnavailable "Retrieval integrity check failed")

/-- `createGroundedAnswerOrThrow` (lines 365–408). -/
def createGroundedAnswerOrThrow (uni : EcmaUnicode) (config : ChatConfig) (gateway : Gateway)
    (normalizedQuery : Text) (prompt : PromptParams) :
    Except HttpException GroundedAnswerResult :=
  if !config.isConfigured then
    .ok (createLocalAnswer uni prompt.question normalizedQuery prompt.selectedChunks)
  else
    match gateway prompt with
    | none => .error (.serviceUnavailable "Answer generation failed")
    | some (output, usage) =>
      match parseGroundedAnswer config.citationLimit output with
      | none => .error (.serviceUnavailable "Answer generation failed")
      | some answer => .ok { answer := answer, usage := usage }

/-- `finalizeAnswer` (lines 453–467). -/
def finalizeAnswer (status : ChatStatus) (answer : Text) (citationCount : ℕ) : ChatStatus × Text :=
  if status = .grounded ∧ citationCount = 0 then
    (.insufficientData,
      "I could not assemble a citation-backed answer from the available sources.".toList)
  else (status, answer)

/-- The answer that is stored and returned. -/
structure AnswerOutcome where
  status : ChatStatus
  answer : Text
  citations : List CitationView := []
  usage : UsageView := {}
deriving DecidableEq, Repr

/-- The answer to a result of the model (lines 232–247). -/
def modelOutcome (uni : EcmaUnicode) (locale : LocaleCompare) (config : ChatConfig)
    (retrieval : RetrievalResult) (result : GroundedAnswerResult) : AnswerOutcome :=
  let citations :=
    if result.answer.status = .grounded then
      (assemble uni locale config.citationLimit
        { usedChunkIds := result.answer.usedChunkIds
          selectedChunks := retrieval.selectedChunks
          normalizedQuery := retrieval.normalizedQuery
          answerText := result.answer.answer }).citations
    else []
  let finalized := finalizeAnswer result.answer.status result.answer.answer citations.length
  { status := finalized.1, answer := finalized.2, citations := citations, usage := result.usage }

/-- The prompt for a question (lines 211–218). -/
def chatPrompt (question : Text) (history : List Message) (retrieval : RetrievalResult) :
    PromptParams where
  question := question
  evidenceStrength := resolveEvidenceStrength retrieval.topScore
  conversationHistory := (history.filter fun m => m.role ≠ .system).map fun m =>
    { role := m.role, content := m.content }
  selectedChunks := retrieval.selectedChunks

/-- From the count of the chunks and the retrieval to the answer (lines 160–247),
    with the messages of the conversation that go into the prompt. -/
def answerOutcome (uni : EcmaUnicode) (locale : LocaleCompare) (config : ChatConfig)
    (gateway : Gateway) (question : Text) (history : List Message) (indexedChunkCount : ℕ)
    (retrieval : RetrievalResult) : Except HttpException AnswerOutcome :=
  if indexedChunkCount = 0 then
    .ok
      { status := .insufficientData
        answer :=
          ("Tôi chưa có đủ thông tin được lập chỉ mục trong cơ sở kiến thức này để trả lời " ++
            "câu hỏi đó.").toList }
  else if retrieval.selectedChunks = [] ∨
      retrieval.topScore < resolveLowEvidenceThreshold retrieval then
    .ok
      { status := .outOfScope
        answer :=
          ("Tôi không tìm thấy tài liệu hỗ trợ phù hợp nào trong cơ sở kiến thức đã chọn cho " ++
            "câu hỏi đó.").toList }
  else
    match createGroundedAnswerOrThrow uni config gateway retrieval.normalizedQuery
      (chatPrompt question history retrieval) with
    | .error e => .error e
    | .ok result => .ok (modelOutcome uni locale config retrieval result)

/-! ## Storing the answer -/

/-- `buildRetrievalMeta` (lines 469–489). -/
def buildRetrievalMeta (retrieval : RetrievalResult) (filters : Option ChatFilters)
    (correlationId : Option String) : RetrievalMetaView where
  correlationId := correlationId
  embeddingsEnabled := retrieval.embeddingsEnabled
  filters := filters.getD {}
  lexicalUsed := retrieval.lexicalUsed
  semanticUsed := retrieval.semanticUsed
  totalCandidates := retrieval.totalCandidates
  selectedChunks := retrieval.selectedChunks.map fun chunk =>
    { chunkId := chunk.chunkId, score := toFixed6 chunk.hybridScore }
  normalizedQuery := retrieval.normalizedQuery
  topScore := toFixed6 retrieval.topScore

/-- `resolvePersistedModelName` (lines 499–507). -/
def resolvePersistedModelName (config : ChatConfig) (usage : UsageView) : String :=
  if 0 < usage.totalTokens then config.configuredChatModel
  else if config.isConfigured then config.configuredChatModel
  else "local.extractive-grounded-v1"

/-- The parameters of `createAssistantMessage` for an answer. -/
def assistantMessageParams (config : ChatConfig) (io : AskIo) (conversationId : Id)
    (filters : Option ChatFilters) (retrieval : RetrievalResult) (outcome : AnswerOutcome) :
    AssistantMessageParams where
  conversationId := conversationId
  answer := outcome.answer
  status := outcome.status
  citations := outcome.citations
  usage := outcome.usage
  latencyMs := io.latencyMs
  modelName := resolvePersistedModelName config outcome.usage
  retrievalMeta := buildRetrievalMeta retrieval filters io.correlationId

/-- `persistAnswerOutcome` (lines 547–642): the tables after it, and the response. -/
def persistAnswerOutcome (db : Database) (config : ChatConfig) (io : AskIo) (conversationId : Id)
    (filters : Option ChatFilters) (retrieval : RetrievalResult) (outcome : AnswerOutcome) :
    Database × Except HttpException ChatResponseView :=
  match createAssistantMessage db io
    (assistantMessageParams config io conversationId filters retrieval outcome) with
  | none => (db, .error persistenceFailure)
  | some db =>
    if io.fails .createAuditLog then (db, .error .internal)
    else
      (db, .ok
        { conversationId := conversationId
          messageId := io.assistantMessageId
          answer := outcome.answer
          citations := outcome.citations
          usage := outcome.usage
          latencyMs := io.latencyMs
          status := outcome.status })

/-- What is known when the answer is stored. -/
structure AskOutcome where
  kb : KnowledgeBase
  conversationId : Id
  retrieval : RetrievalResult
  outcome : AnswerOutcome

/-- `ask` up to the answer (lines 95–247), with the tables after the question was
    stored. The retrieval is a function of the knowledge base. -/
def askOutcome (uni : EcmaUnicode) (locale : LocaleCompare) (config : ChatConfig)
    (gateway : Gateway) (retrieve : Id → Except HttpException RetrievalResult) (db : Database)
    (io : AskIo) (user : AuthenticatedUser) (dto : AskQuestionDto) :
    Database × Except HttpException AskOutcome :=
  match resolveKbScope db user dto with
  | .error e => (db, .error e)
  | .ok kb =>
    match ensureConversationForAsk db io user kb.id dto.conversationId dto.question with
    | .error e => (db, .error e)
    | .ok (db, conversation) =>
      match createUserMessage db io conversation.id dto.question with
      | none => (db, .error persistenceFailure)
      | some db =>
        (db, do
          let retrieval ← retrieve kb.id
          assertRetrievedChunksStayInKb retrieval kb.id
          let outcome ← answerOutcome uni locale config gateway dto.question
            (getPromptHistory db conversation.id config.promptHistoryLimit)
            (countIndexedChunks uni db kb.id dto.filters) retrieval
          .ok
            { kb := kb
              conversationId := conversation.id
              retrieval := retrieval
              outcome := outcome })

/-- `ask` (lines 80–278): the tables after it, and the response. -/
def ask (uni : EcmaUnicode) (locale : LocaleCompare) (config : ChatConfig) (gateway : Gateway)
    (retrieve : Id → Except HttpException RetrievalResult) (db : Database) (io : AskIo)
    (user : AuthenticatedUser) (dto : AskQuestionDto) :
    Database × Except HttpException ChatResponseView :=
  match askOutcome uni locale config gateway retrieve db io user dto with
  | (db, .error e) => (db, .error e)
  | (db, .ok asked) =>
    persistAnswerOutcome db config io asked.conversationId dto.filters asked.retrieval asked.outcome

/-! ## The answer -/

section Outcome

variable {uni : EcmaUnicode} {locale : LocaleCompare} {config : ChatConfig} {gateway : Gateway}
  {retrieval : RetrievalResult} {result : GroundedAnswerResult}

theorem finalizeAnswer_grounded_iff {status : ChatStatus} {answer : Text} {citationCount : ℕ} :
    (finalizeAnswer status answer citationCount).1 = .grounded ↔
      status = .grounded ∧ citationCount ≠ 0 := by
  unfold finalizeAnswer
  split_ifs with hdowngraded
  · simp [hdowngraded.2]
  · constructor
    · exact fun h => ⟨h, fun hzero => hdowngraded ⟨h, hzero⟩⟩
    · exact fun h => h.1

theorem finalizeAnswer_outOfScope_iff {status : ChatStatus} {answer : Text} {citationCount : ℕ} :
    (finalizeAnswer status answer citationCount).1 = .outOfScope ↔ status = .outOfScope := by
  unfold finalizeAnswer
  split_ifs with hdowngraded
  · simp [hdowngraded.1]
  · exact Iff.rfl

theorem citations_modelOutcome_of_ne (h : result.answer.status ≠ .grounded) :
    (modelOutcome uni locale config retrieval result).citations = [] :=
  if_neg h

/-- The citations of a grounded answer are those that were assembled. -/
theorem citations_modelOutcome (h : result.answer.status = .grounded) :
    (modelOutcome uni locale config retrieval result).citations =
      (assemble uni locale config.citationLimit
        { usedChunkIds := result.answer.usedChunkIds
          selectedChunks := retrieval.selectedChunks
          normalizedQuery := retrieval.normalizedQuery
          answerText := result.answer.answer }).citations :=
  if_pos h

theorem modelOutcome_grounded_iff :
    (modelOutcome uni locale config retrieval result).status = .grounded ↔
      (modelOutcome uni locale config retrieval result).citations ≠ [] := by
  have hstatus : (modelOutcome uni locale config retrieval result).status =
      (finalizeAnswer result.answer.status result.answer.answer
        (modelOutcome uni locale config retrieval result).citations.length).1 := rfl
  rw [hstatus, finalizeAnswer_grounded_iff, ne_eq, List.length_eq_zero_iff]
  constructor
  · exact fun h => h.2
  · intro hcited
    refine ⟨?_, hcited⟩
    by_contra hother
    exact hcited (citations_modelOutcome_of_ne hother)

/-- The chunk ids of an answer are trimmed, whoever gave it. -/
theorem trimmed_of_createGroundedAnswerOrThrow {normalizedQuery : Text} {prompt : PromptParams}
    (h : createGroundedAnswerOrThrow uni config gateway normalizedQuery prompt = .ok result) :
    ∀ used ∈ result.answer.usedChunkIds, trim used = used := by
  unfold createGroundedAnswerOrThrow at h
  split_ifs at h
  · cases h
    exact trimmed_of_createLocalAnswer
  · split at h
    · cases h
    · split at h
      · cases h
      · rename_i answer hparsed
        cases h
        exact trimmed_of_parseGroundedAnswer hparsed

/-- What the citations of an answer are, when the model used the chunks `used`. -/
structure CitationContract (config : ChatConfig) (retrieval : RetrievalResult) (used : List Text)
    (citations : List CitationView) : Prop where
  ranks : citations.map CitationView.rank = List.range' 1 citations.length
  limit : citations.length ≤ config.citationLimit
  used : ∀ citation ∈ citations, idText citation.chunkId ∈ used
  selected : ∀ citation ∈ citations,
    ∃ chunk ∈ retrieval.selectedChunks, chunk.chunkId = citation.chunkId

theorem CitationContract.nil {used : List Text} : CitationContract config retrieval used [] where
  ranks := rfl
  limit := Nat.zero_le _
  used := fun _ h => by cases h
  selected := fun _ h => by cases h

theorem citationContract_modelOutcome
    (htrimmed : ∀ used ∈ result.answer.usedChunkIds, trim used = used) :
    CitationContract config retrieval result.answer.usedChunkIds
      (modelOutcome uni locale config retrieval result).citations := by
  by_cases hgrounded : result.answer.status = .grounded
  · rw [citations_modelOutcome hgrounded]
    refine ⟨ranks_assemble, length_citations_assemble_le, fun citation h => ?_, fun citation h =>
      (mem_citations_assemble h).1⟩
    obtain ⟨-, used, hused, hid⟩ := mem_requestedChunkIds.mp (mem_citations_assemble h).2
    rwa [← hid, htrimmed used hused]
  · rw [citations_modelOutcome_of_ne hgrounded]
    exact CitationContract.nil

/-- An answer is a refusal without citations, or made of a result of the model. -/
theorem answerOutcome_cases {question : Text} {history : List Message} {indexedChunkCount : ℕ}
    {outcome : AnswerOutcome}
    (h : answerOutcome uni locale config gateway question history indexedChunkCount retrieval =
      .ok outcome) :
    (outcome.status ≠ .grounded ∧ outcome.citations = []) ∨
      ∃ result, createGroundedAnswerOrThrow uni config gateway retrieval.normalizedQuery
          (chatPrompt question history retrieval) = .ok result ∧
        outcome = modelOutcome uni locale config retrieval result := by
  unfold answerOutcome at h
  split_ifs at h
  · cases h
    exact Or.inl ⟨by simp, rfl⟩
  · cases h
    exact Or.inl ⟨by simp, rfl⟩
  · split at h
    · cases h
    · rename_i result hresult
      cases h
      exact Or.inr ⟨result, hresult, rfl⟩

/-- The citations of an answer keep the contract with the result they were made from,
    and only a grounded answer has any. -/
theorem citationContract_of_answerOutcome {question : Text} {history : List Message}
    {indexedChunkCount : ℕ} {outcome : AnswerOutcome}
    (h : answerOutcome uni locale config gateway question history indexedChunkCount retrieval =
      .ok outcome) :
    (outcome.status = .grounded ↔ outcome.citations ≠ []) ∧
      ∃ used, CitationContract config retrieval used outcome.citations ∧
        ∀ citation ∈ outcome.citations,
          ∃ result, createGroundedAnswerOrThrow uni config gateway retrieval.normalizedQuery
              (chatPrompt question history retrieval) = .ok result ∧
            idText citation.chunkId ∈ result.answer.usedChunkIds := by
  rcases answerOutcome_cases h with ⟨hstatus, hnone⟩ | ⟨result, hresult, rfl⟩
  · -- a refusal
    rw [hnone]
    refine ⟨by simp [hstatus], [], CitationContract.nil, fun citation hcitation => ?_⟩
    cases hcitation
  · have hcontract : CitationContract config retrieval result.answer.usedChunkIds
        (modelOutcome uni locale config retrieval result).citations :=
      citationContract_modelOutcome (trimmed_of_createGroundedAnswerOrThrow hresult)
    exact ⟨modelOutcome_grounded_iff, _, hcontract, fun citation hcitation =>
      ⟨result, hresult, hcontract.used citation hcitation⟩⟩

end Outcome

/-! ## The contract -/

/-- What `ask` returns, stores and cites, when the answer was stored into the tables
    `before`. -/
structure AskContract (uni : EcmaUnicode) (config : ChatConfig) (gateway : Gateway)
    (question : Text) (asked : AskOutcome) (before after : Database)
    (response : ChatResponseView) : Prop where
  grounded_iff : response.status = .grounded ↔ response.citations ≠ []
  ranks : response.citations.map CitationView.rank = List.range' 1 response.citations.length
  limit : response.citations.length ≤ config.citationLimit
  selected : ∀ citation ∈ response.citations,
    ∃ chunk ∈ asked.retrieval.selectedChunks, chunk.chunkId = citation.chunkId
  used : ∀ citation ∈ response.citations, ∃ result,
    createGroundedAnswerOrThrow uni config gateway asked.retrieval.normalizedQuery
      (chatPrompt question
        (getPromptHistory before asked.conversationId config.promptHistoryLimit)
        asked.retrieval) = .ok result ∧
    idText citation.chunkId ∈ result.answer.usedChunkIds
  inKb : ∃ conversation, after.conversations.get? response.conversationId = some conversation ∧
    ∀ citation ∈ response.citations, ∃ dc, after.chunks.table.get? citation.chunkId = some dc ∧
      dc.kbId = conversation.kbId
  stored : ∃ (message : Message) (rows : List Citation),
    after.messages.rows = before.messages.rows ++ [message] ∧
    after.citationRows = before.citationRows ++ rows ∧
    message.id = response.messageId ∧ message.conversationId = response.conversationId ∧
    message.role = .assistant ∧ message.content = response.answer ∧
    message.retrievalMetaJson.map RetrievalMetaJson.status = some response.status ∧
    (∀ row ∈ rows, row.messageId = message.id) ∧ rows.map citationView = response.citations

section Contract

variable {uni : EcmaUnicode} {locale : LocaleCompare} {config : ChatConfig} {gateway : Gateway}
  {retrieve : Id → Except HttpException RetrievalResult} {db : Database} {io : AskIo}
  {user : AuthenticatedUser} {dto : AskQuestionDto}

/-- How `ask` comes to its answer. -/
structure AskedAnswer (uni : EcmaUnicode) (locale : LocaleCompare) (config : ChatConfig)
    (gateway : Gateway) (retrieve : Id → Except HttpException RetrievalResult) (db : Database)
    (user : AuthenticatedUser) (dto : AskQuestionDto) (before : Database) (asked : AskOutcome) :
    Prop where
  scope : resolveKbScope db user dto = .ok asked.kb
  retrieved : retrieve asked.kb.id = .ok asked.retrieval
  inKb : assertRetrievedChunksStayInKb asked.retrieval asked.kb.id = .ok ()
  documents : before.chunks = db.chunks ∧ before.documents = db.documents ∧
    before.versions = db.versions
  answered : answerOutcome uni locale config gateway dto.question
      (getPromptHistory before asked.conversationId config.promptHistoryLimit)
      (countIndexedChunks uni before asked.kb.id dto.filters) asked.retrieval = .ok asked.outcome

theorem askedAnswer_of_askOutcome {before : Database} {asked : AskOutcome}
    (h : askOutcome uni locale config gateway retrieve db io user dto = (before, .ok asked)) :
    AskedAnswer uni locale config gateway retrieve db user dto before asked := by
  unfold askOutcome at h
  split at h
  · simp at h
  · rename_i kb hkb
    split at h
    · simp at h
    · rename_i db₁ conversation hconversation
      split at h
      · simp at h
      · rename_i db₂ hmessage
        obtain ⟨rfl, hasked⟩ := Prod.mk.inj h
        obtain ⟨_, rfl⟩ := ensureConversationForAsk_spec hconversation
        obtain ⟨_, _, rfl⟩ := createUserMessage_spec hmessage
        cases hretrieval : retrieve kb.id with
        | error e =>
          rw [hretrieval] at hasked
          cases hasked
        | ok retrieval =>
          rw [hretrieval] at hasked
          cases hintegrity : assertRetrievedChunksStayInKb retrieval kb.id with
          | error e => simp [bind, Except.bind, hintegrity] at hasked
          | ok checked =>
            simp only [bind, Except.bind, hintegrity] at hasked
            split at hasked
            · cases hasked
            · rename_i outcome houtcome
              cases hasked
              exact
                { scope := hkb
                  retrieved := hretrieval
                  inKb := hintegrity
                  documents := ⟨rfl, rfl, rfl⟩
                  answered := houtcome }

theorem map_citationView_rows (messageId : Id) (citations : List CitationView) :
    (citations.mapIdx (citationRow io messageId)).map citationView = citations := by
  refine List.ext_getElem (by simp) fun i hi hi' => ?_
  simp [citationView, citationRow]

/-- A response is returned when the answer was stored as it is. -/
theorem persistAnswerOutcome_spec {before after : Database} {asked : AskOutcome}
    {response : ChatResponseView}
    (h : persistAnswerOutcome before config io asked.conversationId dto.filters asked.retrieval
      asked.outcome = (after, .ok response)) :
    createAssistantMessage before io (assistantMessageParams config io asked.conversationId
        dto.filters asked.retrieval asked.outcome) = some after ∧
      response =
        { conversationId := asked.conversationId
          messageId := io.assistantMessageId
          answer := asked.outcome.answer
          citations := asked.outcome.citations
          usage := asked.outcome.usage
          latencyMs := io.latencyMs
          status := asked.outcome.status } := by
  unfold persistAnswerOutcome at h
  split at h
  · simp at h
  · rename_i db' hdb'
    split_ifs at h
    · simp at h
    · simp only [Prod.mk.injEq, Except.ok.injEq] at h
      obtain ⟨rfl, rfl⟩ := h
      exact ⟨hdb', rfl⟩

theorem askContract_of_persisted {before after : Database} {asked : AskOutcome}
    {response : ChatResponseView}
    (hasked : askOutcome uni locale config gateway retrieve db io user dto = (before, .ok asked))
    (h : persistAnswerOutcome before config io asked.conversationId dto.filters asked.retrieval
      asked.outcome = (after, .ok response)) :
    AskContract uni config gateway dto.question asked before after response := by
  obtain ⟨hstored, rfl⟩ := persistAnswerOutcome_spec h
  obtain ⟨hmessage, hrows, hkb⟩ := createAssistantMessage_spec hstored
  have hrowIds : ∀ row ∈ asked.outcome.citations.mapIdx (citationRow io io.assistantMessageId),
      row.messageId = io.assistantMessageId := by
    intro row hrow
    obtain ⟨i, hi, rfl⟩ := List.mem_mapIdx.mp hrow
    rfl
  have hrowsStored : ∃ (message : Message) (rows : List Citation),
      after.messages.rows = before.messages.rows ++ [message] ∧
      after.citationRows = before.citationRows ++ rows ∧
      message.id = io.assistantMessageId ∧ message.conversationId = asked.conversationId ∧
      message.role = .assistant ∧ message.content = asked.outcome.answer ∧
      message.retrievalMetaJson.map RetrievalMetaJson.status = some asked.outcome.status ∧
      (∀ row ∈ rows, row.messageId = message.id) ∧
      rows.map citationView = asked.outcome.citations :=
    ⟨_, _, hmessage, hrows, rfl, rfl, rfl, rfl, rfl, hrowIds,
      map_citationView_rows io.assistantMessageId asked.outcome.citations⟩
  obtain ⟨hgrounded, used, hcontract, hused⟩ :=
    citationContract_of_answerOutcome (askedAnswer_of_askOutcome hasked).answered
  exact
    { grounded_iff := hgrounded
      ranks := hcontract.ranks
      limit := hcontract.limit
      selected := hcontract.selected
      used := hused
      inKb := hkb
      stored := hrowsStored }

/-- A response comes from an answer that was stored. -/
theorem ask_eq_ok {response : ChatResponseView}
    (h : (ask uni locale config gateway retrieve db io user dto).2 = .ok response) :
    ∃ before asked,
      askOutcome uni locale config gateway retrieve db io user dto = (before, .ok asked) ∧
      persistAnswerOutcome before config io asked.conversationId dto.filters asked.retrieval
        asked.outcome =
          ((ask uni locale config gateway retrieve db io user dto).1, .ok response) := by
  unfold ask at h ⊢
  split at h
  · cases h
  · rename_i before asked hasked
    rw [hasked]
    exact ⟨before, asked, rfl, Prod.ext rfl h⟩

end Contract

/-- Whenever `ask` returns, its response keeps the contract. When the transaction of
    the answer fails, it does not return, and no row of that transaction remains. -/
theorem ask_contract (uni : EcmaUnicode) (locale : LocaleCompare) (config : ChatConfig)
    (gateway : Gateway) (retrieve : Id → Except HttpException RetrievalResult) (db : Database)
    (io : AskIo) (user : AuthenticatedUser) (dto : AskQuestionDto) :
    (∀ response, (ask uni locale config gateway retrieve db io user dto).2 = .ok response →
      ∃ before asked,
        askOutcome uni locale config gateway retrieve db io user dto = (before, .ok asked) ∧
        AskContract uni config gateway dto.question asked before
          (ask uni locale config gateway retrieve db io user dto).1 response) ∧
    ∀ before asked,
      askOutcome uni locale config gateway retrieve db io user dto = (before, .ok asked) →
      (io.fails .createAssistantMessage = true ∨
        (asked.outcome.citations ≠ [] ∧ io.fails .createCitations = true) ∨
        createAssistantMessage before io (assistantMessageParams config io asked.conversationId
          dto.filters asked.retrieval asked.outcome) = none) →
      ask uni locale config gateway retrieve db io user dto =
        (before, .error persistenceFailure) := by
  constructor
  · intro response hresponse
    obtain ⟨before, asked, hasked, hpersisted⟩ := ask_eq_ok hresponse
    exact ⟨before, asked, hasked, askContract_of_persisted hasked hpersisted⟩
  · intro before asked hasked hfails
    have hnone : createAssistantMessage before io (assistantMessageParams config io
        asked.conversationId dto.filters asked.retrieval asked.outcome) = none := by
      rcases hfails with hfails | hfails | hnone
      · exact createAssistantMessage_of_fails (Or.inl hfails)
      · exact createAssistantMessage_of_fails (Or.inr (Or.inl hfails))
      · exact hnone
    rw [ask, hasked]
    simp only [persistAnswerOutcome, hnone]

/-! ## A question with lexical evidence only -/

/-- The user 1 has a knowledge base with one indexed chunk. -/
def guideDb : Database where
  users := ⟨[{ id := 1, email := "a@example.com", passwordHash := "x" }], by decide⟩
  knowledgeBases := ⟨[
    { id := 1
      slug := "guide".toList
      name := "Guide".toList
      createdAt := 0
      updatedAt := 0 }], by decide⟩
  members := ⟨[{ kbId := 1, userId := 1, role := .owner, createdAt := 0 }], by decide⟩
  documents := ⟨[
    { id := 1
      kbId := 1
      name := "Guide"
      type := "md"
      status := .indexed
      createdAt := 0
      updatedAt := 0 }], by decide⟩
  versions := ⟨[
    { id := 1
      documentId := 1
      s3Key := "key"
      status := .indexed
      createdAt := 0
      updatedAt := 0 }], by decide⟩
  jobs := .empty
  chunks := ⟨⟨[bareChunk "Install the worker.".toList], by decide⟩, by decide⟩
  conversations := .empty
  messages := .empty
  citations := .empty

/-- The lexical search finds the chunk, with this score; no embeddings are used. -/
def lexicalRetrieval (hybridScore : ℚ) : RetrievalResult where
  normalizedQuery := "worker".toList
  embeddingsEnabled := false
  semanticUsed := false
  lexicalUsed := true
  totalCandidates := 1
  selectedChunks := [{ guideCandidate 1 .lexical 0 with hybridScore := hybridScore }]
  debug :=
    { normalizedText := "worker".toList
      lexicalText := "worker".toList
      limits := { semanticTopN := 0, lexicalTopN := 24, rerankPoolLimit := 24, groundingTopK := 6 }
      weights := { semantic := 0, lexical := 1, metadata := 0, recency := 0, «structural» := 0 } }

/-- The model answers from the chunk. -/
def workerOutput : GroundedOutput where
  status := .grounded
  answer := "Install the worker.".toList
  used_chunk_ids := [idText 1]

/-- No statement fails. -/
def guideIo : AskIo where
  conversationId := 1
  userMessageId := 1
  assistantMessageId := 2
  citationId := id
  now := fun _ => 1
  latencyMs := 5
  correlationId := none
  fails := fun _ => false

/-- What the user asks about the guide. -/
def workerQuestion : AskQuestionDto where
  kbId := some 1
  question := "worker".toList

/-- The answer of `ask` to the question, for a score of the chunk. -/
def askWorker (hybridScore : ℚ) : Except HttpException ChatResponseView :=
  (ask .ascii .numeric { configuredChatModel := "chat" } (fun _ => some (workerOutput, {}))
    (fun _ => .ok (lexicalRetrieval hybridScore)) guideDb guideIo { id := 1 } workerQuestion).2

theorem ask_contract_worker :
    ∃ before asked response,
      askWorker (5 / 100) = .ok response ∧
      AskContract .ascii { configuredChatModel := "chat" } (fun _ => some (workerOutput, {}))
        workerQuestion.question asked before
        (ask .ascii .numeric { configuredChatModel := "chat" }
          (fun _ => some (workerOutput, {})) (fun _ => .ok (lexicalRetrieval (5 / 100))) guideDb
          guideIo { id := 1 } workerQuestion).1 response := by
  have hask : (askWorker (5 / 100)).toOption.isSome = true := by decide +kernel
  cases h : askWorker (5 / 100) with
  | error e =>
    rw [h] at hask
    cases hask
  | ok response =>
    obtain ⟨before, asked, -, hcontract⟩ := (ask_contract .ascii .numeric
      { configuredChatModel := "chat" } (fun _ => some (workerOutput, {}))
      (fun _ => .ok (lexicalRetrieval (5 / 100))) guideDb guideIo { id := 1 } workerQuestion).1
      response h
    exact ⟨before, asked, response, rfl, hcontract⟩

end RagStack.Chat
