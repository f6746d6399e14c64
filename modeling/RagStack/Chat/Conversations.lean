import Mathlib.Data.List.Perm.Subperm
import RagStack.Access.Authorization
import RagStack.Chat.CitationAssembler

/-!
# Conversations in the database

`services/api/src/chat/conversation-persistence.service.ts`. A write is a
transaction: it gives the tables after it, or `none` when one of its statements
fails, and then the tables are as before. A statement fails when a constraint of
the schema is violated, or for a reason of its own (`AskIo.fails`).

* `createAssistantMessage_spec`: what the transaction of an answer has stored, and
  that the cited chunks are in the knowledge base of the conversation.
-/

namespace RagStack.Chat

open RagStack.Common RagStack.Api
open RagStack.Worker (Text)
open RagStack.Ingest (Id Time DocumentChunk)
open RagStack.Access (AuthenticatedUser getAccessibleConversation)

/-! ## Input and output -/

/-- The statements of `ask` that write. -/
inductive Statement
  | createConversation
  | createUserMessage
  | touchAfterQuestion
  | createAssistantMessage
  | createCitations
  | touchAfterAnswer
  | createAuditLog
deriving DecidableEq, Repr

/-- What one call of `ask` gets from outside: fresh ids, the clock, and which
    statements fail. -/
structure AskIo where
  conversationId : Id
  userMessageId : Id
  assistantMessageId : Id
  citationId : ℕ → Id
  now : Statement → Time
  latencyMs : ℕ
  correlationId : Option String
  fails : Statement → Bool

/-- What `handlePersistenceFailure` throws. -/
def persistenceFailure : HttpException := .serviceUnavailable "Conversation persistence failed"

/-- `tx.message.create`, under the key and the foreign key of the table. -/
def createMessage (db : Database) (io : AskIo) (statement : Statement) (message : Message) :
    Option Database :=
  if io.fails statement ∨ (db.conversations.get? message.conversationId).isNone then none
  else (db.messages.insert? message).map fun messages => { db with messages := messages }

/-- `tx.conversation.update` of the last activity; `none` without the row. -/
def touchConversation (db : Database) (io : AskIo) (statement : Statement) (conversationId : Id)
    (now : Time) : Option Database :=
  if io.fails statement ∨ (db.conversations.get? conversationId).isNone then none
  else
    some
      { db with
        conversations := db.conversations.update conversationId
          (fun c => { c with lastActivityAt := now, updatedAt := now }) fun _ => rfl }

/-! ## Questions -/

/-- `buildConversationTitle` (lines 299–302). -/
def buildConversationTitle (question : Text) : Text :=
  let trimmed := collapseSpaces question
  if 80 < utf16Length trimmed then unitsBefore 77 trimmed ++ "...".toList else trimmed

/-- `ensureConversationForAsk` (lines 124–160). -/
def ensureConversationForAsk (db : Database) (io : AskIo) (user : AuthenticatedUser) (kbId : Id)
    (conversationId : Option Id) (question : Text) :
    Except HttpException (Database × Conversation) :=
  match conversationId with
  | some conversationId =>
    match getAccessibleConversation db user conversationId with
    | .error e => .error e
    | .ok conversation =>
      if conversation.kbId ≠ kbId then
        .error (.badRequest "Conversation KB scope does not match request KB")
      else .ok (db, conversation)
  | none =>
    let now := io.now .createConversation
    let conversation : Conversation :=
      { id := io.conversationId
        userId := user.id
        kbId := kbId
        title := some (buildConversationTitle question)
        status := .active
        lastActivityAt := now
        createdAt := now
        updatedAt := now }
    if io.fails .createConversation ∨ (db.users.get? user.id).isNone ∨
        (db.knowledgeBases.get? kbId).isNone then .error persistenceFailure
    else
      match db.conversations.insert? conversation with
      | none => .error persistenceFailure
      | some conversations => .ok ({ db with conversations := conversations }, conversation)

/-- `createUserMessage` (lines 162–191). -/
def createUserMessage (db : Database) (io : AskIo) (conversationId : Id) (question : Text) :
    Option Database := do
  let message : Message :=
    { id := io.userMessageId
      conversationId := conversationId
      role := .user
      content := question
      createdAt := io.now .createUserMessage }
  let db ← createMessage db io .createUserMessage message
  touchConversation db io .touchAfterQuestion conversationId message.createdAt

/-! ## Answers -/

/-- The parameters of `createAssistantMessage`. -/
structure AssistantMessageParams where
  conversationId : Id
  answer : Text
  status : ChatStatus
  citations : List CitationView
  usage : UsageView
  latencyMs : ℕ
  modelName : String
  retrievalMeta : RetrievalMetaView

/-- The row of `createMany` for a citation. -/
def citationRow (io : AskIo) (messageId : Id) (index : ℕ) (citation : CitationView) : Citation where
  id := io.citationId index
  messageId := messageId
  chunkId := citation.chunkId
  documentId := citation.documentId
  documentTitle := citation.documentTitle
  rank := citation.rank
  score := citation.score
  snippet := citation.snippet
  pageNumber := citation.page
  sectionTitle := citation.section
  createdAt := io.now .createCitations

/-- The citation of a row, as `toMessageView` gives it (lines 354–363). -/
def citationView (citation : Citation) : CitationView where
  rank := citation.rank
  score := citation.score
  chunkId := citation.chunkId
  documentId := citation.documentId
  documentTitle := citation.documentTitle
  snippet := citation.snippet
  page := citation.pageNumber
  «section» := citation.sectionTitle

/-- `INSERT` into the citation table, under its keys. -/
def insertCitations (citations : CitationTable) (new : List Citation) : Option CitationTable := do
  let table ← citations.table.insertAll? new
  if h : (table.rows.map Citation.messageChunk).Nodup then some ⟨table, h⟩ else none

/-- The chunks of the citations that are in the knowledge base. -/
def scopedChunks (db : Database) (kbId : Id) (chunkIds : List Id) : List DocumentChunk :=
  db.chunkRows.filter fun dc => dc.id ∈ chunkIds ∧ dc.kbId = kbId

/-- The foreign key of a citation to its chunk and document. -/
def hasCitedChunk (db : Database) (citation : Citation) : Bool :=
  (db.chunks.table.get? citation.chunkId).any fun dc => dc.documentId = citation.documentId

/-- The part of the transaction that writes the citations (lines 232–263). -/
def createCitations (db : Database) (io : AskIo) (kbId messageId : Id)
    (citations : List CitationView) : Option Database :=
  if citations = [] then some db
  else
    let citationChunkIds := (citations.map CitationView.chunkId).eraseDups
    let rows := citations.mapIdx (citationRow io messageId)
    if (scopedChunks db kbId citationChunkIds).length ≠ citationChunkIds.length then none
    else if io.fails .createCitations ∨ ¬ rows.all (hasCitedChunk db) then none
    else (insertCitations db.citations rows).map fun table => { db with citations := table }

/-- The message of an answer. -/
def assistantMessage (io : AskIo) (params : AssistantMessageParams) : Message where
  id := io.assistantMessageId
  conversationId := params.conversationId
  role := .assistant
  content := params.answer
  latencyMs := some params.latencyMs
  usageJson := some params.usage
  retrievalMetaJson := some { params.retrievalMeta with status := params.status }
  modelName := some params.modelName
  createdAt := io.now .createAssistantMessage

/-- `createAssistantMessage` (lines 193–284). -/
def createAssistantMessage (db : Database) (io : AskIo) (params : AssistantMessageParams) :
    Option Database := do
  let conversation ← db.conversations.get? params.conversationId
  let db ← createMessage db io .createAssistantMessage (assistantMessage io params)
  let db ← createCitations db io conversation.kbId io.assistantMessageId params.citations
  touchConversation db io .touchAfterAnswer params.conversationId (io.now .touchAfterAnswer)

/-! ## What the transactions do -/

section Transactions

variable {db db' : Database} {io : AskIo}

theorem createMessage_spec {statement : Statement} {message : Message}
    (h : createMessage db io statement message = some db') :
    db'.messages.rows = db.messages.rows ++ [message] ∧ db'.citations = db.citations ∧
      db'.chunks = db.chunks ∧ db'.conversations = db.conversations := by
  unfold createMessage at h
  split_ifs at h
  obtain ⟨messages, hmessages, rfl⟩ := Option.map_eq_some_iff.mp h
  exact ⟨Table.rows_of_insert? hmessages, rfl, rfl, rfl⟩

/-- The touched conversation is still in its knowledge base; nothing else changes. -/
theorem touchConversation_spec {statement : Statement} {conversationId : Id} {now : Time}
    (h : touchConversation db io statement conversationId now = some db') :
    db'.messages = db.messages ∧ db'.citations = db.citations ∧ db'.chunks = db.chunks ∧
      ∀ id, (db'.conversations.get? id).map Conversation.kbId =
        (db.conversations.get? id).map Conversation.kbId := by
  unfold touchConversation at h
  split_ifs at h
  cases h
  refine ⟨rfl, rfl, rfl, fun id => ?_⟩
  rw [Table.get?_update]
  split_ifs
  · rw [Option.map_map]
    rfl
  · rfl

/-- When the count of the scope check agrees, every id has a chunk of the
    knowledge base. -/
theorem exists_chunk_of_scopedChunks {kbId : Id} {chunkIds : List Id}
    (h : (scopedChunks db kbId chunkIds).length = chunkIds.length) {id : Id} (hid : id ∈ chunkIds) :
    ∃ dc, db.chunks.table.get? id = some dc ∧ dc.kbId = kbId := by
  have hnodup : ((scopedChunks db kbId chunkIds).map DocumentChunk.id).Nodup :=
    db.chunks.table.keys_nodup.sublist (List.filter_sublist.map _)
  have hsub : (scopedChunks db kbId chunkIds).map DocumentChunk.id ⊆ chunkIds := by
    intro found hfound
    obtain ⟨dc, hdc, rfl⟩ := List.mem_map.mp hfound
    exact (of_decide_eq_true (List.mem_filter.mp hdc).2).1
  have hperm : ((scopedChunks db kbId chunkIds).map DocumentChunk.id).Perm chunkIds := by
    refine (List.subperm_of_subset hnodup hsub).perm_of_length_le ?_
    rw [List.length_map, h]
  obtain ⟨dc, hdc, rfl⟩ := List.mem_map.mp (hperm.mem_iff.mpr hid)
  obtain ⟨hmem, hscope⟩ := List.mem_filter.mp hdc
  exact ⟨dc, db.chunks.table.get?_of_mem hmem, (of_decide_eq_true hscope).2⟩

theorem rows_insertCitations {citations table : CitationTable} {new : List Citation}
    (h : insertCitations citations new = some table) :
    table.table.rows = citations.table.rows ++ new := by
  obtain ⟨inserted, hinserted, hkeys⟩ := Option.bind_eq_some_iff.mp h
  split_ifs at hkeys
  cases hkeys
  exact Table.rows_of_insertAll? hinserted

theorem createCitations_spec {kbId messageId : Id} {citations : List CitationView}
    (h : createCitations db io kbId messageId citations = some db') :
    db'.messages = db.messages ∧ db'.chunks = db.chunks ∧ db'.conversations = db.conversations ∧
      db'.citationRows = db.citationRows ++ citations.mapIdx (citationRow io messageId) ∧
      ∀ citation ∈ citations, ∃ dc, db.chunks.table.get? citation.chunkId = some dc ∧
        dc.kbId = kbId := by
  unfold createCitations at h
  simp only at h
  split_ifs at h with hnil hscope hfails
  · cases h
    subst hnil
    exact ⟨rfl, rfl, rfl, by simp, fun citation hcitation => by cases hcitation⟩
  · obtain ⟨table, htable, rfl⟩ := Option.map_eq_some_iff.mp h
    refine ⟨rfl, rfl, rfl, rows_insertCitations htable, fun citation hcitation => ?_⟩
    refine exists_chunk_of_scopedChunks (not_not.mp hscope) ?_
    exact List.mem_eraseDups.mpr (List.mem_map_of_mem hcitation)

/-- The stored answer: the message and the citations are added, and the cited
    chunks are in the knowledge base of the conversation. -/
theorem createAssistantMessage_spec {params : AssistantMessageParams}
    (h : createAssistantMessage db io params = some db') :
    db'.messages.rows = db.messages.rows ++ [assistantMessage io params] ∧
      db'.citationRows = db.citationRows ++
        params.citations.mapIdx (citationRow io io.assistantMessageId) ∧
      ∃ conversation, db'.conversations.get? params.conversationId = some conversation ∧
        ∀ citation ∈ params.citations, ∃ dc, db'.chunks.table.get? citation.chunkId = some dc ∧
          dc.kbId = conversation.kbId := by
  simp only [createAssistantMessage, Option.bind_eq_bind, Option.bind_eq_some_iff] at h
  obtain ⟨conversation, hconversation, db₁, hmessage, db₂, hcitations, htouch⟩ := h
  obtain ⟨hmsg₁, hcit₁, hchunks₁, hconv₁⟩ := createMessage_spec hmessage
  obtain ⟨hmsg₂, hchunks₂, hconv₂, hrows₂, hscope⟩ := createCitations_spec hcitations
  obtain ⟨hmsg, hcit, hchunks, hconv⟩ := touchConversation_spec htouch
  have hkb : (db'.conversations.get? params.conversationId).map Conversation.kbId =
      some conversation.kbId := by
    rw [hconv, hconv₂, hconv₁, hconversation]
    rfl
  obtain ⟨conversation', hget, hsame⟩ := Option.map_eq_some_iff.mp hkb
  refine ⟨by rw [hmsg, hmsg₂, hmsg₁], ?_, conversation', hget, fun citation hcitation => ?_⟩
  · have hrows : db'.citationRows = db₂.citationRows := by
      rw [Database.citationRows, hcit, Database.citationRows]
    rw [hrows, hrows₂, Database.citationRows, hcit₁, Database.citationRows]
  · obtain ⟨dc, hdc, hdckb⟩ := hscope citation hcitation
    exact ⟨dc, by rw [hchunks, hchunks₂]; exact hdc, by rw [hdckb, hsame]⟩

/-- Storing a question leaves all other tables alone. -/
theorem createUserMessage_spec {conversationId : Id} {question : Text}
    (h : createUserMessage db io conversationId question = some db') :
    ∃ messages conversations,
      db' = { db with messages := messages, conversations := conversations } := by
  simp only [createUserMessage, Option.bind_eq_bind, Option.bind_eq_some_iff] at h
  obtain ⟨db₁, hmessage, htouch⟩ := h
  unfold createMessage at hmessage
  split_ifs at hmessage
  obtain ⟨messages, -, rfl⟩ := Option.map_eq_some_iff.mp hmessage
  unfold touchConversation at htouch
  split_ifs at htouch
  cases htouch
  exact ⟨_, _, rfl⟩

theorem ensureConversationForAsk_spec {user : AuthenticatedUser} {kbId : Id}
    {conversationId : Option Id} {question : Text} {conversation : Conversation}
    (h : ensureConversationForAsk db io user kbId conversationId question =
      .ok (db', conversation)) :
    ∃ conversations, db' = { db with conversations := conversations } := by
  unfold ensureConversationForAsk at h
  split at h
  · split at h
    · cases h
    · split_ifs at h
      cases h
      exact ⟨_, rfl⟩
  · simp only at h
    split_ifs at h
    split at h
    · cases h
    · cases h
      exact ⟨_, rfl⟩

/-- A statement that fails makes the transaction of the answer fail. -/
theorem createAssistantMessage_of_fails {params : AssistantMessageParams}
    (h : io.fails .createAssistantMessage = true ∨
      (params.citations ≠ [] ∧ io.fails .createCitations = true) ∨
      io.fails .touchAfterAnswer = true) :
    createAssistantMessage db io params = none := by
  by_contra hsome
  obtain ⟨db', hdb'⟩ := Option.ne_none_iff_exists'.mp hsome
  simp only [createAssistantMessage, Option.bind_eq_bind, Option.bind_eq_some_iff] at hdb'
  obtain ⟨conversation, -, db₁, hmessage, db₂, hcitations, htouch⟩ := hdb'
  rcases h with hfails | ⟨hne, hfails⟩ | hfails
  · simp [createMessage, hfails] at hmessage
  · simp [createCitations, hne, hfails] at hcitations
  · simp [touchConversation, hfails] at htouch

end Transactions

/-! ## Reads -/

/-- `getPromptHistory` (lines 286–297): the last messages of a conversation, in
    chronological order. -/
def getPromptHistory (db : Database) (conversationId : Id) (limit : ℕ) : List Message :=
  (((db.messages.rows.filter fun m => m.conversationId = conversationId).mergeSort
    fun a b => b.createdAt ≤ a.createdAt).take limit).reverse

end RagStack.Chat
