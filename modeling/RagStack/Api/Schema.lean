import RagStack.Auth.Sessions
import RagStack.Chat.Types

/-!
# The tables that the API reads and writes

`services/api/prisma/schema.prisma`: users, knowledge bases with their members,
documents (whose tables are those of the worker) and conversations.

* `ForeignKeys` — what the foreign keys of the schema guarantee.
-/

namespace RagStack.Api

open RagStack.Common
open RagStack.Worker (Text)
open RagStack.Ingest (Id Time KbStatus Document DocumentVersion IngestJob DocumentChunk ChunkTable)
open RagStack.Auth (User)
open RagStack.Chat (ChatStatus UsageView RetrievalMetaView)

/-- `enum SystemRole`. -/
inductive SystemRole
  | superAdmin | operator | system | user
deriving DecidableEq, Repr

/-- `enum KbRole`. -/
inductive KbRole
  | owner | editor | viewer
deriving DecidableEq, Repr

/-- `enum KbVisibility`. -/
inductive KbVisibility
  | «private» | internal | «public»
deriving DecidableEq, Repr

/-- `enum ConversationStatus`. -/
inductive ConversationStatus
  | active | archived
deriving DecidableEq, Repr

/-- `enum MessageRole`. -/
inductive MessageRole
  | user | assistant | system
deriving DecidableEq, Repr

/-! ## Rows -/

/-- `KnowledgeBase`. -/
structure KnowledgeBase where
  id : Id
  slug : Text
  name : Text
  description : Option Text := none
  status : KbStatus := .active
  visibility : KbVisibility := .private
  archivedAt : Option Time := none
  createdAt : Time
  updatedAt : Time
deriving DecidableEq, Repr

/-- `KbMember`. -/
structure KbMember where
  kbId : Id
  userId : Id
  role : KbRole := .viewer
  createdAt : Time
deriving DecidableEq, Repr

/-- The key of `KbMember`. -/
def KbMember.key (m : KbMember) : Id × Id := (m.kbId, m.userId)

/-- `Conversation`. -/
structure Conversation where
  id : Id
  userId : Id
  kbId : Id
  title : Option Text := none
  status : ConversationStatus := .active
  lastActivityAt : Time
  createdAt : Time
  updatedAt : Time
deriving DecidableEq, Repr

/-- `retrievalMetaJson`: the view and the status beside it. -/
structure RetrievalMetaJson extends RetrievalMetaView where
  status : ChatStatus
deriving DecidableEq, Repr

/-- `Message`. -/
structure Message where
  id : Id
  conversationId : Id
  role : MessageRole
  content : Text
  latencyMs : Option ℕ := none
  usageJson : Option UsageView := none
  retrievalMetaJson : Option RetrievalMetaJson := none
  modelName : Option String := none
  createdAt : Time
deriving DecidableEq, Repr

/-- `Citation`. -/
structure Citation where
  id : Id
  messageId : Id
  chunkId : Id
  documentId : Id
  documentTitle : Text
  rank : ℕ
  score : ℚ
  snippet : Text
  pageNumber : Option ℤ
  sectionTitle : Option Text
  createdAt : Time
deriving DecidableEq, Repr

/-- The columns of the unique index of `Citation`. -/
def Citation.messageChunk (c : Citation) : Id × Id := (c.messageId, c.chunkId)

/-- The citation table: a message cites a chunk once. -/
structure CitationTable where
  table : Table Citation Citation.id
  messageChunk_nodup : (table.rows.map Citation.messageChunk).Nodup

/-- The citation table without rows. -/
def CitationTable.empty : CitationTable where
  table := .empty
  messageChunk_nodup := List.nodup_nil

/-- The tables. -/
structure Database where
  users : Table User User.id
  knowledgeBases : Table KnowledgeBase KnowledgeBase.id
  members : Table KbMember KbMember.key
  documents : Table Document Document.id
  versions : Table DocumentVersion DocumentVersion.id
  jobs : Table IngestJob IngestJob.id
  chunks : ChunkTable
  conversations : Table Conversation Conversation.id
  messages : Table Message Message.id
  citations : CitationTable

/-- The rows of the chunk table. -/
def Database.chunkRows (db : Database) : List DocumentChunk := db.chunks.table.rows

/-- The rows of the citation table. -/
def Database.citationRows (db : Database) : List Citation := db.citations.table.rows

/-- The foreign keys between the tables (`20260404210000_phase7_schema_hardening`,
    lines 368–406); those of the chunks and citations are pairs of columns. -/
structure ForeignKeys (db : Database) : Prop where
  member : ∀ m ∈ db.members.rows,
    (db.knowledgeBases.get? m.kbId).isSome ∧ (db.users.get? m.userId).isSome
  document : ∀ d ∈ db.documents.rows, (db.knowledgeBases.get? d.kbId).isSome
  version : ∀ v ∈ db.versions.rows, (db.documents.get? v.documentId).isSome
  job : ∀ j ∈ db.jobs.rows, (db.versions.get? j.documentVersionId).isSome
  chunk : ∀ c ∈ db.chunkRows,
    (∃ d, db.documents.get? c.documentId = some d ∧ d.kbId = c.kbId) ∧
      ∃ v, db.versions.get? c.documentVersionId = some v ∧ v.documentId = c.documentId
  conversation : ∀ c ∈ db.conversations.rows,
    (db.users.get? c.userId).isSome ∧ (db.knowledgeBases.get? c.kbId).isSome
  message : ∀ m ∈ db.messages.rows, (db.conversations.get? m.conversationId).isSome
  citation : ∀ c ∈ db.citationRows, (db.messages.get? c.messageId).isSome ∧
    ∃ chunk, db.chunks.table.get? c.chunkId = some chunk ∧ chunk.documentId = c.documentId

end RagStack.Api
