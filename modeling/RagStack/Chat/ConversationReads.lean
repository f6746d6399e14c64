import RagStack.Chat.Ask
import RagStack.Common.Views

/-!
# Listing and reading conversations

`listConversations`, `getConversation` and `getConversationMessages` of
`services/api/src/chat/chat.service.ts`, with the queries of
`conversation-persistence.service.ts`.
-/

namespace RagStack.Chat

open RagStack.Common RagStack.Api
open RagStack.Worker (Text)
open RagStack.Ingest (Id Time)
open RagStack.Access (AuthenticatedUser buildConversationReadWhere getAccessibleConversation)

/-- `kb: { select: { id, name } }`. -/
structure ConversationKb where
  id : Id
  name : Text
deriving DecidableEq, Repr

/-- `messages: { select: { id, role, content, createdAt } }`. -/
structure LastMessage where
  id : Id
  role : MessageRole
  content : Text
  createdAt : Time
deriving DecidableEq, Repr

/-- An entry of `listConversations`. -/
structure ConversationListItem where
  conversation : Conversation
  kb : Option ConversationKb
  messages : List LastMessage
deriving DecidableEq, Repr

/-- The result of `toMessageView`. -/
structure MessageView where
  id : Id
  role : MessageRole
  content : Text
  latencyMs : Option ℕ
  usage : Option UsageView
  retrievalMeta : Option RetrievalMetaJson
  modelName : Option String
  createdAt : Time
  citations : List CitationView
deriving DecidableEq, Repr

/-- The result of `getConversationWithMessages`. -/
structure ConversationDetail where
  conversation : Conversation
  kb : Option ConversationKb
  messages : List MessageView
deriving DecidableEq, Repr

/-- The knowledge base of a conversation. -/
def conversationKb (db : Database) (c : Conversation) : Option ConversationKb :=
  (db.knowledgeBases.get? c.kbId).map fun kb => { id := kb.id, name := kb.name }

/-- The messages of a conversation, the last ones first. -/
def messagesDescending (db : Database) (conversationId : Id) : List Message :=
  db.messages.findMany (fun m => m.conversationId = conversationId)
    fun a b => b.createdAt ≤ a.createdAt

/-- An entry of `listConversations` for a row. -/
def conversationListItem (db : Database) (c : Conversation) : ConversationListItem where
  conversation := c
  kb := conversationKb db c
  messages := ((messagesDescending db c.id).take 1).map fun m =>
    { id := m.id, role := m.role, content := m.content, createdAt := m.createdAt }

/-- `toMessageView` (lines 338–366), with the citations of the row. -/
def toMessageView (db : Database) (m : Message) : MessageView where
  id := m.id
  role := m.role
  content := m.content
  latencyMs := m.latencyMs
  usage := m.usageJson
  retrievalMeta := m.retrievalMetaJson
  modelName := m.modelName
  createdAt := m.createdAt
  citations := (db.citations.table.findMany (fun c => c.messageId = m.id)
    fun a b => a.rank ≤ b.rank).map citationView

/-- `loadConversationMessages` (lines 320–336), as views. -/
def loadConversationMessages (db : Database) (conversationId : Id) (limit : ℕ) :
    List MessageView :=
  (((messagesDescending db conversationId).take (max 1 (min limit 100))).reverse).map
    (toMessageView db)

/-- `listConversations` (chat.service.ts, lines 280–288; conversation-persistence.service.ts,
    lines 59–86). -/
def listConversations (db : Database) (user : AuthenticatedUser) (kbId : Option Id) :
    Except HttpException (List ConversationListItem) :=
  let found := (db.conversations.findMany
    (fun c => buildConversationReadWhere db user none c && kbId.all (c.kbId = ·))
    fun a b => b.lastActivityAt ≤ a.lastActivityAt).map (conversationListItem db)
  match kbId with
  | none => .ok found
  | some kbId =>
    match resolveKbScope db user { kbId := some kbId, question := "list conversations".toList } with
    | .error e => .error e
    | .ok _ => .ok found

/-- `getConversation` (lines 290–292), with the default limit. -/
def getConversation (messageLimit : ℕ) (db : Database) (user : AuthenticatedUser)
    (conversationId : Id) : Except HttpException ConversationDetail :=
  match getAccessibleConversation db user conversationId with
  | .error e => .error e
  | .ok c => .ok
    { conversation := c
      kb := conversationKb db c
      messages := loadConversationMessages db c.id messageLimit }

/-- `getConversationMessages` (lines 294–304); without a limit the default one is
    taken. -/
def getConversationMessages (messageLimit : ℕ) (db : Database) (user : AuthenticatedUser)
    (conversationId : Id) (limit : Option ℕ) : Except HttpException (List MessageView) :=
  match getAccessibleConversation db user conversationId with
  | .error e => .error e
  | .ok c => .ok (loadConversationMessages db c.id (limit.getD messageLimit))

end RagStack.Chat
