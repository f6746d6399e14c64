import RagStack.Api.Schema

/-!
# Authorization

`services/api/src/common/authorization/authorization.service.ts`: the conditions
under which a user reads a knowledge base, a document or a conversation, and the
assertions that requests make first.
-/

namespace RagStack.Access

open RagStack.Common RagStack.Api
open RagStack.Ingest (Id Document)

/-- `AuthenticatedUser`; a role without a name is `none`. -/
structure AuthenticatedUser where
  id : Id
  userRole : List (Option SystemRole) := []
deriving DecidableEq, Repr

namespace AuthenticatedUser

variable (user : AuthenticatedUser)

/-- `listSystemRoles` (lines 21–25). -/
def listSystemRoles : List SystemRole := user.userRole.filterMap fun role => role

/-- `hasAnySystemRole` (lines 27–37). -/
def hasAnySystemRole (allowedRoles : List SystemRole) : Bool :=
  allowedRoles = [] ∨ ∃ role ∈ allowedRoles, role ∈ user.listSystemRoles

/-- `isAdmin` (lines 39–41). -/
def isAdmin : Bool := user.hasAnySystemRole [.superAdmin]

end AuthenticatedUser

/-! ## Conditions -/

/-- `members: { some: { userId } }`. -/
def hasMember (db : Database) (kb : KnowledgeBase) (userId : Id) : Bool :=
  db.members.rows.any fun m => m.kbId = kb.id ∧ m.userId = userId

/-- The condition on the knowledge base in all three builders. -/
def kbReadable (db : Database) (user : AuthenticatedUser) (kb : KnowledgeBase) : Bool :=
  decide (kb.status = .active) && (user.isAdmin || hasMember db kb user.id)

/-- `buildKnowledgeBaseReadWhere` (lines 67–89). -/
def buildKnowledgeBaseReadWhere (db : Database) (user : AuthenticatedUser) (kbId : Option Id)
    (kb : KnowledgeBase) : Bool :=
  kbId.all (kb.id = ·) && kbReadable db user kb

/-- `buildDocumentReadWhere` (lines 91–115). -/
def buildDocumentReadWhere (db : Database) (user : AuthenticatedUser) (documentId : Option Id)
    (d : Document) : Bool :=
  documentId.all (d.id = ·) && (db.knowledgeBases.get? d.kbId).any (kbReadable db user)

/-- `buildConversationReadWhere` (lines 117–143). -/
def buildConversationReadWhere (db : Database) (user : AuthenticatedUser)
    (conversationId : Option Id) (c : Conversation) : Bool :=
  conversationId.all (c.id = ·) && (user.isAdmin || c.userId = user.id) &&
    (db.knowledgeBases.get? c.kbId).any (kbReadable db user)

/-! ## Assertions -/

/-- `assertKnowledgeBaseRead` (lines 145–158). -/
def assertKnowledgeBaseRead (db : Database) (user : AuthenticatedUser) (kbId : Id) :
    Except HttpException KnowledgeBase :=
  match db.knowledgeBases.rows.find? (buildKnowledgeBaseReadWhere db user (some kbId)) with
  | none => .error (.notFound "Knowledge base not found")
  | some kb => .ok kb

/-- `assertKnowledgeBaseRole` (lines 160–208): the knowledge base with the role of
    the user in it, which is not looked at for an admin. -/
def assertKnowledgeBaseRole (db : Database) (user : AuthenticatedUser) (kbId : Id)
    (allowedRoles : List KbRole) : Except HttpException (KnowledgeBase × Option KbRole) :=
  match db.knowledgeBases.rows.find? (buildKnowledgeBaseReadWhere db user (some kbId)) with
  | none => .error (.notFound "Knowledge base not found")
  | some kb =>
    if user.isAdmin then .ok (kb, none)
    else
      match db.members.get? (kb.id, user.id) with
      | none => .error (.notFound "Knowledge base not found")
      | some member =>
        if member.role ∈ allowedRoles then .ok (kb, some member.role)
        else .error (.forbidden "Knowledge base access denied")

/-- `assertDocumentRead` (lines 210–223). -/
def assertDocumentRead (db : Database) (user : AuthenticatedUser) (documentId : Id) :
    Except HttpException Document :=
  match db.documents.rows.find? (buildDocumentReadWhere db user (some documentId)) with
  | none => .error (.notFound "Document not found")
  | some document => .ok document

/-- `getAccessibleConversation` (conversation-persistence.service.ts, lines 36–57). -/
def getAccessibleConversation (db : Database) (user : AuthenticatedUser) (conversationId : Id) :
    Except HttpException Conversation :=
  match db.conversations.rows.find?
      (buildConversationReadWhere db user (some conversationId)) with
  | none => .error (.notFound "Conversation not found")
  | some conversation => .ok conversation

end RagStack.Access
