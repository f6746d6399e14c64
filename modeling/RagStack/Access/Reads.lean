import RagStack.Access.Authorization
import RagStack.Common.Views

/-!
# Listing and reading knowledge bases and documents

`findAll` and `findOne` of
`services/api/src/knowledge-bases/knowledge-bases.service.ts` and of
`services/api/src/documents/documents.service.ts`, with the records of
`document-view.mapper.ts`.
-/

namespace RagStack.Access

open RagStack.Common RagStack.Api
open RagStack.Worker (Text)
open RagStack.Ingest (Id Time KbStatus DocumentStatus DocumentVersionStatus VectorizationStatus
  IngestJobStatus Document DocumentVersion IngestJob)

/-! ## Knowledge bases -/

/-- `currentUserRole`. -/
inductive CurrentUserRole
  | admin
  | member (role : KbRole)
deriving DecidableEq, Repr

/-- An entry of `findAll` of the knowledge bases. -/
structure KnowledgeBaseView where
  id : Id
  slug : Text
  name : Text
  description : Option Text
  status : KbStatus
  visibility : KbVisibility
  createdAt : Time
  updatedAt : Time
  currentUserRole : Option CurrentUserRole
deriving DecidableEq, Repr

/-- The result of `findOne` of the knowledge bases. -/
structure KnowledgeBaseDetailView extends KnowledgeBaseView where
  memberCount : ℕ
  documentCount : ℕ
deriving DecidableEq, Repr

/-- `members: { where: { userId }, take: 1 }`. -/
def membership (db : Database) (user : AuthenticatedUser) (kb : KnowledgeBase) : Option KbMember :=
  db.members.rows.find? fun m => m.kbId = kb.id ∧ m.userId = user.id

/-- A knowledge base as the user sees it. -/
def knowledgeBaseView (db : Database) (user : AuthenticatedUser) (kb : KnowledgeBase) :
    KnowledgeBaseView where
  id := kb.id
  slug := kb.slug
  name := kb.name
  description := kb.description
  status := kb.status
  visibility := kb.visibility
  createdAt := kb.createdAt
  updatedAt := kb.updatedAt
  currentUserRole :=
    if user.isAdmin then some .admin
    else (membership db user kb).map fun member => .member member.role

/-- `findAll` (knowledge-bases.service.ts, lines 52–78). -/
def findAllKnowledgeBases (db : Database) (user : AuthenticatedUser) : List KnowledgeBaseView :=
  (db.knowledgeBases.findMany (buildKnowledgeBaseReadWhere db user none)
    fun a b => b.updatedAt ≤ a.updatedAt).map (knowledgeBaseView db user)

/-- `findOne` (lines 80–115). -/
def findOneKnowledgeBase (db : Database) (user : AuthenticatedUser) (kbId : Id) :
    Except HttpException KnowledgeBaseDetailView :=
  match assertKnowledgeBaseRead db user kbId with
  | .error e => .error e
  | .ok kb => .ok
    { knowledgeBaseView db user kb with
      memberCount := db.members.rows.countP fun m => m.kbId = kb.id
      documentCount := db.documents.rows.countP fun d => d.kbId = kb.id }

/-! ## Documents -/

/-- `latestIngestJob` of a view. -/
structure IngestJobView where
  id : Id
  status : IngestJobStatus
  attempts : ℕ
  maxAttempts : ℕ
  retryable : Bool
  errorCode : Option String
  errorMessage : Option String
  correlationId : Option String
  startedAt : Option Time
  finishedAt : Option Time
  createdAt : Time
deriving DecidableEq, Repr

/-- `latestVersion` of a view. -/
structure DocumentVersionView where
  id : Id
  versionNumber : ℕ
  status : DocumentVersionStatus
  ingestVersion : ℕ
  pipelineVersion : String
  vectorizationStatus : VectorizationStatus
  chunkCount : ℕ
  indexedAt : Option Time
  startedAt : Option Time
  finishedAt : Option Time
  lastErrorCode : Option String
  lastErrorMessage : Option String
  latestIngestJob : Option IngestJobView
deriving DecidableEq, Repr

/-- The result of `toDocumentListItemView`. -/
structure DocumentListItemView where
  id : Id
  kbId : Id
  name : String
  type : String
  status : DocumentStatus
  indexedAt : Option Time
  lastErrorCode : Option String
  lastErrorMessage : Option String
  createdAt : Time
  updatedAt : Time
  latestVersion : Option DocumentVersionView
  chunkCount : ℕ
deriving DecidableEq, Repr

/-- The result of `toDocumentDetailView`. -/
structure DocumentDetailView extends DocumentListItemView where
  embeddingsEnabled : Bool
deriving DecidableEq, Repr

/-- `orderBy: [{ versionNumber: "desc" }, { createdAt: "desc" }]`. -/
def latestVersionFirst (a b : DocumentVersion) : Bool :=
  ((compare b.versionNumber a.versionNumber).then (compare b.createdAt a.createdAt)).isLE

/-- `versions: { orderBy, take: 1 }`. -/
def latestVersion (db : Database) (documentId : Id) : Option DocumentVersion :=
  ((db.versions.findMany (fun v => v.documentId = documentId) latestVersionFirst).take 1).head?

/-- `ingestJobs: { orderBy: [{ createdAt: "desc" }], take }`, of which the views use
    the first. -/
def latestIngestJob (db : Database) (take : ℕ) (versionId : Id) : Option IngestJob :=
  ((db.jobs.findMany (fun j => j.documentVersionId = versionId)
    fun a b => b.createdAt ≤ a.createdAt).take take).head?

/-- The view of a job. -/
def ingestJobView (j : IngestJob) : IngestJobView where
  id := j.id
  status := j.status
  attempts := j.attempts
  maxAttempts := j.maxAttempts
  retryable := j.retryable
  errorCode := j.errorCode
  errorMessage := j.errorMessage
  correlationId := j.correlationId
  startedAt := j.startedAt
  finishedAt := j.finishedAt
  createdAt := j.createdAt

/-- The view of a version with its latest job. -/
def documentVersionView (v : DocumentVersion) (job : Option IngestJob) : DocumentVersionView where
  id := v.id
  versionNumber := v.versionNumber
  status := v.status
  ingestVersion := v.ingestVersion
  pipelineVersion := v.pipelineVersion
  vectorizationStatus := v.vectorizationStatus
  chunkCount := v.chunkCount
  indexedAt := v.indexedAt
  startedAt := v.startedAt
  finishedAt := v.finishedAt
  lastErrorCode := v.lastErrorCode
  lastErrorMessage := v.lastErrorMessage
  latestIngestJob := job.map ingestJobView

/-- `toDocumentListItemView` (lines 50–58) with `buildDocumentBaseView`. -/
def toDocumentListItemView (db : Database) (jobs : ℕ) (d : Document) : DocumentListItemView :=
  let version := latestVersion db d.id
  { id := d.id
    kbId := d.kbId
    name := d.name
    type := d.type
    status := d.status
    indexedAt := d.indexedAt
    lastErrorCode := d.lastErrorCode
    lastErrorMessage := d.lastErrorMessage
    createdAt := d.createdAt
    updatedAt := d.updatedAt
    latestVersion := version.map fun v => documentVersionView v (latestIngestJob db jobs v.id)
    chunkCount := (version.map DocumentVersion.chunkCount).getD 0 }

/-- `findAll` (documents.service.ts, lines 239–266). -/
def findAllDocuments (db : Database) (user : AuthenticatedUser) (kbId : Id) :
    Except HttpException (List DocumentListItemView) :=
  match assertKnowledgeBaseRole db user kbId [.owner, .editor, .viewer] with
  | .error e => .error e
  | .ok _ => .ok <|
    (db.documents.findMany
      (fun d => buildDocumentReadWhere db user none d && decide (d.kbId = kbId))
      fun a b => b.createdAt ≤ a.createdAt).map (toDocumentListItemView db 1)

/-- `findOne` (lines 268–282), with `toDocumentDetailView`. -/
def findOneDocument (embeddingsConfigured : Bool) (db : Database) (user : AuthenticatedUser)
    (documentId : Id) : Except HttpException DocumentDetailView :=
  match assertDocumentRead db user documentId with
  | .error e => .error e
  | .ok d => .ok
    { toDocumentListItemView db 5 d with
      embeddingsEnabled :=
        if (latestVersion db d.id).any fun v => v.vectorizationStatus = .disabled then false
        else embeddingsConfigured }

end RagStack.Access
