import RagStack.Ingest.Uploads

/-!
# The ingest system

Uploads, the two requests that queue a job again, and the workers, step by step
in any order, on one database, one object storage and one queue. A worker slot
takes any job that was ever queued; nothing says that it takes a job once.

* `actorStep` — one step of an actor.
* `Sound`: the invariant of the shared state.
* `ActorOk`: what an actor that is under way relies on; `ActorOk.mono` says that
  it survives every step of the others (`Grows`).
-/

namespace RagStack.Ingest

open RagStack.Common RagStack.Worker RagStack.Documents

/-! ## Actors -/

/-- An upload, another request, a worker slot, or the services that write
    knowledge bases and their members. -/
inductive Actor
  | upload (api : UploadApi) (r : UploadRequest)
  | request (api : Api) (r : Request)
  | worker (p : Pipeline)
  | others

/-- The local state of an actor. -/
inductive ActorState
  | upload (state : UploadState)
  | request (state : RequestState)
  | worker (slot : Slot)
  | others

/-- What an actor meets in a step. The delivery that begins is of the job with this
    number in the queue; `lands` is as in `UploadIO`. -/
inductive ActorEvent
  | upload (io : UploadIO)
  | request (io : RequestIO) (lands : Bool)
  | delivery (job : ℕ) (e : DeliveryEvent)
  | others (knowledgeBases : Table KnowledgeBase KnowledgeBase.id)
      (members : Table KbMember KbMember.key)

/-- The job that `reindexDocument` and `retryIngestJob` queue. -/
def Request.queueJob (r : Request) (api : Api) (target : Target) (refreshed : Refreshed) : QueueJob :=
  enqueue r.correlationId refreshed.document
    { refreshed.version with s3Key := r.s3Key target refreshed } (r.bucket api target refreshed)
    refreshed.ingestJob

/-- The queue after a step of a request that was in `state`. -/
def requestQueue (api : Api) (r : Request) (state : RequestState) (io : RequestIO) (lands : Bool)
    (w : World) : World :=
  match state with
  | .created target refreshed =>
    if io.queueFails ∧ lands = false then w else w.addJob (r.queueJob api target refreshed)
  | _ => w

/-- One step of an actor. -/
def actorStep (names : Names) (actor : Actor) (w : World) (l : ActorState) (e : ActorEvent) :
    Option (World × ActorState) :=
  match actor, l, e with
  | .upload api r, .upload state, .upload io =>
    (uploadStep names api r w state io).map fun s => (s.1, .upload s.2)
  | .request api r, .request state, .request io lands =>
    (requestStep api r w.db state io).map fun s =>
      (requestQueue api r state io lands (w.withDb s.1), .request s.2)
  | .worker p, .worker slot, .delivery job e =>
    match w.queue[job]? with
    | none => none
    | some queued =>
      (deliveryStep p queued.payload w.store slot e).map fun s =>
        ({ w with store := s.1 }, .worker s.2)
  | .others, .others, .others knowledgeBases members =>
    some (w.withDb { w.db with knowledgeBases := knowledgeBases, members := members }, .others)
  | _, _, _ => none

/-- The local state of an actor that has not begun. -/
def Actor.start : Actor → ActorState
  | upload _ _ => .upload .start
  | request _ _ => .request .start
  | worker _ => .worker {}
  | others => .others

/-! ## Fetching -/

/-- What the client of the object storage raises: a `ClientError` with its code, or a
    `BotoCoreError`. -/
inductive StorageFault
  | client (code : String)
  | botocore
deriving DecidableEq, Repr

/-- `_read_bytes` (file_fetcher.py, lines 66–68); `fault` is an error other than a
    missing object. -/
def readBytes (objects : ObjectStore) (fault : Option StorageFault) (bucket key : String) :
    Except StorageFault Bytes :=
  match fault with
  | some raised => .error raised
  | none =>
    match objects (bucket, key) with
    | some body => .ok body
    | none => .error (.client "NoSuchKey")

/-- `fetch_bytes` (file_fetcher.py, lines 21–52). -/
def fetchBytes (objects : ObjectStore) (fault : Option StorageFault) (bucket key : String) :
    Except IngestionError Bytes :=
  match readBytes objects fault bucket key with
  | .ok body => .ok body
  | .error (.client code) =>
    if code ∈ ["NoSuchKey", "404", "NoSuchBucket"] then
      .error
        { code := .fileNotFound, message := "Requested object was not found", retryable := false }
    else
      .error
        { code := .objectStorageFailed, message := "Object storage request failed"
          retryable := true }
  | .error .botocore =>
    .error
      { code := .objectStorageFailed, message := "Object storage client failed", retryable := true }

/-! ## Columns that no statement changes -/

/-- Of a version: its document and where its object is. -/
structure Origin where
  documentId : Id
  storageBucket : Option String
  s3Key : String
deriving DecidableEq, Repr

def DocumentVersion.origin (v : DocumentVersion) : Origin :=
  { documentId := v.documentId, storageBucket := v.storageBucket, s3Key := v.s3Key }

/-- The version of a job. -/
def versionOf (db : Database) (jobId : Id) : Option Id :=
  (db.jobs.get? jobId).map IngestJob.documentVersionId

/-- The origin of a version. -/
def originOf (db : Database) (versionId : Id) : Option Origin :=
  (db.versions.get? versionId).map DocumentVersion.origin

/-- The knowledge base of a document. -/
def kbOf (db : Database) (documentId : Id) : Option Id :=
  (db.documents.get? documentId).map Document.kbId

theorem originOf_of_get? {db : Database} {versionId : Id} {v : DocumentVersion}
    (h : db.versions.get? versionId = some v) : originOf db versionId = some v.origin := by
  rw [originOf, h, Option.map_some]

theorem kbOf_of_get? {db : Database} {documentId : Id} {d : Document}
    (h : db.documents.get? documentId = some d) : kbOf db documentId = some d.kbId := by
  rw [kbOf, h, Option.map_some]

/-- What a queued job or a running delivery names. -/
structure JobRef where
  ingestJobId : Id
  documentVersionId : Id
  documentId : Id
  kbId : Id
  bucket : String
  s3Key : String
deriving DecidableEq, Repr

def IngestJobPayload.ref (payload : IngestJobPayload) : JobRef :=
  { ingestJobId := payload.ingestJobId, documentVersionId := payload.documentVersionId,
    documentId := payload.documentId, kbId := payload.kbId, bucket := payload.bucket,
    s3Key := payload.s3Key }

def JobContext.ref (ctx : JobContext) : JobRef :=
  { ingestJobId := ctx.ingestJobId, documentVersionId := ctx.documentVersionId,
    documentId := ctx.documentId, kbId := ctx.kbId, bucket := ctx.bucket, s3Key := ctx.s3Key }

def Refreshed.ref (refreshed : Refreshed) (bucket : String) : JobRef :=
  { ingestJobId := refreshed.ingestJob.id, documentVersionId := refreshed.version.id,
    documentId := refreshed.document.id, kbId := refreshed.document.kbId, bucket := bucket,
    s3Key := refreshed.version.s3Key }

/-- The rows that are named belong together. -/
structure Belongs (db : Database) (ref : JobRef) : Prop where
  job : versionOf db ref.ingestJobId = some ref.documentVersionId
  version : originOf db ref.documentVersionId =
    some { documentId := ref.documentId, storageBucket := some ref.bucket, s3Key := ref.s3Key }
  document : kbOf db ref.documentId = some ref.kbId

/-! ## The invariant -/

/-- `DocumentStatus` of a version status. -/
def DocumentVersionStatus.document : DocumentVersionStatus → DocumentStatus
  | queued => .queued
  | processing => .processing
  | indexed => .indexed
  | failed => .failed

/-- The document row says of its version what the version row says. -/
structure Mirrors (v : DocumentVersion) (d : Document) : Prop where
  status : d.status = v.status.document
  errorCode : d.lastErrorCode = v.lastErrorCode
  errorMessage : d.lastErrorMessage = v.lastErrorMessage
  indexedAt : d.indexedAt = v.indexedAt

/-- The object at `key` has the hash, and `key` is the name of an object with it. -/
def Held (names : Names) (w : World) (bucket key : String) (hash : Text) : Prop :=
  ∃ kbId buffer upload body, key = names.s3Key kbId buffer upload ∧
    names.sha256Hex buffer = hash ∧ w.objects (bucket, key) = some body ∧
    names.sha256Hex body = hash

/-- The invariant of the shared state. -/
structure Sound (names : Names) (w : World) : Prop where
  mirrored : ∀ t v, w.db.versions.get? t = some v →
    ∃ d, w.db.documents.get? v.documentId = some d ∧ Mirrors v d
  single : ∀ s t o p, originOf w.db s = some o → originOf w.db t = some p →
    o.documentId = p.documentId → s = t
  stored : ∀ t o, originOf w.db t = some o → ∃ bucket hash, o.storageBucket = some bucket ∧
    w.contentHash t = some hash ∧ Held names w bucket o.s3Key hash
  chunks : ∀ c ∈ w.db.chunkRows, (originOf w.db c.documentVersionId).map Origin.documentId =
    some c.documentId ∧ kbOf w.db c.documentId = some c.kbId
  queued : ∀ job ∈ w.queue, Belongs w.db job.payload.ref

/-- What every step keeps: rows are not deleted, their fixed columns stay, and an
    object that is stored under its hash stays so. -/
structure Grows (names : Names) (w w' : World) : Prop where
  jobs : ∀ t versionId, versionOf w.db t = some versionId → versionOf w'.db t = some versionId
  versions : ∀ t o, originOf w.db t = some o → originOf w'.db t = some o
  documents : ∀ t kbId, kbOf w.db t = some kbId → kbOf w'.db t = some kbId
  hashes : ∀ t o, originOf w.db t = some o → w'.contentHash t = w.contentHash t
  held : ∀ bucket key hash, Held names w bucket key hash → Held names w' bucket key hash

/-- The version of a target is one of its document. -/
def TargetOk (w : World) (target : Target) : Prop :=
  ∃ o, originOf w.db target.version.id = some o ∧ o.documentId = target.document.id ∧
    o.s3Key = target.version.s3Key

/-- The rows that a creating transaction has returned belong together. -/
def RefreshedOk (w : World) (refreshed : Refreshed) : Prop :=
  ∃ bucket, refreshed.version.storageBucket = some bucket ∧ Belongs w.db (refreshed.ref bucket)

/-- What a request relies on. -/
def RequestOk (w : World) : RequestState → Prop
  | .start | .enqueued _ | .failed _ => True
  | .found target | .latest target | .passed target => TargetOk w target
  | .created target refreshed =>
    TargetOk w target ∧ RefreshedOk w refreshed ∧ refreshed.version.id = target.version.id
  | .enqueueFailed refreshed => RefreshedOk w refreshed

/-- What an upload relies on. -/
def UploadOk (names : Names) (api : UploadApi) (r : UploadRequest) (w : World) : UploadState → Prop
  | .start | .inspected _ | .checked _ _ | .enqueued _ | .failed _ => True
  | .stored upload _ =>
    Held names w api.s3Bucket (names.s3Key r.kbId r.file.buffer upload)
      (names.sha256Hex r.file.buffer)
  | .created refreshed | .enqueueFailed refreshed => RefreshedOk w refreshed

/-- What an actor relies on. -/
def ActorOk (names : Names) (actor : Actor) (w : World) (l : ActorState) : Prop :=
  match actor, l with
  | .upload api r, .upload state => UploadOk names api r w state
  | .request _ _, .request state => RequestOk w state
  | .worker _, .worker slot => ∀ ctx, slot.phase.ctx? = some ctx → Belongs w.db ctx.ref
  | .others, .others => True
  | _, _ => False

section Stable

variable {names : Names} {w w' : World}

theorem Grows.refl (names : Names) (w : World) : Grows names w w :=
  ⟨fun _ _ h => h, fun _ _ h => h, fun _ _ h => h, fun _ _ _ => rfl, fun _ _ _ h => h⟩

theorem Belongs.mono {ref : JobRef} (hg : Grows names w w') (h : Belongs w.db ref) :
    Belongs w'.db ref :=
  ⟨hg.jobs _ _ h.job, hg.versions _ _ h.version, hg.documents _ _ h.document⟩

theorem TargetOk.mono {target : Target} (hg : Grows names w w') (h : TargetOk w target) :
    TargetOk w' target := by
  obtain ⟨o, ho, hdocument⟩ := h
  exact ⟨o, hg.versions _ _ ho, hdocument⟩

theorem RefreshedOk.mono {refreshed : Refreshed} (hg : Grows names w w')
    (h : RefreshedOk w refreshed) : RefreshedOk w' refreshed := by
  obtain ⟨bucket, hbucket, hbelongs⟩ := h
  exact ⟨bucket, hbucket, hbelongs.mono hg⟩

theorem RequestOk.mono {state : RequestState} (hg : Grows names w w') (h : RequestOk w state) :
    RequestOk w' state := by
  cases state with
  | start => trivial
  | found target => exact TargetOk.mono hg h
  | latest target => exact TargetOk.mono hg h
  | passed target => exact TargetOk.mono hg h
  | created target refreshed => exact ⟨h.1.mono hg, h.2.1.mono hg, h.2.2⟩
  | enqueueFailed refreshed => exact RefreshedOk.mono hg h
  | enqueued job => trivial
  | failed error => trivial

theorem UploadOk.mono {api : UploadApi} {r : UploadRequest} {state : UploadState}
    (hg : Grows names w w') (h : UploadOk names api r w state) : UploadOk names api r w' state := by
  cases state with
  | start => trivial
  | inspected upload => trivial
  | checked upload name => trivial
  | stored upload name => exact hg.held _ _ _ h
  | created refreshed => exact RefreshedOk.mono hg h
  | enqueueFailed refreshed => exact RefreshedOk.mono hg h
  | enqueued job => trivial
  | failed error => trivial

/-- What an actor relies on survives the steps of the others. -/
theorem ActorOk.mono {actor : Actor} {l : ActorState} (hg : Grows names w w')
    (h : ActorOk names actor w l) : ActorOk names actor w' l := by
  unfold ActorOk at h
  split at h
  · exact UploadOk.mono hg h
  · exact RequestOk.mono hg h
  · exact fun ctx hctx => (h ctx hctx).mono hg
  · trivial
  · exact h.elim

theorem UploadOk.of_bare {api : UploadApi} {r : UploadRequest} {state : UploadState}
    (h : state.Bare) : UploadOk names api r w state := by
  cases state with
  | start => trivial
  | inspected upload => trivial
  | checked upload name => trivial
  | stored upload name => cases h
  | created refreshed => cases h
  | enqueueFailed refreshed => cases h
  | enqueued job => trivial
  | failed error => trivial

end Stable

end RagStack.Ingest
