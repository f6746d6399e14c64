import RagStack.Chat.GroundedAnswer
import RagStack.Documents.Upload
import RagStack.Ingest.Requests

/-!
# `uploadDocument`

`services/api/src/documents/documents.service.ts`, lines 62–132 and 284–418, with
`storage.service.ts`: the request that creates a document. It checks the file,
puts it into the object storage, creates the three rows in one transaction and
queues the job.

* `uploadStep` — one step of an upload: the checks, the put, the transaction or
  `queue.add`.
* `uploadStep_cases`: everything that a step can do.
* `storageKey_inj`: the key of an object determines the knowledge base, the hash
  of its content and the file name.
-/

namespace RagStack.Ingest

open RagStack.Common RagStack.Worker RagStack.Documents
open RagStack.Api (EcmaUnicode HttpException)
open RagStack.Chat (sliceStart)

/-! ## Names of objects -/

/-- The texts of a hash and of an identifier: SHA-256 in hexadecimal digits, and
    a UUID in its usual form. -/
structure Names where
  sha256Hex : Bytes → Text
  uuid : Id → Text
  dash_free : ∀ bytes, '-' ∉ sha256Hex bytes
  slash_free : ∀ id, '/' ∉ uuid id

/-- `s3Key` of an upload (line 89). -/
def Names.s3Key (names : Names) (kbId : Id) (buffer : Bytes) (upload : InspectedUpload) : String :=
  String.ofList (storageKey (names.uuid kbId) (names.sha256Hex buffer) upload)

/-- Two texts that end at the same separator are the same. -/
theorem eq_of_append_cons_eq {sep : Char} :
    ∀ {a b rest rest' : Text}, sep ∉ a → sep ∉ b → a ++ sep :: rest = b ++ sep :: rest' →
      a = b ∧ rest = rest' := by
  intro a
  induction a with
  | nil =>
    intro b rest rest' _ hb h
    cases b with
    | nil => exact ⟨rfl, (List.cons.inj h).2⟩
    | cons c b => exact absurd (by simp [(List.cons.inj h).1]) hb
  | cons c a ih =>
    intro b rest rest' ha hb h
    cases b with
    | nil => exact absurd (by simp [(List.cons.inj h).1]) ha
    | cons c' b =>
      obtain ⟨rfl, htail⟩ := List.cons.inj h
      obtain ⟨rfl, hrest⟩ := ih (fun hm => ha (List.mem_cons_of_mem _ hm))
        (fun hm => hb (List.mem_cons_of_mem _ hm)) htail
      exact ⟨rfl, hrest⟩

/-- A key is read back by its first slash and the first dash after it. -/
theorem storageKey_inj {kbId kbId' hash hash' : Text} {upload upload' : InspectedUpload}
    (hkb : '/' ∉ kbId) (hkb' : '/' ∉ kbId') (hhash : '-' ∉ hash) (hhash' : '-' ∉ hash')
    (h : storageKey kbId hash upload = storageKey kbId' hash' upload') :
    kbId = kbId' ∧ hash = hash' ∧ upload.storageFilename = upload'.storageFilename := by
  have hkey : ∀ kb hash (upload : InspectedUpload), storageKey kb hash upload =
      kb ++ '/' :: (hash ++ '-' :: upload.storageFilename) := fun kb hash upload => by
    simp [storageKey]
  rw [hkey, hkey] at h
  obtain ⟨hkbs, hrest⟩ := eq_of_append_cons_eq hkb hkb' h
  obtain ⟨hhashes, hnames⟩ := eq_of_append_cons_eq hhash hhash' hrest
  exact ⟨hkbs, hhashes, hnames⟩

/-- Two keys are equal only for equal hashes. -/
theorem Names.sha256Hex_of_s3Key_eq (names : Names) {kbId kbId' : Id} {buffer buffer' : Bytes}
    {upload upload' : InspectedUpload}
    (h : names.s3Key kbId buffer upload = names.s3Key kbId' buffer' upload') :
    names.sha256Hex buffer = names.sha256Hex buffer' :=
  (storageKey_inj (names.slash_free _) (names.slash_free _) (names.dash_free _)
    (names.dash_free _) (String.ofList_injective h)).2.1

/-! ## The checks -/

/-- `sanitizeDisplayName` (document-upload.helpers.ts, lines 32–44). -/
def sanitizeDisplayName (uni : EcmaUnicode) (name : Text) : Except HttpException Text :=
  let spaced := (uni.nfkc name).map fun c => if isControlCharacter c then ' ' else c
  let normalized := Api.trim (replaceMatches (runOf Api.isSpace) [' '] spaced)
  if normalized = [] then .error (.badRequest "Document name is required")
  else .ok (sliceStart 200 normalized)

/-- The settings of the API that an upload reads. -/
structure UploadApi extends Api where
  unicode : EcmaUnicode
  uploadMaxBytes : ℕ

/-- The arguments of `uploadDocument`; `file.size` is the length of the buffer. -/
structure UploadRequest where
  kbId : Id
  name : Text
  file : UploadedFile
  correlationId : Option String

/-- Lines 69–77. -/
def UploadRequest.inspect (api : UploadApi) (r : UploadRequest) :
    Except HttpException InspectedUpload :=
  if r.file.buffer = [] then .error (.badRequest "Document file is required")
  else if api.uploadMaxBytes < r.file.buffer.length then
    .error (.badRequest "Uploaded file exceeds the configured size limit")
  else inspectUploadedDocument api.unicode r.file

/-! ## The creating transaction -/

/-- `tx.document.create` (lines 295–302). -/
def newDocument (kbId documentId : Id) (name type : String) (now : Time) : Document :=
  { id := documentId, kbId := kbId, name := name, type := type, status := .queued,
    createdAt := now, updatedAt := now }

/-- `tx.documentVersion.create` (lines 304–316). -/
def newVersion (api : Api) (documentId versionId : Id) (s3Key : String) (now : Time) :
    DocumentVersion :=
  { id := versionId, documentId := documentId, storageBucket := some api.s3Bucket, s3Key := s3Key,
    versionNumber := 1, status := .queued, ingestVersion := 1,
    pipelineVersion := INGEST_PIPELINE_VERSION,
    vectorizationStatus := getInitialVectorizationStatus api.openAiEmbeddingsAvailable,
    createdAt := now, updatedAt := now }

/-- `tx.ingestJob.create` of an upload; `raw` as for `getConfiguredIngestMaxAttempts`. -/
def newUploadJob (raw : Option ℤ) (versionId : Id) (correlationId : Option String) (jobId : Id)
    (now : Time) : IngestJob :=
  newJob versionId correlationId (getConfiguredIngestMaxAttempts raw)
    (getConfiguredIngestMaxAttempts_pos raw) jobId now

/-- The transaction of `createDocumentRecords` (lines 294–328); `none` when it
    rolls back: the knowledge base is missing, or a UUID is taken. -/
def createDocumentRecords (api : Api) (kbId documentId versionId jobId : Id) (name mimetype : String)
    (s3Key : String) (correlationId : Option String) (now : Time) (db : Database) :
    Option (Database × Refreshed) := do
  let _ ← db.knowledgeBases.get? kbId
  let document := newDocument kbId documentId name mimetype now
  let documents ← db.documents.insert? document
  let version := newVersion api documentId versionId s3Key now
  let versions ← db.versions.insert? version
  let job := newUploadJob api.ingestMaxAttempts versionId correlationId jobId now
  let jobs ← db.jobs.insert? job
  return ({ db with documents := documents, versions := versions, jobs := jobs },
    { document := document, version := version, ingestJob := job })

/-! ## Steps of an upload -/

/-- The objects in storage, by bucket and key. -/
abbrev ObjectStore := String × String → Option Bytes

/-- What the services share: the database with its log, the `contentHash` column
    of the versions, the object storage, and the jobs that were ever put into the
    queue. -/
structure World where
  store : Store
  contentHash : Id → Option Text := fun _ => none
  objects : ObjectStore := fun _ => none
  queue : List QueueJob := []

namespace World

def db (w : World) : Database := w.store.db

def withDb (w : World) (db : Database) : World := { w with store := { w.store with db := db } }

/-- `PutObjectCommand`. -/
def putObject (w : World) (bucket key : String) (body : Bytes) : World :=
  { w with objects := Function.update w.objects (bucket, key) (some body) }

/-- `ingestQueue.add`. -/
def addJob (w : World) (job : QueueJob) : World := { w with queue := w.queue ++ [job] }

/-- The creating transaction of an upload has committed. -/
def addDocument (w : World) (db : Database) (versionId : Id) (contentHash : Text) : World :=
  { w.withDb db with contentHash := Function.update w.contentHash versionId (some contentHash) }

@[simp] theorem db_withDb (w : World) (db : Database) : (w.withDb db).db = db := rfl

@[simp] theorem db_putObject (w : World) (bucket key : String) (body : Bytes) :
    (w.putObject bucket key body).db = w.db := rfl

@[simp] theorem objects_putObject (w : World) (bucket key : String) (body : Bytes) :
    (w.putObject bucket key body).objects = Function.update w.objects (bucket, key) (some body) :=
  rfl

@[simp] theorem db_addJob (w : World) (job : QueueJob) : (w.addJob job).db = w.db := rfl

@[simp] theorem db_addDocument (w : World) (db : Database) (versionId : Id) (hash : Text) :
    (w.addDocument db versionId hash).db = db := rfl

end World

/-- What an upload throws. -/
inductive UploadError
  | http (exception : HttpException)
  | internal (message : String)
deriving DecidableEq, Repr

/-- How far an upload has come. -/
inductive UploadState
  | start
  /-- The file is accepted. -/
  | inspected (upload : InspectedUpload)
  /-- The access check and `sanitizeDisplayName` have passed. -/
  | checked (upload : InspectedUpload) (name : Text)
  /-- The object is in storage. -/
  | stored (upload : InspectedUpload) (name : Text)
  /-- The creating transaction has committed. -/
  | created (refreshed : Refreshed)
  /-- `queue.add` has failed. -/
  | enqueueFailed (refreshed : Refreshed)
  | enqueued (job : QueueJob)
  | failed (error : UploadError)

/-- What one step of an upload meets. `lands` says whether a put or an add that
    fails has taken effect all the same. -/
structure UploadIO where
  refused : Option HttpException := none
  storageFails : Bool := false
  transactionFails : Bool := false
  queueFails : Bool := false
  lands : Bool := false
  documentId : Id := 0
  versionId : Id := 0
  jobId : Id := 0
  now : Time := 0

/-- The job that an upload queues (lines 109–114 and 366–373). -/
def UploadRequest.queueJob (r : UploadRequest) (api : Api) (refreshed : Refreshed) : QueueJob :=
  enqueue r.correlationId refreshed.document refreshed.version
    (refreshed.version.storageBucket.getD api.s3Bucket) refreshed.ingestJob

/-- The creating transaction of an upload. -/
def UploadRequest.create (r : UploadRequest) (names : Names) (api : UploadApi)
    (upload : InspectedUpload) (name : Text) (io : UploadIO) (db : Database) :
    Option (Database × Refreshed) :=
  if io.transactionFails then none
  else
    createDocumentRecords api.toApi r.kbId io.documentId io.versionId io.jobId (String.ofList name)
      upload.mimeType (names.s3Key r.kbId r.file.buffer upload) r.correlationId io.now db

/-- One step of `uploadDocument`. -/
def uploadStep (names : Names) (api : UploadApi) (r : UploadRequest) (w : World)
    (state : UploadState) (io : UploadIO) : Option (World × UploadState) :=
  match state with
  | .start =>
    match r.inspect api with
    | .error exception => some (w, .failed (.http exception))
    | .ok upload => some (w, .inspected upload)
  | .inspected upload =>
    match io.refused with
    | some exception => some (w, .failed (.http exception))
    | none =>
      match sanitizeDisplayName api.unicode r.name with
      | .error exception => some (w, .failed (.http exception))
      | .ok name => some (w, .checked upload name)
  | .checked upload name =>
    let put := w.putObject api.s3Bucket (names.s3Key r.kbId r.file.buffer upload) r.file.buffer
    if io.storageFails then
      some (if io.lands then put else w, .failed (.internal "Internal server error"))
    else some (put, .stored upload name)
  | .stored upload name =>
    match r.create names api upload name io w.db with
    | none => some (w, .failed (.internal "Failed to prepare document ingestion"))
    | some (db, refreshed) =>
      some (w.addDocument db refreshed.version.id (names.sha256Hex r.file.buffer),
        .created refreshed)
  | .created refreshed =>
    let job := r.queueJob api.toApi refreshed
    if io.queueFails then some (if io.lands then w.addJob job else w, .enqueueFailed refreshed)
    else some (w.addJob job, .enqueued job)
  | .enqueueFailed refreshed =>
    if io.transactionFails then some (w, .failed (.internal "Internal server error"))
    else
      match markQueueEnqueueFailure refreshed.document.id refreshed.version.id
          refreshed.ingestJob.id "Failed to enqueue ingest job" io.now w.db with
      | none => some (w, .failed (.internal "Internal server error"))
      | some db => some (w.withDb db, .failed (.internal "Failed to enqueue ingest job"))
  | .enqueued _ => none
  | .failed _ => none

/-! ## What a step of an upload does -/

/-- The upload holds neither an object nor rows that a later step will use. -/
def UploadState.Bare : UploadState → Prop
  | start | inspected _ | checked _ _ | enqueued _ | failed _ => True
  | stored _ _ | created _ | enqueueFailed _ => False

/-- Everything that a step of an upload can do. -/
inductive UploadCase (names : Names) (api : UploadApi) (r : UploadRequest) (w : World)
    (state : UploadState) : World → UploadState → Prop
  | quiet {state' : UploadState} (bare : state'.Bare) : UploadCase names api r w state w state'
  | put {upload : InspectedUpload} {name : Text} {state' : UploadState}
      (checked : state = .checked upload name) (next : state' = .stored upload name ∨ state'.Bare) :
      UploadCase names api r w state
        (w.putObject api.s3Bucket (names.s3Key r.kbId r.file.buffer upload) r.file.buffer) state'
  | create {upload : InspectedUpload} {name : Text} {io : UploadIO} {db : Database}
      {refreshed : Refreshed} (stored : state = .stored upload name)
      (commits : r.create names api upload name io w.db = some (db, refreshed)) :
      UploadCase names api r w state
        (w.addDocument db refreshed.version.id (names.sha256Hex r.file.buffer)) (.created refreshed)
  | add {refreshed : Refreshed} {state' : UploadState} (created : state = .created refreshed)
      (next : state' = .enqueueFailed refreshed ∨ state'.Bare) :
      UploadCase names api r w state (w.addJob (r.queueJob api.toApi refreshed)) state'
  | lost {refreshed : Refreshed} (created : state = .created refreshed) :
      UploadCase names api r w state w (.enqueueFailed refreshed)
  | enqueueFailure {refreshed : Refreshed} {now : Time} {db : Database} {state' : UploadState}
      (failed : state = .enqueueFailed refreshed) (bare : state'.Bare)
      (commits : markQueueEnqueueFailure refreshed.document.id refreshed.version.id
        refreshed.ingestJob.id "Failed to enqueue ingest job" now w.db = some db) :
      UploadCase names api r w state (w.withDb db) state'

theorem uploadStep_cases {names : Names} {api : UploadApi} {r : UploadRequest} {w w' : World}
    {state state' : UploadState} {io : UploadIO}
    (h : uploadStep names api r w state io = some (w', state')) :
    UploadCase names api r w state w' state' := by
  cases state with
  | start =>
    simp only [uploadStep] at h
    split at h <;> (cases h; exact .quiet trivial)
  | inspected upload =>
    simp only [uploadStep] at h
    split at h
    · cases h; exact .quiet trivial
    · split at h <;> (cases h; exact .quiet trivial)
  | checked upload name =>
    simp only [uploadStep] at h
    split_ifs at h
    · cases h; exact .put rfl (Or.inr trivial)
    · cases h; exact .quiet trivial
    · cases h; exact .put rfl (Or.inl rfl)
  | stored upload name =>
    simp only [uploadStep] at h
    split at h
    · cases h; exact .quiet trivial
    · rename_i hcommit
      cases h; exact .create rfl hcommit
  | created refreshed =>
    simp only [uploadStep] at h
    split_ifs at h
    · cases h; exact .add rfl (Or.inl rfl)
    · cases h; exact .lost rfl
    · cases h; exact .add rfl (Or.inr trivial)
  | enqueueFailed refreshed =>
    simp only [uploadStep] at h
    split_ifs at h
    · cases h; exact .quiet trivial
    · split at h
      · cases h; exact .quiet trivial
      · rename_i hcommit
        cases h; exact .enqueueFailure rfl trivial hcommit
  | enqueued job => cases h
  | failed error => cases h

/-- What the creating transaction of an upload does. -/
theorem createDocumentRecords_eq_some {api : Api} {kbId documentId versionId jobId : Id}
    {name mimetype s3Key : String} {correlationId : Option String} {now : Time}
    {db db' : Database} {refreshed : Refreshed}
    (h : createDocumentRecords api kbId documentId versionId jobId name mimetype s3Key correlationId
      now db = some (db', refreshed)) :
    ∃ documents versions jobs, refreshed.document = newDocument kbId documentId name mimetype now ∧
      refreshed.version = newVersion api documentId versionId s3Key now ∧
      refreshed.ingestJob.documentVersionId = versionId ∧
      db.documents.insert? refreshed.document = some documents ∧
      db.versions.insert? refreshed.version = some versions ∧
      db.jobs.insert? refreshed.ingestJob = some jobs ∧
      db' = { db with documents := documents, versions := versions, jobs := jobs } := by
  simp only [createDocumentRecords, Option.bind_eq_bind, Option.pure_def, Option.bind_eq_some_iff,
    Option.some.injEq, Prod.mk.injEq] at h
  obtain ⟨-, -, documents, hdocuments, versions, hversions, jobs, hjobs, rfl, rfl⟩ := h
  exact ⟨documents, versions, jobs, rfl, rfl, rfl, hdocuments, hversions, hjobs, rfl⟩

end RagStack.Ingest
