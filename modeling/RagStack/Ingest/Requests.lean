import Mathlib.Data.List.MinMax
import Mathlib.Data.Prod.Lex
import RagStack.Ingest.Deliveries

/-!
# `reindexDocument` and `retryIngestJob`

`services/api/src/documents/documents.service.ts`, lines 134–237, and
`services/api/src/ops/ops.service.ts`, lines 101–240: the two requests that
create an ingest job for a version that exists. Both read that no job of the
version is open, and create one in a transaction that does not look again.

* `requestStep` — one step of a request: a read, a transaction or `queue.add`.
* `requestStep_cases`: a request commits its creating transaction and, when
  `queue.add` fails, `markQueueEnqueueFailure`; it writes nothing else.
-/

namespace RagStack.Ingest

open RagStack.Common RagStack.Worker

/-! ## Configuration and queries -/

/-- `getConfiguredIngestMaxAttempts`; `raw` is the finite number that
    `Number.parseInt` finds in the setting, if it finds one. -/
def getConfiguredIngestMaxAttempts (raw : Option ℤ) : ℕ :=
  match raw with
  | none => DEFAULT_INGEST_MAX_ATTEMPTS
  | some n => if 0 < n then n.toNat else DEFAULT_INGEST_MAX_ATTEMPTS

theorem getConfiguredIngestMaxAttempts_pos (raw : Option ℤ) :
    0 < getConfiguredIngestMaxAttempts raw := by
  unfold getConfiguredIngestMaxAttempts DEFAULT_INGEST_MAX_ATTEMPTS
  cases raw with
  | none => decide
  | some n =>
    simp only
    split_ifs with hn <;> omega

/-- The settings of the API that the requests read. -/
structure Api where
  openAiEmbeddingsAvailable : Bool
  ingestMaxAttempts : Option ℤ
  s3Bucket : String

/-- The job that the guards look for (documents.service.ts, lines 160–170, and
    ops.service.ts, lines 141–149). -/
def activeJob (db : Database) (versionId : Id) : Option IngestJob :=
  db.jobs.rows.find? fun j => j.documentVersionId = versionId ∧ j.status.Open

/-- `versions: { orderBy: [{ versionNumber: "desc" }, { createdAt: "desc" }], take: 1 }`. -/
def latestVersion (db : Database) (documentId : Id) : Option DocumentVersion :=
  (db.versions.rows.filter fun v => v.documentId = documentId).argmax fun v =>
    toLex (v.versionNumber, v.createdAt)

/-- `findFirst` of the version's jobs with `orderBy: [{ createdAt: "desc" }]` may
    return the job `jobId`; of jobs created at the same time it returns any. -/
def MayBeLatest (db : Database) (versionId jobId : Id) : Prop :=
  ∃ j ∈ db.jobs.rows, j.id = jobId ∧ j.documentVersionId = versionId ∧
    ∀ k ∈ db.jobs.rows, k.documentVersionId = versionId → k.createdAt ≤ j.createdAt

instance (db : Database) (versionId jobId : Id) : Decidable (MayBeLatest db versionId jobId) :=
  inferInstanceAs (Decidable (∃ j ∈ _, _))

/-! ## The creating transaction -/

/-- The version as the creating transactions leave it. -/
def requeueVersion (api : Api) (now : Time) (v : DocumentVersion) : DocumentVersion :=
  { v with
    status := .queued
    ingestVersion := v.ingestVersion + 1
    pipelineVersion := INGEST_PIPELINE_VERSION
    vectorizationStatus := getInitialVectorizationStatus api.openAiEmbeddingsAvailable
    lastErrorCode := none
    lastErrorMessage := none
    startedAt := none
    finishedAt := none
    updatedAt := now }

/-- The document as the creating transactions leave it. -/
def requeueDocument (now : Time) (d : Document) : Document :=
  { d with status := .queued, lastErrorCode := none, lastErrorMessage := none, updatedAt := now }

theorem id_requeueVersion (api : Api) (now : Time) (v : DocumentVersion) :
    (requeueVersion api now v).id = v.id := rfl

theorem id_requeueDocument (now : Time) (d : Document) : (requeueDocument now d).id = d.id := rfl

/-- The rows that a creating transaction returns (`refreshed`). -/
structure Refreshed where
  document : Document
  version : DocumentVersion
  ingestJob : IngestJob

/-- `tx.ingestJob.create`. -/
def newJob (versionId : Id) (correlationId : Option String) (maxAttempts : ℕ)
    (hmax : 0 < maxAttempts) (jobId : Id) (now : Time) : IngestJob :=
  { id := jobId, documentVersionId := versionId, correlationId := correlationId,
    maxAttempts := maxAttempts, createdAt := now, updatedAt := now, maxAttempts_pos := hmax,
    attempts_le := Nat.zero_le _ }

/-- The creating transaction of both requests (documents.service.ts, lines
    177–211, and ops.service.ts, lines 161–195); `none` when it rolls back, as a
    row is missing or the UUID of the job is taken. -/
def createJob (api : Api) (documentId versionId : Id) (correlationId : Option String)
    (maxAttempts : ℕ) (hmax : 0 < maxAttempts) (jobId : Id) (now : Time) (db : Database) :
    Option (Database × Refreshed) := do
  let document ← db.documents.get? documentId
  let version ← db.versions.get? versionId
  let job := newJob versionId correlationId maxAttempts hmax jobId now
  let jobs ← db.jobs.insert? job
  let created : Database := { db with
    jobs := jobs
    versions := db.versions.update versionId (requeueVersion api now) (id_requeueVersion api now)
    documents := db.documents.update documentId (requeueDocument now) (id_requeueDocument now) }
  return (created,
    { document := requeueDocument now document, version := requeueVersion api now version,
      ingestJob := job })

/-! ## Steps of a request -/

/-- What a request throws. -/
inductive RequestError
  | badRequest (message : String)
  | notFound (message : String)
  | forbidden (message : String)
  | internal (message : String)
deriving DecidableEq, Repr

/-- A call of `DocumentsService` that requeues a version. -/
inductive Request
  | reindexDocument (documentId : Id) (correlationId : Option String)
  | retryIngestJob (jobId : Id) (correlationId : Option String)
deriving DecidableEq, Repr

/-- What the request has read: the document and version that it will requeue,
    and the attempts of the new job. -/
structure Target where
  document : Document
  version : DocumentVersion
  maxAttempts : ℕ
  maxAttempts_pos : 0 < maxAttempts

/-- How far a request has come. -/
inductive RequestState
  | start
  /-- `existing` is read. -/
  | found (target : Target)
  /-- `retryIngestJob` has seen that the job is the latest. -/
  | latest (target : Target)
  /-- The guards have passed. -/
  | passed (target : Target)
  /-- The creating transaction has committed. -/
  | created (target : Target) (refreshed : Refreshed)
  /-- `queue.add` has failed. -/
  | enqueueFailed (refreshed : Refreshed)
  | enqueued (job : QueueJob)
  | failed (error : RequestError)

/-- What the request has thrown. -/
def RequestState.error? : RequestState → Option RequestError
  | failed error => some error
  | _ => none

theorem error?_eq_some {state : RequestState} {error : RequestError} :
    state.error? = some error ↔ state = .failed error := by
  cases state <;> simp [RequestState.error?]

/-- What one step of a request meets: what the authorization checks throw, the
    answer of `findFirst` for the latest job, the UUID and time of the new rows,
    whether the transaction fails, and whether `queue.add` does. -/
structure RequestIO where
  refused : Option RequestError := none
  latestJobId : Id := 0
  newJobId : Id := 0
  now : Time := 0
  transactionFails : Bool := false
  queueFails : Bool := false

/-- `existing` and `latestVersion` of `reindexDocument` (lines 139–158). -/
def readDocument (api : Api) (db : Database) (documentId : Id) (refused : Option RequestError) :
    Except RequestError Target :=
  match db.documents.get? documentId with
  | none => .error (.notFound "Document not found")
  | some document =>
    match refused with
    | some error => .error error
    | none =>
      match latestVersion db document.id with
      | none => .error (.badRequest "Document has no version to reindex")
      | some version =>
        .ok
          { document := document
            version := version
            maxAttempts := getConfiguredIngestMaxAttempts api.ingestMaxAttempts
            maxAttempts_pos := getConfiguredIngestMaxAttempts_pos _ }

/-- `existing` of `retryIngestJob` (lines 106–129); the job's own `maxAttempts`
    is positive, so the default is never taken. -/
def readJob (db : Database) (jobId : Id) (refused : Option RequestError) :
    Except RequestError Target :=
  match refused with
  | some error => .error error
  | none =>
    match db.jobs.get? jobId with
    | none => .error (.notFound "Ingest job not found")
    | some job =>
      match db.versions.get? job.documentVersionId with
      | none => .error (.notFound "Ingest job not found")
      | some version =>
        match db.documents.get? version.documentId with
        | none => .error (.notFound "Ingest job not found")
        | some document =>
          if job.status = .failed ∨ job.status = .deadLetter then
            .ok
              { document := document
                version := version
                maxAttempts := job.maxAttempts
                maxAttempts_pos := job.maxAttempts_pos }
          else .error (.badRequest "Only failed or dead-letter jobs can be retried")

namespace Request

def correlationId : Request → Option String
  | reindexDocument _ correlationId | retryIngestJob _ correlationId => correlationId

/-- What the guard throws when a job of the version is open. -/
def activeJobMessage : Request → String
  | reindexDocument _ _ => "Document version already has an active ingest job"
  | retryIngestJob _ _ => "An ingest job is already queued or running for this version"

/-- What a failing `queue.add` throws, and writes into the rows. -/
def enqueueMessage : Request → String
  | reindexDocument _ _ => "Failed to enqueue ingest job"
  | retryIngestJob _ _ => "Failed to enqueue retry job"

/-- The bucket of the queued payload. -/
def bucket (api : Api) (target : Target) (refreshed : Refreshed) : Request → String
  | reindexDocument _ _ => refreshed.version.storageBucket.getD api.s3Bucket
  | retryIngestJob _ _ =>
    (refreshed.version.storageBucket.or target.version.storageBucket).getD api.s3Bucket

/-- The object key of the queued payload. -/
def s3Key (target : Target) (refreshed : Refreshed) : Request → String
  | reindexDocument _ _ => refreshed.version.s3Key
  | retryIngestJob _ _ => target.version.s3Key

end Request

/-- The guard: no job of the version is open. -/
def guardStep (r : Request) (db : Database) (target : Target) : RequestState :=
  match activeJob db target.version.id with
  | some _ => .failed (.badRequest r.activeJobMessage)
  | none => .passed target

/-- The creating transaction of the request. -/
def Target.create (target : Target) (api : Api) (r : Request) (io : RequestIO) (db : Database) :
    Option (Database × Refreshed) :=
  if io.transactionFails then none
  else
    createJob api target.document.id target.version.id r.correlationId target.maxAttempts
      target.maxAttempts_pos io.newJobId io.now db

/-- One step of a request. -/
def requestStep (api : Api) (r : Request) (db : Database) (state : RequestState)
    (io : RequestIO) : Option (Database × RequestState) :=
  match r, state with
  | .reindexDocument documentId _, .start =>
    match readDocument api db documentId io.refused with
    | .error error => some (db, .failed error)
    | .ok target => some (db, .found target)
  | .retryIngestJob jobId _, .start =>
    match readJob db jobId io.refused with
    | .error error => some (db, .failed error)
    | .ok target => some (db, .found target)
  | .reindexDocument _ _, .found target => some (db, guardStep r db target)
  | .retryIngestJob jobId _, .found target =>
    if MayBeLatest db target.version.id io.latestJobId then
      if io.latestJobId = jobId then some (db, .latest target)
      else
        some (db, .failed
          (.badRequest "Only the latest ingest job for a version can be retried"))
    else none
  | _, .latest target => some (db, guardStep r db target)
  | _, .passed target =>
    match target.create api r io db with
    | none => some (db, .failed (.internal "Internal server error"))
    | some (db', refreshed) => some (db', .created target refreshed)
  | _, .created target refreshed =>
    if io.queueFails then some (db, .enqueueFailed refreshed)
    else
      some (db, .enqueued
        (enqueue r.correlationId refreshed.document
          { refreshed.version with s3Key := r.s3Key target refreshed }
          (r.bucket api target refreshed) refreshed.ingestJob))
  | _, .enqueueFailed refreshed =>
    if io.transactionFails then some (db, .failed (.internal "Internal server error"))
    else
      match markQueueEnqueueFailure refreshed.document.id refreshed.version.id
          refreshed.ingestJob.id r.enqueueMessage io.now db with
      | none => some (db, .failed (.internal "Internal server error"))
      | some db' => some (db', .failed (.internal r.enqueueMessage))
  | _, .enqueued _ => none
  | _, .failed _ => none

/-! ## What a step of a request does -/

/-- Everything that a step of a request can do. -/
inductive RequestCase (api : Api) (r : Request) (db : Database) (state : RequestState)
    (io : RequestIO) : Database → RequestState → Prop
  | quiet {state' : RequestState}
      (notCreating : ∀ target, state = .passed target → target.create api r io db = none) :
      RequestCase api r db state io db state'
  | create {target : Target} {db' : Database} {refreshed : Refreshed}
      (passed : state = .passed target)
      (commits : target.create api r io db = some (db', refreshed)) :
      RequestCase api r db state io db' (.created target refreshed)
  | enqueueFailure {refreshed : Refreshed} {db' : Database}
      (failed : state = .enqueueFailed refreshed)
      (commits : markQueueEnqueueFailure refreshed.document.id refreshed.version.id
        refreshed.ingestJob.id r.enqueueMessage io.now db = some db') :
      RequestCase api r db state io db' (.failed (.internal r.enqueueMessage))

section Steps

variable {api : Api} {r : Request} {db db' : Database} {state state' : RequestState}
  {io : RequestIO}

theorem requestStep_cases (h : requestStep api r db state io = some (db', state')) :
    RequestCase api r db state io db' state' := by
  cases state with
  | start =>
    cases r <;> simp only [requestStep] at h <;> split at h
    all_goals
      obtain ⟨rfl, rfl⟩ := Prod.mk.inj (Option.some.inj h)
      exact .quiet fun _ ht => by cases ht
  | found target =>
    cases r with
    | reindexDocument documentId correlationId =>
      simp only [requestStep] at h
      obtain ⟨rfl, rfl⟩ := Prod.mk.inj (Option.some.inj h)
      exact .quiet fun _ ht => by cases ht
    | retryIngestJob jobId correlationId =>
      simp only [requestStep] at h
      split_ifs at h
      all_goals
        obtain ⟨rfl, rfl⟩ := Prod.mk.inj (Option.some.inj h)
        exact .quiet fun _ ht => by cases ht
  | latest target =>
    simp only [requestStep] at h
    obtain ⟨rfl, rfl⟩ := Prod.mk.inj (Option.some.inj h)
    exact .quiet fun _ ht => by cases ht
  | passed target =>
    simp only [requestStep] at h
    split at h
    · rename_i hnone
      obtain ⟨rfl, rfl⟩ := Prod.mk.inj (Option.some.inj h)
      exact .quiet fun _ ht => by cases ht; exact hnone
    · rename_i hsome
      obtain ⟨rfl, rfl⟩ := Prod.mk.inj (Option.some.inj h)
      exact .create rfl hsome
  | created target refreshed =>
    simp only [requestStep] at h
    split_ifs at h
    all_goals
      obtain ⟨rfl, rfl⟩ := Prod.mk.inj (Option.some.inj h)
      exact .quiet fun _ ht => by cases ht
  | enqueueFailed refreshed =>
    simp only [requestStep] at h
    split_ifs at h
    · obtain ⟨rfl, rfl⟩ := Prod.mk.inj (Option.some.inj h)
      exact .quiet fun _ ht => by cases ht
    · split at h
      · obtain ⟨rfl, rfl⟩ := Prod.mk.inj (Option.some.inj h)
        exact .quiet fun _ ht => by cases ht
      · rename_i hcommit
        obtain ⟨rfl, rfl⟩ := Prod.mk.inj (Option.some.inj h)
        exact .enqueueFailure rfl hcommit
  | enqueued job => simp [requestStep] at h
  | failed error => simp [requestStep] at h

/-- What the creating transaction does. -/
theorem createJob_eq_some {documentId versionId jobId : Id} {correlationId : Option String}
    {maxAttempts : ℕ} {hmax : 0 < maxAttempts} {now : Time} {refreshed : Refreshed}
    (h : createJob api documentId versionId correlationId maxAttempts hmax jobId now db =
      some (db', refreshed)) :
    ∃ document version jobs, db.documents.get? documentId = some document ∧
      db.versions.get? versionId = some version ∧
      refreshed = ⟨requeueDocument now document, requeueVersion api now version,
        newJob versionId correlationId maxAttempts hmax jobId now⟩ ∧
      db.jobs.insert? refreshed.ingestJob = some jobs ∧
      db' = { db with
        jobs := jobs
        versions := db.versions.update versionId (requeueVersion api now)
          (id_requeueVersion api now)
        documents := db.documents.update documentId (requeueDocument now)
          (id_requeueDocument now) } := by
  simp only [createJob, Option.bind_eq_bind, Option.pure_def, Option.bind_eq_some_iff,
    Option.some.injEq, Prod.mk.injEq] at h
  obtain ⟨document, hdocument, version, hversion, jobs, hjobs, rfl, rfl⟩ := h
  exact ⟨document, version, jobs, hdocument, hversion, rfl, hjobs, rfl⟩

theorem create_eq_some {target : Target} {refreshed : Refreshed}
    (h : target.create api r io db = some (db', refreshed)) :
    createJob api target.document.id target.version.id r.correlationId target.maxAttempts
      target.maxAttempts_pos io.newJobId io.now db = some (db', refreshed) := by
  unfold Target.create at h
  split_ifs at h
  exact h

/-- `markQueueEnqueueFailure` writes the three rows. -/
theorem markQueueEnqueueFailure_eq_some {documentId versionId jobId : Id} {message : String}
    {now : Time}
    (h : markQueueEnqueueFailure documentId versionId jobId message now db = some db') :
    (∃ job, db.jobs.get? jobId = some job ∧ ∃ job', db'.jobs.get? jobId = some job' ∧
        job'.status = .failed) ∧
      (∀ t ≠ jobId, db'.jobs.get? t = db.jobs.get? t) ∧
      (∀ d, db'.documents.get? documentId = some d → d.status = .failed) ∧
      db'.chunks = db.chunks := by
  unfold markQueueEnqueueFailure at h
  split_ifs at h with hrows
  cases h
  obtain ⟨job, hjob⟩ := Option.isSome_iff_exists.mp hrows.1
  refine ⟨⟨job, hjob, ?_⟩, fun t ht => ?_, ?_, rfl⟩
  · simp only [Table.get?_update_self, hjob, Option.map_some]
    exact ⟨_, rfl, rfl⟩
  · simp only [Table.get?_update_of_ne _ ht]
  · intro d hd
    simp only [Table.get?_update_self] at hd
    obtain ⟨d₀, -, rfl⟩ := Option.map_eq_some_iff.mp hd
    rfl

end Steps

end RagStack.Ingest
