import RagStack.Ingest.Schema

/-!
# `StatusManager`

`app/services/status_manager.py`: the transactions that move the status of a
job, its version and its document. A transaction is a function on the database;
one that raises leaves no trace, since it is rolled back.

* `markJobActive_cases`: activation skips a terminal job and counts an attempt
  of an open one.
* `jobs_finish`, `versions_finish`, `documents_finish`: the other three write
  their rows by id, whatever the status there is.
-/

namespace RagStack.Ingest

open RagStack.Common RagStack.Worker

/-! ## Payloads and contexts -/

/-- `IngestJobPayload` (models.py, lines 10–38). -/
structure IngestJobPayload where
  ingestJobId : Id
  documentId : Id
  documentVersionId : Id
  kbId : Id
  bucket : String
  s3Key : String
  mimeType : String
  sourceTitle : String
  correlationId : Option String
  pipelineVersion : String
  ingestVersion : ℕ
deriving DecidableEq, Repr

/-- `JobContext`: the payload with the title of the document and the attempt. -/
structure JobContext where
  ingestJobId : Id
  documentId : Id
  documentVersionId : Id
  kbId : Id
  sourceTitle : String
  mimeType : String
  s3Key : String
  bucket : String
  correlationId : Option String
  pipelineVersion : String
  ingestVersion : ℕ
  attemptNo : ℕ
  maxAttempts : ℕ
deriving DecidableEq, Repr

/-- The context of an attempt on `payload`; `title` is the name of the document. -/
def IngestJobPayload.context (payload : IngestJobPayload) (title : String)
    (attemptNo maxAttempts : ℕ) : JobContext where
  ingestJobId := payload.ingestJobId
  documentId := payload.documentId
  documentVersionId := payload.documentVersionId
  kbId := payload.kbId
  sourceTitle := if title = "" then payload.sourceTitle else title
  mimeType := payload.mimeType
  s3Key := payload.s3Key
  bucket := payload.bucket
  correlationId := payload.correlationId
  pipelineVersion := payload.pipelineVersion
  ingestVersion := payload.ingestVersion
  attemptNo := attemptNo
  maxAttempts := maxAttempts

/-- What a database call of the worker raises: an `IngestionError`, an error of
    the database driver (does its message mention vectors?), or something else. -/
inductive Raised
  | ingestion (error : IngestionError)
  | postgres (mentionsVector : Bool)
  | other
deriving DecidableEq, Repr

/-- `StatusManager.__init__`. -/
structure StatusManager where
  embeddingsEnabled : Bool

/-! ## Transactions -/

/-- Lines 25–46: the job joined with its version and its document. -/
def findJob (db : Database) (jobId : Id) : Option (IngestJob × Document) := do
  let job ← db.jobs.get? jobId
  let version ← db.versions.get? job.documentVersionId
  let document ← db.documents.get? version.documentId
  return (job, document)

/-- Lines 42–46. -/
def jobNotFound : IngestionError :=
  { code := .dbWriteFailed, message := "Ingest job record was not found", retryable := false }

/-- `UPDATE "IngestJob"` of activation (lines 68–87); `none` when the row would
    violate `IngestJob_attempts_lte_maxAttempts_check`. -/
def IngestJob.activate? (job : IngestJob) (correlationId : Option String) (now : Time) :
    Option IngestJob :=
  if h : job.attempts + 1 ≤ job.maxAttempts then
    some { job with
      status := .active
      attempts := job.attempts + 1
      retryable := true
      errorCode := none
      errorMessage := none
      correlationId := correlationId.or job.correlationId
      startedAt := some now
      finishedAt := none
      updatedAt := now
      attempts_le := h }
  else none

/-- Lines 21 and 89–105. -/
def StatusManager.activateVersion (sm : StatusManager) (now : Time) (v : DocumentVersion) :
    DocumentVersion :=
  { v with
    status := .processing
    vectorizationStatus := if sm.embeddingsEnabled then .pending else .disabled
    lastErrorCode := none
    lastErrorMessage := none
    startedAt := some now
    finishedAt := none
    updatedAt := now }

/-- Lines 107–119. -/
def activateDocument (now : Time) (d : Document) : Document :=
  { d with status := .processing, lastErrorCode := none, lastErrorMessage := none, updatedAt := now }

theorem id_activateVersion (sm : StatusManager) (now : Time) (v : DocumentVersion) :
    (sm.activateVersion now v).id = v.id := rfl

theorem id_activateDocument (now : Time) (d : Document) : (activateDocument now d).id = d.id := rfl

/-- `mark_job_active` (lines 19–135). -/
def StatusManager.markJobActive (sm : StatusManager) (payload : IngestJobPayload) (now : Time)
    (db : Database) : Except Raised (JobContext × Database) :=
  match findJob db payload.ingestJobId with
  | none => .error (.ingestion jobNotFound)
  | some (job, document) =>
    if job.status.Terminal then .ok (payload.context document.name 0 job.maxAttempts, db)
    else
      match job.activate? payload.correlationId now with
      | none => .error (.postgres false)
      | some job' =>
        .ok (payload.context document.name (job.attempts + 1) job.maxAttempts,
          { db with
            jobs := db.jobs.replace job'
            versions := db.versions.update payload.documentVersionId (sm.activateVersion now)
              (id_activateVersion sm now)
            documents := db.documents.update payload.documentId (activateDocument now)
              (id_activateDocument now) })

/-- `mark_retry_waiting` (lines 137–187). -/
def StatusManager.markRetryWaiting (_ : StatusManager) (ctx : JobContext) (error : IngestionError)
    (now : Time) (db : Database) : Database :=
  { db with
    jobs := db.jobs.update ctx.ingestJobId (fun j => { j with
      status := .waiting, errorCode := some error.code.value, errorMessage := some error.message,
      retryable := true, finishedAt := some now, updatedAt := now }) fun _ => rfl
    versions := db.versions.update ctx.documentVersionId (fun v => { v with
      status := .processing, lastErrorCode := some error.code.value,
      lastErrorMessage := some error.message, updatedAt := now }) fun _ => rfl
    documents := db.documents.update ctx.documentId (fun d => { d with
      status := .processing, lastErrorCode := some error.code.value,
      lastErrorMessage := some error.message, updatedAt := now }) fun _ => rfl }

/-- `mark_failure` (lines 189–247). -/
def StatusManager.markFailure (sm : StatusManager) (ctx : JobContext) (error : IngestionError)
    (deadLetter : Bool) (now : Time) (db : Database) : Database :=
  { db with
    jobs := db.jobs.update ctx.ingestJobId (fun j => { j with
      status := if deadLetter then .deadLetter else .failed, errorCode := some error.code.value,
      errorMessage := some error.message, retryable := error.retryable, finishedAt := some now,
      updatedAt := now }) fun _ => rfl
    versions := db.versions.update ctx.documentVersionId (fun v => { v with
      status := .failed
      vectorizationStatus := if sm.embeddingsEnabled then .failed else .disabled
      lastErrorCode := some error.code.value, lastErrorMessage := some error.message,
      finishedAt := some now, updatedAt := now }) fun _ => rfl
    documents := db.documents.update ctx.documentId (fun d => { d with
      status := .failed, lastErrorCode := some error.code.value,
      lastErrorMessage := some error.message, updatedAt := now }) fun _ => rfl }

/-- `mark_success` (lines 249–302). -/
def StatusManager.markSuccess (sm : StatusManager) (ctx : JobContext) (chunkCount : ℕ) (now : Time)
    (db : Database) : Database :=
  { db with
    versions := db.versions.update ctx.documentVersionId (fun v => { v with
      status := .indexed
      vectorizationStatus := if sm.embeddingsEnabled then .completed else .disabled
      chunkCount := chunkCount, lastErrorCode := none, lastErrorMessage := none,
      finishedAt := some now, indexedAt := some now, updatedAt := now }) fun _ => rfl
    documents := db.documents.update ctx.documentId (fun d => { d with
      status := .indexed, lastErrorCode := none, lastErrorMessage := none, indexedAt := some now,
      updatedAt := now }) fun _ => rfl
    jobs := db.jobs.update ctx.ingestJobId (fun j => { j with
      status := .completed, errorCode := none, errorMessage := none, retryable := true,
      finishedAt := some now, updatedAt := now }) fun _ => rfl }

/-- The transaction that ends a delivery. -/
inductive Finish
  | retryWaiting (error : IngestionError)
  | failure (error : IngestionError) (deadLetter : Bool)
  | success (chunkCount : ℕ)
deriving DecidableEq, Repr

/-- Run the transaction. -/
def StatusManager.finish (sm : StatusManager) (ctx : JobContext) (f : Finish) (now : Time)
    (db : Database) : Database :=
  match f with
  | .retryWaiting error => sm.markRetryWaiting ctx error now db
  | .failure error deadLetter => sm.markFailure ctx error deadLetter now db
  | .success chunkCount => sm.markSuccess ctx chunkCount now db

namespace Finish

/-- The job status that the transaction writes. -/
def jobStatus : Finish → IngestJobStatus
  | retryWaiting _ => .waiting
  | failure _ deadLetter => if deadLetter then .deadLetter else .failed
  | success _ => .completed

/-- The version status that the transaction writes. -/
def versionStatus : Finish → DocumentVersionStatus
  | retryWaiting _ => .processing
  | failure _ _ => .failed
  | success _ => .indexed

/-- The document status that the transaction writes. -/
def documentStatus : Finish → DocumentStatus
  | retryWaiting _ => .processing
  | failure _ _ => .failed
  | success _ => .indexed

/-- The `chunkCount` that the transaction writes, if it writes one. -/
def chunkCount? : Finish → Option ℕ
  | success chunkCount => some chunkCount
  | _ => none

end Finish

/-! ## What the transactions do -/

section Specs

variable {sm : StatusManager} {payload : IngestJobPayload} {ctx : JobContext} {now : Time}
  {db db' : Database}

theorem findJob_eq_some {jobId : Id} {job : IngestJob} {document : Document} :
    findJob db jobId = some (job, document) ↔ db.jobs.get? jobId = some job ∧
      ∃ version, db.versions.get? job.documentVersionId = some version ∧
        db.documents.get? version.documentId = some document := by
  simp only [findJob, Option.bind_eq_bind, Option.pure_def, Option.bind_eq_some_iff,
    Option.some.injEq, Prod.mk.injEq]
  constructor
  · rintro ⟨_, hj, v, hv, d, hd, rfl, rfl⟩
    exact ⟨hj, v, hv, hd⟩
  · rintro ⟨hj, v, hv, hd⟩
    exact ⟨job, hj, v, hv, document, hd, rfl, rfl⟩

/-- Activation of a row: one attempt more, if the constraint allows it. -/
theorem activate?_spec {job job' : IngestJob} {correlationId : Option String}
    (h : job.activate? correlationId now = some job') :
    job.attempts + 1 ≤ job.maxAttempts ∧ job'.id = job.id ∧
      job'.documentVersionId = job.documentVersionId ∧ job'.status = .active ∧
      job'.attempts = job.attempts + 1 ∧ job'.maxAttempts = job.maxAttempts := by
  unfold IngestJob.activate? at h
  split_ifs at h with hle
  cases h
  exact ⟨hle, rfl, rfl, rfl, rfl, rfl⟩

theorem activate?_isSome {job : IngestJob} {correlationId : Option String} :
    (job.activate? correlationId now).isSome ↔ job.attempts + 1 ≤ job.maxAttempts := by
  unfold IngestJob.activate?
  split_ifs with h <;> simp [h]

/-- The database after activation. -/
def StatusManager.activated (sm : StatusManager) (payload : IngestJobPayload) (job' : IngestJob)
    (now : Time) (db : Database) : Database :=
  { db with
    jobs := db.jobs.replace job'
    versions := db.versions.update payload.documentVersionId (sm.activateVersion now)
      (id_activateVersion sm now)
    documents := db.documents.update payload.documentId (activateDocument now)
      (id_activateDocument now) }

/-- Everything `mark_job_active` can do when it does not raise. -/
theorem markJobActive_cases (h : sm.markJobActive payload now db = .ok (ctx, db')) :
    ∃ job document, findJob db payload.ingestJobId = some (job, document) ∧
      ((job.status.Terminal ∧ db' = db ∧ ctx = payload.context document.name 0 job.maxAttempts) ∨
        (job.status.Open ∧ ∃ job', job.activate? payload.correlationId now = some job' ∧
          ctx = payload.context document.name (job.attempts + 1) job.maxAttempts ∧
          db' = sm.activated payload job' now db)) := by
  unfold StatusManager.markJobActive at h
  cases hfind : findJob db payload.ingestJobId with
  | none =>
    rw [hfind] at h
    cases h
  | some found =>
    obtain ⟨job, document⟩ := found
    rw [hfind] at h
    simp only at h
    refine ⟨job, document, rfl, ?_⟩
    split_ifs at h with hterm
    · cases h
      exact Or.inl ⟨hterm, rfl, rfl⟩
    · cases hact : job.activate? payload.correlationId now with
      | none =>
        rw [hact] at h
        cases h
      | some job' =>
        rw [hact] at h
        cases h
        exact Or.inr ⟨IngestJobStatus.not_terminal_iff.mp hterm, job', rfl, rfl, rfl⟩

/-- An open job with an attempt left is activated. -/
theorem markJobActive_of_open {job : IngestJob} {document : Document}
    (hfind : findJob db payload.ingestJobId = some (job, document)) (hopen : job.status.Open)
    {job' : IngestJob} (hact : job.activate? payload.correlationId now = some job') :
    sm.markJobActive payload now db =
      .ok (payload.context document.name (job.attempts + 1) job.maxAttempts,
        sm.activated payload job' now db) := by
  unfold StatusManager.markJobActive
  rw [hfind]
  simp only
  rw [if_neg (fun h => IngestJobStatus.not_terminal_iff.mpr hopen h), hact]
  rfl

/-- The job row after the transaction that ends a delivery. -/
theorem jobs_finish (sm : StatusManager) (ctx : JobContext) (f : Finish) (now : Time)
    (db : Database) :
    ∃ g hg, (sm.finish ctx f now db).jobs = db.jobs.update ctx.ingestJobId g hg ∧
      ∀ j, (g j).documentVersionId = j.documentVersionId ∧ (g j).status = f.jobStatus ∧
        (g j).attempts = j.attempts ∧ (g j).maxAttempts = j.maxAttempts := by
  cases f
  all_goals
    refine ⟨_, ?_, rfl, fun j => ⟨rfl, rfl, rfl, rfl⟩⟩
    exact fun _ => rfl

theorem versions_finish (sm : StatusManager) (ctx : JobContext) (f : Finish) (now : Time)
    (db : Database) :
    ∃ g hg, (sm.finish ctx f now db).versions = db.versions.update ctx.documentVersionId g hg ∧
      ∀ v, (g v).documentId = v.documentId ∧ (g v).status = f.versionStatus ∧
        (g v).chunkCount = f.chunkCount?.getD v.chunkCount := by
  cases f
  all_goals
    refine ⟨_, ?_, rfl, fun v => ⟨rfl, rfl, rfl⟩⟩
    exact fun _ => rfl

theorem documents_finish (sm : StatusManager) (ctx : JobContext) (f : Finish) (now : Time)
    (db : Database) :
    ∃ g hg, (sm.finish ctx f now db).documents = db.documents.update ctx.documentId g hg ∧
      ∀ d, (g d).kbId = d.kbId ∧ (g d).name = d.name ∧ (g d).status = f.documentStatus := by
  cases f
  all_goals
    refine ⟨_, ?_, rfl, fun d => ⟨rfl, rfl, rfl⟩⟩
    exact fun _ => rfl

/-- Only the job of the delivery changes. -/
theorem get?_jobs_finish_of_ne (f : Finish) {t : Id} (h : t ≠ ctx.ingestJobId) :
    (sm.finish ctx f now db).jobs.get? t = db.jobs.get? t := by
  obtain ⟨g, hg, hjobs, -⟩ := jobs_finish sm ctx f now db
  rw [hjobs, Table.get?_update_of_ne _ h]

theorem get?_jobs_finish (f : Finish) {j : IngestJob}
    (h : db.jobs.get? ctx.ingestJobId = some j) :
    ∃ j', (sm.finish ctx f now db).jobs.get? ctx.ingestJobId = some j' ∧
      j'.documentVersionId = j.documentVersionId ∧ j'.status = f.jobStatus ∧
      j'.attempts = j.attempts ∧ j'.maxAttempts = j.maxAttempts := by
  obtain ⟨g, hg, hjobs, hspec⟩ := jobs_finish sm ctx f now db
  refine ⟨g j, ?_, hspec j⟩
  rw [hjobs, Table.get?_update_self, h]
  rfl

theorem get?_jobs_activated_of_ne {job' : IngestJob} {t : Id} (h : t ≠ job'.id) :
    (sm.activated payload job' now db).jobs.get? t = db.jobs.get? t := by
  rw [StatusManager.activated, Table.get?_replace, if_neg h]

theorem get?_jobs_activated {job job' : IngestJob} (h : db.jobs.get? job'.id = some job) :
    (sm.activated payload job' now db).jobs.get? job'.id = some job' := by
  rw [StatusManager.activated, Table.get?_replace, if_pos rfl, h]
  rfl

theorem get?_versions_finish_of_ne (f : Finish) {w : Id} (h : w ≠ ctx.documentVersionId) :
    (sm.finish ctx f now db).versions.get? w = db.versions.get? w := by
  obtain ⟨g, hg, hversions, -⟩ := versions_finish sm ctx f now db
  rw [hversions, Table.get?_update_of_ne _ h]

theorem get?_versions_finish (f : Finish) {v : DocumentVersion}
    (h : db.versions.get? ctx.documentVersionId = some v) :
    ∃ v', (sm.finish ctx f now db).versions.get? ctx.documentVersionId = some v' ∧
      v'.status = f.versionStatus ∧ v'.chunkCount = f.chunkCount?.getD v.chunkCount := by
  obtain ⟨g, hg, hversions, hspec⟩ := versions_finish sm ctx f now db
  refine ⟨g v, ?_, (hspec v).2⟩
  rw [hversions, Table.get?_update_self, h]
  rfl

theorem get?_versions_activated {job' : IngestJob} {w : Id} {v : DocumentVersion}
    (h : db.versions.get? w = some v) :
    (sm.activated payload job' now db).versions.get? w =
      if w = payload.documentVersionId then some (sm.activateVersion now v) else some v := by
  rw [StatusManager.activated, Table.get?_update, h]
  rfl

theorem status_documents_finish (f : Finish) {d : Document}
    (h : (sm.finish ctx f now db).documents.get? ctx.documentId = some d) :
    d.status = f.documentStatus := by
  obtain ⟨g, hg, hdocuments, hspec⟩ := documents_finish sm ctx f now db
  rw [hdocuments, Table.get?_update_self] at h
  obtain ⟨d₀, -, rfl⟩ := Option.map_eq_some_iff.mp h
  exact (hspec d₀).2.2

theorem status_documents_activated {job' : IngestJob} {d : Document}
    (h : (sm.activated payload job' now db).documents.get? payload.documentId = some d) :
    d.status = .processing := by
  rw [StatusManager.activated, Table.get?_update_self] at h
  obtain ⟨d₀, -, rfl⟩ := Option.map_eq_some_iff.mp h
  rfl

/-- The document becomes `INDEXED` when the job becomes `COMPLETED`. -/
theorem documentStatus_eq_indexed {f : Finish} :
    f.documentStatus = .indexed ↔ f.jobStatus = .completed := by
  cases f with
  | retryWaiting error => simp [Finish.documentStatus, Finish.jobStatus]
  | failure error deadLetter =>
    cases deadLetter <;> simp [Finish.documentStatus, Finish.jobStatus]
  | success n => simp [Finish.documentStatus, Finish.jobStatus]

/-- `mark_success` alone writes `INDEXED` and a chunk count. -/
theorem versionStatus_eq_indexed {f : Finish} : f.versionStatus = .indexed ↔ f.chunkCount?.isSome := by
  cases f <;> simp [Finish.versionStatus, Finish.chunkCount?]

@[simp] theorem chunks_finish (f : Finish) : (sm.finish ctx f now db).chunks = db.chunks := by
  cases f <;> rfl

end Specs

/-! ## The rows of one job -/

/-- The rows that the payload of a job names, and that they belong together. -/
structure Rows (db : Database) (payload : IngestJobPayload) (j : IngestJob) (v : DocumentVersion)
    (d : Document) : Prop where
  job : db.jobs.get? payload.ingestJobId = some j
  version : db.versions.get? payload.documentVersionId = some v
  document : db.documents.get? payload.documentId = some d
  job_version : j.documentVersionId = payload.documentVersionId
  version_document : v.documentId = payload.documentId

namespace Rows

variable {sm : StatusManager} {payload : IngestJobPayload} {ctx : JobContext} {now : Time}
  {db : Database} {j : IngestJob} {v : DocumentVersion} {d : Document}

theorem findJob (h : Rows db payload j v d) : findJob db payload.ingestJobId = some (j, d) :=
  findJob_eq_some.mpr ⟨h.job, v, by rw [h.job_version, h.version], by rw [h.version_document, h.document]⟩

variable (sm now) in
/-- Activation moves the rows of the job. -/
theorem activated (h : Rows db payload j v d) {job' : IngestJob} {correlationId : Option String}
    (hact : j.activate? correlationId now = some job') :
    Rows (sm.activated payload job' now db) payload job' (sm.activateVersion now v)
      (activateDocument now d) := by
  obtain ⟨-, hid, hversion, -⟩ := activate?_spec hact
  have hkey : payload.ingestJobId = job'.id := by rw [hid, Table.key_of_get? h.job]
  refine ⟨?_, ?_, ?_, by rw [hversion, h.job_version], h.version_document⟩
  · rw [StatusManager.activated, Table.get?_replace, if_pos hkey, h.job]
    rfl
  · rw [StatusManager.activated, Table.get?_update_self, h.version]
    rfl
  · rw [StatusManager.activated, Table.get?_update_self, h.document]
    rfl

variable (sm ctx now) in
/-- The transaction that ends a delivery moves the rows of its job. -/
theorem finish (h : Rows db payload j v d) (hjob : ctx.ingestJobId = payload.ingestJobId)
    (hversion : ctx.documentVersionId = payload.documentVersionId)
    (hdocument : ctx.documentId = payload.documentId) (f : Finish) :
    ∃ j' v' d', Rows (sm.finish ctx f now db) payload j' v' d' ∧ j'.status = f.jobStatus ∧
      j'.attempts = j.attempts ∧ j'.maxAttempts = j.maxAttempts ∧ v'.status = f.versionStatus ∧
      d'.status = f.documentStatus := by
  obtain ⟨gj, hgj, hjobs, hj⟩ := jobs_finish sm ctx f now db
  obtain ⟨gv, hgv, hversions, hv⟩ := versions_finish sm ctx f now db
  obtain ⟨gd, hgd, hdocuments, hd⟩ := documents_finish sm ctx f now db
  refine ⟨gj j, gv v, gd d, ⟨?_, ?_, ?_, ?_, ?_⟩, (hj j).2.1, (hj j).2.2.1, (hj j).2.2.2,
    (hv v).2.1, (hd d).2.2⟩
  · rw [hjobs, hjob, Table.get?_update_self, h.job]
    rfl
  · rw [hversions, hversion, Table.get?_update_self, h.version]
    rfl
  · rw [hdocuments, hdocument, Table.get?_update_self, h.document]
    rfl
  · rw [(hj j).1, h.job_version]
  · rw [(hv v).1, h.version_document]

end Rows

end RagStack.Ingest
