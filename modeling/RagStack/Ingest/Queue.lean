import RagStack.Common.Runs
import RagStack.Ingest.Pipeline

/-!
# The ingest queue

`services/api/src/documents/ingest-job.helpers.ts` and `documents.constants.ts`:
what the API puts into the queue, and what the queue does with it. BullMQ is a
third-party package; of its behaviour the model has that a job is delivered
again after an ordinary exception until `attempts` deliveries have failed, and
not after a normal return or an `UnrecoverableError`.

* `queue_agrees_with_status`: in runs without faults of the status transactions
  the queue will deliver a job again exactly when its row is `WAITING`, and when
  it stops the rows tell how the last attempt ended.
-/

namespace RagStack.Ingest

open RagStack.Common RagStack.Worker

/-! ## Constants (documents.constants.ts) -/

def DEFAULT_INGEST_MAX_ATTEMPTS : ℕ := 3
def DEFAULT_INGEST_BACKOFF_MS : ℕ := 5000
def INGEST_PIPELINE_VERSION : String := "phase2.v1"

/-! ## Helpers (ingest-job.helpers.ts) -/

/-- `getInitialVectorizationStatus` (lines 41–45). -/
def getInitialVectorizationStatus (openAiConfigured : Bool) : VectorizationStatus :=
  if openAiConfigured then .pending else .disabled

/-- `buildIngestQueuePayload` (lines 52–66). -/
def buildIngestQueuePayload (correlationId : Option String) (document : Document)
    (version : DocumentVersion) (storageBucket : String) (job : IngestJob) : IngestJobPayload where
  bucket := storageBucket
  correlationId := correlationId
  documentId := document.id
  documentVersionId := version.id
  ingestJobId := job.id
  ingestVersion := version.ingestVersion
  kbId := document.kbId
  mimeType := document.type
  pipelineVersion := version.pipelineVersion
  s3Key := version.s3Key
  sourceTitle := document.name

/-- How long finished jobs are kept: seconds and number. -/
structure KeepJobs where
  age : ℕ
  count : ℕ
deriving DecidableEq, Repr

/-- `JobsOptions` of BullMQ, as far as it is used; the backoff is exponential. -/
structure JobsOptions where
  attempts : ℕ
  backoffDelay : ℕ
  jobId : Id
  removeOnComplete : KeepJobs
  removeOnFail : KeepJobs
deriving DecidableEq, Repr

/-- `buildIngestQueueOptions` (lines 68–88). -/
def buildIngestQueueOptions (ingestJobId : Id) (maxAttempts : ℕ) : JobsOptions where
  attempts := maxAttempts
  backoffDelay := DEFAULT_INGEST_BACKOFF_MS
  jobId := ingestJobId
  removeOnComplete := { age := 3600, count := 1000 }
  removeOnFail := { age := 86400, count := 5000 }

/-- The error code of `markQueueEnqueueFailure`. -/
def QUEUE_ENQUEUE_FAILED : String := "QUEUE_ENQUEUE_FAILED"

/-- `markQueueEnqueueFailure` (lines 90–131); `none` when a row is missing,
    which makes `update` reject and the transaction roll back. -/
def markQueueEnqueueFailure (documentId documentVersionId ingestJobId : Id) (message : String)
    (finishedAt : Time) (db : Database) : Option Database :=
  if (db.jobs.get? ingestJobId).isSome ∧ (db.versions.get? documentVersionId).isSome ∧
      (db.documents.get? documentId).isSome then
    some { db with
      jobs := db.jobs.update ingestJobId (fun j => { j with
        status := .failed, errorCode := some QUEUE_ENQUEUE_FAILED, errorMessage := some message,
        retryable := true, finishedAt := some finishedAt, updatedAt := finishedAt }) fun _ => rfl
      versions := db.versions.update documentVersionId (fun v => { v with
        status := .failed, lastErrorCode := some QUEUE_ENQUEUE_FAILED,
        lastErrorMessage := some message, finishedAt := some finishedAt,
        updatedAt := finishedAt }) fun _ => rfl
      documents := db.documents.update documentId (fun d => { d with
        status := .failed, lastErrorCode := some QUEUE_ENQUEUE_FAILED,
        lastErrorMessage := some message, updatedAt := finishedAt }) fun _ => rfl }
  else none

/-! ## Deliveries of one job -/

/-- The states of a BullMQ job that the producer and the consumer tell apart. -/
inductive QueueState
  | waiting | completed | failed
deriving DecidableEq, Repr

/-- A job in the queue; `attemptsMade` counts the deliveries that failed. -/
structure QueueJob where
  payload : IngestJobPayload
  options : JobsOptions
  attemptsMade : ℕ := 0
  state : QueueState := .waiting
deriving DecidableEq, Repr

/-- What the queue does after a delivery. -/
def QueueJob.settle (q : QueueJob) (d : Delivery) : QueueJob :=
  match d with
  | .returned => { q with state := .completed }
  | .unrecoverable => { q with attemptsMade := q.attemptsMade + 1, state := .failed }
  | .exception =>
    if q.attemptsMade + 1 < q.options.attempts then { q with attemptsMade := q.attemptsMade + 1 }
    else { q with attemptsMade := q.attemptsMade + 1, state := .failed }

/-- How an attempt ended, by what the body of the `try` of `process` did. -/
inductive Outcome
  | success | retryable | nonRetryable | otherException
deriving DecidableEq, Repr

/-- The outcome of the body of the `try`. -/
def outcomeOf : Except Raised ℕ → Outcome
  | .ok _ => .success
  | .error (.ingestion e) => if e.retryable then .retryable else .nonRetryable
  | .error _ => .otherException

/-- The outcome of an attempt that is made on `db`. -/
def Pipeline.attemptOutcome (p : Pipeline) (payload : IngestJobPayload) (a : Attempt)
    (db : Database) : Option Outcome :=
  match p.statusManager.markJobActive payload a.startedAt db with
  | .error _ => none
  | .ok (ctx, active) => some (outcomeOf (p.work a ctx active).2)

/-- A job in the queue next to the database, with the number of deliveries made
    and the outcome of the last one. -/
structure QueueRun where
  db : Database
  job : QueueJob
  deliveries : ℕ := 0
  last : Option Outcome := none

/-- No transaction of the status manager fails; the stages and
    `persist_chunks` may. -/
def Attempt.FaultFree (a : Attempt) : Prop :=
  a.activateFault = none ∧ a.successFault = none ∧ a.failureFault = none

/-- The next delivery, if the queue will make one. -/
def queueStep (p : Pipeline) (r : QueueRun) (a : { a : Attempt // a.FaultFree }) :
    Option QueueRun :=
  if r.job.state = .waiting then
    let (db, delivery) := p.processJob r.job.payload a r.db
    some { db := db, job := r.job.settle delivery, deliveries := r.deliveries + 1,
           last := p.attemptOutcome r.job.payload a r.db }
  else none

/-- A job as the API queues it. -/
def enqueue (correlationId : Option String) (document : Document) (version : DocumentVersion)
    (storageBucket : String) (job : IngestJob) : QueueJob where
  payload := buildIngestQueuePayload correlationId document version storageBucket job
  options := buildIngestQueueOptions job.id job.maxAttempts

/-- The rows that the API has created for a job that it queues. -/
structure Created (db : Database) (document : Document) (version : DocumentVersion)
    (job : IngestJob) : Prop where
  job_row : db.jobs.get? job.id = some job
  version_row : db.versions.get? version.id = some version
  document_row : db.documents.get? document.id = some document
  job_version : job.documentVersionId = version.id
  version_document : version.documentId = document.id
  waiting : job.status = .waiting
  attempts : job.attempts = 0

/-! ## One delivery without faults -/

namespace Outcome

/-- Does the worker ask for another attempt? -/
def retried : Outcome → Bool
  | success | nonRetryable => false
  | retryable | otherException => true

/-- The status of a job that ended with this outcome. -/
def finalJobStatus : Outcome → IngestJobStatus
  | success => .completed
  | nonRetryable => .failed
  | retryable | otherException => .deadLetter

def finalVersionStatus : Outcome → DocumentVersionStatus
  | success => .indexed
  | nonRetryable | retryable | otherException => .failed

def finalDocumentStatus : Outcome → DocumentStatus
  | success => .indexed
  | nonRetryable | retryable | otherException => .failed

/-- What the queue sees of an attempt with this outcome. -/
def delivery : Outcome → Delivery
  | success => .returned
  | nonRetryable => .unrecoverable
  | retryable | otherException => .exception

end Outcome

/-- The transaction `f` ends an attempt with outcome `o`; `again` tells whether
    the job has an attempt left. -/
structure Ends (o : Outcome) (again : Bool) (f : Finish) : Prop where
  retry : o.retried = true → again = true → f.jobStatus = .waiting
  job : (o.retried = true → again = false) → f.jobStatus = o.finalJobStatus
  version : (o.retried = true → again = false) → f.versionStatus = o.finalVersionStatus
  document : (o.retried = true → again = false) → f.documentStatus = o.finalDocumentStatus

theorem ends_success (n : ℕ) (again : Bool) : Ends .success again (.success n) :=
  ⟨fun h => (Bool.noConfusion h), fun _ => rfl, fun _ => rfl, fun _ => rfl⟩

/-- An attempt that raised is retried exactly if the wrapped error is retryable. -/
theorem outcomeOf_error (raised : Raised) :
    raised.wrapped.retryable = true ∧ (outcomeOf (.error raised) = .retryable ∨
        outcomeOf (.error raised) = .otherException) ∨
      raised.wrapped.retryable = false ∧ outcomeOf (.error raised) = .nonRetryable := by
  cases raised with
  | ingestion e =>
    cases h : e.retryable with
    | true => exact Or.inl ⟨h, Or.inl (by simp [outcomeOf, h])⟩
    | false => exact Or.inr ⟨h, by simp [outcomeOf, h]⟩
  | postgres mentionsVector => exact Or.inl ⟨rfl, Or.inr rfl⟩
  | other => exact Or.inl ⟨rfl, Or.inr rfl⟩

/-- The transaction of `_handle_failure` suits the outcome. -/
theorem ends_failureFinish (raised : Raised) (ctx : JobContext) :
    Ends (outcomeOf (.error raised)) (decide (ctx.attemptNo < ctx.maxAttempts))
      (failureFinish ctx raised.wrapped) := by
  rcases outcomeOf_error raised with ⟨hretry, ho⟩ | ⟨hretry, ho⟩
  · have hretried : (outcomeOf (.error raised)).retried = true := by
      rcases ho with ho | ho <;> rw [ho] <;> rfl
    by_cases hleft : ctx.attemptNo < ctx.maxAttempts
    · -- an attempt is left: the job waits
      have hfinish : failureFinish ctx raised.wrapped = .retryWaiting raised.wrapped := by
        simp [failureFinish, hretry, hleft]
      have hagain : ¬ ((outcomeOf (.error raised)).retried = true →
          decide (ctx.attemptNo < ctx.maxAttempts) = false) := by
        simp [hretried, hleft]
      rw [hfinish]
      exact ⟨fun _ _ => rfl, fun h => absurd h hagain, fun h => absurd h hagain,
        fun h => absurd h hagain⟩
    · have hfinish : failureFinish ctx raised.wrapped = .failure raised.wrapped true := by
        simp [failureFinish, hretry, not_lt.mp hleft]
      have hover : ¬ decide (ctx.attemptNo < ctx.maxAttempts) = true := by simp [hleft]
      rw [hfinish]
      refine ⟨fun _ h => absurd h hover, fun _ => ?_, fun _ => ?_, fun _ => ?_⟩
      all_goals rcases ho with ho | ho <;> rw [ho] <;> rfl
  · have hfinish : failureFinish ctx raised.wrapped = .failure raised.wrapped false := by
      simp [failureFinish, hretry]
    rw [hfinish, ho]
    exact ⟨fun h => Bool.noConfusion h, fun _ => rfl, fun _ => rfl, fun _ => rfl⟩

/-- What the queue sees of an attempt that raised. -/
theorem delivery_outcomeOf_error (raised : Raised) :
    (outcomeOf (.error raised)).delivery =
      if raised.wrapped.retryable = true then .exception else .unrecoverable := by
  rcases outcomeOf_error raised with ⟨hretry, ho | ho⟩ | ⟨hretry, ho⟩ <;> rw [ho, hretry] <;> rfl

section Delivery

variable {p : Pipeline} {payload : IngestJobPayload} {a : Attempt} {db : Database}
  {j : IngestJob} {v : DocumentVersion} {d : Document}

/-- The body of the `try` and the handler after it run exactly one of the
    transactions that end a delivery, last. -/
theorem process_of_work (ha : a.FaultFree) {ctx : JobContext} {active : Database}
    (hactive : p.statusManager.markJobActive payload a.startedAt db = .ok (ctx, active))
    (hctx : ctx.attemptNo ≠ 0) :
    ∃ f last, Ends (outcomeOf (p.work a ctx active).2)
        (decide (ctx.attemptNo < ctx.maxAttempts)) f ∧
      (last = active ∨ ∃ chunks, p.indexer.persistTransaction ctx chunks a.newId a.persistedAt
        active = some last) ∧
      p.processJob payload a db = (p.statusManager.finish ctx f a.finishedAt last,
        (outcomeOf (p.work a ctx active).2).delivery) := by
  obtain ⟨hactivate, hsuccess, hfailure⟩ := ha
  rcases work_cases p a ctx active with
    ⟨raised, hwork⟩ | ⟨chunks, persisted, -, hpersist, ⟨raised, hraised, -⟩ | ⟨-, hwork⟩⟩
  · refine ⟨failureFinish ctx raised.wrapped, active, ?_, Or.inl rfl, ?_⟩
    · rw [hwork]
      exact ends_failureFinish raised ctx
    · simp only [Pipeline.processJob, Pipeline.process, hactivate, hactive, if_neg hctx, hwork,
        Pipeline.handleFailure, hfailure, delivery_outcomeOf_error]
  · rw [hsuccess] at hraised
    cases hraised
  · refine ⟨.success chunks.length, persisted, ?_, Or.inr ⟨chunks, hpersist⟩, ?_⟩
    · rw [hwork]
      exact ends_success _ _
    · simp only [Pipeline.processJob, Pipeline.process, hactivate, hactive, if_neg hctx, hwork]
      rfl

/-- A delivery without faults of a waiting job with an attempt left. -/
theorem processJob_of_rows (h : Rows db payload j v d) (hwaiting : j.status = .waiting)
    (hleft : j.attempts < j.maxAttempts) (ha : a.FaultFree) :
    ∃ o f j' v' d', p.attemptOutcome payload a db = some o ∧
      Ends o (decide (j.attempts + 1 < j.maxAttempts)) f ∧
      (p.processJob payload a db).2 = o.delivery ∧
      Rows (p.processJob payload a db).1 payload j' v' d' ∧ j'.status = f.jobStatus ∧
      j'.attempts = j.attempts + 1 ∧ j'.maxAttempts = j.maxAttempts ∧
      v'.status = f.versionStatus ∧ d'.status = f.documentStatus := by
  obtain ⟨job', hact⟩ := Option.isSome_iff_exists.mp
    ((@activate?_isSome a.startedAt j payload.correlationId).mpr hleft)
  obtain ⟨-, -, -, -, hattempts, hmax⟩ := activate?_spec hact
  have hactive : p.statusManager.markJobActive payload a.startedAt db =
      .ok (payload.context d.name (j.attempts + 1) j.maxAttempts,
        p.statusManager.activated payload job' a.startedAt db) :=
    markJobActive_of_open h.findJob (Or.inl hwaiting) hact
  have hrows := h.activated p.statusManager a.startedAt hact
  obtain ⟨f, last, hends, hlast, hprocess⟩ := process_of_work ha hactive (Nat.succ_ne_zero _)
  have hrows : Rows last payload job' (p.statusManager.activateVersion a.startedAt v)
      (activateDocument a.startedAt d) := by
    rcases hlast with rfl | ⟨chunks, hpersist⟩
    · exact hrows
    · exact hrows.persistTransaction hpersist
  obtain ⟨j', v', d', hrows, hjob, hattempts', hmax', hversion, hdocument⟩ :=
    hrows.finish p.statusManager (payload.context d.name (j.attempts + 1) j.maxAttempts)
      a.finishedAt rfl rfl rfl f
  refine ⟨_, f, j', v', d', ?_, hends, by rw [hprocess], by rw [hprocess]; exact hrows, hjob,
    by rw [hattempts', hattempts], by rw [hmax', hmax], hversion, hdocument⟩
  rw [Pipeline.attemptOutcome, hactive]

end Delivery

/-! ## Agreement -/

/-- Queue and database agree on the job: its row counts the deliveries and is
    `WAITING` exactly when the queue will deliver it again; when the queue has
    stopped, the three rows tell how the last attempt ended. -/
structure Agree (r : QueueRun) (j : IngestJob) (v : DocumentVersion) (d : Document) : Prop where
  rows : Rows r.db r.job.payload j v d
  attempts : j.attempts = r.deliveries
  waiting : j.status = .waiting ↔ r.job.state = .waiting
  stopped : r.job.state ≠ .waiting → ∃ o, r.last = some o ∧ j.status = o.finalJobStatus ∧
    v.status = o.finalVersionStatus ∧ d.status = o.finalDocumentStatus

/-- The two counters of a job that will be delivered again. -/
structure InStep (r : QueueRun) (j : IngestJob) : Prop where
  options : r.job.options.attempts = j.maxAttempts
  made : r.job.state = .waiting → r.job.attemptsMade = j.attempts
  left : r.job.state = .waiting → j.attempts < j.maxAttempts

@[simp] theorem payload_settle (q : QueueJob) (d : Delivery) : (q.settle d).payload = q.payload := by
  unfold QueueJob.settle
  cases d with
  | returned => rfl
  | unrecoverable => rfl
  | exception => simp only; split_ifs <;> rfl

@[simp] theorem options_settle (q : QueueJob) (d : Delivery) : (q.settle d).options = q.options := by
  unfold QueueJob.settle
  cases d with
  | returned => rfl
  | unrecoverable => rfl
  | exception => simp only; split_ifs <;> rfl

/-- The queue redelivers if the worker asks for it and an attempt is left. -/
theorem state_settle (q : QueueJob) (o : Outcome) (hq : q.state = .waiting) :
    (q.settle o.delivery).state = .waiting ↔
      o.retried = true ∧ q.attemptsMade + 1 < q.options.attempts := by
  unfold QueueJob.settle
  cases o <;> simp only [Outcome.delivery, Outcome.retried]
  all_goals
    try split_ifs with h
    all_goals simp_all

theorem attemptsMade_settle (q : QueueJob) (o : Outcome) (ho : o.retried = true) :
    (q.settle o.delivery).attemptsMade = q.attemptsMade + 1 := by
  unfold QueueJob.settle
  cases o <;> simp only [Outcome.delivery, Outcome.retried] at ho ⊢
  all_goals
    first
      | contradiction
      | split_ifs <;> rfl

theorem queueStep_eq_some {p : Pipeline} {r r' : QueueRun} {a : { a : Attempt // a.FaultFree }}
    (h : queueStep p r a = some r') :
    r.job.state = .waiting ∧
      r' = { db := (p.processJob r.job.payload a r.db).1
             job := r.job.settle (p.processJob r.job.payload a r.db).2
             deliveries := r.deliveries + 1
             last := p.attemptOutcome r.job.payload a r.db } := by
  unfold queueStep at h
  split_ifs at h with hstate
  exact ⟨hstate, (Option.some.inj h).symm⟩

/-- Step lemma: a delivery keeps the agreement. -/
theorem agree_queueStep {p : Pipeline} {r r' : QueueRun} {a : { a : Attempt // a.FaultFree }}
    (h : ∃ j v d, Agree r j v d ∧ InStep r j) (hs : queueStep p r a = some r') :
    ∃ j v d, Agree r' j v d ∧ InStep r' j := by
  obtain ⟨j, v, d, hagree, hstep⟩ := h
  obtain ⟨hstate, rfl⟩ := queueStep_eq_some hs
  have hleft := hstep.left hstate
  have hmade := hstep.made hstate
  obtain ⟨o, f, j', v', d', hlast, hends, hdelivery, hrows, hjob, hattempts, hmax, hversion,
    hdocument⟩ := @processJob_of_rows p _ _ _ _ _ _ hagree.rows (hagree.waiting.mpr hstate) hleft a.2
  have hagain : (r.job.settle o.delivery).state = .waiting ↔
      o.retried = true ∧ decide (j.attempts + 1 < j.maxAttempts) = true := by
    rw [state_settle _ _ hstate, hmade, hstep.options, decide_eq_true_iff]
  refine ⟨j', v', d', ⟨?_, ?_, ?_, ?_⟩, ⟨?_, ?_, ?_⟩⟩
  · simpa only [payload_settle] using hrows
  · rw [hattempts, hagree.attempts]
  · simp only [hdelivery, hagain, hjob]
    by_cases hagain' : o.retried = true → decide (j.attempts + 1 < j.maxAttempts) = false
    · -- the job is over: no final status is `WAITING`
      have hfinal : o.finalJobStatus ≠ .waiting := by cases o <;> simp [Outcome.finalJobStatus]
      rw [hends.job hagain']
      apply iff_of_false hfinal
      rintro ⟨hr, hl⟩
      rw [hagain' hr] at hl
      cases hl
    · push Not at hagain'
      obtain ⟨hr, hl⟩ := hagain'
      have hl : decide (j.attempts + 1 < j.maxAttempts) = true := by simpa using hl
      exact iff_of_true (hends.retry hr hl) ⟨hr, hl⟩
  · simp only [hdelivery, ne_eq, hagain]
    intro hover
    have hover : o.retried = true → decide (j.attempts + 1 < j.maxAttempts) = false := by
      intro hr
      rw [Bool.eq_false_iff]
      exact fun hl => hover ⟨hr, hl⟩
    exact ⟨o, hlast, by rw [hjob, hends.job hover], by rw [hversion, hends.version hover],
      by rw [hdocument, hends.document hover]⟩
  · simp only [options_settle, hstep.options, hmax]
  · simp only [hdelivery, hagain]
    rintro ⟨hr, -⟩
    rw [attemptsMade_settle _ _ hr, hmade, hattempts]
  · simp only [hdelivery, hagain, decide_eq_true_eq]
    rintro ⟨-, hl⟩
    omega

/-- Queue and database agree after every delivery, whatever the attempts meet. -/
theorem queue_agrees_with_status (p : Pipeline) {db : Database} {document : Document}
    {version : DocumentVersion} {job : IngestJob} (h : Created db document version job)
    (correlationId : Option String) (storageBucket : String)
    (attempts : List { a : Attempt // a.FaultFree }) :
    Always (queueStep p) (fun r => ∃ j v d, Agree r j v d)
      { db := db, job := enqueue correlationId document version storageBucket job } attempts := by
  have hstart : ∃ j v d, Agree
        { db := db, job := enqueue correlationId document version storageBucket job } j v d ∧
      InStep { db := db, job := enqueue correlationId document version storageBucket job } j := by
    refine ⟨job, version, document, ⟨?_, h.attempts, ?_, ?_⟩, ⟨rfl, fun _ => h.attempts.symm, ?_⟩⟩
    · exact ⟨h.job_row, h.version_row, h.document_row, h.job_version, h.version_document⟩
    · exact iff_of_true h.waiting rfl
    · exact fun hne => absurd rfl hne
    · intro _
      rw [h.attempts]
      exact job.maxAttempts_pos
  refine Always.mono ?_ (always_of_inv (fun r a r' => agree_queueStep) attempts hstart)
  rintro r ⟨j, v, d, hagree, -⟩
  exact ⟨j, v, d, hagree⟩

/-- A delivery whose fetch fails with an exception of the storage client. -/
def fetchFails : { a : Attempt // a.FaultFree } :=
  ⟨{ parsed := .error .other }, rfl, rfl, rfl⟩

theorem queue_agrees_with_status_manual :
    Always (queueStep manualPipeline) (fun r => ∃ j v d, Agree r j v d)
      { db := manualDatabase
        job := enqueue none manualDocument manualVersion "documents" manualJob }
      [fetchFails, ⟨manualAttempt, rfl, rfl, rfl⟩] :=
  queue_agrees_with_status manualPipeline
    (by constructor <;> decide : Created manualDatabase manualDocument manualVersion manualJob)
    none "documents" [fetchFails, ⟨manualAttempt, rfl, rfl, rfl⟩]

end RagStack.Ingest
