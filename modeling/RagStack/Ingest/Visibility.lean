import RagStack.Ingest.OpenJobs
import RagStack.Retrieval.Candidates

/-!
# Search while a version is ingested again

The creating transaction of `reindexDocument` and of `retryIngestJob` takes the
document out of `INDEXED`, and only a `mark_success` puts it back. The queries
of the retrieval admit chunks of `INDEXED` documents only.

* `hidden_until_success`: from the creating transaction on no chunk of the
  document is a candidate of any query, whatever fails, until the new job is
  `COMPLETED`; the active chunks are still there until a `persist_chunks` commits.
-/

namespace RagStack.Ingest

open RagStack.Common RagStack.Worker RagStack.Retrieval

/-! ## Deliveries of the new job -/

/-- The document is `INDEXED` only if the job is `COMPLETED`, and no active chunk
    has changed unless a `persist_chunks` has committed. -/
structure Outstanding (before : Database) (payload : IngestJobPayload) (s : Store) : Prop where
  status : ∃ j, s.db.jobs.get? payload.ingestJobId = some j ∧ (j.status ≠ .completed →
    ∀ d, s.db.documents.get? payload.documentId = some d → d.status ≠ .indexed)
  chunks : (∀ w n, Commit.persist w n ∉ s.log) → ∀ w, s.db.activeChunks w = before.activeChunks w

/-- The delivery in the slot is one of the payload. -/
def OfPayload (payload : IngestJobPayload) (slot : Slot) : Prop :=
  ∀ ctx, slot.phase.ctx? = some ctx →
    ctx.ingestJobId = payload.ingestJobId ∧ ctx.documentId = payload.documentId

section Steps

variable {p : Pipeline} {payload : IngestJobPayload} {before : Database} {s s' : Store}
  {slot slot' : Slot} {e : DeliveryEvent}

theorem OfPayload.step (h : OfPayload payload slot)
    (hs : DeliveryCase p payload s slot e s' slot') : OfPayload payload slot' := by
  cases hs with
  | rest idle => exact nofun
  | cut cutOff => exact nofun
  | finish ends => exact nofun
  | stages working done => exact fun ctx hctx => h ctx (by rw [← hctx, working]; rfl)
  | raise error running notCut noFinish => exact fun ctx hctx => h ctx (by rw [← hctx, running]; rfl)
  | persist ready commits => exact fun ctx hctx => h ctx (by rw [← hctx, ready]; rfl)
  | activate idle found isOpen activated =>
    intro ctx hctx
    cases hctx
    exact ⟨rfl, rfl⟩

/-- Step lemma for the deliveries of one job. -/
theorem Outstanding.step (h : Outstanding before payload s) (hslot : OfPayload payload slot)
    (hs : DeliveryCase p payload s slot e s' slot') : Outstanding before payload s' := by
  cases hs with
  | rest idle => exact h
  | cut cutOff => exact h
  | stages working done => exact h
  | raise error running notCut noFinish => exact h
  | activate idle found isOpen activated =>
    obtain ⟨hrow, hid⟩ := id_activated found activated
    refine ⟨⟨_, hid ▸ get?_jobs_activated hrow, fun _ d hd => ?_⟩, fun hno => ?_⟩
    · rw [status_documents_activated hd]
      decide
    · exact h.chunks fun w n hmem => hno w n (List.mem_append_left _ hmem)
  | @persist a ctx chunks persisted ready commits =>
    obtain ⟨hjobs, -, hdocuments, -⟩ := persistTransaction_frame commits
    refine ⟨by rw [hjobs, hdocuments]; exact h.status, fun hno => ?_⟩
    exact absurd (List.mem_append_right _ (by simp)) (hno ctx.documentVersionId chunks.length)
  | @finish a ctx f ends =>
    obtain ⟨hjob, hdocument⟩ := hslot ctx (ctx_of_finish ends)
    obtain ⟨j, hj, -⟩ := h.status
    obtain ⟨j', hj', -, hstatus, -⟩ :=
      @get?_jobs_finish p.statusManager ctx a.finishedAt s.db f j (hjob ▸ hj)
    refine ⟨⟨j', hjob ▸ hj', fun hne d hd hindexed => ?_⟩, fun hno w => ?_⟩
    · rw [← hdocument] at hd
      rw [status_documents_finish f hd, documentStatus_eq_indexed, ← hstatus] at hindexed
      exact hne hindexed
    · rw [activeChunks_finish]
      exact h.chunks (fun w n hmem => hno w n (List.mem_append_left _ hmem)) w

end Steps

/-- Run lemma: any number of workers deliver the job, in any order. -/
theorem outstanding_run {ι : Type} [DecidableEq ι] (worker : ι → Pipeline)
    {payload : IngestJobPayload} {before db : Database}
    (h : Outstanding before payload { db := db }) (es : List (ι × DeliveryEvent)) :
    Always (deliveries worker fun _ => payload) (fun s => Outstanding before payload s.1)
      (allIdle ι db) es := by
  refine Always.mono (fun s hs => hs.1) (always_of_inv
    (I := fun s : Store × (ι → Slot) => Outstanding before payload s.1 ∧
      ∀ k, OfPayload payload (s.2 k)) ?_ es ⟨h, fun _ => nofun⟩)
  rintro s ie s' ⟨hout, hslots⟩ hs
  obtain ⟨store, slot', hstep, rfl⟩ := interleave_eq_some.mp hs
  refine ⟨hout.step (hslots ie.1) (deliveryStep_cases hstep), ?_⟩
  apply interleave_inv hs (J := fun _ slot => OfPayload payload slot)
  · intro slot' hstep
    exact (hslots ie.1).step (deliveryStep_cases hstep)
  · exact fun _ _ k _ => hslots k

/-! ## After the request -/

section Requests

variable {api : Api} {r : Request} {target : Target} {io : RequestIO} {db created : Database}
  {refreshed : Refreshed}

theorem id_refreshed (h : target.create api r io db = some (created, refreshed)) :
    refreshed.document.id = target.document.id := by
  obtain ⟨document, version, jobs, hdocument, -, rfl, -, -⟩ := createJob_eq_some (create_eq_some h)
  exact (Table.key_of_get? hdocument : document.id = target.document.id)

/-- What the creating transaction leaves. -/
theorem status_create (h : target.create api r io db = some (created, refreshed)) :
    created.jobs.get? refreshed.ingestJob.id = some refreshed.ingestJob ∧
      (∀ d, created.documents.get? target.document.id = some d → d.status = .queued) ∧
      ∀ w, created.activeChunks w = db.activeChunks w := by
  obtain ⟨document, version, jobs, -, -, rfl, hinsert, rfl⟩ := createJob_eq_some (create_eq_some h)
  refine ⟨Table.get?_insert?_self hinsert, fun d hd => ?_, fun w => rfl⟩
  simp only [Table.get?_update_self] at hd
  obtain ⟨d₀, -, rfl⟩ := Option.map_eq_some_iff.mp hd
  rfl

/-- A failing `queue.add`, whether or not `markQueueEnqueueFailure` commits. -/
theorem hidden_of_enqueueFailed (h : target.create api r io db = some (created, refreshed))
    {io' : RequestIO} {after : Database} {state : RequestState}
    (hs : requestStep api r created (.enqueueFailed refreshed) io' = some (after, state)) :
    Hidden after target.document.id ∧ ∀ w, after.activeChunks w = db.activeChunks w := by
  obtain ⟨-, hstatus, hchunks⟩ := status_create h
  cases requestStep_cases hs with
  | quiet notCreating =>
    refine ⟨hidden_of_status fun d hd => ?_, hchunks⟩
    rw [hstatus d hd]
    decide
  | create passed commits => cases passed
  | enqueueFailure failed commits =>
    cases failed
    obtain ⟨-, -, hfailed, hsame⟩ := markQueueEnqueueFailure_eq_some commits
    refine ⟨hidden_of_status fun d hd => ?_, fun w => ?_⟩
    · rw [hfailed d (id_refreshed h ▸ hd)]
      decide
    · rw [← hchunks w, Database.activeChunks, Database.activeChunks, Database.chunkRows,
        Database.chunkRows, hsame]

/-- After the creating transaction of `reindexDocument` or `retryIngestJob` no
    chunk of the document is a candidate of any query: not when `queue.add` fails,
    and, when the job is queued, not in any state of any run of its deliveries in
    which the job is not `COMPLETED`. The active chunks are those before the
    request as long as no `persist_chunks` commits. -/
theorem hidden_until_success {ι : Type} [DecidableEq ι] (worker : ι → Pipeline)
    (h : target.create api r io db = some (created, refreshed)) (io' : RequestIO) :
    (∀ after state,
      requestStep api r created (.enqueueFailed refreshed) io' = some (after, state) →
        Hidden after target.document.id ∧ ∀ w, after.activeChunks w = db.activeChunks w) ∧
    ∀ queued, requestStep api r created (.created target refreshed) io' =
        some (created, .enqueued queued) →
      ∀ es : List (ι × DeliveryEvent), Always (deliveries worker fun _ => queued.payload)
        (fun s => (∀ j, s.1.db.jobs.get? refreshed.ingestJob.id = some j → j.status ≠ .completed →
            Hidden s.1.db target.document.id) ∧
          ((∀ w n, Commit.persist w n ∉ s.1.log) →
            ∀ w, s.1.db.activeChunks w = db.activeChunks w))
        (allIdle ι created) es := by
  refine ⟨fun after state hs => hidden_of_enqueueFailed h hs, fun queued hqueue es => ?_⟩
  obtain ⟨hjob, hstatus, hchunks⟩ := status_create h
  have hpayload : queued.payload.ingestJobId = refreshed.ingestJob.id ∧
      queued.payload.documentId = target.document.id := by
    simp only [requestStep] at hqueue
    split_ifs at hqueue
    · cases (Prod.mk.inj (Option.some.inj hqueue)).2
    · rw [← RequestState.enqueued.inj (Prod.mk.inj (Option.some.inj hqueue)).2]
      exact ⟨rfl, id_refreshed h⟩
  have hstart : Outstanding db queued.payload { db := created } := by
    refine ⟨⟨_, by rw [hpayload.1]; exact hjob, fun _ d hd => ?_⟩, fun _ => hchunks⟩
    rw [hpayload.2] at hd
    rw [hstatus d hd]
    decide
  refine Always.mono (fun s hs => ⟨fun j hj hne => ?_, hs.chunks⟩) (outstanding_run worker hstart es)
  obtain ⟨j', hj', hhidden⟩ := hs.status
  rw [hpayload.1, hj] at hj'
  cases hj'
  rw [hpayload.2] at hhidden
  exact hidden_of_status (hhidden hne)

end Requests

/-! ## A reindex whose `queue.add` fails -/

/-- An API without embeddings. -/
def manualApi : Api :=
  { openAiEmbeddingsAvailable := false, ingestMaxAttempts := none, s3Bucket := "documents" }

/-- What a reindex of the document of `indexedDatabase` reads. -/
def manualTarget : Target where
  document := { manualDocument with status := .indexed, indexedAt := some 0 }
  version := { manualVersion with
    status := .indexed, vectorizationStatus := .disabled, chunkCount := 1, startedAt := some 0,
    finishedAt := some 0, indexedAt := some 0 }
  maxAttempts := 3
  maxAttempts_pos := Nat.succ_pos 2

theorem hidden_until_success_manual :
    ∃ created refreshed, manualTarget.create manualApi (.reindexDocument 1 none) { newJobId := 2 }
        indexedDatabase = some (created, refreshed) ∧
      (∀ after state, requestStep manualApi (.reindexDocument 1 none) created
          (.enqueueFailed refreshed) {} = some (after, state) →
        Hidden after 1 ∧ ∀ w, after.activeChunks w = indexedDatabase.activeChunks w) ∧
      ∀ queued, requestStep manualApi (.reindexDocument 1 none) created
          (.created manualTarget refreshed) {} = some (created, .enqueued queued) →
        ∀ es : List (Bool × DeliveryEvent),
          Always (deliveries (fun _ => manualPipeline) fun _ => queued.payload)
            (fun s => (∀ j, s.1.db.jobs.get? refreshed.ingestJob.id = some j →
                j.status ≠ .completed → Hidden s.1.db 1) ∧
              ((∀ w n, Commit.persist w n ∉ s.1.log) →
                ∀ w, s.1.db.activeChunks w = indexedDatabase.activeChunks w))
            (allIdle Bool created) es := by
  obtain ⟨⟨created, refreshed⟩, h⟩ := Option.isSome_iff_exists.mp
    (by decide +kernel : (manualTarget.create manualApi (.reindexDocument 1 none) { newJobId := 2 }
      indexedDatabase).isSome = true)
  exact ⟨created, refreshed, h, hidden_until_success (fun _ => manualPipeline) h {}⟩

/-- A term of the query is a prefix of a word of the text. -/
def prefixMatch (document : Text) (query : String) : Bool :=
  (splitWords (document.map Char.toLower)).any fun word =>
    (query.toList.takeWhile fun c => c ≠ ':').isPrefixOf word

/-- Before the request the query finds the chunk of the document, and not after
    the request has failed. -/
theorem search_loses_document :
    ¬ ∀ ios after error,
      exec (fun (c : Database × RequestState) io =>
          requestStep manualApi (.reindexDocument 1 none) c.1 c.2 io)
        (indexedDatabase, .start) ios = some (after, .failed error) →
      lexicalCandidates ⟨id, prefixMatch⟩ after ⟨1, 1, false, {}⟩ "restart:*" =
        lexicalCandidates ⟨id, prefixMatch⟩ indexedDatabase ⟨1, 1, false, {}⟩ "restart:*" := by
  intro hall
  let ios : List RequestIO := [{}, {}, { newJobId := 2 }, { queueFails := true }, {}]
  let found := fun db => lexicalCandidates ⟨id, prefixMatch⟩ db ⟨1, 1, false, {}⟩ "restart:*"
  have hbefore : (found indexedDatabase).length = 1 := by decide +kernel
  have hrun : (exec (fun (c : Database × RequestState) io =>
      requestStep manualApi (.reindexDocument 1 none) c.1 c.2 io) (indexedDatabase, .start)
      ios).map (fun c => (c.2.error?, (found c.1).length)) =
      some (some (.internal "Failed to enqueue ingest job"), 0) := by decide +kernel
  obtain ⟨⟨after, state⟩, hexec, hrow⟩ := Option.map_eq_some_iff.mp hrun
  obtain ⟨herror, hafter⟩ := Prod.mk.inj hrow
  obtain rfl := error?_eq_some.mp herror
  have hsame := congrArg List.length (hall ios after _ hexec)
  rw [show (lexicalCandidates _ after _ _).length = 0 from hafter,
    show (lexicalCandidates _ indexedDatabase _ _).length = 1 from hbefore] at hsame
  cases hsame

end RagStack.Ingest
