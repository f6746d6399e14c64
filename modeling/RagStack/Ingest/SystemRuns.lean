import RagStack.Ingest.SystemWrites

/-!
# Runs of the ingest system

* `sound_run`: the invariant holds in every state of every run of the system.
* `documents_mirror_versions`: a document row says what its version row says.
* `tenants_apart`: chunks, queued jobs and running deliveries stay in the knowledge
  base of their document.
* `fetch_finds_upload`: a delivery fetches what was uploaded.
-/

namespace RagStack.Ingest

open RagStack.Common RagStack.Worker RagStack.Documents

/-! ## Steps -/

section Steps

variable {names : Names} {w w' : World}

/-- The state after a step, and what the actor relies on. -/
structure StepOk (names : Names) (w w' : World) (relies : Prop) : Prop where
  sound : Sound names w'
  grows : Grows names w w'
  relies : relies

theorem StepOk.quiet {relies : Prop} (hw : Sound names w) (h : relies) :
    StepOk names w w relies :=
  ⟨hw, .refl names w, h⟩

theorem uploadOk_step {api : UploadApi} {r : UploadRequest} {state state' : UploadState}
    {io : UploadIO} (hw : Sound names w) (h : UploadOk names api r w state)
    (hs : uploadStep names api r w state io = some (w', state')) :
    StepOk names w w' (UploadOk names api r w' state') := by
  cases uploadStep_cases hs with
  | quiet bare => exact .quiet hw (.of_bare bare)
  | @put upload name state' checked next =>
    refine ⟨sound_putObject hw _ _ _ _, grows_putObject _ _ _ _ _ _, ?_⟩
    rcases next with rfl | bare
    · exact held_putObject_self _ _ _ _ _ _
    · exact .of_bare bare
  | create stored commits =>
    subst stored
    obtain ⟨hinserts, hkey⟩ := inserts_create commits
    have hheld : Held names w api.s3Bucket _ (names.sha256Hex r.file.buffer) := h
    rw [← hkey] at hheld
    exact ⟨sound_addDocument hw hinserts hheld, grows_addDocument names hinserts _,
      refreshedOk_addDocument hinserts _⟩
  | @add refreshed state' created next =>
    subst created
    obtain ⟨bucket, hbucket, hbelongs⟩ : RefreshedOk w refreshed := h
    have href : (r.queueJob api.toApi refreshed).payload.ref = refreshed.ref bucket := by
      rw [UploadRequest.queueJob, hbucket]
      rfl
    refine ⟨sound_addJob hw (href ▸ hbelongs), grows_addJob _ _ _, ?_⟩
    rcases next with rfl | bare
    · exact RefreshedOk.mono (grows_addJob names w _) ⟨bucket, hbucket, hbelongs⟩
    · exact .of_bare bare
  | @lost refreshed created =>
    subst created
    exact .quiet hw (h : RefreshedOk w refreshed)
  | @enqueueFailure refreshed now db state' failed bare commits =>
    subst failed
    obtain ⟨bucket, -, hbelongs⟩ : RefreshedOk w refreshed := h
    have hwrite := statusWrite_enqueueFailure commits
    exact ⟨hwrite.sound hw ⟨_, hbelongs.version, rfl⟩, hwrite.grows names, .of_bare bare⟩

theorem targetOk_readDocument {api : Api} {documentId : Id} {refused : Option RequestError}
    {target : Target} (h : readDocument api w.db documentId refused = .ok target) :
    TargetOk w target := by
  unfold readDocument at h
  split at h
  · cases h
  · split at h
    · cases h
    · split at h
      · cases h
      · rename_i document _ version hlatest
        cases h
        have hmem := List.argmax_mem (Option.mem_def.mpr hlatest)
        obtain ⟨hrow, hdocument⟩ := List.mem_filter.mp hmem
        exact ⟨_, originOf_of_get? (w.db.versions.get?_of_mem hrow), of_decide_eq_true hdocument,
          rfl⟩

theorem targetOk_readJob {jobId : Id} {refused : Option RequestError} {target : Target}
    (h : readJob w.db jobId refused = .ok target) : TargetOk w target := by
  unfold readJob at h
  split at h
  · cases h
  · split at h
    · cases h
    · split at h
      · cases h
      · rename_i version hversion
        split at h
        · cases h
        · rename_i document hdocument
          split_ifs at h
          cases h
          have hid : version.id = _ := Table.key_of_get? hversion
          refine ⟨_, originOf_of_get? (hid ▸ hversion), ?_, rfl⟩
          exact (Table.key_of_get? hdocument).symm

theorem requestOk_guardStep {r : Request} {target : Target} (h : TargetOk w target) :
    RequestOk w (guardStep r w.db target) := by
  unfold guardStep
  split
  · trivial
  · exact h

/-- The payload of a request names the object of its version, whichever read of the
    key it takes. -/
theorem belongs_queueJob (api : Api) (r : Request) {target : Target} {refreshed : Refreshed}
    (h : RequestOk w (.created target refreshed)) :
    Belongs w.db (r.queueJob api target refreshed).payload.ref := by
  obtain ⟨⟨o, ho, -, hkey⟩, ⟨bucket, hbucket, hbelongs⟩, hid⟩ := h
  have hversion := hbelongs.version
  simp only [Refreshed.ref, hid] at hversion
  have hsame : refreshed.version.s3Key = target.version.s3Key := by
    rw [← hkey, ← Option.some.inj (hversion.symm.trans ho)]
  have href : (r.queueJob api target refreshed).payload.ref = refreshed.ref bucket := by
    cases r with
    | reindexDocument documentId correlationId =>
      simp [Request.queueJob, enqueue, buildIngestQueuePayload, IngestJobPayload.ref,
        Refreshed.ref, Request.bucket, Request.s3Key, hbucket]
    | retryIngestJob jobId correlationId =>
      simp [Request.queueJob, enqueue, buildIngestQueuePayload, IngestJobPayload.ref,
        Refreshed.ref, Request.bucket, Request.s3Key, hbucket, hsame]
  rw [href]
  exact hbelongs

theorem requestOk_step {api : Api} {r : Request} {state state' : RequestState} {io : RequestIO}
    {lands : Bool} {db : Database} (hw : Sound names w) (h : RequestOk w state)
    (hs : requestStep api r w.db state io = some (db, state')) :
    StepOk names w (requestQueue api r state io lands (w.withDb db))
      (RequestOk (requestQueue api r state io lands (w.withDb db)) state') := by
  cases state with
  | start =>
    cases r with
    | reindexDocument documentId correlationId =>
      simp only [requestStep] at hs
      split at hs
      · cases hs; exact .quiet hw trivial
      · rename_i hread
        cases hs; exact .quiet hw (targetOk_readDocument hread)
    | retryIngestJob jobId correlationId =>
      simp only [requestStep] at hs
      split at hs
      · cases hs; exact .quiet hw trivial
      · rename_i hread
        cases hs; exact .quiet hw (targetOk_readJob hread)
  | found target =>
    cases r with
    | reindexDocument documentId correlationId =>
      simp only [requestStep] at hs
      cases hs; exact .quiet hw (requestOk_guardStep h)
    | retryIngestJob jobId correlationId =>
      simp only [requestStep] at hs
      split_ifs at hs
      · cases hs; exact .quiet hw h
      · cases hs; exact .quiet hw trivial
  | latest target =>
    simp only [requestStep] at hs
    cases hs; exact .quiet hw (requestOk_guardStep h)
  | passed target =>
    simp only [requestStep] at hs
    split at hs
    · cases hs; exact .quiet hw trivial
    · rename_i hcommit
      cases hs
      have htarget : TargetOk w target := h
      obtain ⟨o, ho, hdocument, -⟩ := htarget
      have hwrite := statusWrite_createJob (create_eq_some hcommit)
      obtain ⟨hrefreshed, hid⟩ := refreshedOk_createJob hw h hcommit
      exact ⟨hwrite.sound hw ⟨o, ho, hdocument⟩, hwrite.grows names,
        TargetOk.mono (hwrite.grows names) h, hrefreshed, hid⟩
  | created target refreshed =>
    have hadd := belongs_queueJob api r h
    simp only [requestStep] at hs
    split_ifs at hs with hfails
    · cases hs
      simp only [requestQueue, hfails, true_and]
      split_ifs
      · exact .quiet hw h.2.1
      · exact ⟨sound_addJob hw hadd, grows_addJob names w _,
          h.2.1.mono (grows_addJob names w _)⟩
    · cases hs
      simp only [requestQueue, hfails, Bool.false_eq_true, false_and, if_false]
      exact ⟨sound_addJob hw hadd, grows_addJob names w _, trivial⟩
  | enqueueFailed refreshed =>
    simp only [requestStep] at hs
    split_ifs at hs
    · cases hs; exact .quiet hw trivial
    · split at hs
      · cases hs; exact .quiet hw trivial
      · rename_i hcommit
        cases hs
        obtain ⟨bucket, -, hbelongs⟩ : RefreshedOk w refreshed := h
        have hwrite := statusWrite_enqueueFailure hcommit
        exact ⟨hwrite.sound hw ⟨_, hbelongs.version, rfl⟩, hwrite.grows names, trivial⟩
  | enqueued job => simp [requestStep] at hs
  | failed error => simp [requestStep] at hs

/-- A delivery of a queued job, or of the job that its slot runs. -/
theorem workerOk_step {p : Pipeline} {payload : IngestJobPayload} {slot slot' : Slot} {s : Store}
    {e : DeliveryEvent} (hw : Sound names w) (hpayload : Belongs w.db payload.ref)
    (h : ∀ ctx, slot.phase.ctx? = some ctx → Belongs w.db ctx.ref)
    (hs : deliveryStep p payload w.store slot e = some (s, slot')) :
    StepOk names w { w with store := s }
      (∀ ctx, slot'.phase.ctx? = some ctx → Belongs s.db ctx.ref) := by
  cases deliveryStep_cases hs with
  | rest idle => exact .quiet hw nofun
  | stages working done =>
    exact .quiet hw fun ctx hctx => h ctx (by rw [← hctx, working]; rfl)
  | raise error running notCut noFinish =>
    exact .quiet hw fun ctx hctx => h ctx (by rw [← hctx, running]; rfl)
  | cut cutOff => exact .quiet hw nofun
  | activate idle found isOpen activated =>
    obtain ⟨hrow, -⟩ := id_activated found activated
    have hwrite := statusWrite_activated p.statusManager payload hrow activated
    have hgrows := hwrite.grows names
    refine ⟨sound_withStore (hwrite.sound hw ⟨_, hpayload.version, rfl⟩), grows_withStore hgrows, ?_⟩
    intro ctx hctx
    cases hctx
    exact hpayload.mono hgrows
  | @persist a ctx chunks persisted ready commits =>
    have hctx := h ctx (by rw [ready]; rfl)
    obtain ⟨hjobs, hversions, hdocuments, -⟩ := persistTransaction_frame commits
    have hgrows : Grows names w (w.withDb persisted) :=
      grows_of_frame hjobs hversions hdocuments
    refine ⟨sound_withStore (sound_persist hw hctx commits), grows_withStore hgrows, ?_⟩
    intro ctx' hctx'
    cases hctx'
    exact hctx.mono hgrows
  | @finish a ctx f ends =>
    have hctx := h ctx (ctx_of_finish ends)
    have hwrite := statusWrite_finish p.statusManager ctx f a.finishedAt w.db
    exact ⟨sound_withStore (hwrite.sound hw ⟨_, hctx.version, rfl⟩),
      grows_withStore (hwrite.grows names), nofun⟩

theorem actorOk_step {actor : Actor} {l l' : ActorState} {e : ActorEvent} (hw : Sound names w)
    (h : ActorOk names actor w l) (hs : actorStep names actor w l e = some (w', l')) :
    StepOk names w w' (ActorOk names actor w' l') := by
  unfold actorStep at hs
  split at hs
  · obtain ⟨⟨w₁, state'⟩, hstep, heq⟩ := Option.map_eq_some_iff.mp hs
    cases heq
    exact uploadOk_step hw h hstep
  · obtain ⟨⟨db, state'⟩, hstep, heq⟩ := Option.map_eq_some_iff.mp hs
    cases heq
    exact requestOk_step hw h hstep
  · split at hs
    · cases hs
    · rename_i queued hqueued
      obtain ⟨⟨s, slot'⟩, hstep, heq⟩ := Option.map_eq_some_iff.mp hs
      cases heq
      exact workerOk_step hw (hw.queued queued (List.mem_of_getElem? hqueued)) h hstep
  · cases hs
    exact ⟨sound_of_frame hw rfl rfl rfl hw.chunks, grows_of_frame rfl rfl rfl, trivial⟩
  · cases hs

end Steps

/-! ## Runs -/

section Runs

variable {ι : Type}

/-- A deployment without documents, in which no actor has begun. -/
def deployed (actor : ι → Actor) (knowledgeBases : Table KnowledgeBase KnowledgeBase.id)
    (members : Table KbMember KbMember.key) : World × (ι → ActorState) :=
  ({ store :=
      { db :=
          { jobs := .empty, versions := .empty, documents := .empty
            chunks := { table := .empty, active_nodup := List.nodup_nil }
            knowledgeBases := knowledgeBases, members := members } } },
    fun i => (actor i).start)

variable (names : Names) (actor : ι → Actor)
  (knowledgeBases : Table KnowledgeBase KnowledgeBase.id) (members : Table KbMember KbMember.key)

theorem actorOk_start (actor : Actor) (w : World) : ActorOk names actor w actor.start := by
  cases actor with
  | upload api r => trivial
  | request api r => trivial
  | worker p => exact nofun
  | others => trivial

theorem sound_deployed : Sound names (deployed actor knowledgeBases members).1 where
  mirrored := by
    intro t v hv
    cases hv
  single := by
    intro s t o p ho
    cases ho
  stored := by
    intro t o ho
    cases ho
  chunks := by
    intro c hc
    cases hc
  queued := by
    intro job hjob
    cases hjob

/-- The actors `i : ι` of a deployment. -/
def system [DecidableEq ι] :
    World × (ι → ActorState) → ι × ActorEvent → Option (World × (ι → ActorState)) :=
  interleave fun i => actorStep names (actor i)

variable [DecidableEq ι] (es : List (ι × ActorEvent))

/-- The invariant holds in every state of every run. -/
theorem sound_run :
    Always (system names actor)
      (fun s => Sound names s.1 ∧ ∀ i, ActorOk names (actor i) s.1 (s.2 i))
      (deployed actor knowledgeBases members) es := by
  refine always_of_inv ?_ es
    ⟨sound_deployed names actor knowledgeBases members, fun i => actorOk_start names (actor i) _⟩
  intro s ie s' ⟨hw, hactors⟩ hs
  have hstep : ∀ l, actorStep names (actor ie.1) s.1 (s.2 ie.1) ie.2 = some (s'.1, l) →
      StepOk names s.1 s'.1 (ActorOk names (actor ie.1) s'.1 l) :=
    fun l hl => actorOk_step hw (hactors ie.1) hl
  obtain ⟨store, l, hl, rfl⟩ := interleave_eq_some.mp hs
  exact ⟨(hstep l hl).sound,
    interleave_stable hs hactors (fun _ _ _ _ hg h => ActorOk.mono hg h) (hstep l hl).grows
      fun l hl => (hstep l hl).relies⟩

/-- In every state of every run a document row says of its version what the version
    row says: the status, the last error and when it was indexed. -/
theorem documents_mirror_versions :
    Always (system names actor)
      (fun s => ∀ t v, s.1.db.versions.get? t = some v →
        ∃ d, s.1.db.documents.get? v.documentId = some d ∧ Mirrors v d)
      (deployed actor knowledgeBases members) es :=
  (sound_run names actor knowledgeBases members es).mono fun _ h => h.1.mirrored

/-- What a worker slot that runs a delivery relies on. -/
theorem ActorOk.belongs {actor : Actor} {w : World} {slot : Slot} {ctx : JobContext}
    (h : ActorOk names actor w (.worker slot)) (hctx : slot.phase.ctx? = some ctx) :
    Belongs w.db ctx.ref := by
  cases actor with
  | upload api r => cases h
  | request api r => cases h
  | worker p => exact h ctx hctx
  | others => cases h

/-- In every state of every run a chunk is of a version of its document, and of the
    knowledge base of the document; and so are the rows that a queued job or a
    running delivery names. -/
theorem tenants_apart :
    Always (system names actor)
      (fun s => (∀ c ∈ s.1.db.chunkRows,
          (originOf s.1.db c.documentVersionId).map Origin.documentId = some c.documentId ∧
            kbOf s.1.db c.documentId = some c.kbId) ∧
        (∀ job ∈ s.1.queue, Belongs s.1.db job.payload.ref) ∧
        ∀ i slot ctx, s.2 i = .worker slot → slot.phase.ctx? = some ctx → Belongs s.1.db ctx.ref)
      (deployed actor knowledgeBases members) es :=
  (sound_run names actor knowledgeBases members es).mono fun s ⟨hw, hactors⟩ =>
    ⟨hw.chunks, hw.queued, fun i slot _ hslot hctx =>
      (hslot ▸ hactors i : ActorOk names (actor i) s.1 (.worker slot)).belongs names hctx⟩

/-- In every state of every run a running delivery finds its object in storage, and
    what it fetches has the hash that the upload has recorded for the version, so that
    `FILE_NOT_FOUND` comes from the storage alone. -/
theorem fetch_finds_upload :
    Always (system names actor)
      (fun s => ∀ i slot ctx, s.2 i = .worker slot → slot.phase.ctx? = some ctx →
        ∃ body, fetchBytes s.1.objects none ctx.bucket ctx.s3Key = .ok body ∧
          s.1.contentHash ctx.documentVersionId = some (names.sha256Hex body))
      (deployed actor knowledgeBases members) es := by
  refine (sound_run names actor knowledgeBases members es).mono ?_
  intro s ⟨hw, hactors⟩ i slot ctx hslot hctx
  have hbelongs := (hslot ▸ hactors i : ActorOk names (actor i) s.1 (.worker slot)).belongs names
    hctx
  obtain ⟨bucket, hash, hbucket, hhash, _, _, _, body, -, -, hbody, hsha⟩ :=
    hw.stored _ _ hbelongs.version
  cases hbucket
  refine ⟨body, ?_, by rw [hsha]; exact hhash⟩
  have hread : s.1.objects (ctx.bucket, ctx.s3Key) = some body := hbody
  simp only [fetchBytes, readBytes, hread]

end Runs

/-- Names that tell ASCII from other bytes only. -/
def plainNames : Names where
  sha256Hex := List.map fun byte => if byte < 128 then '0' else '1'
  uuid := fun id => List.replicate id 'a'
  dash_free := by
    intro bytes h
    obtain ⟨byte, -, hbyte⟩ := List.mem_map.mp h
    split_ifs at hbyte <;> cases hbyte
  slash_free := by
    intro id h
    cases List.eq_of_mem_replicate h

/-- One user uploads a file of the letter `é`, and one worker runs. -/
def uploadAndWork : Bool → Actor
  | false =>
    .upload
      { openAiEmbeddingsAvailable := false, ingestMaxAttempts := none, s3Bucket := "documents"
        unicode := .ascii, uploadMaxBytes := 1048576 }
      { kbId := 1, name := "Manual".toList, file := latin1File, correlationId := none }
  | true => .worker manualPipeline

example :
    (exec (system plainNames uploadAndWork)
      (deployed uploadAndWork ⟨[{ id := 1 }], List.nodup_singleton _⟩ .empty)
      (List.replicate 5 (false, .upload { documentId := 1, versionId := 1, jobId := 1 }) ++
        List.replicate 4 (true, .delivery 0 (.next manualAttempt)))).map
      (fun s => (s.1.db.versions.rows.map fun v => (v.status, v.s3Key),
        s.1.db.documents.rows.map Document.status)) =
      some ([(.indexed, "a/1-a.txt")], [.indexed]) := by
  decide +kernel

end RagStack.Ingest
