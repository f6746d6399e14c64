import RagStack.Ingest.System

/-!
# The transactions of the ingest system

Each transaction keeps the invariant `Sound` of the shared state, and what the
other actors rely on (`Grows`).

* `StatusWrite.sound`: a transaction that writes a version and its document alike;
  `statusWrite_activated`, `statusWrite_finish`, `statusWrite_createJob` and
  `statusWrite_enqueueFailure` say that those of the workers and the requests do.
* `sound_persist`, `sound_putObject`, `sound_addDocument`: new chunks, objects and
  documents.
-/

namespace RagStack.Ingest

open RagStack.Common RagStack.Worker RagStack.Documents

/-! ## Transactions that move a status -/

/-- The transaction writes the rows of a version and a document alike, and no
    fixed column of any row. -/
structure StatusWrite (db db' : Database) (versionId documentId : Id) : Prop where
  rows : ∃ gv hv gd hd, db'.versions = db.versions.update versionId gv hv ∧
    db'.documents = db.documents.update documentId gd hd ∧
    (∀ v d, Mirrors v d → Mirrors (gv v) (gd d)) ∧ (∀ v, (gv v).origin = v.origin) ∧
    ∀ d, (gd d).kbId = d.kbId
  jobs : ∀ t v, versionOf db t = some v → versionOf db' t = some v
  chunks : db'.chunks = db.chunks

namespace StatusWrite

variable {db db' : Database} {versionId documentId : Id}

theorem originOf_eq (h : StatusWrite db db' versionId documentId) (t : Id) :
    originOf db' t = originOf db t := by
  obtain ⟨gv, hv, gd, hd, hversions, -, -, horigin, -⟩ := h.rows
  rw [originOf, originOf, hversions, Table.map_get?_update _ _ _ hv horigin]

theorem kbOf_eq (h : StatusWrite db db' versionId documentId) (t : Id) : kbOf db' t = kbOf db t := by
  obtain ⟨gv, hv, gd, hd, -, hdocuments, -, -, hkb⟩ := h.rows
  rw [kbOf, kbOf, hdocuments, Table.map_get?_update _ _ _ hd hkb]

theorem grows (names : Names) {w : World} (h : StatusWrite w.db db' versionId documentId) :
    Grows names w (w.withDb db') where
  jobs := h.jobs
  versions := fun t o ho => by rw [World.db_withDb, h.originOf_eq, ho]
  documents := fun t kbId hkb => by rw [World.db_withDb, h.kbOf_eq, hkb]
  hashes := fun _ _ _ => rfl
  held := fun _ _ _ hheld => hheld

/-- The document goes on to mirror its version, as no other version is one of it. -/
theorem sound {names : Names} {w : World} (hw : Sound names w)
    (h : StatusWrite w.db db' versionId documentId)
    (hbelongs : ∃ o, originOf w.db versionId = some o ∧ o.documentId = documentId) :
    Sound names (w.withDb db') where
  mirrored := by
    obtain ⟨o, ho, hdocument⟩ := hbelongs
    obtain ⟨gv, hv, gd, hd, hversions, hdocuments, hmirrors, horigin, -⟩ := h.rows
    intro t v' hv'
    rw [World.db_withDb, hversions, Table.get?_update] at hv'
    rw [World.db_withDb, hdocuments, Table.get?_update]
    split_ifs at hv' with ht
    · -- the version of the transaction
      obtain ⟨v, hget, rfl⟩ := Option.map_eq_some_iff.mp hv'
      obtain ⟨d, hd, hvd⟩ := hw.mirrored t v hget
      have hid : (gv v).documentId = v.documentId := congrArg Origin.documentId (horigin v)
      have hrow : v.origin = o := Option.some.inj ((originOf_of_get? hget).symm.trans (ht ▸ ho))
      have hthis : v.documentId = documentId := (congrArg Origin.documentId hrow).trans hdocument
      exact ⟨gd d, by rw [hid, if_pos hthis, hd]; rfl, hmirrors v d hvd⟩
    · -- another version, and so of another document
      obtain ⟨d, hd, hvd⟩ := hw.mirrored t v' hv'
      have hother : v'.documentId ≠ documentId := fun heq =>
        ht (hw.single t versionId _ o (originOf_of_get? hv') ho (heq.trans hdocument.symm))
      exact ⟨d, by rw [if_neg hother, hd], hvd⟩
  single := by
    intro s t o p ho hp
    rw [World.db_withDb, h.originOf_eq] at ho hp
    exact hw.single s t o p ho hp
  stored := by
    intro t o ho
    rw [World.db_withDb, h.originOf_eq] at ho
    exact hw.stored t o ho
  chunks := by
    intro c hc
    rw [World.db_withDb, Database.chunkRows, h.chunks] at hc
    rw [World.db_withDb, h.originOf_eq, h.kbOf_eq]
    exact hw.chunks c hc
  queued := fun job hjob => (hw.queued job hjob).mono (h.grows names)

end StatusWrite

section Transactions

variable {db db' : Database} {now : Time}

theorem versionOf_update {db db' : Database} {jobId : Id} {g : IngestJob → IngestJob}
    {hg : ∀ j, (g j).id = j.id} (hjobs : db'.jobs = db.jobs.update jobId g hg)
    (hversion : ∀ j, (g j).documentVersionId = j.documentVersionId) (t : Id) :
    versionOf db' t = versionOf db t := by
  rw [versionOf, versionOf, hjobs, Table.map_get?_update _ _ _ hg hversion]

/-- `mark_job_active`. -/
theorem statusWrite_activated (sm : StatusManager) (payload : IngestJobPayload)
    {job job' : IngestJob} {correlationId : Option String}
    (hrow : db.jobs.get? job'.id = some job) (hact : job.activate? correlationId now = some job') :
    StatusWrite db (sm.activated payload job' now db) payload.documentVersionId
      payload.documentId where
  rows := ⟨_, id_activateVersion sm now, _, id_activateDocument now, rfl, rfl,
    fun v d h => ⟨rfl, rfl, rfl, h.indexedAt⟩, fun _ => rfl, fun _ => rfl⟩
  jobs := by
    intro t v hv
    obtain ⟨j, hj, rfl⟩ := Option.map_eq_some_iff.mp hv
    by_cases ht : t = job'.id
    · subst ht
      cases hrow.symm.trans hj
      rw [versionOf, get?_jobs_activated hrow, Option.map_some, (activate?_spec hact).2.2.1]
    · rw [versionOf, get?_jobs_activated_of_ne ht, hj, Option.map_some]
  chunks := rfl

/-- The transactions that end a delivery. -/
theorem statusWrite_finish (sm : StatusManager) (ctx : JobContext) (f : Finish) (now : Time)
    (db : Database) :
    StatusWrite db (sm.finish ctx f now db) ctx.documentVersionId ctx.documentId where
  rows := by
    cases f with
    | retryWaiting error =>
      refine ⟨_, ?_, _, ?_, rfl, rfl, fun v d h => ⟨rfl, rfl, rfl, h.indexedAt⟩, fun _ => rfl,
        fun _ => rfl⟩
      all_goals exact fun _ => rfl
    | failure error deadLetter =>
      refine ⟨_, ?_, _, ?_, rfl, rfl, fun v d h => ⟨rfl, rfl, rfl, h.indexedAt⟩, fun _ => rfl,
        fun _ => rfl⟩
      all_goals exact fun _ => rfl
    | success n =>
      refine ⟨_, ?_, _, ?_, rfl, rfl, fun v d _ => ⟨rfl, rfl, rfl, rfl⟩, fun _ => rfl,
        fun _ => rfl⟩
      all_goals exact fun _ => rfl
  jobs := by
    intro t v hv
    obtain ⟨g, hg, hjobs, hspec⟩ := jobs_finish sm ctx f now db
    rw [versionOf_update hjobs fun j => (hspec j).1, hv]
  chunks := chunks_finish f

/-- The creating transaction of `reindexDocument` and `retryIngestJob`. -/
theorem statusWrite_createJob {api : Api} {documentId versionId jobId : Id}
    {correlationId : Option String} {maxAttempts : ℕ} {hmax : 0 < maxAttempts}
    {refreshed : Refreshed}
    (h : createJob api documentId versionId correlationId maxAttempts hmax jobId now db =
      some (db', refreshed)) : StatusWrite db db' versionId documentId := by
  obtain ⟨document, version, jobs, -, -, rfl, hinsert, rfl⟩ := createJob_eq_some h
  refine ⟨⟨_, id_requeueVersion api now, _, id_requeueDocument now, rfl, rfl,
    fun v d h => ⟨rfl, rfl, rfl, h.indexedAt⟩, fun _ => rfl, fun _ => rfl⟩, fun t v hv => ?_, rfl⟩
  obtain ⟨j, hj, rfl⟩ := Option.map_eq_some_iff.mp hv
  have hne : t ≠ (newJob versionId correlationId maxAttempts hmax jobId now).id := by
    rintro rfl
    cases (Table.get?_eq_none_of_insert? hinsert).symm.trans hj
  rw [versionOf, Table.get?_insert? hinsert, if_neg hne, hj, Option.map_some]

/-- `markQueueEnqueueFailure`. -/
theorem statusWrite_enqueueFailure {documentId versionId jobId : Id} {message : String}
    (h : markQueueEnqueueFailure documentId versionId jobId message now db = some db') :
    StatusWrite db db' versionId documentId := by
  unfold markQueueEnqueueFailure at h
  split_ifs at h
  cases h
  refine ⟨⟨_, ?_, _, ?_, rfl, rfl, fun v d h => ⟨rfl, rfl, rfl, h.indexedAt⟩, fun _ => rfl,
    fun _ => rfl⟩, fun t v hv => ?_, rfl⟩
  · exact fun _ => rfl
  · exact fun _ => rfl
  · refine (Table.map_get?_update db.jobs jobId t ?_ ?_).trans hv
    · exact fun _ => rfl
    · exact fun _ => rfl

end Transactions

/-! ## The other writes -/

section Writes

variable {names : Names} {w : World}

/-- The log is not part of the invariant. -/
theorem sound_withStore {s : Store} (h : Sound names (w.withDb s.db)) :
    Sound names { w with store := s } :=
  ⟨h.mirrored, h.single, h.stored, h.chunks, h.queued⟩

theorem grows_withStore {s : Store} (h : Grows names w (w.withDb s.db)) :
    Grows names w { w with store := s } :=
  ⟨h.jobs, h.versions, h.documents, h.hashes, h.held⟩

/-- A statement that leaves jobs, versions and documents alone. -/
theorem grows_of_frame {db : Database} (hjobs : db.jobs = w.db.jobs)
    (hversions : db.versions = w.db.versions) (hdocuments : db.documents = w.db.documents) :
    Grows names w (w.withDb db) where
  jobs := fun t v hv => by rw [World.db_withDb, versionOf, hjobs]; exact hv
  versions := fun t o ho => by rw [World.db_withDb, originOf, hversions]; exact ho
  documents := fun t kbId hkb => by rw [World.db_withDb, kbOf, hdocuments]; exact hkb
  hashes := fun _ _ _ => rfl
  held := fun _ _ _ hheld => hheld

theorem sound_of_frame {db : Database} (hw : Sound names w) (hjobs : db.jobs = w.db.jobs)
    (hversions : db.versions = w.db.versions) (hdocuments : db.documents = w.db.documents)
    (hchunks : ∀ c ∈ db.chunkRows, (originOf w.db c.documentVersionId).map Origin.documentId =
      some c.documentId ∧ kbOf w.db c.documentId = some c.kbId) :
    Sound names (w.withDb db) := by
  have horigin : ∀ t, originOf db t = originOf w.db t := fun t => by
    rw [originOf, originOf, hversions]
  have hkb : ∀ t, kbOf db t = kbOf w.db t := fun t => by rw [kbOf, kbOf, hdocuments]
  refine ⟨?_, ?_, ?_, ?_, fun job hjob =>
    (hw.queued job hjob).mono (grows_of_frame hjobs hversions hdocuments : Grows names w _)⟩
  · simpa only [World.db_withDb, hversions, hdocuments] using hw.mirrored
  · simpa only [World.db_withDb, horigin] using hw.single
  · intro t o ho
    rw [World.db_withDb, horigin] at ho
    exact hw.stored t o ho
  · simpa only [World.db_withDb, horigin, hkb] using hchunks

/-- The new rows name what their context names. -/
theorem ids_of_forall₂ {ix : Indexer} {ctx : JobContext} {now : Time} {chunks : List ChunkRecord}
    {rows : List DocumentChunk} (h : List.Forall₂ (ix.RowOf ctx now) chunks rows) :
    ∀ c ∈ rows, c.documentVersionId = ctx.documentVersionId ∧ c.documentId = ctx.documentId ∧
      c.kbId = ctx.kbId := by
  induction h with
  | nil => simp
  | cons hrow _ ih =>
    intro c hc
    rcases List.mem_cons.mp hc with rfl | hc
    · obtain ⟨hversion, hdocument, hkb, -⟩ := rowOf_spec hrow
      exact ⟨hversion, hdocument, hkb⟩
    · exact ih c hc

/-- `persist_chunks` of a context whose rows belong together. -/
theorem sound_persist {ix : Indexer} {ctx : JobContext} {chunks : List ChunkRecord}
    {newId : ℕ → Id} {now : Time} {db : Database} (hw : Sound names w)
    (hctx : Belongs w.db ctx.ref)
    (h : ix.persistTransaction ctx chunks newId now w.db = some db) :
    Sound names (w.withDb db) := by
  obtain ⟨hjobs, hversions, hdocuments, -, -⟩ := persistTransaction_frame h
  obtain ⟨rows, inserted, hrows, hins, rfl⟩ := persistTransaction_eq_some h
  refine sound_of_frame hw hjobs hversions hdocuments fun c hc => ?_
  rw [Database.chunkRows, hins, List.mem_append] at hc
  rcases hc with hc | hc
  · -- an old row, superseded or not
    obtain ⟨c₀, hc₀, rfl⟩ := List.mem_map.mp hc
    split_ifs
    · exact hw.chunks c₀ hc₀
    · exact hw.chunks c₀ hc₀
  · obtain ⟨hversion, hdocument, hkb⟩ := ids_of_forall₂ hrows c hc
    have hversion' := hctx.version
    have hdocument' := hctx.document
    simp only [JobContext.ref] at hversion' hdocument'
    rw [hversion, hdocument, hkb, hversion', hdocument']
    exact ⟨rfl, rfl⟩

/-- A put leaves every object under its hash: a key that is written again is written
    with content of the same hash. -/
theorem held_putObject {bucket bucket' key : String} {hash : Text} {kbId : Id} {buffer : Bytes}
    {upload : InspectedUpload} (h : Held names w bucket key hash) :
    Held names (w.putObject bucket' (names.s3Key kbId buffer upload) buffer) bucket key hash := by
  obtain ⟨kbId₀, buffer₀, upload₀, body, hkey, hhash, hbody, hsha⟩ := h
  by_cases hsame : (bucket, key) = (bucket', names.s3Key kbId buffer upload)
  · refine ⟨kbId₀, buffer₀, upload₀, buffer, hkey, hhash, ?_, ?_⟩
    · rw [World.objects_putObject, hsame, Function.update_self]
    · rw [← hhash]
      have hkeys : names.s3Key kbId buffer upload = names.s3Key kbId₀ buffer₀ upload₀ := by
        rw [← hkey, (Prod.mk.inj hsame).2]
      exact names.sha256Hex_of_s3Key_eq hkeys
  · refine ⟨kbId₀, buffer₀, upload₀, body, hkey, hhash, ?_, hsha⟩
    rw [World.objects_putObject, Function.update_of_ne hsame, hbody]

theorem held_putObject_self (names : Names) (w : World) (bucket : String) (kbId : Id)
    (buffer : Bytes) (upload : InspectedUpload) :
    Held names (w.putObject bucket (names.s3Key kbId buffer upload) buffer) bucket
      (names.s3Key kbId buffer upload) (names.sha256Hex buffer) :=
  ⟨kbId, buffer, upload, buffer, rfl, rfl, by rw [World.objects_putObject, Function.update_self], rfl⟩

theorem grows_putObject (names : Names) (w : World) (bucket : String) (kbId : Id) (buffer : Bytes)
    (upload : InspectedUpload) :
    Grows names w (w.putObject bucket (names.s3Key kbId buffer upload) buffer) :=
  ⟨fun _ _ h => h, fun _ _ h => h, fun _ _ h => h, fun _ _ _ => rfl, fun _ _ _ =>
    held_putObject⟩

theorem sound_putObject (hw : Sound names w) (bucket : String) (kbId : Id) (buffer : Bytes)
    (upload : InspectedUpload) :
    Sound names (w.putObject bucket (names.s3Key kbId buffer upload) buffer) where
  mirrored := hw.mirrored
  single := hw.single
  stored := by
    intro t o ho
    obtain ⟨bucket', hash, hbucket, hhash, hheld⟩ := hw.stored t o ho
    exact ⟨bucket', hash, hbucket, hhash, held_putObject hheld⟩
  chunks := hw.chunks
  queued := hw.queued

theorem grows_addJob (names : Names) (w : World) (job : QueueJob) : Grows names w (w.addJob job) :=
  ⟨fun _ _ h => h, fun _ _ h => h, fun _ _ h => h, fun _ _ _ => rfl, fun _ _ _ h => h⟩

theorem sound_addJob (hw : Sound names w) {job : QueueJob} (hjob : Belongs w.db job.payload.ref) :
    Sound names (w.addJob job) where
  mirrored := hw.mirrored
  single := hw.single
  stored := hw.stored
  chunks := hw.chunks
  queued := by
    intro job' hmem
    rcases List.mem_append.mp hmem with hmem | hmem
    · exact hw.queued job' hmem
    · rw [List.mem_singleton.mp hmem]
      exact hjob

end Writes

/-! ## Creating transactions -/

section Creates

variable {names : Names} {w : World} {db : Database} {refreshed : Refreshed}

/-- The creating transaction of an upload inserts three rows that belong together. -/
structure Inserts (db db' : Database) (refreshed : Refreshed) (bucket : String) : Prop where
  documents : db.documents.insert? refreshed.document = some db'.documents
  versions : db.versions.insert? refreshed.version = some db'.versions
  jobs : db.jobs.insert? refreshed.ingestJob = some db'.jobs
  chunks : db'.chunks = db.chunks
  job_version : refreshed.ingestJob.documentVersionId = refreshed.version.id
  origin : refreshed.version.origin =
    { documentId := refreshed.document.id, storageBucket := some bucket,
      s3Key := refreshed.version.s3Key }
  mirrors : Mirrors refreshed.version refreshed.document

theorem inserts_create {api : UploadApi} {r : UploadRequest} {upload : InspectedUpload}
    {name : Text} {io : UploadIO}
    (h : r.create names api upload name io w.db = some (db, refreshed)) :
    Inserts w.db db refreshed api.s3Bucket ∧
      refreshed.version.s3Key = names.s3Key r.kbId r.file.buffer upload := by
  unfold UploadRequest.create at h
  split_ifs at h
  obtain ⟨documents, versions, jobs, hdocument, hversion, hjob, hdocuments, hversions, hjobs, rfl⟩ :=
    createDocumentRecords_eq_some h
  refine ⟨⟨hdocuments, hversions, hjobs, rfl, ?_, ?_, ?_⟩, ?_⟩
  · rw [hjob, hversion]
    rfl
  · rw [hversion, hdocument]
    rfl
  · rw [hversion, hdocument]
    exact ⟨rfl, rfl, rfl, rfl⟩
  · rw [hversion]
    rfl

variable {bucket : String}

theorem grows_addDocument (names : Names) (h : Inserts w.db db refreshed bucket) (hash : Text) :
    Grows names w (w.addDocument db refreshed.version.id hash) where
  jobs := by
    intro t v hv
    rw [World.db_addDocument, versionOf, Table.map_get?_insert? h.jobs, if_neg (Table.ne_of_insert? h.jobs hv)]
    exact hv
  versions := by
    intro t o ho
    rw [World.db_addDocument, originOf, Table.map_get?_insert? h.versions,
      if_neg (Table.ne_of_insert? h.versions ho)]
    exact ho
  documents := by
    intro t kbId hkb
    rw [World.db_addDocument, kbOf, Table.map_get?_insert? h.documents,
      if_neg (Table.ne_of_insert? h.documents hkb)]
    exact hkb
  hashes := by
    intro t o ho
    exact Function.update_of_ne (Table.ne_of_insert? h.versions ho) _ _
  held := fun _ _ _ hheld => hheld

/-- The document of a row that was there is not the inserted one. -/
theorem Sound.documentId_ne (hw : Sound names w) (h : Inserts w.db db refreshed bucket) {t : Id}
    {o : Origin} (ho : originOf w.db t = some o) : o.documentId ≠ refreshed.document.id := by
  obtain ⟨v, hv, rfl⟩ := Option.map_eq_some_iff.mp ho
  obtain ⟨d, hd, -⟩ := hw.mirrored t v hv
  exact Table.ne_of_insert? h.documents (kbOf_of_get? hd)

theorem sound_addDocument (hw : Sound names w) (h : Inserts w.db db refreshed bucket) {hash : Text}
    (hheld : Held names w bucket refreshed.version.s3Key hash) :
    Sound names (w.addDocument db refreshed.version.id hash) := by
  have hgrows := grows_addDocument names h hash
  have horigin : ∀ t, originOf db t = if t = refreshed.version.id then
      some refreshed.version.origin else originOf w.db t := Table.map_get?_insert? h.versions _
  refine ⟨?_, ?_, ?_, ?_, fun job hjob => (hw.queued job hjob).mono hgrows⟩
  · intro t v hv
    rw [World.db_addDocument, Table.get?_insert? h.versions] at hv
    rw [World.db_addDocument, Table.get?_insert? h.documents]
    split_ifs at hv with ht
    · -- the new version, of the new document
      cases hv
      have hid : refreshed.version.documentId = refreshed.document.id :=
        congrArg Origin.documentId h.origin
      exact ⟨refreshed.document, if_pos hid, h.mirrors⟩
    · obtain ⟨d, hd, hvd⟩ := hw.mirrored t v hv
      have hne : v.documentId ≠ refreshed.document.id :=
        hw.documentId_ne h (originOf_of_get? hv)
      exact ⟨d, by rw [if_neg hne, hd], hvd⟩
  · intro s t o p ho hp hsame
    rw [World.db_addDocument, horigin] at ho hp
    split_ifs at ho hp with hs ht ht
    · rw [hs, ht]
    · -- only the new version is one of the new document
      cases ho
      rw [h.origin] at hsame
      exact absurd hsame.symm (hw.documentId_ne h hp)
    · cases hp
      rw [h.origin] at hsame
      exact absurd hsame (hw.documentId_ne h ho)
    · exact hw.single s t o p ho hp hsame
  · intro t o ho
    rw [World.db_addDocument, horigin] at ho
    split_ifs at ho with ht
    · cases ho
      refine ⟨bucket, hash, by rw [h.origin], ?_, hheld⟩
      rw [ht]
      exact Function.update_self _ _ _
    · obtain ⟨bucket', hash', hbucket, hhash, hheld'⟩ := hw.stored t o ho
      exact ⟨bucket', hash', hbucket, (hgrows.hashes t o ho).trans hhash, hheld'⟩
  · intro c hc
    rw [World.db_addDocument, Database.chunkRows, h.chunks] at hc
    obtain ⟨hversion, hkb⟩ := hw.chunks c hc
    obtain ⟨o, ho, hdocument⟩ := Option.map_eq_some_iff.mp hversion
    exact ⟨by rw [hgrows.versions _ _ ho, Option.map_some, hdocument],
      hgrows.documents _ _ hkb⟩

theorem refreshedOk_addDocument (h : Inserts w.db db refreshed bucket) (hash : Text) :
    RefreshedOk (w.addDocument db refreshed.version.id hash) refreshed := by
  refine ⟨bucket, congrArg Origin.storageBucket h.origin, ?_, ?_, ?_⟩
  · exact (Table.map_get?_insert?_self h.jobs _).trans (congrArg some h.job_version)
  · exact (Table.map_get?_insert?_self h.versions _).trans (congrArg some h.origin)
  · exact Table.map_get?_insert?_self h.documents _

/-- The rows that `reindexDocument` and `retryIngestJob` create and requeue. -/
theorem refreshedOk_createJob {api : Api} {r : Request} {target : Target} {io : RequestIO}
    (hw : Sound names w) (htarget : TargetOk w target)
    (h : target.create api r io w.db = some (db, refreshed)) :
    RefreshedOk (w.withDb db) refreshed ∧ refreshed.version.id = target.version.id := by
  obtain ⟨document, version, jobs, hdocument, hversion, rfl, hinsert, rfl⟩ :=
    createJob_eq_some (create_eq_some h)
  obtain ⟨o, ho, hdocumentId, -⟩ := htarget
  have hrow : version.origin = o := Option.some.inj ((originOf_of_get? hversion).symm.trans ho)
  obtain ⟨bucket, -, hbucket, -, -⟩ := hw.stored _ o ho
  have hid : version.id = target.version.id := Table.key_of_get? hversion
  have hdid : document.id = target.document.id := Table.key_of_get? hdocument
  refine ⟨⟨bucket, (congrArg Origin.storageBucket hrow).trans hbucket, ?_, ?_, ?_⟩, hid⟩
  · exact (Table.map_get?_insert?_self hinsert _).trans (congrArg some hid.symm)
  · have hsame := (statusWrite_createJob (create_eq_some h)).originOf_eq target.version.id
    have horigin : o = ⟨document.id, some bucket, version.s3Key⟩ := by
      rw [← hrow] at hbucket hdocumentId ⊢
      rw [← hbucket, hdid, ← hdocumentId]
      rfl
    rw [World.db_withDb]
    refine Eq.trans ?_ (congrArg some horigin)
    rw [← ho, ← hsame]
    exact congrArg _ hid
  · have hsame := (statusWrite_createJob (create_eq_some h)).kbOf_eq document.id
    rw [World.db_withDb]
    refine Eq.trans hsame ?_
    have hkb := kbOf_of_get? hdocument
    rw [hdid]
    exact hkb

end Creates

end RagStack.Ingest
