import RagStack.Chunking.Content
import RagStack.Ingest.SystemRuns

/-!
# From the uploaded file to the chunks

The ingest system with workers that read what is in the object storage:
`_fetch_document` and `_parse_document` (`app/services/ingest_pipeline.py`, lines 88–125) in
place of the parsed document of an attempt.

* `coversFile_runStages`: the stages of a delivery keep the letters and digits of the body of
  the file.
* `chunks_cover_upload`: in every run, the active chunks of a version cover the file that was
  uploaded for it.
-/

namespace RagStack.Ingest

open RagStack.Common RagStack.Worker RagStack.Chunking RagStack.Documents

/-! ## Reading a document -/

/-- The parser factory with the parsers. -/
structure DocumentReader where
  factory : ParserFactory
  readers : FileReaders
  unicode : ParserUnicode

namespace DocumentReader

variable (reader : DocumentReader)

/-- `detect_file_type` and `parse`: the file type and the document. -/
def read (data : Bytes) (mimeType : String) (s3Key : Text) (sourceTitle : String) :
    Except IngestionError (FileType × ParsedDocument) :=
  match reader.factory.detectFileType data mimeType s3Key with
  | .error e => .error e
  | .ok type =>
    (reader.readers.parse reader.unicode type data sourceTitle).map fun document =>
      (type, document)

theorem read_eq_ok {reader : DocumentReader} {data : Bytes} {mimeType sourceTitle : String}
    {s3Key : Text} {type : FileType} {document : ParsedDocument}
    (h : reader.read data mimeType s3Key sourceTitle = .ok (type, document)) :
    reader.readers.parse reader.unicode type data sourceTitle = .ok document := by
  unfold read at h
  split at h
  · cases h
  · rename_i found _
    cases hparse : reader.readers.parse reader.unicode found data sourceTitle with
    | error e =>
      rw [hparse] at h
      cases h
    | ok parsed =>
      rw [hparse] at h
      cases h
      exact hparse

/-- `_fetch_document` and `_parse_document`; `fault` is as for `readBytes`. -/
def fetchAndParse (objects : ObjectStore) (fault : Option StorageFault) (ctx : JobContext) :
    Except IngestionError ParsedDocument :=
  match fetchBytes objects fault ctx.bucket ctx.s3Key with
  | .error e => .error e
  | .ok data =>
    (reader.read data ctx.mimeType ctx.s3Key.toList ctx.sourceTitle).map Prod.snd

/-- The event, with what a worker that runs the stages reads from the storage. -/
def reads (w : World) (l : ActorState) (fault : Option StorageFault) (e : ActorEvent) : ActorEvent :=
  match e, l with
  | .delivery job (.next a), .worker { phase := .working ctx, .. } =>
    .delivery job (.next { a with
      parsed := (reader.fetchAndParse w.objects fault ctx).mapError Raised.ingestion })
  | e, _ => e

end DocumentReader

/-- One step of an actor whose deliveries read the storage. -/
def readingStep (names : Names) (reader : DocumentReader) (actor : Actor) (w : World)
    (l : ActorState) (e : ActorEvent × Option StorageFault) : Option (World × ActorState) :=
  actorStep names actor w l (reader.reads w l e.2 e.1)

/-! ## The stages -/

/-- The chunks cover what the parsers read from `data` under some type, key and title, and their
    headings are those of the normalized document. If its blocks are in NFKC, what is covered is
    the body of the file. -/
def CoversFile (reader : DocumentReader) (data : Bytes) (chunks : List Text) : Prop :=
  ∃ mimeType s3Key sourceTitle type document,
    reader.read data mimeType s3Key sourceTitle = .ok (type, document) ∧
    Covers reader.unicode.toUnicodeData
      (normalizedContent reader.unicode.toUnicodeData isBody document.blocks)
      (headingTexts (document.blocks.filterMap (normalizedBlock reader.unicode.toUnicodeData)))
      chunks ∧
    ((∀ block ∈ document.blocks, reader.unicode.nfkc block.text = block.text) →
      normalizedContent reader.unicode.toUnicodeData isBody document.blocks =
        reader.readers.fileContent reader.unicode isBody type data)

theorem contents_embedChunks {p : Pipeline} {embeddings : Except Raised (List (List Rat))}
    {chunks embedded : List ChunkRecord} (h : p.embedChunks embeddings chunks = .ok embedded) :
    embedded.map ChunkRecord.content = chunks.map ChunkRecord.content := by
  have hzip (cs : List ChunkRecord) : ∀ es : List (List Rat), es.length = cs.length →
      (List.zipWith (attachEmbedding p.embeddingModel) cs es).map ChunkRecord.content =
        cs.map ChunkRecord.content := by
    induction cs with
    | nil => simp
    | cons c cs ih =>
      intro es hlen
      cases es with
      | nil => simp at hlen
      | cons e es => simpa [attachEmbedding] using ih es (by simpa using hlen)
  unfold Pipeline.embedChunks at h
  split at h
  · split at h
    · cases h
    · split_ifs at h with hlen
      cases h
      exact hzip _ _ hlen
  · cases h
    rfl

theorem coversFile_runStages {reader : DocumentReader} {p : Pipeline} {a : Attempt} {data : Bytes}
    {mimeType sourceTitle : String} {s3Key : Text} {type : FileType} {document : ParsedDocument}
    {chunks : List ChunkRecord} (laws : LineAlnumLaws reader.unicode.toUnicodeData)
    (hunicode : p.chunker.unicode = reader.unicode.toUnicodeData)
    (hread : reader.read data mimeType s3Key sourceTitle = .ok (type, document))
    (hparsed : a.parsed = .ok document) (h : p.runStages a = .ok chunks) :
    CoversFile reader data (chunks.map ChunkRecord.content) := by
  refine ⟨mimeType, s3Key, sourceTitle, type, document, hread, ?_, fun hnfkc => ?_⟩
  · unfold Pipeline.runStages at h
    rw [hparsed] at h
    simp only at h
    split at h
    · cases h
    · rename_i normalized hnormalized
      split at h
      · cases h
      · rename_i plain hplain
        have hcovers := covers_chunkDocument (hunicode ▸ laws.toAlnumLaws) hplain
        rw [hunicode] at hcovers hnormalized
        rw [contents_embedChunks h, ← content_normalizeDocument laws.toAlnumLaws isBody hnormalized,
          ← normalizeDocument_blocks hnormalized]
        exact hcovers
  · rw [normalizedContent_of_nfkc isBody hnfkc]
    exact alnums_parse laws isBody (DocumentReader.read_eq_ok hread)

/-! ## Steps -/

/-- The contents are those of the chunks of an object with the hash that is recorded for the
    version. -/
def OfUpload (names : Names) (reader : DocumentReader) (w : World) (versionId : Id)
    (contents : List Text) : Prop :=
  ∃ data, w.contentHash versionId = some (names.sha256Hex data) ∧ CoversFile reader data contents

/-- The active chunks of every version are of its upload. -/
def Indexed (names : Names) (reader : DocumentReader) (w : World) : Prop :=
  ∀ v, w.db.activeChunks v ≠ [] →
    OfUpload names reader w v ((w.db.activeChunks v).map DocumentChunk.content)

/-- The chunks that a delivery is about to store are of the upload. -/
def ReadyOk (names : Names) (reader : DocumentReader) (w : World) (l : ActorState) : Prop :=
  ∀ slot ctx chunks, l = .worker slot → slot.phase = .ready ctx chunks →
    originOf w.db ctx.documentVersionId ≠ none ∧
      OfUpload names reader w ctx.documentVersionId (chunks.map ChunkRecord.content)

section Steps

variable {names : Names} {reader : DocumentReader} {w w' : World}

theorem OfUpload.mono {versionId : Id} {contents : List Text} (hg : Grows names w w')
    (hversion : originOf w.db versionId ≠ none) (h : OfUpload names reader w versionId contents) :
    OfUpload names reader w' versionId contents := by
  obtain ⟨data, hhash, hcovers⟩ := h
  obtain ⟨o, ho⟩ := Option.ne_none_iff_exists'.mp hversion
  exact ⟨data, by rw [hg.hashes _ _ ho, hhash], hcovers⟩

theorem ReadyOk.mono {l : ActorState} (hg : Grows names w w') (h : ReadyOk names reader w l) :
    ReadyOk names reader w' l := by
  intro slot ctx chunks hslot hphase
  obtain ⟨hversion, hupload⟩ := h slot ctx chunks hslot hphase
  obtain ⟨o, ho⟩ := Option.ne_none_iff_exists'.mp hversion
  refine ⟨?_, hupload.mono hg hversion⟩
  rw [hg.versions _ _ ho]
  exact Option.some_ne_none o

/-- A version with chunks has its row. -/
theorem originOf_of_activeChunks (hw : Sound names w) {v : Id} (h : w.db.activeChunks v ≠ []) :
    originOf w.db v ≠ none := by
  obtain ⟨c, hc⟩ := List.exists_mem_of_ne_nil _ h
  obtain ⟨hmem, hactive⟩ := List.mem_filter.mp hc
  have hversion : c.documentVersionId = v := by simpa using (of_decide_eq_true hactive).1
  intro hnone
  have hchunk := (hw.chunks c hmem).1
  rw [hversion, hnone] at hchunk
  cases hchunk

/-- A step that leaves the chunks alone. -/
theorem Indexed.of_frame (hw : Sound names w) (hg : Grows names w w')
    (hchunks : w'.db.chunks = w.db.chunks) (h : Indexed names reader w) :
    Indexed names reader w' := by
  have hactive (v : Id) : w'.db.activeChunks v = w.db.activeChunks v := by
    rw [Database.activeChunks, Database.activeChunks, Database.chunkRows, Database.chunkRows, hchunks]
  intro v hne
  rw [hactive] at hne ⊢
  exact (h v hne).mono hg (originOf_of_activeChunks hw hne)

theorem chunks_uploadStep {api : UploadApi} {r : UploadRequest} {state state' : UploadState}
    {io : UploadIO} (hs : uploadStep names api r w state io = some (w', state')) :
    w'.db.chunks = w.db.chunks := by
  cases uploadStep_cases hs with
  | quiet bare => rfl
  | put checked next => rfl
  | create stored commits => exact (inserts_create commits).1.chunks
  | add created next => rfl
  | lost created => rfl
  | enqueueFailure failed bare commits => exact (statusWrite_enqueueFailure commits).chunks

theorem chunks_requestStep {api : Api} {r : Request} {state state' : RequestState} {io : RequestIO}
    {db db' : Database} (hs : requestStep api r db state io = some (db', state')) :
    db'.chunks = db.chunks := by
  cases state with
  | start =>
    cases r with
    | reindexDocument documentId correlationId =>
      simp only [requestStep] at hs
      split at hs <;> (cases hs; rfl)
    | retryIngestJob jobId correlationId =>
      simp only [requestStep] at hs
      split at hs <;> (cases hs; rfl)
  | found target =>
    cases r with
    | reindexDocument documentId correlationId =>
      simp only [requestStep] at hs
      cases hs; rfl
    | retryIngestJob jobId correlationId =>
      simp only [requestStep] at hs
      split_ifs at hs <;> (cases hs; rfl)
  | latest target =>
    simp only [requestStep] at hs
    cases hs; rfl
  | passed target =>
    simp only [requestStep] at hs
    split at hs
    · cases hs; rfl
    · rename_i hcommit
      cases hs
      exact (statusWrite_createJob (create_eq_some hcommit)).chunks
  | created target refreshed =>
    simp only [requestStep] at hs
    split_ifs at hs <;> (cases hs; rfl)
  | enqueueFailed refreshed =>
    simp only [requestStep] at hs
    split_ifs at hs
    · cases hs; rfl
    · split at hs
      · cases hs; rfl
      · rename_i hcommit
        cases hs
        exact (statusWrite_enqueueFailure hcommit).chunks
  | enqueued job => simp [requestStep] at hs
  | failed error => simp [requestStep] at hs

/-- A request queues its job, and leaves the database as its step has left it. -/
theorem db_requestQueue (api : Api) (r : Request) (state : RequestState) (io : RequestIO)
    (lands : Bool) (w : World) : (requestQueue api r state io lands w).db = w.db := by
  unfold requestQueue
  split
  · split_ifs <;> rfl
  · rfl

theorem fetchBytes_eq_ok {objects : ObjectStore} {fault : Option StorageFault}
    {bucket key : String} {data : Bytes} (h : fetchBytes objects fault bucket key = .ok data) :
    objects (bucket, key) = some data := by
  unfold fetchBytes at h
  split at h
  · rename_i body hread
    cases h
    unfold readBytes at hread
    split at hread
    · cases hread
    · split at hread
      · cases hread
        assumption
      · cases hread
  · split_ifs at h
  · cases h

/-- A delivery whose stages succeed has read the object of the upload. -/
theorem ofUpload_stages {p : Pipeline} {a : Attempt} {ctx : JobContext} {chunks : List ChunkRecord}
    {fault : Option StorageFault} (laws : LineAlnumLaws reader.unicode.toUnicodeData)
    (hunicode : p.chunker.unicode = reader.unicode.toUnicodeData) (hw : Sound names w)
    (hctx : Belongs w.db ctx.ref)
    (hparsed : a.parsed = (reader.fetchAndParse w.objects fault ctx).mapError Raised.ingestion)
    (h : p.runStages a = .ok chunks) :
    OfUpload names reader w ctx.documentVersionId (chunks.map ChunkRecord.content) := by
  obtain ⟨bucket, hash, hbucket, hhash, _, _, _, body, -, -, hbody, hsha⟩ :=
    hw.stored _ _ hctx.version
  cases hbucket
  have hbytes : w.objects (ctx.bucket, ctx.s3Key) = some body := hbody
  unfold DocumentReader.fetchAndParse at hparsed
  cases hfetch : fetchBytes w.objects fault ctx.bucket ctx.s3Key with
  | error e =>
    rw [hfetch] at hparsed
    rw [Pipeline.runStages, hparsed] at h
    cases h
  | ok data =>
    cases hbytes.symm.trans (fetchBytes_eq_ok hfetch)
    rw [hfetch] at hparsed
    cases hread : reader.read body ctx.mimeType ctx.s3Key.toList ctx.sourceTitle with
    | error e =>
      simp only [hread] at hparsed
      rw [Pipeline.runStages, hparsed] at h
      cases h
    | ok found =>
      simp only [hread] at hparsed
      exact ⟨body, by rw [hsha]; exact hhash,
        coversFile_runStages laws hunicode hread hparsed h⟩

theorem contents_of_forall₂ {ix : Indexer} {ctx : JobContext} {now : Time}
    {chunks : List ChunkRecord} {rows : List DocumentChunk}
    (h : List.Forall₂ (ix.RowOf ctx now) chunks rows) :
    rows.map DocumentChunk.content = chunks.map ChunkRecord.content := by
  induction h with
  | nil => rfl
  | cons hrow _ ih => rw [List.map_cons, List.map_cons, ih, (rowOf_spec hrow).2.2.2.2.1]

/-- A delivery that has no chunks to store yet, or any more. -/
theorem readyOk_of_ne {slot : Slot} (h : ∀ ctx chunks, slot.phase ≠ .ready ctx chunks) :
    ReadyOk names reader w (.worker slot) := by
  intro slot' ctx chunks hslot hphase
  cases hslot
  exact absurd hphase (h ctx chunks)

/-- An actor that is no worker. -/
theorem readyOk_of_not_worker {l : ActorState} (h : ∀ slot, l ≠ .worker slot) :
    ReadyOk names reader w l :=
  fun slot _ _ hslot _ => absurd hslot (h slot)

/-- What a worker stores is of the upload, if what it parses comes from the storage. -/
theorem indexed_delivery {p : Pipeline} {payload : IngestJobPayload} {slot slot' : Slot} {s : Store}
    {e : DeliveryEvent} (laws : LineAlnumLaws reader.unicode.toUnicodeData)
    (hunicode : p.chunker.unicode = reader.unicode.toUnicodeData) (hw : Sound names w)
    (hctx : ∀ ctx, slot.phase.ctx? = some ctx → Belongs w.db ctx.ref)
    (hg : Grows names w { w with store := s })
    (hindexed : Indexed names reader w) (hready : ReadyOk names reader w (.worker slot))
    (hreads : ∀ a ctx, e = .next a → slot.phase = .working ctx → ∃ fault,
      a.parsed = (reader.fetchAndParse w.objects fault ctx).mapError Raised.ingestion)
    (hs : deliveryStep p payload w.store slot e = some (s, slot')) :
    Indexed names reader { w with store := s } ∧
      ReadyOk names reader { w with store := s } (.worker slot') := by
  cases deliveryStep_cases hs with
  | rest idle => exact ⟨hindexed, readyOk_of_ne nofun⟩
  | @stages a ctx chunks working done =>
    refine ⟨hindexed, fun slot₁ ctx₁ chunks₁ hslot hphase => ?_⟩
    cases hslot
    cases hphase
    have hbelongs := hctx ctx (by rw [working]; rfl)
    obtain ⟨fault, hparsed⟩ := hreads a ctx rfl working
    have hversion := hbelongs.version
    refine ⟨?_, ofUpload_stages laws hunicode hw hbelongs hparsed done⟩
    rw [show originOf w.db ctx.documentVersionId = _ from hversion]
    exact Option.some_ne_none _
  | raise error running notCut noFinish => exact ⟨hindexed, readyOk_of_ne nofun⟩
  | cut cutOff => exact ⟨hindexed, readyOk_of_ne nofun⟩
  | activate idle found isOpen activated =>
    obtain ⟨hrow, -⟩ := id_activated found activated
    have hwrite := statusWrite_activated p.statusManager payload hrow activated
    exact ⟨hindexed.of_frame hw hg hwrite.chunks, readyOk_of_ne nofun⟩
  | @finish a ctx f ends =>
    have hwrite := statusWrite_finish p.statusManager ctx f a.finishedAt w.db
    exact ⟨hindexed.of_frame hw hg hwrite.chunks, readyOk_of_ne nofun⟩
  | @persist a ctx chunks persisted ready commits =>
    refine ⟨fun v hne => ?_, readyOk_of_ne nofun⟩
    obtain ⟨hversion, hupload⟩ := hready slot ctx chunks rfl ready
    by_cases hv : v = ctx.documentVersionId
    · subst hv
      rw [show World.db _ = persisted from rfl,
        contents_of_forall₂ (activeChunks_persistTransaction commits)]
      exact hupload.mono hg hversion
    · have hsame := activeChunks_persistTransaction_of_ne commits hv
      simp only [World.db] at hne ⊢
      rw [hsame] at hne ⊢
      exact (hindexed v hne).mono hg (originOf_of_activeChunks hw hne)

theorem parsed_of_reads {l : ActorState} {fault : Option StorageFault} {e : ActorEvent} {job : ℕ}
    {a : Attempt} {slot : Slot} {ctx : JobContext}
    (he : reader.reads w l fault e = .delivery job (.next a)) (hl : l = .worker slot)
    (hphase : slot.phase = .working ctx) :
    a.parsed = (reader.fetchAndParse w.objects fault ctx).mapError Raised.ingestion := by
  subst hl
  obtain ⟨phase, started⟩ := slot
  cases hphase
  unfold DocumentReader.reads at he
  split at he
  · rename_i heq
    cases heq
    cases he
    rfl
  · rename_i hother
    exact absurd rfl (hother job a ctx started he)

/-- One step of any actor keeps the chunks those of the uploads. -/
theorem indexed_step {actor : Actor} {l l' : ActorState} {e : ActorEvent × Option StorageFault}
    (laws : LineAlnumLaws reader.unicode.toUnicodeData)
    (hunicode : ∀ p, actor = .worker p → p.chunker.unicode = reader.unicode.toUnicodeData)
    (hw : Sound names w) (h : ActorOk names actor w l) (hindexed : Indexed names reader w)
    (hready : ReadyOk names reader w l)
    (hs : readingStep names reader actor w l e = some (w', l')) :
    Indexed names reader w' ∧ ReadyOk names reader w' l' := by
  have hg : Grows names w w' := (actorOk_step hw h hs).grows
  unfold readingStep actorStep at hs
  split at hs
  · obtain ⟨⟨w₁, state'⟩, hstep, heq⟩ := Option.map_eq_some_iff.mp hs
    cases heq
    exact ⟨hindexed.of_frame hw hg (chunks_uploadStep hstep), readyOk_of_not_worker nofun⟩
  · obtain ⟨⟨db, state'⟩, hstep, heq⟩ := Option.map_eq_some_iff.mp hs
    cases heq
    refine ⟨hindexed.of_frame hw hg ?_, readyOk_of_not_worker nofun⟩
    rw [db_requestQueue]
    exact chunks_requestStep hstep
  · rename_i p slot job e' he
    split at hs
    · cases hs
    · obtain ⟨⟨s, slot'⟩, hstep, heq⟩ := Option.map_eq_some_iff.mp hs
      cases heq
      refine indexed_delivery laws (hunicode p rfl) hw h hg hindexed hready ?_ hstep
      intro a ctx hnext hphase
      subst hnext
      exact ⟨e.2, parsed_of_reads he rfl hphase⟩
  · cases hs
    exact ⟨hindexed.of_frame hw hg rfl, readyOk_of_not_worker nofun⟩
  · cases hs

end Steps

/-! ## Runs -/

section Runs

variable {ι : Type} [DecidableEq ι] (names : Names) (reader : DocumentReader) (actor : ι → Actor)
  (knowledgeBases : Table KnowledgeBase KnowledgeBase.id) (members : Table KbMember KbMember.key)

/-- `system`, with workers that read the storage. -/
def readingSystem : World × (ι → ActorState) → ι × (ActorEvent × Option StorageFault) →
    Option (World × (ι → ActorState)) :=
  interleave fun i => readingStep names reader (actor i)

/-- In every state of every run, the active chunks of a version cover an object with the hash
    that the upload has recorded for the version. -/
theorem chunks_cover_upload (es : List (ι × (ActorEvent × Option StorageFault)))
    (laws : LineAlnumLaws reader.unicode.toUnicodeData)
    (hunicode : ∀ i p, actor i = .worker p → p.chunker.unicode = reader.unicode.toUnicodeData) :
    Always (readingSystem names reader actor)
      (fun s => ∀ v, s.1.db.activeChunks v ≠ [] → ∃ data,
        s.1.contentHash v = some (names.sha256Hex data) ∧
          CoversFile reader data ((s.1.db.activeChunks v).map DocumentChunk.content))
      (deployed actor knowledgeBases members) es := by
  have hinv : Always (readingSystem names reader actor)
      (fun s => (Sound names s.1 ∧ ∀ i, ActorOk names (actor i) s.1 (s.2 i)) ∧
        Indexed names reader s.1 ∧ ∀ i, ReadyOk names reader s.1 (s.2 i))
      (deployed actor knowledgeBases members) es := by
    refine always_of_inv ?_ es
      ⟨⟨sound_deployed names actor knowledgeBases members, fun i => actorOk_start names (actor i) _⟩,
        fun v hne => absurd rfl hne, fun i slot ctx chunks hslot hphase => ?_⟩
    · intro s ie s' ⟨⟨hw, hactors⟩, hindexed, hready⟩ hs
      obtain ⟨store, l, hl, rfl⟩ := interleave_eq_some.mp hs
      have hstep {l : ActorState} (hl : readingStep names reader (actor ie.1) s.1 (s.2 ie.1) ie.2 =
          some (store, l)) := actorOk_step hw (hactors ie.1) hl
      have hkeep {l : ActorState} (hl : readingStep names reader (actor ie.1) s.1 (s.2 ie.1) ie.2 =
          some (store, l)) :=
        indexed_step laws (hunicode ie.1) hw (hactors ie.1) hindexed (hready ie.1) hl
      refine ⟨⟨(hstep hl).sound, ?_⟩, (hkeep hl).1, ?_⟩
      · exact interleave_stable hs hactors (fun _ _ _ _ hg h => ActorOk.mono hg h) (hstep hl).grows
          fun l hl => (hstep hl).relies
      · exact interleave_stable hs hready (fun _ _ _ _ hg h => ReadyOk.mono hg h) (hstep hl).grows
          fun l hl => (hkeep hl).2
    · -- no actor has begun
      have hstart : (actor i).start = .worker slot := hslot
      cases hactor : actor i with
      | worker p =>
        rw [hactor] at hstart
        cases hstart
        cases hphase
      | upload api r => rw [hactor] at hstart; cases hstart
      | request api r => rw [hactor] at hstart; cases hstart
      | others => rw [hactor] at hstart; cases hstart
  exact hinv.mono fun s h => h.2.1

end Runs

/-- A reader of ASCII text. -/
def plainReader : DocumentReader where
  factory := plainFactory
  readers :=
    { best := fun data => some (some (data.map fun byte => Char.ofNat byte.toNat, some "ascii"))
      decode := fun _ _ => none
      pdfPages := fun _ => none
      docxItems := fun _ => none }
  unicode := .ascii

/-- One user uploads a text, and one worker runs. -/
def uploadTextAndWork : Bool → Actor
  | false =>
    .upload
      { openAiEmbeddingsAvailable := false, ingestMaxAttempts := none, s3Bucket := "documents"
        unicode := .ascii, uploadMaxBytes := 1048576 }
      { kbId := 1, name := "Manual".toList, correlationId := none
        file := { latin1File with
          buffer := "# Retries\nreset the worker before retrying the job".toList.map
            fun c => UInt8.ofNat c.toNat } }
  | true => .worker manualPipeline

/-- The upload, and the delivery of its job. -/
def uploadTextRun : List (Bool × (ActorEvent × Option StorageFault)) :=
  List.replicate 5 (false, .upload { documentId := 1, versionId := 1, jobId := 1 }, none) ++
    List.replicate 4 (true, .delivery 0 (.next manualAttempt), none)

theorem chunks_cover_upload_text :
    ∃ s, exec (readingSystem plainNames plainReader uploadTextAndWork)
        (deployed uploadTextAndWork ⟨[{ id := 1 }], List.nodup_singleton _⟩ .empty) uploadTextRun =
          some s ∧
      ∃ data, s.1.contentHash 1 = some (plainNames.sha256Hex data) ∧
        CoversFile plainReader data ((s.1.db.activeChunks 1).map DocumentChunk.content) := by
  have hruns : ((exec (readingSystem plainNames plainReader uploadTextAndWork)
      (deployed uploadTextAndWork ⟨[{ id := 1 }], List.nodup_singleton _⟩ .empty)
        uploadTextRun).any fun s => s.1.db.activeChunks 1 ≠ []) = true := by
    decide +kernel
  obtain ⟨s, hs, hactive⟩ := (Option.any_eq_true _ _).mp hruns
  refine ⟨s, hs, ?_⟩
  have hall := chunks_cover_upload plainNames plainReader uploadTextAndWork
    ⟨[{ id := 1 }], List.nodup_singleton _⟩ .empty uploadTextRun lineAlnumLaws_ascii fun i p hp => by
      cases i with
      | false => cases hp
      | true => cases hp; rfl
  exact hall.final hs 1 (by simpa using hactive)

end RagStack.Ingest
