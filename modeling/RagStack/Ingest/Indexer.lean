import RagStack.Ingest.StatusManager

/-!
# `Indexer.persist_chunks`

`app/services/indexer.py`: in one transaction the active chunks of a version are
superseded and the new ones inserted.

* `activeChunks_persistTransaction`: after a commit the active chunks of the
  version are the new rows, in order.
* `activeChunks_persistTransaction_of_ne`: other versions keep theirs.
* `persistTransaction_frame`: no other table changes.
-/

namespace RagStack.Ingest

open RagStack.Common RagStack.Worker

/-- `Indexer`. `serialize` is the number that the text of
    `_serialize_embedding` (twelve decimals) denotes for the column type. -/
structure Indexer where
  serialize : Rat → Rat

/-! ## The transaction -/

/-- `UPDATE "DocumentChunk" SET "supersededAt" = now …` (lines 32–42). -/
def supersede (now : Time) (c : DocumentChunk) : DocumentChunk :=
  { c with supersededAt := some now, updatedAt := now }

/-- The rows that the update touches. -/
def isActiveOf (versionId : Id) (c : DocumentChunk) : Bool :=
  c.documentVersionId = versionId ∧ c.isActive

theorem id_supersede (now : Time) (c : DocumentChunk) : (supersede now c).id = c.id := rfl

theorem isActive_supersede (now : Time) (c : DocumentChunk) : (supersede now c).isActive = false := rfl

/-- Superseding leaves the active rows of the other versions. -/
theorem filter_isActive_supersede (rows : List DocumentChunk) (versionId : Id) (now : Time) :
    (rows.map fun c => if isActiveOf versionId c then supersede now c else c).filter
        DocumentChunk.isActive =
      rows.filter fun c => c.isActive && c.documentVersionId != versionId := by
  induction rows with
  | nil => rfl
  | cons c rows ih =>
    rw [List.map_cons]
    by_cases hact : c.isActive = true
    · by_cases hv : c.documentVersionId = versionId
      · rw [if_pos (by simp [isActiveOf, hv, hact]), List.filter_cons_of_neg (by simp [isActive_supersede]),
          List.filter_cons_of_neg (by simp [hv]), ih]
      · rw [if_neg (by simp [isActiveOf, hv]), List.filter_cons_of_pos hact,
          List.filter_cons_of_pos (by simp [hact, hv]), ih]
    · rw [if_neg (by simp [isActiveOf, hact]), List.filter_cons_of_neg hact,
        List.filter_cons_of_neg (by simp [hact]), ih]

/-- The update of lines 32–42. -/
def ChunkTable.supersedeVersion (t : ChunkTable) (versionId : Id) (now : Time) : ChunkTable where
  table := t.table.updateWhere (isActiveOf versionId) (supersede now) (id_supersede now)
  active_nodup := by
    rw [Table.rows_updateWhere, filter_isActive_supersede]
    refine List.Nodup.sublist (List.Sublist.map _ ?_) t.active_nodup
    apply List.monotone_filter_right
    intro c hc
    exact (Bool.and_eq_true_iff.mp hc).1

/-- The insert; `none` when a primary key or the index on active chunks would be
    violated. -/
def ChunkTable.insertAll? (t : ChunkTable) (new : List DocumentChunk) : Option ChunkTable :=
  match t.table.insertAll? new with
  | none => none
  | some table =>
    if h : ((table.rows.filter DocumentChunk.isActive).map DocumentChunk.versionChunk).Nodup then
      some ⟨table, h⟩
    else none

/-- One row of the insert (lines 95–119); `none` when a CHECK constraint fails. -/
def Indexer.chunkRow? (ix : Indexer) (ctx : JobContext) (now : Time) (id : Id) (c : ChunkRecord) :
    Option DocumentChunk :=
  if h : 0 < c.chunkNo ∧ 0 < c.tokenCount ∧ nonblank c.chunkingStrategy.toList = true ∧
      nonblank c.chunkingVersion.toList = true ∧ nonblank c.checksum.toList = true ∧
      EmbeddingConsistent (c.embedding.map fun e => e.map ix.serialize) c.embeddingModel
        c.embeddingDim then
    some
      { id := id, documentId := ctx.documentId, documentVersionId := ctx.documentVersionId,
        kbId := ctx.kbId, chunkNo := c.chunkNo, content := c.content, searchText := c.searchText,
        tokenCount := c.tokenCount, sectionTitle := c.sectionTitle, pageNumber := c.pageNumber,
        sourceTitle := c.sourceTitle, language := c.language,
        chunkingStrategy := c.chunkingStrategy, chunkingVersion := c.chunkingVersion,
        embeddingModel := c.embeddingModel, embeddingDim := c.embeddingDim,
        embedding := c.embedding.map fun e => e.map ix.serialize, checksum := c.checksum,
        metadataJson := c.metadataJson, supersededAt := none, createdAt := now, updatedAt := now,
        chunkNo_pos := h.1, tokenCount_pos := h.2.1, strategy_nonblank := h.2.2.1,
        version_nonblank := h.2.2.2.1, checksum_nonblank := h.2.2.2.2.1,
        embedding_consistent := h.2.2.2.2.2 }
  else none

/-- The rows of the insert, from the `i`-th on; `newId i` is its UUID. -/
def Indexer.chunkRows? (ix : Indexer) (ctx : JobContext) (now : Time) (newId : ℕ → Id) :
    ℕ → List ChunkRecord → Option (List DocumentChunk)
  | _, [] => some []
  | i, c :: chunks => do
    let row ← ix.chunkRow? ctx now (newId i) c
    let rows ← ix.chunkRows? ctx now newId (i + 1) chunks
    return row :: rows

/-- The foreign keys of a chunk of `ctx`: the knowledge base exists, and version
    and document belong together and to it. -/
def foreignKeysHold (db : Database) (ctx : JobContext) : Bool :=
  (db.knowledgeBases.get? ctx.kbId).isSome &&
    (db.documents.get? ctx.documentId).any (fun d => d.kbId = ctx.kbId) &&
    (db.versions.get? ctx.documentVersionId).any fun v => v.documentId = ctx.documentId

/-- The transaction of `persist_chunks` (lines 30–120); `none` when a statement
    violates a constraint. -/
def Indexer.persistTransaction (ix : Indexer) (ctx : JobContext) (chunks : List ChunkRecord)
    (newId : ℕ → Id) (now : Time) (db : Database) : Option Database := do
  let superseded := db.chunks.supersedeVersion ctx.documentVersionId now
  let rows ← ix.chunkRows? ctx now newId 0 chunks
  if rows = [] ∨ foreignKeysHold db ctx = true then
    let inserted ← superseded.insertAll? rows
    return { db with chunks := inserted }
  else none

/-- Lines 121–131: what an error of the database becomes. -/
def persistError (mentionsVector : Bool) : IngestionError :=
  { code := if mentionsVector then .vectorPersistFailed else .dbWriteFailed
    message := "Failed to persist document chunks"
    retryable := true }

/-- `persist_chunks` (lines 23–131). `fault` is an error of the connection, if
    there is one; the constraint violations have no mention of vectors. -/
def Indexer.persistChunks (ix : Indexer) (ctx : JobContext) (chunks : List ChunkRecord)
    (newId : ℕ → Id) (now : Time) (fault : Option Raised) (db : Database) :
    Except Raised Database :=
  match fault with
  | some (.postgres mentionsVector) => .error (.ingestion (persistError mentionsVector))
  | some raised => .error raised
  | none =>
    match ix.persistTransaction ctx chunks newId now db with
    | some db' => .ok db'
    | none => .error (.ingestion (persistError false))

/-! ## What a commit does -/

/-- `row` is the row that the insert makes of `c`. -/
def Indexer.RowOf (ix : Indexer) (ctx : JobContext) (now : Time) (c : ChunkRecord)
    (row : DocumentChunk) : Prop :=
  ∃ id, ix.chunkRow? ctx now id c = some row

section Specs

variable {ix : Indexer} {ctx : JobContext} {now : Time} {newId : ℕ → Id} {db db' : Database}
  {chunks : List ChunkRecord}

/-- A new row is an active row of the version, with the chunk's own data. -/
theorem rowOf_spec {c : ChunkRecord} {row : DocumentChunk} (h : ix.RowOf ctx now c row) :
    row.documentVersionId = ctx.documentVersionId ∧ row.documentId = ctx.documentId ∧
      row.kbId = ctx.kbId ∧ row.chunkNo = c.chunkNo ∧ row.content = c.content ∧
      row.isActive = true := by
  obtain ⟨id, h⟩ := h
  unfold Indexer.chunkRow? at h
  split_ifs at h
  cases h
  exact ⟨rfl, rfl, rfl, rfl, rfl, rfl⟩

theorem forall₂_chunkRows? :
    ∀ {i : ℕ} {chunks : List ChunkRecord} {rows : List DocumentChunk},
      ix.chunkRows? ctx now newId i chunks = some rows →
      List.Forall₂ (ix.RowOf ctx now) chunks rows := by
  intro i chunks
  induction chunks generalizing i with
  | nil =>
    intro rows h
    cases h
    exact List.Forall₂.nil
  | cons c chunks ih =>
    intro rows h
    simp only [Indexer.chunkRows?, Option.bind_eq_bind, Option.pure_def,
      Option.bind_eq_some_iff, Option.some.injEq] at h
    obtain ⟨row, hrow, rest, hrest, rfl⟩ := h
    exact List.Forall₂.cons ⟨_, hrow⟩ (ih hrest)

theorem isActiveOf_of_forall₂ {rows : List DocumentChunk}
    (h : List.Forall₂ (ix.RowOf ctx now) chunks rows) :
    ∀ row ∈ rows, row.documentVersionId = ctx.documentVersionId ∧ row.isActive = true := by
  induction h with
  | nil => simp
  | cons hrow _ ih =>
    intro row hmem
    rcases List.mem_cons.mp hmem with rfl | hmem
    · exact ⟨(rowOf_spec hrow).1, (rowOf_spec hrow).2.2.2.2.2⟩
    · exact ih row hmem

/-- The new rows have the numbers of the chunks. -/
theorem chunkNos_of_forall₂ {rows : List DocumentChunk}
    (h : List.Forall₂ (ix.RowOf ctx now) chunks rows) :
    rows.map DocumentChunk.chunkNo = chunks.map ChunkRecord.chunkNo := by
  induction h with
  | nil => rfl
  | cons hrow _ ih => rw [List.map_cons, List.map_cons, ih, (rowOf_spec hrow).2.2.2.1]

theorem rows_of_insertAll?_chunks {t t' : ChunkTable} {new : List DocumentChunk}
    (h : t.insertAll? new = some t') : t'.table.rows = t.table.rows ++ new := by
  unfold ChunkTable.insertAll? at h
  cases hins : t.table.insertAll? new with
  | none =>
    rw [hins] at h
    cases h
  | some table =>
    rw [hins] at h
    simp only at h
    split_ifs at h
    cases h
    exact Table.rows_of_insertAll? hins

/-- A commit supersedes the active rows of the version and appends the new ones. -/
theorem persistTransaction_eq_some
    (h : ix.persistTransaction ctx chunks newId now db = some db') :
    ∃ rows inserted, List.Forall₂ (ix.RowOf ctx now) chunks rows ∧
      inserted.table.rows =
        (db.chunks.supersedeVersion ctx.documentVersionId now).table.rows ++ rows ∧
      db' = { db with chunks := inserted } := by
  unfold Indexer.persistTransaction at h
  simp only [Option.bind_eq_bind, Option.pure_def, Option.bind_eq_some_iff] at h
  obtain ⟨rows, hrows, h⟩ := h
  split_ifs at h
  obtain ⟨inserted, hins, h⟩ := Option.bind_eq_some_iff.mp h
  cases h
  exact ⟨rows, inserted, forall₂_chunkRows? hrows, rows_of_insertAll?_chunks hins, rfl⟩

theorem persistChunks_eq_ok {fault : Option Raised}
    (h : ix.persistChunks ctx chunks newId now fault db = .ok db') :
    ix.persistTransaction ctx chunks newId now db = some db' := by
  unfold Indexer.persistChunks at h
  split at h
  · cases h
  · cases h
  · split at h
    · rename_i htx
      cases h
      exact htx
    · cases h

/-- Only the chunk table changes. -/
theorem persistTransaction_frame (h : ix.persistTransaction ctx chunks newId now db = some db') :
    db'.jobs = db.jobs ∧ db'.versions = db.versions ∧ db'.documents = db.documents ∧
      db'.knowledgeBases = db.knowledgeBases ∧ db'.members = db.members := by
  obtain ⟨rows, inserted, -, -, rfl⟩ := persistTransaction_eq_some h
  exact ⟨rfl, rfl, rfl, rfl, rfl⟩

theorem Rows.persistTransaction {payload : IngestJobPayload} {j : IngestJob} {v : DocumentVersion}
    {d : Document} (h : Rows db payload j v d)
    (hp : ix.persistTransaction ctx chunks newId now db = some db') : Rows db' payload j v d := by
  obtain ⟨hjobs, hversions, hdocuments, -, -⟩ := persistTransaction_frame hp
  exact ⟨hjobs ▸ h.job, hversions ▸ h.version, hdocuments ▸ h.document, h.job_version,
    h.version_document⟩

/-- The active chunks of the version are the new rows. -/
theorem activeChunks_persistTransaction
    (h : ix.persistTransaction ctx chunks newId now db = some db') :
    List.Forall₂ (ix.RowOf ctx now) chunks (db'.activeChunks ctx.documentVersionId) := by
  obtain ⟨rows, inserted, hrows, hins, rfl⟩ := persistTransaction_eq_some h
  have hall := isActiveOf_of_forall₂ hrows
  have hold : (db.chunks.supersedeVersion ctx.documentVersionId now).table.rows.filter
      (fun c => c.documentVersionId = ctx.documentVersionId ∧ c.isActive) = [] := by
    rw [List.filter_eq_nil_iff]
    intro c hc hactive
    obtain ⟨c, hmem, rfl⟩ := List.mem_map.mp hc
    by_cases h : isActiveOf ctx.documentVersionId c = true
    · simp [h, isActive_supersede] at hactive
    · rw [if_neg h] at hactive
      exact h (by simpa [isActiveOf] using hactive)
  have hnew : rows.filter
      (fun c => c.documentVersionId = ctx.documentVersionId ∧ c.isActive) = rows :=
    List.filter_eq_self.mpr fun row hrow => by simp [hall row hrow]
  have hactive : ({ db with chunks := inserted } : Database).activeChunks ctx.documentVersionId =
      rows := by
    rw [Database.activeChunks, Database.chunkRows, hins, List.filter_append, hold, hnew,
      List.nil_append]
  rw [hactive]
  exact hrows

/-- The other versions keep their active chunks. -/
theorem activeChunks_persistTransaction_of_ne
    (h : ix.persistTransaction ctx chunks newId now db = some db') {v : Id}
    (hv : v ≠ ctx.documentVersionId) : db'.activeChunks v = db.activeChunks v := by
  obtain ⟨rows, inserted, hrows, hins, rfl⟩ := persistTransaction_eq_some h
  have hall := isActiveOf_of_forall₂ hrows
  have hold : (db.chunks.supersedeVersion ctx.documentVersionId now).table.rows.filter
      (fun c => c.documentVersionId = v ∧ c.isActive) = db.activeChunks v := by
    apply Table.filter_updateWhere_of_imp _ _ _ _ (id_supersede now)
    intro c hc
    have hcv : c.documentVersionId = ctx.documentVersionId := (of_decide_eq_true hc).1
    simp [supersede, hcv, hv.symm]
  have hnew : rows.filter (fun c => c.documentVersionId = v ∧ c.isActive) = [] := by
    rw [List.filter_eq_nil_iff]
    intro row hrow
    simp [(hall row hrow).1, hv.symm]
  rw [Database.activeChunks, Database.chunkRows, hins, List.filter_append, hold, hnew,
    List.append_nil]

end Specs

end RagStack.Ingest
