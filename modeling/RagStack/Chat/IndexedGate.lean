import RagStack.Chat.RetrievalQueries

/-!
# The gate of the indexed chunks

`ask` counts the indexed chunks (chat.service.ts, lines 326–345) and refuses when there are
none; `retrieve` selects them with the clauses of retrieval-query.repository.ts, lines
125–189. Both lower the case of the languages of the filters. The clauses lower the case of
the column as well and read a missing language as the empty text; the count compares the
column as it is. An identifier is the value of a `uuid` column, so the letter case of a
document id in the filters is lost in both.

* `countIndexedChunks_eq_zero_iff`, `eligibleChunks_eq_nil_iff`: what each of them looks for.
* `gateAgrees_iff`: for which filters they agree, and which contents of the database make
  them agree for all filters.
-/

namespace RagStack.Chat

open RagStack.Common RagStack.Api
open RagStack.Worker (Text)
open RagStack.Ingest (Id DocumentChunk)
open RagStack.Access (AuthenticatedUser)
open RagStack.Retrieval (SqlFunctions NormalizedChatFilters Scope Joined buildBaseFromClause
  buildScopeClause buildFilterClause baseWhere candidates semanticWhere lexicalWhere)

/-! ## Eligible chunks -/

/-- The scope of the queries of `retrieve`. -/
def retrievalScope (uni : EcmaUnicode) (user : AuthenticatedUser) (kbId : Id)
    (filters : Option ChatFilters) : Scope where
  kbId := kbId
  userId := user.id
  isAdmin := user.isAdmin
  filters := normalizeFilters uni filters

/-- The chunks that satisfy the conditions that both queries of `retrieve` share. -/
def eligibleChunks (uni : EcmaUnicode) (sql : SqlFunctions) (db : Database)
    (user : AuthenticatedUser) (kbId : Id) (filters : Option ChatFilters) : List DocumentChunk :=
  candidates (searchTables db) (retrievalScope uni user kbId filters)
    (baseWhere sql (retrievalScope uni user kbId filters))

/-- The user passes the scope clause of an active knowledge base. -/
structure PassesScope (db : Database) (user : AuthenticatedUser) (kbId : Id) : Prop where
  kb : ∃ kb, db.knowledgeBases.get? kbId = some kb ∧ kb.status = .active
  member : user.isAdmin = true ∨ (db.members.get? (kbId, user.id)).isSome = true

/-- The gate lets a question through exactly when a chunk is eligible. -/
def GateAgrees (uni : EcmaUnicode) (sql : SqlFunctions) (db : Database)
    (user : AuthenticatedUser) (kbId : Id) (filters : Option ChatFilters) : Prop :=
  countIndexedChunks uni db kbId filters = 0 ↔ eligibleChunks uni sql db user kbId filters = []

/-! ## What both look for -/

/-- An active chunk of the knowledge base whose document and version are `INDEXED`. -/
def isSearched (db : Database) (kbId : Id) (dc : DocumentChunk) : Bool :=
  decide (dc.kbId = kbId) && dc.isActive &&
    (db.documents.get? dc.documentId).any (fun d => d.status = .indexed) &&
    (db.versions.get? dc.documentVersionId).any (fun v => v.status = .indexed)

/-- The searched chunks of the documents of some filters. -/
def searchedChunks (db : Database) (kbId : Id) (documentIds : List Id) : List DocumentChunk :=
  db.chunkRows.filter fun dc =>
    isSearched db kbId dc && (documentIds = [] || documentIds.contains dc.documentId)

/-- The column as the clauses of the queries read it. -/
def foldedLanguage (sql : SqlFunctions) (dc : DocumentChunk) : String :=
  sql.lower (dc.language.getD "")

section Gate

variable {uni : EcmaUnicode} {sql : SqlFunctions} {db : Database} {user : AuthenticatedUser}
  {kbId : Id} {filters : Option ChatFilters}

theorem mem_searchedChunks {documentIds : List Id} {dc : DocumentChunk} :
    dc ∈ searchedChunks db kbId documentIds ↔
      dc ∈ db.chunkRows ∧ isSearched db kbId dc = true ∧
        (documentIds = [] ∨ dc.documentId ∈ documentIds) := by
  simp only [searchedChunks, List.mem_filter, Bool.and_eq_true, Bool.or_eq_true,
    decide_eq_true_eq, List.contains_iff_mem]

theorem isIndexedChunk_iff {dc : DocumentChunk} :
    isIndexedChunk uni db kbId filters dc = true ↔
      isSearched db kbId dc = true ∧
        ((normalizeFilters uni filters).documentIds = [] ∨
          dc.documentId ∈ (normalizeFilters uni filters).documentIds) ∧
        ((normalizeFilters uni filters).languages = [] ∨
          ∃ language ∈ (normalizeFilters uni filters).languages, dc.language = some language) := by
  have hany : ∀ languages : List String, dc.language.any languages.contains = true ↔
      ∃ language ∈ languages, dc.language = some language := by
    intro languages
    cases dc.language with
    | none => simp
    | some stored => simp [eq_comm]
  simp only [isIndexedChunk, isSearched, normalizeFilters, Bool.and_eq_true, Bool.or_eq_true,
    decide_eq_true_eq, List.contains_iff_mem, hany, and_assoc]

/-- The count is zero when no searched chunk of the documents has one of the languages as its
    column has it. -/
theorem countIndexedChunks_eq_zero_iff :
    countIndexedChunks uni db kbId filters = 0 ↔
      ∀ dc ∈ searchedChunks db kbId (normalizeFilters uni filters).documentIds,
        (normalizeFilters uni filters).languages ≠ [] ∧
          ∀ language ∈ (normalizeFilters uni filters).languages, dc.language ≠ some language := by
  simp only [countIndexedChunks, List.countP_eq_zero, isIndexedChunk_iff, mem_searchedChunks]
  constructor
  · rintro hnone dc ⟨hdc, hsearched, hdocument⟩
    have hlanguage := not_and.mp (not_and.mp (hnone dc hdc) hsearched) hdocument
    push Not at hlanguage
    exact hlanguage
  · rintro hnone dc hdc ⟨hsearched, hdocument, hlanguage⟩
    obtain ⟨hne, hdiffers⟩ := hnone dc ⟨hdc, hsearched, hdocument⟩
    rcases hlanguage with hnil | ⟨language, hmem, heq⟩
    · exact hne hnil
    · exact hdiffers language hmem heq

/-- A joined row of a chunk satisfies the shared clauses when the chunk is searched and the
    filters admit it. -/
theorem any_baseWhere_iff (hpasses : PassesScope db user kbId) {dc : DocumentChunk} :
    (buildBaseFromClause (searchTables db) user.id dc).any
        (baseWhere sql (retrievalScope uni user kbId filters) dc) = true ↔
      isSearched db kbId dc = true ∧
        buildFilterClause sql (normalizeFilters uni filters) dc = true := by
  obtain ⟨kb, hkb, hactive⟩ := hpasses.kb
  have hid : (searchKb kb).id = kbId := (Table.key_of_get? hkb : kb.id = kbId)
  have hscope : ∀ row, buildScopeClause (retrievalScope uni user kbId filters) dc row = true ↔
      dc.kbId = kbId ∧ (user.isAdmin = true ∨ row.km.isSome = true) :=
    fun row => decide_eq_true_iff
  rw [Option.any_eq_true]
  simp only [baseWhere, hscope, isSearched, Bool.and_eq_true, decide_eq_true_eq,
    Option.any_eq_true]
  constructor
  · rintro ⟨row, hrow, ⟨⟨⟨⟨⟨hkbId, -⟩, -⟩, hd⟩, hdv⟩, hactiveChunk⟩, hfilter⟩
    obtain ⟨hversion, hdocument, -, -⟩ := Retrieval.buildBaseFromClause_eq_some hrow
    exact ⟨⟨⟨⟨hkbId, hactiveChunk⟩, row.d, hdocument, hd⟩, row.dv, hversion, hdv⟩, hfilter⟩
  · rintro ⟨⟨⟨⟨hkbId, hactiveChunk⟩, d, hdocument, hd⟩, dv, hversion, hdv⟩, hfilter⟩
    have hkbRow : (searchTables db).knowledgeBases.get? dc.kbId = some (searchKb kb) := by
      rw [get?_knowledgeBases_searchTables, hkbId, hkb]
      rfl
    have hmember : user.isAdmin = true ∨
        ((searchTables db).members.get? ((searchKb kb).id, user.id)).isSome = true := by
      rw [get?_members_searchTables, Option.isSome_map, hid]
      exact hpasses.member
    refine ⟨{ dv := dv, d := d, kb := searchKb kb, km := _ }, ?_,
      ⟨⟨⟨⟨⟨hkbId, hmember⟩, hactive⟩, hd⟩, hdv⟩, hactiveChunk⟩, hfilter⟩
    simp only [buildBaseFromClause, versions_searchTables, documents_searchTables, hversion,
      hdocument, hkbRow]
    rfl

/-- No chunk is eligible when no searched chunk of the documents has one of the languages as
    the clauses read the column. -/
theorem eligibleChunks_eq_nil_iff (hpasses : PassesScope db user kbId) :
    eligibleChunks uni sql db user kbId filters = [] ↔
      ∀ dc ∈ searchedChunks db kbId (normalizeFilters uni filters).documentIds,
        (normalizeFilters uni filters).languages ≠ [] ∧
          foldedLanguage sql dc ∉ (normalizeFilters uni filters).languages := by
  have hwhere : ∀ dc, (buildBaseFromClause (searchTables db)
      (retrievalScope uni user kbId filters).userId dc).any
        (baseWhere sql (retrievalScope uni user kbId filters) dc) = true ↔ _ :=
    fun dc => any_baseWhere_iff hpasses
  simp only [eligibleChunks, candidates, List.filter_eq_nil_iff, hwhere, mem_searchedChunks,
    buildFilterClause, foldedLanguage, decide_eq_true_eq]
  constructor
  · rintro hnone dc ⟨hdc, hsearched, hdocument⟩
    exact not_or.mp fun hlanguage => hnone dc hdc ⟨hsearched, hdocument, hlanguage⟩
  · rintro hnone dc hdc ⟨hsearched, hdocument, hlanguage⟩
    exact not_or.mpr (hnone dc ⟨hdc, hsearched, hdocument⟩) hlanguage

/-! ## When they agree -/

/-- A language as both lower it. -/
def loweredLanguage (uni : EcmaUnicode) (language : String) : String :=
  String.ofList (uni.toLowerCase language.toList)

/-- Some searched chunk of the documents has one of the languages as its column has it. -/
def NamesStored (db : Database) (kbId : Id) (filters : NormalizedChatFilters) : Prop :=
  ∃ dc ∈ searchedChunks db kbId filters.documentIds,
    ∃ language ∈ filters.languages, dc.language = some language

/-- Some searched chunk of the documents has one of the languages when its column is folded. -/
def NamesFolded (sql : SqlFunctions) (db : Database) (kbId : Id)
    (filters : NormalizedChatFilters) : Prop :=
  ∃ dc ∈ searchedChunks db kbId filters.documentIds, foldedLanguage sql dc ∈ filters.languages

/-- The searched chunks of each document store the same lower-case languages as their folded
    columns give. -/
def StoresFolded (uni : EcmaUnicode) (sql : SqlFunctions) (db : Database) (kbId : Id) : Prop :=
  ∀ documentId language,
    (∃ dc ∈ searchedChunks db kbId [documentId],
      dc.language = some (loweredLanguage uni language)) ↔
    ∃ dc ∈ searchedChunks db kbId [documentId],
      foldedLanguage sql dc = loweredLanguage uni language

/-- For given filters: without languages, or when a named language is stored just when it is
    the folded column of some chunk. -/
theorem gateAgrees_iff_names (hpasses : PassesScope db user kbId) :
    GateAgrees uni sql db user kbId filters ↔
      (normalizeFilters uni filters).languages = [] ∨
        (NamesStored db kbId (normalizeFilters uni filters) ↔
          NamesFolded sql db kbId (normalizeFilters uni filters)) := by
  rw [GateAgrees, countIndexedChunks_eq_zero_iff, eligibleChunks_eq_nil_iff hpasses]
  by_cases hnil : (normalizeFilters uni filters).languages = []
  · simp only [hnil, ne_eq, not_true_eq_false, false_and, true_or]
  · have hstored : NamesStored db kbId (normalizeFilters uni filters) ↔
        ¬ ∀ dc ∈ searchedChunks db kbId (normalizeFilters uni filters).documentIds,
          ∀ language ∈ (normalizeFilters uni filters).languages, dc.language ≠ some language := by
      push Not
      rfl
    have hfolded : NamesFolded sql db kbId (normalizeFilters uni filters) ↔
        ¬ ∀ dc ∈ searchedChunks db kbId (normalizeFilters uni filters).documentIds,
          foldedLanguage sql dc ∉ (normalizeFilters uni filters).languages := by
      push Not
      rfl
    rw [hstored, hfolded, not_iff_not]
    simp only [hnil, ne_eq, not_false_eq_true, true_and, false_or]

theorem mem_searchedChunks_self {documentIds : List Id} {dc : DocumentChunk}
    (h : dc ∈ searchedChunks db kbId documentIds) :
    dc ∈ searchedChunks db kbId [dc.documentId] := by
  obtain ⟨hdc, hsearched, -⟩ := mem_searchedChunks.mp h
  exact mem_searchedChunks.mpr ⟨hdc, hsearched, Or.inr (List.mem_singleton.mpr rfl)⟩

/-- The searched chunks of a document are among those of all documents that are named. -/
theorem mem_searchedChunks_of_self {documentIds : List Id} {dc dc' : DocumentChunk}
    (h : dc ∈ searchedChunks db kbId documentIds)
    (h' : dc' ∈ searchedChunks db kbId [dc.documentId]) :
    dc' ∈ searchedChunks db kbId documentIds := by
  obtain ⟨-, -, hdocument⟩ := mem_searchedChunks.mp h
  obtain ⟨hdc', hsearched', hsame⟩ := mem_searchedChunks.mp h'
  have heq : dc'.documentId = dc.documentId := by simpa using hsame
  exact mem_searchedChunks.mpr ⟨hdc', hsearched', heq ▸ hdocument⟩

/-- The languages of normalized filters are lowered. -/
theorem exists_of_mem_languages {language : String}
    (h : language ∈ (normalizeFilters uni filters).languages) :
    ∃ asked, language = loweredLanguage uni asked := by
  obtain ⟨asked, -, rfl⟩ := List.mem_map.mp h
  exact ⟨asked, rfl⟩

theorem names_iff_of_storesFolded (h : StoresFolded uni sql db kbId) :
    NamesStored db kbId (normalizeFilters uni filters) ↔
      NamesFolded sql db kbId (normalizeFilters uni filters) := by
  constructor
  · rintro ⟨dc, hdc, language, hlanguage, hstored⟩
    obtain ⟨asked, rfl⟩ := exists_of_mem_languages hlanguage
    obtain ⟨dc', hdc', hfolded⟩ :=
      (h dc.documentId asked).mp ⟨dc, mem_searchedChunks_self hdc, hstored⟩
    exact ⟨dc', mem_searchedChunks_of_self hdc hdc', hfolded ▸ hlanguage⟩
  · rintro ⟨dc, hdc, hfolded⟩
    obtain ⟨asked, hasked⟩ := exists_of_mem_languages hfolded
    obtain ⟨dc', hdc', hstored⟩ :=
      (h dc.documentId asked).mpr ⟨dc, mem_searchedChunks_self hdc, hasked⟩
    exact ⟨dc', mem_searchedChunks_of_self hdc hdc', _, hasked ▸ hfolded, hstored⟩

/-- For all filters: when the searched chunks of each document store the languages that their
    folded columns give. The filters that name one document and one language show it. -/
theorem forall_gateAgrees_iff (hpasses : PassesScope db user kbId) :
    (∀ filters, GateAgrees uni sql db user kbId filters) ↔ StoresFolded uni sql db kbId := by
  constructor
  · intro hagrees documentId language
    have hnames := (gateAgrees_iff_names hpasses).mp
      (hagrees (some { documentIds := some [documentId], languages := some [language] }))
    have hstored := hnames.resolve_left (List.cons_ne_nil _ _)
    simp only [NamesStored, NamesFolded, normalizeFilters, Option.bind_some, Option.getD_some,
      List.map_cons, List.map_nil, List.mem_singleton, exists_eq_left] at hstored
    exact hstored
  · intro hstores filters
    exact (gateAgrees_iff_names hpasses).mpr (Or.inr (names_iff_of_storesFolded hstores))

/-- When `LOWER` is the lowering of the filters, this says that beside each searched chunk
    there is one of the same document that stores the folded language. -/
theorem storesFolded_iff (hlower : ∀ language, sql.lower language = loweredLanguage uni language)
    (hidem : ∀ language,
      loweredLanguage uni (loweredLanguage uni language) = loweredLanguage uni language) :
    StoresFolded uni sql db kbId ↔
      ∀ dc ∈ searchedChunks db kbId [],
        ∃ dc' ∈ searchedChunks db kbId [dc.documentId],
          dc'.language = some (foldedLanguage sql dc) := by
  constructor
  · intro hstores dc hdc
    have hfolded : foldedLanguage sql dc = loweredLanguage uni (dc.language.getD "") := hlower _
    rw [hfolded]
    exact (hstores dc.documentId _).mpr ⟨dc, mem_searchedChunks_self hdc, hfolded⟩
  · intro hbeside documentId language
    constructor
    · rintro ⟨dc, hdc, hstored⟩
      refine ⟨dc, hdc, ?_⟩
      rw [foldedLanguage, hstored, Option.getD_some, hlower, hidem]
    · rintro ⟨dc, hdc, hfolded⟩
      obtain ⟨hrow, hsearched, -⟩ := mem_searchedChunks.mp hdc
      obtain ⟨dc', hdc', hstored⟩ :=
        hbeside dc (mem_searchedChunks.mpr ⟨hrow, hsearched, Or.inl rfl⟩)
      exact ⟨dc', mem_searchedChunks_of_self hdc hdc', hfolded ▸ hstored⟩

end Gate

/-- For a user in the scope of an active knowledge base, the gate agrees with the queries for
    all filters exactly when the searched chunks of each document store the languages that
    their folded columns give; for given filters, when they name no language, or a language is
    named as some chunk stores it just when one is named as some column is folded. -/
theorem gateAgrees_iff (uni : EcmaUnicode) (sql : SqlFunctions) (db : Database)
    (user : AuthenticatedUser) (kbId : Id) (hpasses : PassesScope db user kbId) :
    ((∀ filters, GateAgrees uni sql db user kbId filters) ↔ StoresFolded uni sql db kbId) ∧
      ∀ filters, GateAgrees uni sql db user kbId filters ↔
        (normalizeFilters uni filters).languages = [] ∨
          (NamesStored db kbId (normalizeFilters uni filters) ↔
            NamesFolded sql db kbId (normalizeFilters uni filters)) :=
  ⟨forall_gateAgrees_iff hpasses, fun _ => gateAgrees_iff_names hpasses⟩

/-- Search functions that lower ASCII letters, for a query whose words are in the text. -/
def guideSearch : SearchFunctions where
  lower := loweredLanguage .ascii
  matchesSimple _ _ := true
  distance _ _ := none
  rankCd _ _ := 1 / 10
  acceptsQuery _ := true

/-- The chunk of `guideDb`, with a language in its column. -/
def labelledChunk (language : String) : DocumentChunk :=
  { bareChunk "Install the worker.".toList with language := some language }

def labelledDb (language : String) : Database :=
  { guideDb with
    chunks := ⟨⟨[labelledChunk language], List.nodup_singleton _⟩, List.nodup_singleton _⟩ }

theorem gateAgrees_iff_guide :
    ((∀ filters, GateAgrees .ascii guideSearch.toSqlFunctions guideDb { id := 1 } 1 filters) ↔
        StoresFolded .ascii guideSearch.toSqlFunctions guideDb 1) ∧
      ∀ filters, GateAgrees .ascii guideSearch.toSqlFunctions guideDb { id := 1 } 1 filters ↔
        (normalizeFilters .ascii filters).languages = [] ∨
          (NamesStored guideDb 1 (normalizeFilters .ascii filters) ↔
            NamesFolded guideSearch.toSqlFunctions guideDb 1
              (normalizeFilters .ascii filters)) :=
  gateAgrees_iff _ _ _ _ _ ⟨⟨_, rfl, rfl⟩, Or.inr rfl⟩

/-- What `ask` reads for the question of `workerQuestion` with a language. -/
def readsIn (db : Database) (language : String) : AskReads :=
  retrievalReads .ascii guideSearch
    { semanticCandidateLimit := 24
      lexicalCandidateLimit := 24
      configuredEmbeddingModel := "text-embedding-3-small"
      createQueryEmbedding := fun _ => none } db { id := 1 } 1
    { workerQuestion with filters := some { languages := some [language] } }

/-- A chunk without a language, asked for with the empty text, and a chunk in `EN`, asked for
    with `EN`: the gate counts none, and the lexical query returns the chunk. -/
theorem gate_misses_chunk :
    (¬ GateAgrees .ascii guideSearch.toSqlFunctions guideDb { id := 1 } 1
        (some { languages := some [""] }) ∧
      (readsIn guideDb "").indexedChunkCount = 0 ∧
      (readsIn guideDb "").lexical.toOption.map List.length = some 1) ∧
    ¬ GateAgrees .ascii guideSearch.toSqlFunctions (labelledDb "EN") { id := 1 } 1
        (some { languages := some ["EN"] }) ∧
      (readsIn (labelledDb "EN") "EN").indexedChunkCount = 0 ∧
      (readsIn (labelledDb "EN") "EN").lexical.toOption.map List.length = some 1 := by
  unfold GateAgrees
  decide +kernel

end RagStack.Chat
