import RagStack.Ingest.Schema

/-!
# Candidates of a retrieval

`services/api/src/chat/retrieval-query.repository.ts`, lines 66–187: which chunks
satisfy the WHERE clauses of the semantic and of the lexical query. The ranking
and the limit that follow are not part of this module.

* `semanticCandidates`, `lexicalCandidates` — the rows that the clauses admit.
* `hidden_of_status`: the chunks of a document that is not `INDEXED` are
  candidates of no query.
-/

namespace RagStack.Retrieval

open RagStack.Common RagStack.Worker RagStack.Ingest

/-- The functions of PostgreSQL that the clauses call: `LOWER`, and
    `to_tsvector('simple', text) @@ to_tsquery('simple', query)`. -/
structure SqlFunctions where
  lower : String → String
  matchesSimple : Text → String → Bool

/-- `NormalizedChatFilters`. -/
structure NormalizedChatFilters where
  documentIds : List Id := []
  languages : List String := []
deriving DecidableEq, Repr

/-- Who asks, and in which knowledge base. -/
structure Scope where
  kbId : Id
  userId : Id
  isAdmin : Bool
  filters : NormalizedChatFilters := {}
deriving DecidableEq, Repr

/-- The rows that `buildBaseFromClause` joins to a chunk; the member is joined
    from the left. -/
structure Joined where
  dv : DocumentVersion
  d : Document
  kb : KnowledgeBase
  km : Option KbMember

/-- `buildBaseFromClause` (lines 145–153). -/
def buildBaseFromClause (db : Database) (userId : Id) (dc : DocumentChunk) : Option Joined := do
  let dv ← db.versions.get? dc.documentVersionId
  let d ← db.documents.get? dc.documentId
  let kb ← db.knowledgeBases.get? dc.kbId
  return { dv := dv, d := d, kb := kb, km := db.members.get? (kb.id, userId) }

/-- `buildScopeClause` (lines 155–160). -/
def buildScopeClause (scope : Scope) (dc : DocumentChunk) (row : Joined) : Bool :=
  dc.kbId = scope.kbId ∧ (scope.isAdmin = true ∨ row.km.isSome = true)

/-- `buildFilterClause` (lines 162–187). -/
def buildFilterClause (sql : SqlFunctions) (filters : NormalizedChatFilters) (dc : DocumentChunk) :
    Bool :=
  (filters.documentIds = [] ∨ dc.documentId ∈ filters.documentIds) ∧
    (filters.languages = [] ∨ sql.lower (dc.language.getD "") ∈ filters.languages)

/-- The conditions that both queries share (lines 104–108 and 133–137). -/
def baseWhere (sql : SqlFunctions) (scope : Scope) (dc : DocumentChunk) (row : Joined) : Bool :=
  buildScopeClause scope dc row && decide (row.kb.status = .active) &&
    decide (row.d.status = .indexed) && decide (row.dv.status = .indexed) && dc.isActive &&
    buildFilterClause sql scope.filters dc

/-- The WHERE clause of `fetchSemanticCandidates` (lines 103–112). -/
def semanticWhere (sql : SqlFunctions) (scope : Scope) (embeddingModel : String)
    (embeddingDim : ℕ) (dc : DocumentChunk) (row : Joined) : Bool :=
  baseWhere sql scope dc row && dc.embedding.isSome &&
    decide (dc.embeddingModel = some embeddingModel) && decide (dc.embeddingDim = some embeddingDim)

/-- `LEXICAL_DOCUMENT_TEXT` (lines 52–59). -/
def lexicalDocumentText (dc : DocumentChunk) (row : Joined) : Text :=
  join [' '] [dc.searchText, dc.sectionTitle.getD [], dc.sourceTitle.toList, row.d.name.toList]

/-- The WHERE clause of `fetchLexicalCandidates` (lines 132–139). -/
def lexicalWhere (sql : SqlFunctions) (scope : Scope) (lexicalTsQuery : String)
    (dc : DocumentChunk) (row : Joined) : Bool :=
  baseWhere sql scope dc row && sql.matchesSimple (lexicalDocumentText dc row) lexicalTsQuery

/-- The rows of a query with the given clause. -/
def candidates (db : Database) (scope : Scope) (clause : DocumentChunk → Joined → Bool) :
    List DocumentChunk :=
  db.chunkRows.filter fun dc => (buildBaseFromClause db scope.userId dc).any (clause dc)

/-- The rows of `fetchSemanticCandidates`. -/
def semanticCandidates (sql : SqlFunctions) (db : Database) (scope : Scope)
    (embeddingModel : String) (embeddingDim : ℕ) : List DocumentChunk :=
  candidates db scope (semanticWhere sql scope embeddingModel embeddingDim)

/-- The rows of `fetchLexicalCandidates`; without a query there are none
    (lines 121–123). -/
def lexicalCandidates (sql : SqlFunctions) (db : Database) (scope : Scope)
    (lexicalTsQuery : String) : List DocumentChunk :=
  if lexicalTsQuery = "" then [] else candidates db scope (lexicalWhere sql scope lexicalTsQuery)

/-! ## What a candidate is -/

section Candidates

variable {sql : SqlFunctions} {db : Database} {scope : Scope}

theorem buildBaseFromClause_eq_some {userId : Id} {dc : DocumentChunk} {row : Joined}
    (h : buildBaseFromClause db userId dc = some row) :
    db.versions.get? dc.documentVersionId = some row.dv ∧
      db.documents.get? dc.documentId = some row.d ∧
      db.knowledgeBases.get? dc.kbId = some row.kb ∧
      row.km = db.members.get? (row.kb.id, userId) := by
  simp only [buildBaseFromClause, Option.bind_eq_bind, Option.pure_def, Option.bind_eq_some_iff,
    Option.some.injEq] at h
  obtain ⟨dv, hdv, d, hd, kb, hkb, rfl⟩ := h
  exact ⟨hdv, hd, hkb, rfl⟩

/-- A candidate is an active chunk, and its version and document are `INDEXED`. -/
theorem indexed_of_mem_candidates {clause : DocumentChunk → Joined → Bool}
    (hclause : ∀ dc row, clause dc row = true → baseWhere sql scope dc row = true)
    {dc : DocumentChunk} (h : dc ∈ candidates db scope clause) :
    dc ∈ db.chunkRows ∧ dc.isActive = true ∧
      (∃ dv, db.versions.get? dc.documentVersionId = some dv ∧ dv.status = .indexed) ∧
      ∃ d, db.documents.get? dc.documentId = some d ∧ d.status = .indexed := by
  obtain ⟨hmem, hany⟩ := List.mem_filter.mp h
  obtain ⟨row, hrow, hwhere⟩ := (Option.any_eq_true _ _).mp hany
  obtain ⟨hdv, hd, -, -⟩ := buildBaseFromClause_eq_some hrow
  have hbase := hclause dc row hwhere
  simp only [baseWhere, Bool.and_eq_true, decide_eq_true_eq] at hbase
  exact ⟨hmem, hbase.1.2, ⟨_, hdv, hbase.1.1.2⟩, ⟨_, hd, hbase.1.1.1.2⟩⟩

theorem baseWhere_of_semanticWhere {embeddingModel : String} {embeddingDim : ℕ}
    {dc : DocumentChunk} {row : Joined}
    (h : semanticWhere sql scope embeddingModel embeddingDim dc row = true) :
    baseWhere sql scope dc row = true := by
  simp only [semanticWhere, Bool.and_eq_true] at h
  exact h.1.1.1

theorem baseWhere_of_lexicalWhere {lexicalTsQuery : String} {dc : DocumentChunk} {row : Joined}
    (h : lexicalWhere sql scope lexicalTsQuery dc row = true) :
    baseWhere sql scope dc row = true := by
  simp only [lexicalWhere, Bool.and_eq_true] at h
  exact h.1

/-- No query has a chunk of the document among its candidates. -/
def Hidden (db : Database) (documentId : Id) : Prop :=
  ∀ sql scope,
    (∀ embeddingModel embeddingDim, ∀ dc ∈ semanticCandidates sql db scope embeddingModel embeddingDim,
      dc.documentId ≠ documentId) ∧
    ∀ lexicalTsQuery, ∀ dc ∈ lexicalCandidates sql db scope lexicalTsQuery,
      dc.documentId ≠ documentId

theorem hidden_of_status {documentId : Id}
    (h : ∀ d, db.documents.get? documentId = some d → d.status ≠ .indexed) :
    Hidden db documentId := by
  intro sql scope
  constructor
  · rintro embeddingModel embeddingDim dc hdc rfl
    obtain ⟨-, -, -, d, hd, hindexed⟩ :=
      indexed_of_mem_candidates (fun _ _ => baseWhere_of_semanticWhere) hdc
    exact h d hd hindexed
  · rintro lexicalTsQuery dc hdc rfl
    unfold lexicalCandidates at hdc
    split_ifs at hdc
    · cases hdc
    · obtain ⟨-, -, -, d, hd, hindexed⟩ :=
        indexed_of_mem_candidates (fun _ _ => baseWhere_of_lexicalWhere) hdc
      exact h d hd hindexed

end Candidates

end RagStack.Retrieval
