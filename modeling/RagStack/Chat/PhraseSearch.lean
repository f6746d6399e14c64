import RagStack.Chat.LexicalQuery

/-!
# Searching for a quoted phrase

Which chunks the lexical query of a question matches, under the `simple`
configuration of PostgreSQL's full-text search. The terms of a quoted phrase are
its words without stop words, short words and repetitions, and `<->` asks for them
next to each other. So `"terms of service"` asks for `terms` before `service`, and
the chunk that contains the phrase is missed.

* `TextSearch` — what is assumed of the parser of `to_tsvector` and `to_tsquery`.
* `quoted_phrase_found_iff`: all chunks that contain the phrase are found exactly
  if the query is read, and one of its clauses starts consecutive words of the
  phrase.
-/

namespace RagStack.Chat

open RagStack.Common RagStack.Api
open RagStack.Worker (Text)
open RagStack.Ingest (DocumentChunk)
open RagStack.Retrieval (Joined lexicalDocumentText)

/-! ## Matching -/

/-- The parser and the `simple` dictionary: the lexemes of a word, in the order of
    their positions. A word of letters and numbers is one lexeme, itself in lower
    case; a word without them is none. -/
structure TextSearch (uni : EcmaUnicode) where
  lower : Text → Text
  lexemes : Text → List Text
  lexemes_alnum : ∀ w, w ≠ [] → (∀ c ∈ w, uni.isAlnum c = true) → lexemes w = [lower w]
  lexemes_symbols : ∀ w, (∀ c ∈ w, uni.isAlnum c = false) → lexemes w = []
  lower_folded : ∀ text w, w <:+: uni.toLowerCase text → lower w = w

variable {uni : EcmaUnicode}

namespace TextSearch

variable (search : TextSearch uni)

/-- The lexemes of a text: `to_tsvector('simple', text)`. -/
def vector (text : Text) : List Text := (words isSpace text).flatMap search.lexemes

/-- The lexemes of the terms of each clause. Clauses without lexemes are dropped. -/
def clauses (query : PrefixQuery) : PrefixQuery :=
  (query.map fun clause => clause.flatMap search.lexemes).filter fun clause => clause ≠ []

/-- `to_tsvector('simple', text) @@ to_tsquery('simple', query)`; a query that is
    refused matches nothing. -/
def matchesSimple (text query : Text) : Bool :=
  match parseQuery isSpace query with
  | none => false
  | some clauses => queryMatches (search.clauses clauses) (search.vector text)

/-- The lexemes of the terms start consecutive words of the list. -/
def StartsIn (terms ws : List Text) : Prop :=
  terms.flatMap search.lexemes ≠ [] ∧ clauseMatches (terms.flatMap search.lexemes) ws = true

theorem queryMatches_clauses_iff {query : PrefixQuery} {document : List Text} :
    queryMatches (search.clauses query) document = true ↔
      ∃ clause ∈ query, search.StartsIn clause document := by
  simp only [queryMatches, clauses, StartsIn, List.any_eq_true, List.mem_filter, List.mem_map,
    decide_eq_true_eq]
  constructor
  · rintro ⟨_, ⟨⟨clause, hclause, rfl⟩, hne⟩, hmatch⟩
    exact ⟨clause, hclause, hne, hmatch⟩
  · rintro ⟨clause, hclause, hne, hmatch⟩
    exact ⟨_, ⟨⟨clause, hclause, rfl⟩, hne⟩, hmatch⟩

/-- A written query matches if it can be read and one of its clauses matches. -/
theorem matchesSimple_renderQuery_iff {query : PrefixQuery} (h : Spaced isSpace query)
    {text : Text} :
    search.matchesSimple text (renderQuery query) = true ↔
      WellFormed isSpace query ∧ ∃ clause ∈ query, search.StartsIn clause (search.vector text) := by
  unfold matchesSimple
  constructor
  · intro hmatch
    split at hmatch
    · cases hmatch
    · rename_i read hread
      have hwell := wellFormed_of_parseQuery isSpace_signs.1 isSpace_signs.2 h hread
      rw [parseQuery_renderQuery isSpace_signs.1 isSpace_signs.2 hwell] at hread
      cases hread
      exact ⟨hwell, search.queryMatches_clauses_iff.mp hmatch⟩
  · rintro ⟨hwell, hclause⟩
    rw [parseQuery_renderQuery isSpace_signs.1 isSpace_signs.2 hwell]
    exact search.queryMatches_clauses_iff.mpr hclause

theorem StartsIn.mono {search : TextSearch uni} {terms part ws : List Text}
    (h : search.StartsIn terms part) (hpart : part <:+: ws) : search.StartsIn terms ws :=
  ⟨h.1, clauseMatches_mono hpart h.2⟩

/-- The vector of a chunk has the lexemes of what occurs in its search text. -/
theorem infix_vector {dc : DocumentChunk} {row : Joined} {ws : List Text}
    (h : ws <:+: words isSpace dc.searchText) :
    ws.flatMap search.lexemes <:+: search.vector (lexicalDocumentText dc row) := by
  have hblank : ∀ c ∈ [' '], isSpace c = true := forall_mem_of_all (by decide)
  obtain ⟨before, after, hws⟩ := h
  rw [vector, lexicalDocumentText, words_join (List.cons_ne_nil _ _) hblank, List.flatMap_cons,
    ← hws]
  simp only [List.flatMap_append, List.append_assoc]
  exact ⟨_, _, List.append_assoc _ _ _⟩

end TextSearch

/-! ## The words of a phrase -/

/-- The words of a phrase of letters and numbers are their own lexemes. -/
theorem lexemes_phrase (search : TextSearch uni) {input phrase : Text}
    (hphrase : phrase ∈ extractQuotedPhrases uni input)
    (hwords : ∀ w ∈ words isSpace phrase, ∀ c ∈ w, uni.isAlnum c = true) :
    (words isSpace phrase).flatMap search.lexemes = words isSpace phrase := by
  have hword : ∀ w ∈ words isSpace phrase, search.lexemes w = [w] := by
    intro w hw
    have hfolded : w <:+: uni.toLowerCase (normalizeQuotedQuery uni input) :=
      infix_of_mem_words_phrase hphrase hw
    rw [search.lexemes_alnum w (mem_words hw).1 (hwords w hw), search.lower_folded _ w hfolded]
  calc (words isSpace phrase).flatMap search.lexemes
      = (words isSpace phrase).flatMap fun w => [w] := List.flatMap_congr hword
    _ = words isSpace phrase := List.flatMap_singleton' _

/-- A chunk that has this search text and no titles with lexemes. -/
def bareChunk (searchText : Text) : DocumentChunk where
  id := 1
  documentId := 1
  documentVersionId := 1
  kbId := 1
  chunkNo := 1
  content := searchText
  searchText := searchText
  tokenCount := 1
  sectionTitle := none
  pageNumber := none
  sourceTitle := "!"
  language := none
  chunkingStrategy := "section_aware"
  chunkingVersion := "section_v2"
  embeddingModel := none
  embeddingDim := none
  embedding := none
  checksum := "0"
  metadataJson :=
    { pageNumbers := []
      pageStart := none
      pageEnd := none
      pageMappingAvailable := false
      tokenEstimator := "char_approx"
      unitCount := 1
      blockKinds := []
      sourceBlockStart := none
      sourceBlockEnd := none
      sectionTitles := []
      sectionPath := none
      sectionPaths := []
      parser := "markdown"
      parserType := "md"
      extractionWarnings := []
      normalization := none
      chunking :=
        { strategy := "section_aware", version := "section_v2", targetTokens := 800,
          overlapTokens := 120 }
      containsStructuredContent := false }
  supersededAt := none
  createdAt := 0
  updatedAt := 0
  chunkNo_pos := by decide
  tokenCount_pos := by decide
  strategy_nonblank := by decide
  version_nonblank := by decide
  checksum_nonblank := by decide
  embedding_consistent := trivial

/-- The rows joined to `bareChunk`. -/
def bareRow : Joined where
  dv := { id := 1, documentId := 1, s3Key := "key", createdAt := 0, updatedAt := 0 }
  d := { id := 1, kbId := 1, name := "!", type := "md", createdAt := 0, updatedAt := 0 }
  kb := { id := 1 }
  km := none

theorem vector_bareChunk (laws : UnicodeLaws uni) (search : TextSearch uni) (searchText : Text) :
    search.vector (lexicalDocumentText (bareChunk searchText) bareRow) =
      (words isSpace searchText).flatMap search.lexemes := by
  have hblank : ∀ c ∈ [' '], isSpace c = true := forall_mem_of_all (by decide)
  have hname : words isSpace "!".toList = ["!".toList] := by decide
  have hsymbol : search.lexemes "!".toList = [] := by
    refine search.lexemes_symbols _ fun c hc => laws.operator_not_alnum c ?_
    rw [List.mem_singleton.mp hc]
    decide
  rw [TextSearch.vector, lexicalDocumentText, words_join (List.cons_ne_nil _ _) hblank]
  simp only [bareChunk, bareRow, List.flatMap_cons, List.flatMap_nil, Option.getD_none, words_nil,
    hname, hsymbol, List.nil_append, List.append_nil, List.flatMap_append]

/-! ## Found phrases -/

/-- Something that the question is searched for starts consecutive words of the
    list: the terms of a quoted phrase, or a term that is in no quoted phrase. -/
def PhraseKept (search : TextSearch uni) (question : Text) (ws : List Text) : Prop :=
  (∃ phrase ∈ extractQuotedPhrases uni (matchText uni question),
      search.StartsIn (searchedWords uni (matchText uni phrase)) ws) ∨
    ∃ token ∈ searchedWords uni (matchText uni (matchText uni question)),
      (∀ phrase ∈ extractQuotedPhrases uni (matchText uni question),
        token ∉ searchedWords uni (matchText uni phrase)) ∧ search.StartsIn [token] ws

theorem exists_clause_startsIn_iff (search : TextSearch uni) {question : Text} {ws : List Text} :
    (∃ clause ∈ lexicalClauses uni (preprocess uni question), search.StartsIn clause ws) ↔
      PhraseKept search question ws := by
  simp only [PhraseKept, ← extractMatchingTerms_eq]
  constructor
  · rintro ⟨clause, hclause, hstarts⟩
    rcases mem_lexicalClauses.mp hclause with ⟨phrase, hphrase, rfl, -⟩ | ⟨token, htoken, rfl, hnot⟩
    · exact Or.inl ⟨phrase, hphrase, hstarts⟩
    · exact Or.inr ⟨token, htoken, hnot, hstarts⟩
  · rintro (⟨phrase, hphrase, hstarts⟩ | ⟨token, htoken, hnot, hstarts⟩)
    · have hne : extractMatchingTerms uni phrase ≠ [] := by
        intro hnil
        rw [hnil] at hstarts
        exact hstarts.1 rfl
      exact ⟨_, mem_lexicalClauses.mpr (Or.inl ⟨phrase, hphrase, rfl, hne⟩), hstarts⟩
    · exact ⟨_, mem_lexicalClauses.mpr (Or.inr ⟨token, htoken, rfl, hnot⟩), hstarts⟩

/-- What it takes that the query of a question matches a text. -/
theorem matchesSimple_lexicalTsQuery_iff (laws : UnicodeLaws uni) (search : TextSearch uni)
    {question text : Text} :
    search.matchesSimple text (lexicalTsQuery uni question) = true ↔
      (NoInnerColon uni (matchText uni question) ∧
        ∀ phrase ∈ extractQuotedPhrases uni (matchText uni question), NoInnerColon uni phrase) ∧
      PhraseKept search question (search.vector text) := by
  rw [lexicalTsQuery, buildLexicalTsQuery_eq,
    search.matchesSimple_renderQuery_iff (spaced_lexicalClauses question),
    wellFormed_lexicalClauses_iff laws, exists_clause_startsIn_iff]

theorem PhraseKept.mono {search : TextSearch uni} {question : Text} {part ws : List Text}
    (h : PhraseKept search question part) (hpart : part <:+: ws) :
    PhraseKept search question ws := by
  obtain ⟨clause, hclause, hstarts⟩ := (exists_clause_startsIn_iff search).mpr h
  exact (exists_clause_startsIn_iff search).mp ⟨clause, hclause, hstarts.mono hpart⟩

/-- Every chunk that contains the words of a quoted phrase in a row is found exactly
    if the query can be read, and the words of the phrase alone are found. -/
theorem quoted_phrase_found_iff (laws : UnicodeLaws uni) (search : TextSearch uni)
    (question phrase : Text) (hphrase : phrase ∈ (preprocess uni question).phrases)
    (hwords : ∀ w ∈ words isSpace phrase, ∀ c ∈ w, uni.isAlnum c = true) :
    (∀ dc row, words isSpace phrase <:+: words isSpace dc.searchText →
        search.matchesSimple (lexicalDocumentText dc row) (lexicalTsQuery uni question) = true) ↔
      (NoInnerColon uni (matchText uni question) ∧
        ∀ other ∈ extractQuotedPhrases uni (matchText uni question), NoInnerColon uni other) ∧
      PhraseKept search question (words isSpace phrase) := by
  have hlexemes := lexemes_phrase search hphrase hwords
  constructor
  · intro hfound
    have hbare := hfound (bareChunk phrase) bareRow List.infix_rfl
    rw [matchesSimple_lexicalTsQuery_iff laws, vector_bareChunk laws, hlexemes] at hbare
    exact hbare
  · rintro ⟨hcolon, hkept⟩ dc row hdc
    refine (matchesSimple_lexicalTsQuery_iff laws search).mpr ⟨hcolon, hkept.mono ?_⟩
    have hpart : (words isSpace phrase).flatMap search.lexemes <:+:
        search.vector (lexicalDocumentText dc row) := search.infix_vector hdc
    rwa [hlexemes] at hpart

/-! ## ASCII text -/

/-- Of ASCII text the lexemes are the runs of letters and digits. -/
def TextSearch.ascii : TextSearch .ascii where
  lower := List.map Char.toLower
  lexemes w := (words (fun c => !EcmaUnicode.ascii.isAlnum c) w).map (List.map Char.toLower)
  lexemes_alnum w hne hw := by
    rw [words_of_no_sep hne fun c hc => by simp [hw c hc]]
    rfl
  lexemes_symbols w hw := by
    rw [words_of_seps fun c hc => by simp [hw c hc]]
    rfl
  lower_folded text w hw := by
    have hself : ∀ c ∈ w, c.toLower = id c := by
      intro c hc
      obtain ⟨d, -, rfl⟩ := List.mem_map.mp (hw.subset hc)
      exact toLower_toLower d
    rw [List.map_congr_left hself, List.map_id]

/-- The hypothesis of `quoted_phrase_found_iff` as a test. -/
theorem alnum_words {phrase : Text}
    (h : ((words isSpace phrase).all fun w => w.all uni.isAlnum) = true) :
    ∀ w ∈ words isSpace phrase, ∀ c ∈ w, uni.isAlnum c = true :=
  fun w hw c hc => List.all_eq_true.mp (List.all_eq_true.mp h w hw) c hc

theorem quoted_phrase_found_night_train :
    (∀ dc row, words isSpace "night train".toList <:+: words isSpace dc.searchText →
        TextSearch.ascii.matchesSimple (lexicalDocumentText dc row)
          (lexicalTsQuery .ascii "When does the \"night train\" leave?".toList) = true) ↔
      (NoInnerColon .ascii (matchText .ascii "When does the \"night train\" leave?".toList) ∧
        ∀ other ∈ extractQuotedPhrases .ascii
          (matchText .ascii "When does the \"night train\" leave?".toList),
          NoInnerColon .ascii other) ∧
      PhraseKept TextSearch.ascii "When does the \"night train\" leave?".toList
        (words isSpace "night train".toList) :=
  quoted_phrase_found_iff UnicodeLaws.ascii TextSearch.ascii _ _ (by decide +kernel)
    (alnum_words (by decide +kernel))

theorem terms_of_service_missed :
    ¬ ∀ question phrase, phrase ∈ (preprocess .ascii question).phrases →
      (∀ w ∈ words isSpace phrase, ∀ c ∈ w, EcmaUnicode.ascii.isAlnum c = true) →
      ∀ dc row, words isSpace phrase <:+: words isSpace dc.searchText →
        TextSearch.ascii.matchesSimple (lexicalDocumentText dc row)
          (lexicalTsQuery .ascii question) = true := by
  intro hall
  have hfound := hall "Where are the \"terms of service\"?".toList "terms of service".toList
    (by decide +kernel) (alnum_words (by decide +kernel))
    (bareChunk "Read the terms of service first.".toList) bareRow (by decide +kernel)
  have hmissed : TextSearch.ascii.matchesSimple
      (lexicalDocumentText (bareChunk "Read the terms of service first.".toList) bareRow)
      (lexicalTsQuery .ascii "Where are the \"terms of service\"?".toList) = false := by
    decide +kernel
  rw [hmissed] at hfound
  cases hfound

end RagStack.Chat
