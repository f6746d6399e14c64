import RagStack.Chat.ScoringUtils
import RagStack.Common.PrefixQuery

/-!
# The lexical query of a question

`services/api/src/chat/query-normalizer.service.ts` and `buildLexicalTsQuery` of
`retrieval-query.repository.ts`. Of the operators of `to_tsquery` the filter lets
the colon through, so a word such as `10:30` becomes a term that is refused.

* `UnicodeLaws` — what the argument needs to know of NFKC and of lower case.
* `lexical_query_parses_iff`: the query of a question is well formed exactly if
  no word of the question, or of one of its quoted phrases, has a colon between
  letters or numbers.
-/

namespace RagStack.Chat

open RagStack.Common RagStack.Api
open RagStack.Worker (Text)

/-! ## Preprocessing -/

/-- `preprocess` (query-normalizer.service.ts, lines 17–39). -/
def preprocess (uni : EcmaUnicode) (query : Text) : NormalizedRetrievalQuery :=
  let sanitized := normalizeQuotedQuery uni query
  let normalizedText := uni.toLowerCase sanitized
  let phrases := extractQuotedPhrases uni normalizedText
  let tokens := extractMatchingTerms uni normalizedText
  let phraseTokens := phrases.flatMap (extractMatchingTerms uni)
  { rawQuery := query
    normalizedText := normalizedText
    lexicalText := join [' '] (phrases.map (fun phrase => '"' :: phrase ++ ['"']) ++
      tokens.filter fun token => !phraseTokens.contains token)
    tokens := tokens
    phrases := phrases
    freshnessIntent := detectFreshnessIntent tokens phrases
    questionLike := detectQuestionLikeQuery uni query tokens }

/-- `buildLexicalTsQuery` (retrieval-query.repository.ts, lines 300–319). -/
def buildLexicalTsQuery (uni : EcmaUnicode) (query : NormalizedRetrievalQuery) : Text :=
  let phraseTerms := query.phrases.map (extractMatchingTerms uni)
  let phraseClauses := (phraseTerms.filter fun tokens => tokens ≠ []).map renderClause
  let tokenClauses :=
    (query.tokens.filter fun token => !phraseTerms.flatten.contains token).map prefixTerm
  join " | ".toList (phraseClauses ++ tokenClauses)

/-- The terms of the clauses that `buildLexicalTsQuery` writes. -/
def lexicalClauses (uni : EcmaUnicode) (query : NormalizedRetrievalQuery) : PrefixQuery :=
  let phraseTerms := query.phrases.map (extractMatchingTerms uni)
  (phraseTerms.filter fun tokens => tokens ≠ []) ++
    (query.tokens.filter fun token => !phraseTerms.flatten.contains token).map fun token => [token]

theorem buildLexicalTsQuery_eq (uni : EcmaUnicode) (query : NormalizedRetrievalQuery) :
    buildLexicalTsQuery uni query = renderQuery (lexicalClauses uni query) := by
  have hsingle : ∀ token : Text, renderClause [token] = prefixTerm token := by
    intro token
    simp [renderClause]
  simp [buildLexicalTsQuery, renderQuery, lexicalClauses, Function.comp_def, hsingle]

/-- The query that `fetchLexicalCandidates` runs for a question. -/
def lexicalTsQuery (uni : EcmaUnicode) (question : Text) : Text :=
  buildLexicalTsQuery uni (preprocess uni question)

/-! ## The Unicode tables -/

/-- Facts about the Unicode tables. `hasCompat` holds of the characters with a
    compatibility decomposition: NFKC leaves none, and lower case makes none.
    Where there are none, NFKC makes no operator; lower case never does. -/
structure UnicodeLaws (uni : EcmaUnicode) where
  hasCompat : Char → Bool
  ascii_noCompat : ∀ c, c.toNat < 128 → hasCompat c = false
  operator_not_alnum : ∀ c, isOperator c = true → uni.isAlnum c = false
  nfkc_noCompat : ∀ text, ∀ c ∈ uni.nfkc text, hasCompat c = false
  nfkc_operator : ∀ text, (∀ c ∈ text, hasCompat c = false) →
    ∀ c ∈ uni.nfkc text, isOperator c = true → c ∈ text
  lower_noCompat : ∀ text, (∀ c ∈ text, hasCompat c = false) →
    ∀ c ∈ uni.toLowerCase text, hasCompat c = false
  lower_operator : ∀ text, ∀ c ∈ uni.toLowerCase text, isOperator c = true → c ∈ text

section Clean

variable {uni : EcmaUnicode} (laws : UnicodeLaws uni)
include laws

/-- No character of the text has a compatibility decomposition. -/
def UnicodeLaws.Clean (text : Text) : Prop := ∀ c ∈ text, laws.hasCompat c = false

variable {laws}

theorem UnicodeLaws.Clean.collapseSpaces {text : Text} (h : laws.Clean text) :
    laws.Clean (collapseSpaces text) := by
  intro c hc
  rcases mem_collapseSpaces hc with hc | rfl
  · exact h c hc
  · exact laws.ascii_noCompat _ (by decide)

/-- The normal form of any text is clean. -/
theorem clean_matchText (input : Text) : laws.Clean (matchText uni input) := by
  have hnormal : ∀ text, laws.Clean (normalizeWhitespace uni text) := fun text =>
    UnicodeLaws.Clean.collapseSpaces (laws.nfkc_noCompat text)
  refine laws.lower_noCompat _ ?_
  unfold normalizeQuotedQuery
  simp only
  split_ifs
  · refine UnicodeLaws.Clean.collapseSpaces fun c hc => ?_
    obtain ⟨d, hd, rfl⟩ := List.mem_map.mp hc
    unfold unquote
    split_ifs
    · exact laws.ascii_noCompat _ (by decide)
    · exact hnormal _ d hd
  · exact hnormal _

theorem clean_of_mem_extractQuotedPhrases {input phrase : Text}
    (h : phrase ∈ extractQuotedPhrases uni input) : laws.Clean phrase := by
  obtain ⟨body, hbody, -, rfl⟩ := exists_of_mem_extractQuotedPhrases h
  exact UnicodeLaws.Clean.collapseSpaces fun c hc => clean_matchText input c (hbody.subset hc)

omit laws in
/-- The only operator that the filter lets through is the colon. -/
theorem colon_of_isQueryChar (laws : UnicodeLaws uni) {c : Char} (hc : isQueryChar uni c = true)
    (hop : isOperator c = true) : c = ':' := by
  have halnum := laws.operator_not_alnum c hop
  have hcases : ∀ d ∈ ":&|!()<>'*\\".toList, isSpace d = false ∧
      ("-_/.:\"".toList.contains d = true → d = ':') := forall_mem_of_all (by decide)
  have hmem : c ∈ ":&|!()<>'*\\".toList := by simpa [isOperator] using hop
  obtain ⟨hspace, hlist⟩ := hcases c hmem
  simp only [isQueryChar, halnum, hspace, Bool.false_or] at hc
  exact hlist hc

/-- The only operator in the normal form of a clean text is the colon. -/
theorem colon_of_mem_matchText {input : Text} (hinput : laws.Clean input) {c : Char}
    (hc : c ∈ matchText uni input) (hop : isOperator c = true) : c = ':' := by
  have hblank : isOperator ' ' = false := by decide
  -- what the filter leaves is clean, and NFKC adds no operator to it
  have hfiltered : ∀ d ∈ normalizeWhitespace uni
      ((input.map straightenQuote).map fun c => if isQueryChar uni c then c else ' '),
      isOperator d = true → d = ':' := by
    intro d hd hdop
    rcases mem_collapseSpaces hd with hd | rfl
    · have hclean : laws.Clean
          ((input.map straightenQuote).map fun c => if isQueryChar uni c then c else ' ') := by
        intro e he
        obtain ⟨e', he', rfl⟩ := List.mem_map.mp he
        obtain ⟨e'', he'', rfl⟩ := List.mem_map.mp he'
        split_ifs
        · unfold straightenQuote
          split_ifs
          · exact laws.ascii_noCompat _ (by decide)
          · exact laws.ascii_noCompat _ (by decide)
          · exact hinput e'' he''
        · exact laws.ascii_noCompat _ (by decide)
      obtain ⟨e, -, heq⟩ := List.mem_map.mp (laws.nfkc_operator _ hclean d hd hdop)
      split_ifs at heq with hquery
      · subst heq
        exact colon_of_isQueryChar laws hquery hdop
      · subst heq
        rw [hblank] at hdop
        cases hdop
    · rw [hblank] at hdop
      cases hdop
  have hmem := laws.lower_operator _ c hc hop
  unfold normalizeQuotedQuery at hmem
  simp only at hmem
  split_ifs at hmem
  · rcases mem_collapseSpaces hmem with hmem | rfl
    · obtain ⟨d, hd, rfl⟩ := List.mem_map.mp hmem
      unfold unquote at hop ⊢
      split_ifs at hop ⊢
      · rw [hblank] at hop
        cases hop
      · exact hfiltered d hd hop
    · rw [hblank] at hop
      cases hop
  · exact hfiltered c hmem hop

end Clean

/-! ## Colons -/

/-- The word has a colon with letters or numbers on both sides. -/
def InnerColon (uni : EcmaUnicode) (w : Text) : Prop :=
  ∃ u v, w = u ++ ':' :: v ∧ (∃ c ∈ u, uni.isAlnum c = true) ∧ ∃ c ∈ v, uni.isAlnum c = true

/-- No word of the normal form of the text has an inner colon. -/
def NoInnerColon (uni : EcmaUnicode) (text : Text) : Prop :=
  ∀ w ∈ words isTermBreak (matchText uni text), ¬ InnerColon uni w

section Colons

variable {uni : EcmaUnicode}

theorem isWord_of_mem_extractMatchingTerms {input token : Text}
    (h : token ∈ extractMatchingTerms uni input) : IsWord isSpace token := by
  obtain ⟨⟨w, hw, rfl⟩, hlen, -⟩ := mem_extractMatchingTerms.mp h
  constructor
  · intro hnil
    rw [hnil] at hlen
    exact absurd hlen (by decide)
  · intro c hc
    have hbreak := (mem_words hw).2 c ((isInfix_strip _ w).subset hc)
    exact (Bool.or_eq_false_iff.mp hbreak).1

/-- A word has an inner colon exactly if its term has a colon. -/
theorem innerColon_iff (laws : UnicodeLaws uni) {w : Text} :
    InnerColon uni w ↔ ':' ∈ strip (isTermEdge uni) w := by
  have hcolon : isTermEdge uni ':' = true := by
    simp [isTermEdge, laws.operator_not_alnum ':' (by decide)]
  rw [sep_mem_strip_iff hcolon]
  simp [InnerColon, isTermEdge]

/-- What has a colon inside is no stop word, and long enough. -/
theorem mem_extractMatchingTerms_of_innerColon (laws : UnicodeLaws uni) {input w : Text}
    (hw : w ∈ words isTermBreak (matchText uni input)) (h : InnerColon uni w) :
    strip (isTermEdge uni) w ∈ extractMatchingTerms uni input := by
  have hmem := (innerColon_iff laws).mp h
  refine mem_extractMatchingTerms.mpr ⟨⟨w, hw, rfl⟩, ?_, fun hstop => ?_⟩
  · have hlen : 2 ≤ (strip (isTermEdge uni) w).length := by
      have hhead := head?_strip (isTermEdge uni) w
      cases hs : strip (isTermEdge uni) w with
      | nil => rw [hs] at hmem; cases hmem
      | cons c rest =>
        rw [hs] at hmem hhead
        have hc : c ≠ ':' := by
          rintro rfl
          have hedge := hhead ':' (by simp)
          simp [isTermEdge, laws.operator_not_alnum ':' (by decide)] at hedge
        have hrest : ':' ∈ rest := (List.mem_cons.mp hmem).resolve_left (Ne.symm hc)
        have hpos := List.length_pos_of_mem hrest
        simp only [List.length_cons]
        omega
    exact hlen.trans (length_le_utf16Length _)
  · have hnone : ∀ s ∈ MATCH_STOP_WORDS, ':' ∉ s.toList := by decide +kernel
    exact hnone _ hstop (by simpa using hmem)

theorem noInnerColon_iff (laws : UnicodeLaws uni) {input : Text} :
    NoInnerColon uni input ↔ ∀ token ∈ extractMatchingTerms uni input, ':' ∉ token := by
  constructor
  · intro h token htoken hmem
    obtain ⟨⟨w, hw, rfl⟩, -, -⟩ := mem_extractMatchingTerms.mp htoken
    exact h w hw ((innerColon_iff laws).mpr hmem)
  · intro h w hw hinner
    exact h _ (mem_extractMatchingTerms_of_innerColon laws hw hinner)
      ((innerColon_iff laws).mp hinner)

/-- The terms of a clean text are lexemes exactly if they have no colon. -/
theorem isLexeme_iff {laws : UnicodeLaws uni} {input token : Text} (hinput : laws.Clean input)
    (h : token ∈ extractMatchingTerms uni input) : IsLexeme isSpace token ↔ ':' ∉ token := by
  constructor
  · intro hlexeme hmem
    exact absurd (hlexeme.2 ':' hmem) (by decide)
  · intro hmem
    refine ⟨isWord_of_mem_extractMatchingTerms h, fun c hc => ?_⟩
    by_contra hop
    obtain ⟨⟨w, hw, rfl⟩, -, -⟩ := mem_extractMatchingTerms.mp h
    have hcw : c ∈ matchText uni input :=
      (infix_of_mem_words hw).subset ((isInfix_strip _ w).subset hc)
    rw [colon_of_mem_matchText hinput hcw (by simpa using hop)] at hc
    exact hmem hc

/-! ## The query -/

theorem mem_lexicalClauses {query : NormalizedRetrievalQuery} {clause : List Text} :
    clause ∈ lexicalClauses uni query ↔
      (∃ phrase ∈ query.phrases, clause = extractMatchingTerms uni phrase ∧ clause ≠ []) ∨
        ∃ token ∈ query.tokens, clause = [token] ∧
          ∀ phrase ∈ query.phrases, token ∉ extractMatchingTerms uni phrase := by
  simp only [lexicalClauses, List.mem_append, List.mem_filter, List.mem_map, List.mem_flatten,
    List.contains_iff_mem, Bool.not_eq_true', Bool.eq_false_iff, ne_eq, decide_eq_true_eq]
  constructor
  · rintro (⟨⟨phrase, hphrase, rfl⟩, hne⟩ | ⟨token, ⟨htoken, hnot⟩, rfl⟩)
    · exact Or.inl ⟨phrase, hphrase, rfl, hne⟩
    · refine Or.inr ⟨token, htoken, rfl, fun phrase hphrase hmem => hnot ?_⟩
      exact ⟨_, ⟨phrase, hphrase, rfl⟩, hmem⟩
  · rintro (⟨phrase, hphrase, rfl, hne⟩ | ⟨token, htoken, rfl, hnot⟩)
    · exact Or.inl ⟨⟨phrase, hphrase, rfl⟩, hne⟩
    · refine Or.inr ⟨token, ⟨htoken, ?_⟩, rfl⟩
      rintro ⟨_, ⟨phrase, hphrase, rfl⟩, hmem⟩
      exact hnot phrase hphrase hmem

theorem spaced_lexicalClauses (question : Text) :
    Spaced isSpace (lexicalClauses uni (preprocess uni question)) := by
  intro clause hclause
  rcases mem_lexicalClauses.mp hclause with ⟨phrase, -, rfl, hne⟩ | ⟨token, htoken, rfl, -⟩
  · exact ⟨hne, fun token htoken => isWord_of_mem_extractMatchingTerms htoken⟩
  · refine ⟨List.cons_ne_nil _ _, fun other hother => ?_⟩
    rw [List.mem_singleton.mp hother]
    exact isWord_of_mem_extractMatchingTerms htoken

/-- The clauses have proper lexemes exactly if no word has an inner colon. -/
theorem wellFormed_lexicalClauses_iff (laws : UnicodeLaws uni) (question : Text) :
    WellFormed isSpace (lexicalClauses uni (preprocess uni question)) ↔
      NoInnerColon uni (matchText uni question) ∧
        ∀ phrase ∈ extractQuotedPhrases uni (matchText uni question), NoInnerColon uni phrase := by
  have hclean : laws.Clean (matchText uni question) := clean_matchText question
  have hphrases : ∀ phrase ∈ extractQuotedPhrases uni (matchText uni question),
      laws.Clean phrase := fun phrase h => clean_of_mem_extractQuotedPhrases h
  simp only [noInnerColon_iff laws]
  constructor
  · intro hwell
    have hphrase : ∀ phrase ∈ extractQuotedPhrases uni (matchText uni question),
        ∀ token ∈ extractMatchingTerms uni phrase, ':' ∉ token := by
      intro phrase hphrase token htoken
      have hclause : extractMatchingTerms uni phrase ∈
          lexicalClauses uni (preprocess uni question) :=
        mem_lexicalClauses.mpr (Or.inl ⟨phrase, hphrase, rfl, List.ne_nil_of_mem htoken⟩)
      exact (isLexeme_iff (hphrases phrase hphrase) htoken).mp ((hwell _ hclause).2 token htoken)
    refine ⟨fun token htoken => ?_, hphrase⟩
    by_cases hin : ∃ phrase ∈ extractQuotedPhrases uni (matchText uni question),
        token ∈ extractMatchingTerms uni phrase
    · obtain ⟨phrase, hmem, hterm⟩ := hin
      exact hphrase phrase hmem token hterm
    · have hclause : [token] ∈ lexicalClauses uni (preprocess uni question) :=
        mem_lexicalClauses.mpr
          (Or.inr ⟨token, htoken, rfl, fun phrase hmem hterm => hin ⟨phrase, hmem, hterm⟩⟩)
      exact (isLexeme_iff hclean htoken).mp ((hwell _ hclause).2 token (by simp))
  · rintro ⟨htokens, hterms⟩ clause hclause
    rcases mem_lexicalClauses.mp hclause with ⟨phrase, hphrase, rfl, hne⟩ | ⟨token, htoken, rfl, -⟩
    · exact ⟨hne, fun token htoken =>
        (isLexeme_iff (hphrases phrase hphrase) htoken).mpr (hterms phrase hphrase token htoken)⟩
    · refine ⟨List.cons_ne_nil _ _, fun other hother => ?_⟩
      rw [List.mem_singleton.mp hother]
      exact (isLexeme_iff hclean htoken).mpr (htokens token htoken)

theorem isSpace_signs : isSpace ' ' = true ∧ ∀ c ∈ ":*<->|".toList, isSpace c = false :=
  ⟨by decide, forall_mem_of_all (by decide)⟩

end Colons

/-- The query of a question is a sequence of clauses of proper lexemes exactly if
    no word of the normalized question, or of one of its quoted phrases, has a
    colon between letters or numbers. -/
theorem lexical_query_parses_iff (uni : EcmaUnicode) (laws : UnicodeLaws uni) (question : Text) :
    QueryText isSpace (lexicalTsQuery uni question) ↔
      NoInnerColon uni (matchText uni question) ∧
        ∀ phrase ∈ extractQuotedPhrases uni (matchText uni question), NoInnerColon uni phrase := by
  rw [lexicalTsQuery, buildLexicalTsQuery_eq,
    queryText_renderQuery_iff isSpace_signs.1 isSpace_signs.2 (spaced_lexicalClauses question)]
  exact wellFormed_lexicalClauses_iff laws question

/-- Lower case makes letters, and no operator is a letter. -/
theorem toLower_of_isOperator {d : Char} (hop : isOperator d.toLower = true) : d.toLower = d := by
  by_cases hupper : d.val ≥ 'A'.val ∧ d.val ≤ 'Z'.val
  · exfalso
    obtain ⟨hrange, hval⟩ := toNat_toLower hupper
    have hsigns : ∀ c ∈ ":&|!()<>'*\\".toList, c.toNat < 97 ∨ 122 < c.toNat :=
      forall_mem_of_all (by decide)
    have hsign := hsigns d.toLower (by simpa [isOperator] using hop)
    omega
  · exact dif_neg hupper

/-- The laws hold of ASCII text. -/
def UnicodeLaws.ascii : UnicodeLaws .ascii where
  hasCompat _ := false
  ascii_noCompat _ _ := rfl
  operator_not_alnum c hc := by
    have hall : ∀ d ∈ ":&|!()<>'*\\".toList, EcmaUnicode.ascii.isAlnum d = false :=
      forall_mem_of_all (by decide)
    exact hall c (by simpa [isOperator] using hc)
  nfkc_noCompat _ _ _ := rfl
  nfkc_operator _ _ _ hc _ := hc
  lower_noCompat _ _ _ _ := rfl
  lower_operator text c hc hop := by
    obtain ⟨d, hd, rfl⟩ := List.mem_map.mp hc
    rwa [toLower_of_isOperator hop]

theorem lexical_query_parses_departure :
    QueryText isSpace (lexicalTsQuery .ascii "When does the \"night train\" leave?".toList) ↔
      NoInnerColon .ascii (matchText .ascii "When does the \"night train\" leave?".toList) ∧
        ∀ phrase ∈ extractQuotedPhrases .ascii
          (matchText .ascii "When does the \"night train\" leave?".toList),
          NoInnerColon .ascii phrase :=
  lexical_query_parses_iff .ascii UnicodeLaws.ascii _

theorem departure_question_refused :
    ¬ ∀ question, QueryText isSpace (lexicalTsQuery .ascii question) := by
  intro hall
  obtain ⟨query, hquery, htext⟩ := hall "When does the 10:30 train leave?".toList
  have hread := parseQuery_renderQuery isSpace_signs.1 isSpace_signs.2 hquery
  rw [← htext] at hread
  have hrefused : parseQuery isSpace
      (lexicalTsQuery .ascii "When does the 10:30 train leave?".toList) = none := by
    decide +kernel
  rw [hrefused] at hread
  cases hread

end RagStack.Chat
