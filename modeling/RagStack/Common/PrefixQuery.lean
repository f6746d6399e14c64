import Mathlib.Data.List.Infix
import RagStack.Common.Words

/-!
# Full-text queries of prefix terms

A query is a disjunction of clauses, and a clause a list of lexemes that have to
start consecutive words: `a:* <-> b:* | c:*` in the syntax of PostgreSQL's
`to_tsquery`. What separates words is a parameter, `sp`.

* `renderQuery` writes a query down, `parseQuery` reads it and fails on a lexeme
  that contains an operator character.
* `QueryText` — the texts that `renderQuery` writes for queries of proper
  lexemes.
* `parseQuery_renderQuery`: what was written is read back.
* `wellFormed_of_parseQuery`: when a written query can be read, its lexemes were
  proper.
* `clauseMatches` — the lexemes of the clause start consecutive words of a
  document; `clauseMatches_iff` says which.
-/

namespace RagStack.Common

/-- The characters that an unquoted lexeme may not contain. -/
def isOperator (c : Char) : Bool := ":&|!()<>'*\\".toList.contains c

/-- A query: its clauses, with their lexemes. -/
abbrev PrefixQuery := List (List (List Char))

/-- A word is not empty and has no separators in it. -/
def IsWord (sp : Char → Bool) (word : List Char) : Prop := word ≠ [] ∧ ∀ c ∈ word, sp c = false

/-- A lexeme is a word without operators. -/
def IsLexeme (sp : Char → Bool) (lexeme : List Char) : Prop :=
  IsWord sp lexeme ∧ ∀ c ∈ lexeme, isOperator c = false

/-- No clause is empty, and all its lexemes are words. -/
def Spaced (sp : Char → Bool) (query : PrefixQuery) : Prop :=
  ∀ clause ∈ query, clause ≠ [] ∧ ∀ lexeme ∈ clause, IsWord sp lexeme

/-- No clause is empty, and all its lexemes are proper. -/
def WellFormed (sp : Char → Bool) (query : PrefixQuery) : Prop :=
  ∀ clause ∈ query, clause ≠ [] ∧ ∀ lexeme ∈ clause, IsLexeme sp lexeme

theorem WellFormed.spaced {sp : Char → Bool} {query : PrefixQuery} (h : WellFormed sp query) :
    Spaced sp query :=
  fun clause hclause => ⟨(h clause hclause).1, fun l hl => ((h clause hclause).2 l hl).1⟩

/-! ## Writing -/

/-- `lexeme:*`. -/
def prefixTerm (lexeme : List Char) : List Char := lexeme ++ ":*".toList

/-- The terms of a clause, joined by ` <-> `. -/
def renderClause (clause : List (List Char)) : List Char :=
  join " <-> ".toList (clause.map prefixTerm)

/-- The clauses, joined by ` | `. -/
def renderQuery (query : PrefixQuery) : List Char := join " | ".toList (query.map renderClause)

/-- The texts of queries with proper lexemes; the empty text is the empty query. -/
def QueryText (sp : Char → Bool) (text : List Char) : Prop :=
  ∃ query, WellFormed sp query ∧ text = renderQuery query

/-! ## Reading -/

/-- The lexeme of a term. -/
def parseTerm (word : List Char) : Option (List Char) :=
  let lexeme := word.take (word.length - 2)
  if ":*".toList <:+ word ∧ lexeme ≠ [] ∧ lexeme.all (fun c => !isOperator c) then some lexeme
  else none

/-- The query whose terms and operators are these words. -/
def parseWords : List (List Char) → Option PrefixQuery
  | [] => none
  | [word] => (parseTerm word).map fun lexeme => [[lexeme]]
  | word :: operator :: rest =>
    match parseTerm word, parseWords rest with
    | some lexeme, some (clause :: query) =>
      if operator = "|".toList then some ([lexeme] :: clause :: query)
      else if operator = "<->".toList then some ((lexeme :: clause) :: query)
      else none
    | _, _ => none

/-- The query that a text denotes; `none` where it is refused. -/
def parseQuery (sp : Char → Bool) (text : List Char) : Option PrefixQuery :=
  if words sp text = [] then some [] else parseWords (words sp text)

/-! ## Matching -/

/-- The lexemes start the first words. -/
def startsWords : List (List Char) → List (List Char) → Bool
  | [], _ => true
  | _ :: _, [] => false
  | lexeme :: clause, word :: document => lexeme.isPrefixOf word && startsWords clause document

/-- The lexemes start consecutive words of the document. -/
def clauseMatches (clause document : List (List Char)) : Bool :=
  document.tails.any (startsWords clause)

/-- Some clause matches. -/
def queryMatches (query : PrefixQuery) (document : List (List Char)) : Bool :=
  query.any fun clause => clauseMatches clause document

theorem startsWords_iff {clause : List (List Char)} :
    ∀ {document : List (List Char)}, startsWords clause document = true ↔
      ∃ found rest, document = found ++ rest ∧ List.Forall₂ (· <+: ·) clause found := by
  induction clause with
  | nil =>
    intro document
    simp only [startsWords, true_iff]
    exact ⟨[], document, rfl, List.Forall₂.nil⟩
  | cons lexeme clause ih =>
    intro document
    constructor
    · intro h
      cases document with
      | nil => simp [startsWords] at h
      | cons word document =>
        rw [startsWords, Bool.and_eq_true, List.isPrefixOf_iff_prefix] at h
        obtain ⟨found, rest, rfl, hfound⟩ := ih.mp h.2
        exact ⟨word :: found, rest, rfl, List.Forall₂.cons h.1 hfound⟩
    · rintro ⟨found, rest, rfl, hfound⟩
      cases hfound with
      | cons hword hfound =>
        rw [List.cons_append, startsWords, Bool.and_eq_true, List.isPrefixOf_iff_prefix]
        exact ⟨hword, ih.mpr ⟨_, _, rfl, hfound⟩⟩

/-- A clause matches if its lexemes are, one by one, the beginnings of some
    consecutive words. -/
theorem clauseMatches_iff {clause document : List (List Char)} :
    clauseMatches clause document = true ↔
      ∃ found, found <:+: document ∧ List.Forall₂ (· <+: ·) clause found := by
  rw [clauseMatches, List.any_eq_true]
  constructor
  · rintro ⟨tail, htail, h⟩
    obtain ⟨found, rest, rfl, hfound⟩ := startsWords_iff.mp h
    obtain ⟨before, rfl⟩ := (List.mem_tails _ _).mp htail
    exact ⟨found, ⟨before, rest, by simp⟩, hfound⟩
  · rintro ⟨found, ⟨before, rest, rfl⟩, hfound⟩
    refine ⟨found ++ rest, (List.mem_tails _ _).mpr ⟨before, by simp⟩, ?_⟩
    exact startsWords_iff.mpr ⟨found, rest, rfl, hfound⟩

/-- What a part of a document matches, the document matches. -/
theorem clauseMatches_mono {clause part document : List (List Char)} (h : part <:+: document)
    (hm : clauseMatches clause part = true) : clauseMatches clause document = true := by
  obtain ⟨found, hfound, hclause⟩ := clauseMatches_iff.mp hm
  exact clauseMatches_iff.mpr ⟨found, hfound.trans h, hclause⟩

/-! ## Reading back what was written -/

/-- The words of a written clause. -/
def clauseWords : List (List Char) → List (List Char)
  | [] => []
  | [lexeme] => [prefixTerm lexeme]
  | lexeme :: next :: clause => prefixTerm lexeme :: "<->".toList :: clauseWords (next :: clause)

/-- The words of a written query. -/
def queryWords : PrefixQuery → List (List Char)
  | [] => []
  | [clause] => clauseWords clause
  | clause :: next :: query => clauseWords clause ++ "|".toList :: queryWords (next :: query)

theorem parseTerm_prefixTerm {lexeme : List Char} (hne : lexeme ≠ []) :
    parseTerm (prefixTerm lexeme) =
      if lexeme.all (fun c => !isOperator c) then some lexeme else none := by
  have htake : (prefixTerm lexeme).take ((prefixTerm lexeme).length - 2) = lexeme := by
    simp [prefixTerm]
  have hend : ":*".toList <:+ prefixTerm lexeme := List.suffix_append _ _
  simp only [parseTerm, htake]
  by_cases hoperators : lexeme.all (fun c => !isOperator c) = true
  · rw [if_pos hoperators, if_pos ⟨hend, hne, hoperators⟩]
  · rw [if_neg hoperators, if_neg fun h => hoperators h.2.2]

theorem parseTerm_of_isLexeme {sp : Char → Bool} {lexeme : List Char} (h : IsLexeme sp lexeme) :
    parseTerm (prefixTerm lexeme) = some lexeme := by
  have hall : lexeme.all (fun c => !isOperator c) = true := by simpa using h.2
  rw [parseTerm_prefixTerm h.1.1, if_pos hall]

theorem prefixTerm_mem_clauseWords {clause : List (List Char)} {lexeme : List Char}
    (h : lexeme ∈ clause) : prefixTerm lexeme ∈ clauseWords clause := by
  induction clause with
  | nil => cases h
  | cons first clause ih =>
    cases clause with
    | nil => simpa [clauseWords] using congrArg prefixTerm (List.mem_singleton.mp h)
    | cons next clause =>
      rw [clauseWords]
      rcases List.mem_cons.mp h with rfl | h
      · exact List.mem_cons_self
      · exact List.mem_cons_of_mem _ (List.mem_cons_of_mem _ (ih h))

theorem mem_queryWords {query : PrefixQuery} {clause : List (List Char)} {word : List Char}
    (hclause : clause ∈ query) (h : word ∈ clauseWords clause) : word ∈ queryWords query := by
  induction query with
  | nil => cases hclause
  | cons first query ih =>
    cases query with
    | nil => simpa [queryWords, List.mem_singleton.mp hclause] using h
    | cons next query =>
      rw [queryWords]
      rcases List.mem_cons.mp hclause with rfl | hclause
      · exact List.mem_append_left _ h
      · exact List.mem_append_right _ (List.mem_cons_of_mem _ (ih hclause))

/-- Words that can be read are terms or operators. -/
theorem parseTerm_of_parseWords {word : List Char} :
    ∀ {ws : List (List Char)} {query : PrefixQuery}, parseWords ws = some query → word ∈ ws →
      (parseTerm word).isSome ∨ word = "|".toList ∨ word = "<->".toList
  | [], _, _, hword => by cases hword
  | [first], _, h, hword => by
    obtain ⟨lexeme, hlexeme, -⟩ := Option.map_eq_some_iff.mp h
    rw [List.mem_singleton.mp hword, hlexeme]
    exact Or.inl rfl
  | first :: operator :: rest, _, h, hword => by
    rw [parseWords] at h
    split at h
    · rename_i lexeme clause others hlexeme hrest
      have hoperator : operator = "|".toList ∨ operator = "<->".toList := by
        split_ifs at h with hbar harrow
        · exact Or.inl hbar
        · exact Or.inr harrow
      rcases List.mem_cons.mp hword with rfl | hword
      · exact Or.inl (by rw [hlexeme]; rfl)
      · rcases List.mem_cons.mp hword with rfl | hword
        · exact Or.inr hoperator
        · exact parseTerm_of_parseWords hrest hword
    · cases h

section RoundTrip

variable {sp : Char → Bool}

theorem parseWords_clauseWords {clause : List (List Char)} (hne : clause ≠ [])
    (h : ∀ lexeme ∈ clause, IsLexeme sp lexeme) :
    parseWords (clauseWords clause) = some [clause] := by
  induction clause with
  | nil => exact absurd rfl hne
  | cons lexeme clause ih =>
    have hterm := parseTerm_of_isLexeme (h lexeme (by simp))
    cases clause with
    | nil => simp [clauseWords, parseWords, hterm]
    | cons next clause =>
      have hrest := ih (by simp) (fun l hl => h l (by simp [hl]))
      rw [clauseWords, parseWords, hterm, hrest]
      rfl

theorem parseWords_clauseWords_append {clause : List (List Char)} {rest : List (List Char)}
    {query : PrefixQuery} (hne : clause ≠ []) (h : ∀ lexeme ∈ clause, IsLexeme sp lexeme)
    (hrest : parseWords rest = some query) (hquery : query ≠ []) :
    parseWords (clauseWords clause ++ "|".toList :: rest) = some (clause :: query) := by
  obtain ⟨first, others, rfl⟩ := List.exists_cons_of_ne_nil hquery
  induction clause with
  | nil => exact absurd rfl hne
  | cons lexeme clause ih =>
    have hterm := parseTerm_of_isLexeme (h lexeme (by simp))
    cases clause with
    | nil =>
      rw [clauseWords, List.singleton_append, parseWords, hterm, hrest]
      rfl
    | cons next clause =>
      have hlater := ih (by simp) (fun l hl => h l (by simp [hl]))
      rw [clauseWords, List.cons_append, List.cons_append, parseWords, hterm, hlater]
      rfl

theorem parseWords_queryWords {query : PrefixQuery} (hne : query ≠ []) (h : WellFormed sp query) :
    parseWords (queryWords query) = some query := by
  induction query with
  | nil => exact absurd rfl hne
  | cons clause query ih =>
    obtain ⟨hclause, hlexemes⟩ := h clause (by simp)
    cases query with
    | nil => exact parseWords_clauseWords hclause hlexemes
    | cons next query =>
      have hrest := ih (by simp) (fun c hc => h c (by simp [hc]))
      exact parseWords_clauseWords_append hclause hlexemes hrest (by simp)

variable (hblank : sp ' ' = true) (hsigns : ∀ c ∈ ":*<->|".toList, sp c = false)
include hblank hsigns

theorem words_renderClause {clause : List (List Char)} (h : ∀ lexeme ∈ clause, IsWord sp lexeme) :
    words sp (renderClause clause) = clauseWords clause := by
  have hterm : ∀ lexeme, IsWord sp lexeme →
      words sp (prefixTerm lexeme) = [prefixTerm lexeme] := by
    intro lexeme hlexeme
    refine words_of_no_sep (by simp [prefixTerm]) fun c hc => ?_
    rcases List.mem_append.mp hc with hc | hc
    · exact hlexeme.2 c hc
    · exact hsigns c (by revert hc; simp; tauto)
  have harrow : words sp "<->".toList = ["<->".toList] :=
    words_of_no_sep (by decide) fun c hc => hsigns c (by revert hc; simp; tauto)
  induction clause with
  | nil => exact words_nil
  | cons lexeme clause ih =>
    have hfirst := hterm lexeme (h lexeme (by simp))
    cases clause with
    | nil => simpa [renderClause, clauseWords, join] using hfirst
    | cons next clause =>
      have hrest := ih fun l hl => h l (by simp [hl])
      have hsplit : renderClause (lexeme :: next :: clause) =
          prefixTerm lexeme ++ ' ' :: ("<->".toList ++ ' ' :: renderClause (next :: clause)) := by
        simp [renderClause, join_cons_cons]
      rw [hsplit, words_append_sep hblank, words_append_sep hblank, hfirst, harrow, hrest]
      rfl

theorem words_renderQuery {query : PrefixQuery} (h : Spaced sp query) :
    words sp (renderQuery query) = queryWords query := by
  have hbar : words sp "|".toList = ["|".toList] :=
    words_of_no_sep (by decide) fun c hc => hsigns c (by revert hc; simp; tauto)
  induction query with
  | nil => exact words_nil
  | cons clause query ih =>
    have hfirst := words_renderClause hblank hsigns (h clause (by simp)).2
    cases query with
    | nil => simpa [renderQuery, queryWords, join] using hfirst
    | cons next query =>
      have hrest := ih fun c hc => h c (by simp [hc])
      have hsplit : renderQuery (clause :: next :: query) =
          renderClause clause ++ ' ' :: ("|".toList ++ ' ' :: renderQuery (next :: query)) := by
        simp [renderQuery, join_cons_cons]
      rw [hsplit, words_append_sep hblank, words_append_sep hblank, hfirst, hbar, hrest]
      rfl

/-- Reading gives back the query that was written. -/
theorem parseQuery_renderQuery {query : PrefixQuery} (h : WellFormed sp query) :
    parseQuery sp (renderQuery query) = some query := by
  rw [parseQuery, words_renderQuery hblank hsigns h.spaced]
  cases query with
  | nil => rfl
  | cons clause query =>
    have hparse := parseWords_queryWords (by simp) h
    rw [if_neg, hparse]
    intro hnil
    rw [hnil] at hparse
    cases hparse

/-- A query of words that is read when it was written has proper lexemes. -/
theorem wellFormed_of_parseQuery {query read : PrefixQuery} (h : Spaced sp query)
    (hread : parseQuery sp (renderQuery query) = some read) : WellFormed sp query := by
  intro clause hclause
  obtain ⟨hne, hwords⟩ := h clause hclause
  refine ⟨hne, fun lexeme hlexeme => ⟨hwords lexeme hlexeme, ?_⟩⟩
  have hmem : prefixTerm lexeme ∈ queryWords query :=
    mem_queryWords hclause (prefixTerm_mem_clauseWords hlexeme)
  rw [parseQuery, words_renderQuery hblank hsigns h, if_neg (List.ne_nil_of_mem hmem)] at hread
  have hlast : (prefixTerm lexeme).getLast? = some '*' := by simp [prefixTerm]
  rcases parseTerm_of_parseWords hread hmem with hsome | hbar | harrow
  · rw [parseTerm_prefixTerm (hwords lexeme hlexeme).1] at hsome
    by_contra hoperators
    have hall : ¬ lexeme.all (fun c => !isOperator c) = true := by simpa using hoperators
    rw [if_neg hall] at hsome
    cases hsome
  · rw [hbar] at hlast
    exact absurd hlast (by decide)
  · rw [harrow] at hlast
    exact absurd hlast (by decide)

/-- A query of words is written as a proper query exactly if its lexemes are
    proper. -/
theorem queryText_renderQuery_iff {query : PrefixQuery} (h : Spaced sp query) :
    QueryText sp (renderQuery query) ↔ WellFormed sp query := by
  constructor
  · rintro ⟨other, hother, heq⟩
    have hread := parseQuery_renderQuery hblank hsigns hother
    rw [← heq] at hread
    exact wellFormed_of_parseQuery hblank hsigns h hread
  · exact fun hwell => ⟨query, hwell, rfl⟩

end RoundTrip

end RagStack.Common
