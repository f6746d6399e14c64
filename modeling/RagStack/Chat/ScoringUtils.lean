import Mathlib.Algebra.Order.Field.Rat
import Mathlib.Data.Rat.Floor
import RagStack.Chat.Types
import RagStack.Common.Lists

/-!
# Scoring utilities

`services/api/src/chat/retrieval-scoring.utils.ts`: the normal form of a question,
its quoted phrases and matching terms, and the partial scores. A `Set` made of a
list is the list without repetitions, in the order of the first occurrences.

* `mem_extractMatchingTerms`: the terms of a text are its words, between blanks
  and quotes, without what is neither letter nor number at their ends.
* `infix_of_mem_words_phrase`: the words of a quoted phrase occur in the normal
  form of the question.
-/

namespace RagStack.Chat

open RagStack.Common RagStack.Api
open RagStack.Worker (Text)
open RagStack.Ingest (Time)

/-! ## Word lists -/

def MATCH_STOP_WORDS : List String :=
  ["a", "an", "and", "are", "as", "at", "be", "by", "can", "did", "do", "does", "for", "from",
    "how", "in", "into", "is", "it", "of", "on", "or", "our", "should", "that", "the", "their",
    "there", "these", "they", "this", "to", "was", "what", "when", "where", "which", "who", "why",
    "with", "would", "your", "là", "và", "của", "các", "những", "cho", "để", "một", "có", "không",
    "thì", "mà", "như", "với", "được", "rằng", "này", "kia", "đó"]

def FRESHNESS_HINTS : List String :=
  ["current", "currently", "latest", "recent", "recently", "today", "updated", "update",
    "yesterday", "newest", "mới", "nhất", "hôm", "nay", "qua", "gần", "đây", "cập", "nhật"]

def QUESTION_WORDS : List String :=
  ["how", "what", "when", "where", "which", "who", "why", "can", "does", "sao", "gì", "khi",
    "nào", "đâu", "ai", "thế"]

def METADATA_TERM_KEYS : List String :=
  ["tag", "tags", "label", "labels", "keyword", "keywords", "category", "categories", "product",
    "products"]

/-! ## Numbers -/

/-- `clamp01` (lines 121–127) of a finite number. -/
def clamp01 (value : ℚ) : ℚ := max 0 (min 1 value)

/-- `Number(value.toFixed(6))`: a tie goes away from zero. -/
def toFixed6 (value : ℚ) : ℚ :=
  let round := fun x : ℚ => (⌊x * 1000000 + 1 / 2⌋ : ℚ) / 1000000
  if value < 0 then -round (-value) else round value

/-- `normalizeSemanticDistance` (lines 199–205); `none` is a number that is
    missing or not finite. -/
def normalizeSemanticDistance (distance : Option ℚ) : ℚ :=
  match distance with
  | none => 0
  | some distance => clamp01 (1 - distance / 2)

/-- `normalizeLexicalRank` (lines 207–213). -/
def normalizeLexicalRank (rawRank : Option ℚ) : ℚ :=
  match rawRank with
  | none => 0
  | some rank => if rank ≤ 0 then 0 else clamp01 (rank / (rank + 1))

/-! ## Normal forms -/

/-- `text.replace(/\s+/g, " ").trim()`. -/
def collapseSpaces (text : Text) : Text := trim (replaceMatches (runOf isSpace) [' '] text)

/-- `normalizeWhitespace` (lines 129–131). -/
def normalizeWhitespace (uni : EcmaUnicode) (input : Text) : Text := collapseSpaces (uni.nfkc input)

/-- `replace(/[“”]/g, '"').replace(/[‘’]/g, "'")` of one character. -/
def straightenQuote (c : Char) : Char :=
  if c == '“' || c == '”' then '"' else if c == '‘' || c == '’' then '\'' else c

/-- `[\p{L}\p{N}\s\-_/.:"]`. -/
def isQueryChar (uni : EcmaUnicode) (c : Char) : Bool :=
  uni.isAlnum c || isSpace c || "-_/.:\"".toList.contains c

/-- `'"'` becomes a blank. -/
def unquote (c : Char) : Char := if c == '"' then ' ' else c

/-- `normalizeQuotedQuery` (lines 133–146). -/
def normalizeQuotedQuery (uni : EcmaUnicode) (input : Text) : Text :=
  let normalized := normalizeWhitespace uni
    ((input.map straightenQuote).map fun c => if isQueryChar uni c then c else ' ')
  if normalized.count '"' % 2 = 1 then collapseSpaces (normalized.map unquote) else normalized

/-- `normalizeQuotedQuery(input).toLowerCase()`. -/
def matchText (uni : EcmaUnicode) (input : Text) : Text :=
  uni.toLowerCase (normalizeQuotedQuery uni input)

/-! ## Phrases and terms -/

/-- The match of `/"([^"]+)"/` at a position, without its quotes. -/
def quotedAt (text : Text) : Option Text :=
  match text with
  | '"' :: rest =>
    let body := rest.takeWhile fun c => c != '"'
    if body ≠ [] ∧ body.length < rest.length then some body else none
  | _ => none

/-- The loop of `matchAll(/"([^"]+)"/g)`; `skip` is what is left of a match. -/
def quotedGo (skip : ℕ) : Text → List Text
  | [] => []
  | c :: rest =>
    match skip with
    | k + 1 => quotedGo k rest
    | 0 =>
      match quotedAt (c :: rest) with
      | none => quotedGo 0 rest
      | some body => body :: quotedGo (body.length + 1) rest

/-- `extractQuotedPhrases` (lines 148–161). -/
def extractQuotedPhrases (uni : EcmaUnicode) (input : Text) : List Text :=
  (((quotedGo 0 (matchText uni input)).map collapseSpaces).filter
    fun phrase => phrase ≠ [] ∧ 2 ≤ utf16Length phrase).eraseDups

/-- The token without the characters at its ends that are neither letters nor
    numbers. -/
def trimToken (uni : EcmaUnicode) (token : Text) : Text :=
  strip (fun c => !uni.isAlnum c) (trim token)

/-- `extractMatchingTerms` (lines 163–176). -/
def extractMatchingTerms (uni : EcmaUnicode) (input : Text) : List Text :=
  let normalized := (matchText uni input).map unquote
  ((((splitAtMatches (runOf isSpace) normalized).map (trimToken uni)).filter
    fun token => 2 ≤ utf16Length token).filter
    fun token => String.ofList token ∉ MATCH_STOP_WORDS).eraseDups

/-- `detectFreshnessIntent` (lines 182–189). -/
def detectFreshnessIntent (tokens phrases : List Text) : Bool :=
  (tokens.any fun token => FRESHNESS_HINTS.contains (String.ofList token)) ||
    phrases.any fun phrase =>
      phrase = "last updated".toList ∨ phrase = "most recent".toList

/-- `detectQuestionLikeQuery` (lines 191–197). -/
def detectQuestionLikeQuery (uni : EcmaUnicode) (rawQuery : Text) (tokens : List Text) : Bool :=
  (uni.toLowerCase (trim rawQuery)).contains '?' ||
    QUESTION_WORDS.any fun word => tokens.head? = some word.toList

/-! ## Coverage -/

/-- `normalizeTextForMatch` (lines 215–217). -/
def normalizeTextForMatch (uni : EcmaUnicode) (input : Option Text) : Text :=
  uni.toLowerCase (normalizeWhitespace uni (input.getD []))

/-- `computeTokenCoverage` (lines 219–234). -/
def computeTokenCoverage (uni : EcmaUnicode) (haystack : Option Text) (tokens : List Text) : ℚ :=
  let haystackTerms := extractMatchingTerms uni (haystack.getD [])
  if tokens = [] ∨ haystackTerms = [] then 0
  else (tokens.countP fun token => haystackTerms.contains token : ℚ) / tokens.length

/-- `computePhraseCoverage` (lines 236–253). -/
def computePhraseCoverage (uni : EcmaUnicode) (haystack : Option Text) (phrases : List Text) : ℚ :=
  let normalizedHaystack := normalizeTextForMatch uni haystack
  if phrases = [] ∨ normalizedHaystack = [] then 0
  else (phrases.countP fun phrase => phrase <:+: normalizedHaystack : ℚ) / phrases.length

/-- `computeRecencyScore` (lines 255–265) at the time `now`, in milliseconds. -/
def computeRecencyScore (now : Time) (indexedAt : Option Time) (freshnessIntent : Bool) : ℚ :=
  match indexedAt with
  | none => 0
  | some indexedAt =>
    if freshnessIntent then
      let ageDays : ℚ := max 0 (((now : ℚ) - indexedAt) / 86400000)
      clamp01 (1 / (1 + ageDays / 180))
    else 0

/-- `computeJaccard` (lines 267–286). -/
def computeJaccard (uni : EcmaUnicode) (left right : Option Text) : ℚ :=
  let leftTokens := extractMatchingTerms uni (left.getD [])
  let rightTokens := extractMatchingTerms uni (right.getD [])
  if leftTokens = [] ∨ rightTokens = [] then 0
  else
    let intersection := leftTokens.countP fun token => rightTokens.contains token
    intersection / ((leftTokens.length : ℚ) + rightTokens.length - intersection)

/-- The terms that one entry of `metadataJson` adds. -/
def metadataEntryTerms (uni : EcmaUnicode) (entry : Text × Json) : List Text :=
  if String.ofList (uni.toLowerCase entry.1) ∈ METADATA_TERM_KEYS then
    match entry.2 with
    | .str value => extractMatchingTerms uni value
    | .arr items => items.flatMap fun item =>
      match item with
      | .str value => extractMatchingTerms uni value
      | _ => []
    | _ => []
  else []

/-- `extractMetadataTerms` (lines 288–317). -/
def extractMetadataTerms (uni : EcmaUnicode) (metadataJson : Option (List (Text × Json))) :
    List Text :=
  ((metadataJson.getD []).flatMap (metadataEntryTerms uni)).eraseDups

/-- `isFaqLikeChunk` (lines 319–335); of the first 120 characters only the
    beginning is looked at. -/
def isFaqLikeChunk (uni : EcmaUnicode) (sectionTitle sourceTitle content : Option Text) : Bool :=
  let title := uni.toLowerCase (sectionTitle.getD [] ++ ' ' :: sourceTitle.getD [])
  let contentStart := normalizeTextForMatch uni content
  "faq".toList <:+: title ∨ "frequently asked".toList <:+: title ∨ title.contains '?' = true ∨
    "q:".toList <+: contentStart ∨ "question:".toList <+: contentStart

/-! ## Words of the normal form -/

/-- What separates the terms of a text: blanks and quotes. -/
def isTermBreak (c : Char) : Bool := isSpace c || c == '"'

/-- The end of a word that is neither letter nor number. -/
def isTermEdge (uni : EcmaUnicode) (c : Char) : Bool := !uni.isAlnum c

section Terms

variable {uni : EcmaUnicode}

theorem mem_collapseSpaces {text : Text} {c : Char} (h : c ∈ collapseSpaces text) :
    c ∈ text ∨ c = ' ' := by
  have hmem := (isInfix_strip isSpace _).subset h
  exact (mem_replaceMatches hmem).imp id List.mem_singleton.mp

/-- A text keeps its words, if blanks separate them. -/
theorem words_collapseSpaces {sp : Char → Bool} (hsp : ∀ c, isSpace c = true → sp c = true)
    (text : Text) : words sp (collapseSpaces text) = words sp text := by
  have hrun : (runOf isSpace).Within sp := fun prev l c hc => hsp c (runOf_within prev l c hc)
  have hblank : ∀ c ∈ [' '], isSpace c = true := forall_mem_of_all (by decide)
  rw [collapseSpaces, trim, words_strip_within hsp,
    words_replaceMatches hrun (List.cons_ne_nil _ _) fun c hc => hsp c (hblank c hc)]

theorem isSpace_unquote (c : Char) : isSpace (unquote c) = isTermBreak c := by
  by_cases hc : c = '"'
  · subst hc
    decide
  · simp [isTermBreak, unquote, hc]

theorem isTermBreak_unquote (c : Char) : isTermBreak (unquote c) = isTermBreak c := by
  by_cases hc : c = '"'
  · subst hc
    decide
  · simp [unquote, hc]

/-- Blanks for quotes separate the same words. -/
theorem words_map_unquote {sp : Char → Bool} (hsp : ∀ c, sp (unquote c) = isTermBreak c)
    (text : Text) : words sp (text.map unquote) = words isTermBreak text := by
  refine words_map hsp (fun c hc => ?_) text
  have hquote : c ≠ '"' := by
    rintro rfl
    exact absurd hc (by decide)
  simp [unquote, hquote]

/-- The words of a normal form that a search is made for: without what is neither
    letter nor number at their ends, at least two units long, no stop words, and
    each of them once. -/
def searchedWords (uni : EcmaUnicode) (text : Text) : List Text :=
  ((((words isTermBreak text).map (strip (isTermEdge uni))).filter
    fun token => 2 ≤ utf16Length token).filter
    fun token => String.ofList token ∉ MATCH_STOP_WORDS).eraseDups

theorem trimToken_of_mem_words {w text : Text} (hw : w ∈ words isTermBreak text) :
    trimToken uni w = strip (isTermEdge uni) w := by
  have hspace : ∀ c ∈ w, isSpace c = false := fun c hc =>
    (Bool.or_eq_false_iff.mp ((mem_words hw).2 c hc)).1
  rw [trimToken, trim, strip_eq_self isSpace (fun c hc => hspace c (List.mem_of_mem_head? hc))
    (fun c hc => hspace c (List.mem_of_mem_getLast? hc))]
  rfl

/-- The matching terms of a text are the searched words of its normal form. -/
theorem extractMatchingTerms_eq (input : Text) :
    extractMatchingTerms uni input = searchedWords uni (matchText uni input) := by
  have hparts : (splitAtMatches (runOf isSpace) ((matchText uni input).map unquote)).filter
      (fun part => !part.isEmpty) = words isTermBreak (matchText uni input) := by
    rw [filter_splitAtMatches_runOf, words_map_unquote isSpace_unquote]
  -- an empty part gives an empty token, which is too short
  have hempty : ∀ part : Text, (2 ≤ utf16Length (trimToken uni part)) →
      (!part.isEmpty) = true := by
    intro part hlen
    cases part with
    | nil =>
      rw [show trimToken uni [] = [] from rfl] at hlen
      exact absurd hlen (by decide)
    | cons c part => rfl
  have htokens : ((splitAtMatches (runOf isSpace) ((matchText uni input).map unquote)).map
      (trimToken uni)).filter (fun token => 2 ≤ utf16Length token) =
        ((words isTermBreak (matchText uni input)).map (strip (isTermEdge uni))).filter
          fun token => 2 ≤ utf16Length token := by
    rw [← List.map_congr_left fun w hw => trimToken_of_mem_words hw, ← hparts, List.filter_map,
      List.filter_map, List.filter_filter]
    congr 1
    refine List.filter_congr fun part _ => ?_
    by_cases hlen : 2 ≤ utf16Length (trimToken uni part)
    · simp [hlen, hempty part hlen]
    · simp [hlen]
  unfold extractMatchingTerms searchedWords
  simp only [htokens]

/-- The terms are the words of the normal form, trimmed at their ends, that are
    long enough and no stop words. -/
theorem mem_extractMatchingTerms {input token : Text} :
    token ∈ extractMatchingTerms uni input ↔
      (∃ w ∈ words isTermBreak (matchText uni input), strip (isTermEdge uni) w = token) ∧
        2 ≤ utf16Length token ∧ String.ofList token ∉ MATCH_STOP_WORDS := by
  simp only [extractMatchingTerms_eq, searchedWords, List.mem_eraseDups, List.mem_filter,
    List.mem_map, decide_eq_true_eq, and_assoc]

theorem mem_quotedGo {body : Text} :
    ∀ {text : Text} {skip : ℕ}, body ∈ quotedGo skip text → body <:+: text ∧ '"' ∉ body := by
  intro text
  induction text with
  | nil => intro skip h; cases h
  | cons c rest ih =>
    intro skip h
    have htail : body <:+: rest ∧ '"' ∉ body → body <:+: c :: rest ∧ '"' ∉ body :=
      fun h => ⟨h.1.trans (List.suffix_cons c rest).isInfix, h.2⟩
    cases skip with
    | succ k =>
      rw [quotedGo] at h
      exact htail (ih h)
    | zero =>
      rw [quotedGo] at h
      split at h
      · exact htail (ih h)
      · rename_i quoted hquoted
        rcases List.mem_cons.mp h with rfl | h
        · apply htail
          unfold quotedAt at hquoted
          split at hquoted
          · rename_i rest' hcons
            cases hcons
            simp only at hquoted
            split_ifs at hquoted
            cases hquoted
            refine ⟨(List.takeWhile_prefix _).isInfix, fun hmem => ?_⟩
            simpa using List.mem_takeWhile_imp hmem
          · cases hquoted
        · exact htail (ih h)

/-- A quoted phrase is a part of the normal form without quotes in it, up to
    blanks. -/
theorem exists_of_mem_extractQuotedPhrases {input phrase : Text}
    (h : phrase ∈ extractQuotedPhrases uni input) :
    ∃ body, body <:+: matchText uni input ∧ '"' ∉ body ∧ phrase = collapseSpaces body := by
  rw [extractQuotedPhrases, List.mem_eraseDups, List.mem_filter] at h
  obtain ⟨body, hbody, rfl⟩ := List.mem_map.mp h.1
  obtain ⟨hpart, hquote⟩ := mem_quotedGo hbody
  exact ⟨body, hpart, hquote, rfl⟩

/-- The words of a quoted phrase occur in the normal form. -/
theorem infix_of_mem_words_phrase {input phrase w : Text}
    (h : phrase ∈ extractQuotedPhrases uni input) (hw : w ∈ words isSpace phrase) :
    w <:+: matchText uni input := by
  obtain ⟨body, hbody, -, rfl⟩ := exists_of_mem_extractQuotedPhrases h
  rw [words_collapseSpaces fun _ h => h] at hw
  exact (infix_of_mem_words hw).trans hbody

end Terms

end RagStack.Chat
