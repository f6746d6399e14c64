import RagStack.Chat.CitationAssembler

/-!
# Grounded answers

`createGroundedAnswer`, by the provider
(`services/api/src/openai/openai-grounded-chat.service.ts`) and, where none is
configured, from the chunks themselves
(`services/api/src/chat/local-grounded-answer.service.ts`).

* `trimmed_of_parseGroundedAnswer`, `trimmed_of_createLocalAnswer`: the chunk ids
  that an answer names are trimmed.
-/

namespace RagStack.Chat

open RagStack.Common RagStack.Api
open RagStack.Worker (Text)
open RagStack.Ingest (Id)

/-- The part of `GroundedAnswerResult` that `ask` uses. -/
structure GroundedAnswerResult where
  answer : ModelAnswer
  usage : UsageView
deriving DecidableEq, Repr

/-! ## The provider -/

/-- The fields of an output of the provider that passes the check of the fields
    (lines 206–222), with one of the three statuses. -/
structure GroundedOutput where
  status : ChatStatus
  answer : Text
  used_chunk_ids : List Text
deriving DecidableEq, Repr

/-- `parseGroundedAnswer` (lines 224–250); `none` for a blank answer. -/
def parseGroundedAnswer (citationLimit : ℕ) (parsed : GroundedOutput) : Option ModelAnswer :=
  let answer := trim parsed.answer
  if answer = [] then none
  else some
    { status := parsed.status
      answer := answer
      usedChunkIds :=
        if parsed.status = .grounded then
          (((parsed.used_chunk_ids.map trim).filter fun chunkId => chunkId ≠ []).eraseDups).take
            citationLimit
        else [] }

/-! ## The local answer -/

def MAX_LOCAL_GROUNDED_CHUNKS : ℕ := 3

def MIN_FOLLOW_ON_CHUNK_SCORE : ℚ := 8 / 100

def FOLLOW_ON_CHUNK_SCORE_RATIO : ℚ := 75 / 100

def MIN_PREFIX_MATCH_LENGTH : ℕ := 4

def LOCAL_STOP_WORDS : List String :=
  ["about", "after", "before", "from", "have", "into", "that", "their", "them", "they", "this",
    "what", "when", "where", "which", "while", "with"]

/-- `extractTerms` (lines 170–179). -/
def extractTerms (uni : EcmaUnicode) (input : Text) : List Text :=
  let cleaned := (uni.toLowerCase (uni.nfkc input)).map fun c =>
    if uni.isAlnum c || isSpace c then c else ' '
  (((splitAtMatches (runOf isSpace) cleaned).map trim).filter
    fun token => 3 ≤ utf16Length token).filter
    fun token => String.ofList token ∉ LOCAL_STOP_WORDS

/-- `termsMatch` (lines 181–191). -/
def termsMatch (left right : Text) : Bool :=
  left = right ∨ MIN_PREFIX_MATCH_LENGTH ≤ utf16Length left ∧
    MIN_PREFIX_MATCH_LENGTH ≤ utf16Length right ∧ (right <+: left ∨ left <+: right)

/-- What the loop of `selectChunks` has chosen, and the terms that it covers. -/
structure ChunkSelection where
  chosen : List RetrievalCandidate := []
  coveredTerms : List Text := []

/-- A chunk in the loop of `selectChunks` (lines 112–137). -/
def selectChunk (uni : EcmaUnicode) (queryTerms : List Text) (topScore : ℚ)
    (state : ChunkSelection) (chunk : RetrievalCandidate) : ChunkSelection :=
  if MAX_LOCAL_GROUNDED_CHUNKS ≤ state.chosen.length then state
  else if state.chosen ≠ [] ∧
      chunk.hybridScore < max MIN_FOLLOW_ON_CHUNK_SCORE (topScore * FOLLOW_ON_CHUNK_SCORE_RATIO) then
    state
  else
    let chunkTerms := extractTerms uni chunk.matchedText
    let matchedTerms := queryTerms.filter fun term => chunkTerms.any (termsMatch term)
    let addsCoverage := matchedTerms.any fun term => !state.coveredTerms.contains term
    if state.chosen ≠ [] ∧ addsCoverage = false then state
    else
      { chosen := state.chosen ++ [chunk]
        coveredTerms := state.coveredTerms ++ matchedTerms }

/-- `selectChunks` (lines 102–140). -/
def selectChunks (uni : EcmaUnicode) (question : Text) (selectedChunks : List RetrievalCandidate) :
    List RetrievalCandidate :=
  match selectedChunks with
  | [] => []
  | first :: _ =>
    let chosen := (selectedChunks.foldl
      (selectChunk uni (extractTerms uni question) first.hybridScore) {}).chosen
    if chosen = [] then [first] else chosen

/-- `cleanSnippet` (lines 150–156). -/
def cleanSnippet (value : Text) : Text :=
  let start := if "...".toList <+: value then (value.drop 3).dropWhile isSpace else value
  let body := if "...".toList <:+ start then (start.take (start.length - 3)).rdropWhile isSpace
    else start
  collapseSpaces body

/-- `ensureSentence` (lines 158–168). -/
def ensureSentence (value : Text) : Text :=
  if value = [] then value
  else if value.getLast?.any ".!?".toList.contains then value
  else value ++ ['.']

/-- `text.slice(0, position)`. The half of a surrogate pair that is left at the end is
    written U+FFFD, so that no text is shorter than in the source. -/
def sliceStart : ℕ → Text → Text
  | _, [] => []
  | position, c :: rest =>
    if charUnits c ≤ position then c :: sliceStart (position - charUnits c) rest
    else if position = 0 then [] else ['\uFFFD']

/-- `composeAnswer` (lines 142–148). -/
def composeAnswer (snippets : List Text) : Text :=
  sliceStart 1600 (join [' '] (snippets.map ensureSentence).eraseDups)

/-- `createGroundedAnswer` of the local service (lines 41–100). -/
def createLocalAnswer (uni : EcmaUnicode) (question normalizedQuery : Text)
    (selectedChunks : List RetrievalCandidate) : GroundedAnswerResult :=
  let snippets := ((selectChunks uni question selectedChunks).map fun chunk =>
    (idText chunk.chunkId,
      cleanSnippet ((buildSnippet uni chunk.content normalizedQuery question).getD chunk.content))
    ).filter fun entry => entry.2 ≠ []
  if snippets = [] then
    { answer :=
        { status := .insufficientData
          answer :=
            "Tôi không thể tổng hợp câu trả lời có trích dẫn từ các nguồn dữ liệu hiện có.".toList
          usedChunkIds := [] }
      usage := {} }
  else
    { answer :=
        { status := .grounded
          answer := composeAnswer (snippets.map Prod.snd)
          usedChunkIds := snippets.map Prod.fst }
      usage := {} }

/-! ## The chunk ids of an answer -/

theorem trim_trim (text : Text) : trim (trim text) = trim text := strip_strip isSpace text

/-- The string of an id has no blanks at its ends. -/
theorem trim_idText (id : Id) : trim (idText id) = idText id := by
  have hdigit : ∀ c ∈ idText id, isSpace c = false := by
    intro c hc
    have hdigit : c.isDigit = true := Nat.isDigit_of_mem_toDigits (by decide) (by decide) hc
    have hrange : 48 ≤ c.toNat ∧ c.toNat ≤ 57 := by
      simpa [Char.isDigit, UInt32.le_iff_toNat_le] using hdigit
    simp [isSpace]
    omega
  exact strip_eq_self isSpace (fun c hc => hdigit c (List.mem_of_mem_head? hc))
    fun c hc => hdigit c (List.mem_of_mem_getLast? hc)

theorem status_of_parseGroundedAnswer {citationLimit : ℕ} {parsed : GroundedOutput}
    {answer : ModelAnswer} (h : parseGroundedAnswer citationLimit parsed = some answer) :
    answer.status = parsed.status := by
  unfold parseGroundedAnswer at h
  simp only at h
  split_ifs at h <;> cases h <;> rfl

theorem trimmed_of_parseGroundedAnswer {citationLimit : ℕ} {parsed : GroundedOutput}
    {answer : ModelAnswer} (h : parseGroundedAnswer citationLimit parsed = some answer) :
    ∀ used ∈ answer.usedChunkIds, trim used = used := by
  unfold parseGroundedAnswer at h
  simp only at h
  split_ifs at h with hblank hgrounded
  · cases h
    intro used hused
    have hmem := List.mem_of_mem_take hused
    simp only [List.mem_eraseDups, List.mem_filter, List.mem_map] at hmem
    obtain ⟨⟨raw, -, rfl⟩, -⟩ := hmem
    exact trim_trim raw
  · cases h
    intro used hused
    cases hused

theorem trimmed_of_createLocalAnswer {uni : EcmaUnicode} {question normalizedQuery : Text}
    {selectedChunks : List RetrievalCandidate} :
    ∀ used ∈ (createLocalAnswer uni question normalizedQuery selectedChunks).answer.usedChunkIds,
      trim used = used := by
  unfold createLocalAnswer
  simp only
  split_ifs with hnone
  · intro used hused
    cases hused
  · intro used hused
    simp only [List.mem_map, List.mem_filter] at hused
    obtain ⟨_, ⟨⟨chunk, -, rfl⟩, -⟩, rfl⟩ := hused
    exact trim_idText chunk.chunkId

end RagStack.Chat
