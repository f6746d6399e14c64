import RagStack.Chat.HybridScorer
import RagStack.Chat.Snippets

/-!
# Assembling the citations

`services/api/src/chat/citation-assembler.service.ts`. The chunk ids that a model
names are strings; `idText` is the string of an id.

* `assemble` — the citations for an answer, with the reasons of the rejections.
* `mem_citations_assemble`: a cited chunk was named by the model, and retrieved.
* `ranks_assemble`, `length_citations_assemble_le`: the ranks count up from one,
  and there are not more citations than admitted.
-/

namespace RagStack.Chat

open RagStack.Common RagStack.Api
open RagStack.Worker (Text)
open RagStack.Ingest (Id)

def CITATION_POLICY_VERSION : String := "answer_level_v1"

def MIN_CITATION_SUPPORT_SCORE : ℚ := 1 / 10

/-- The string of an id. -/
def idText (id : Id) : Text := Nat.toDigits 10 id

/-! ## Candidates -/

/-- `PreparedCitationCandidate` (lines 24–31). -/
structure PreparedCitationCandidate where
  chunk : RetrievalCandidate
  supportScore : ℚ
  answerCoverage : ℚ
  queryCoverage : ℚ
  groundingRank : ℕ
  snippet : Text

/-- The parameters of `assemble`. -/
structure AssembleParams where
  usedChunkIds : List Text
  selectedChunks : List RetrievalCandidate
  normalizedQuery : Text
  answerText : Text

/-- `searchText || content`. -/
def RetrievalCandidate.matchedText (chunk : RetrievalCandidate) : Text :=
  if chunk.searchText = [] then chunk.content else chunk.searchText

/-- `prepareCandidate` (lines 224–271), or the reason against it. -/
def prepareCandidate (uni : EcmaUnicode) (params : AssembleParams) (chunk : RetrievalCandidate)
    (groundingRank : ℕ) : Except String PreparedCitationCandidate :=
  match buildSnippet uni chunk.content params.normalizedQuery params.answerText with
  | none => .error "snippet_unavailable"
  | some snippet =>
    let queryTokens := extractMatchingTerms uni params.normalizedQuery
    let queryPhrases := extractQuotedPhrases uni params.normalizedQuery
    let answerTokens := extractMatchingTerms uni params.answerText
    let answerCoverage := computeTokenCoverage uni (some chunk.matchedText) answerTokens
    let queryCoverage := max (computeTokenCoverage uni (some chunk.matchedText) queryTokens)
      (computePhraseCoverage uni (some chunk.matchedText) queryPhrases)
    let supportScore := clamp01
      (75 / 100 * chunk.hybridScore + 15 / 100 * answerCoverage + 1 / 10 * queryCoverage)
    .ok
      { chunk := chunk
        supportScore := toFixed6 supportScore
        answerCoverage := toFixed6 answerCoverage
        queryCoverage := toFixed6 queryCoverage
        groundingRank := groundingRank
        snippet := snippet }

/-- `comparePreparedCandidates` (lines 289–314). -/
def comparePreparedCandidates (locale : LocaleCompare) (left right : PreparedCitationCandidate) :
    Ordering :=
  (compare right.supportScore left.supportScore).then <|
  (compare right.chunk.hybridScore left.chunk.hybridScore).then <|
  (compare right.answerCoverage left.answerCoverage).then <|
  (compare right.queryCoverage left.queryCoverage).then <|
  (compare left.groundingRank right.groundingRank).then <|
  (compare (left.chunk.pageNumber.getD 9007199254740991)
    (right.chunk.pageNumber.getD 9007199254740991)).then <|
  locale.compare left.chunk.chunkId right.chunk.chunkId

/-- `findRedundantReason` (lines 316–352). -/
def findRedundantReason (uni : EcmaUnicode) (existing candidate : PreparedCitationCandidate) :
    Option String :=
  let left := existing.chunk
  let right := candidate.chunk
  let overlap := computeJaccard uni (some left.matchedText) (some right.matchedText)
  let sameSection := normalizeTextForMatch uni left.sectionTitle =
    normalizeTextForMatch uni right.sectionTitle
  let samePage := left.pageNumber ≠ none ∧ left.pageNumber = right.pageNumber
  let nearAdjacentChunk := left.documentVersionId = right.documentVersionId ∧
    left.chunkNo ≤ right.chunkNo + 1 ∧ right.chunkNo ≤ left.chunkNo + 1
  if left.chunkId = right.chunkId then some ("duplicate_of_" ++ String.ofList (idText left.chunkId))
  else if left.documentId ≠ right.documentId then none
  else if 9 / 10 ≤ overlap ∧ nearAdjacentChunk then
    some ("near_duplicate_of_" ++ String.ofList (idText left.chunkId))
  else if sameSection ∧ (samePage ∨ nearAdjacentChunk) ∧ 82 / 100 ≤ overlap then
    some ("same_section_redundant_with_" ++ String.ofList (idText left.chunkId))
  else none

/-- `toCitationView` (lines 273–287). -/
def toCitationView (candidate : PreparedCitationCandidate) (rank : ℕ) : CitationView where
  rank := rank
  score := candidate.supportScore
  chunkId := candidate.chunk.chunkId
  documentId := candidate.chunk.documentId
  documentTitle := candidate.chunk.documentTitle
  snippet := candidate.snippet
  page := candidate.chunk.pageNumber
  «section» := candidate.chunk.sectionTitle

/-! ## Assembling -/

/-- `requestedChunkIds` (lines 48–52). -/
def requestedChunkIds (usedChunkIds : List Text) : List Text :=
  ((usedChunkIds.map trim).filter fun chunkId => chunkId ≠ []).eraseDups

/-- `groundingMap.get(chunkId)`: of chunks with one id the last one is in the map. -/
def groundedCandidate (selectedChunks : List RetrievalCandidate) (chunkId : Text) :
    Option (RetrievalCandidate × ℕ) :=
  (selectedChunks.zipIdx 1).reverse.find? fun entry => idText entry.1.chunkId = chunkId

/-- A requested id in the first loop (lines 65–103). -/
def admitChunkId (uni : EcmaUnicode) (params : AssembleParams) (chunkId : Text) :
    Except CitationAssemblyRejection PreparedCitationCandidate :=
  match groundedCandidate params.selectedChunks chunkId with
  | none => .error { chunkId := chunkId, reason := "not_in_grounding_set" }
  | some (chunk, groundingRank) =>
    match prepareCandidate uni params chunk groundingRank with
    | .error reason => .error { chunkId := chunkId, reason := reason }
    | .ok prepared =>
      if prepared.supportScore < MIN_CITATION_SUPPORT_SCORE then
        .error { chunkId := chunkId, reason := "support_too_weak" }
      else .ok prepared

/-- What the second loop has selected and rejected. -/
structure CitationSelection where
  selected : List PreparedCitationCandidate := []
  rejected : List CitationAssemblyRejection := []

/-- A candidate in the second loop (lines 109–131). -/
def selectCitation (uni : EcmaUnicode) (maxCitations : ℕ) (state : CitationSelection)
    (candidate : PreparedCitationCandidate) : CitationSelection :=
  let reject := fun reason => { state with
    rejected := state.rejected ++
      [{ chunkId := idText candidate.chunk.chunkId, reason := reason }] }
  match state.selected.findSome? fun existing => findRedundantReason uni existing candidate with
  | some reason => reject reason
  | none =>
    if maxCitations ≤ state.selected.length then reject "citation_limit_exceeded"
    else { state with selected := state.selected ++ [candidate] }

/-- The candidates that the first loop prepares, in the order of `usedChunkIds`. -/
def preparedCandidates (uni : EcmaUnicode) (params : AssembleParams) :
    List PreparedCitationCandidate :=
  (requestedChunkIds params.usedChunkIds).filterMap fun chunkId =>
    (admitChunkId uni params chunkId).toOption

/-- The ids that the first loop rejects. -/
def firstRejections (uni : EcmaUnicode) (params : AssembleParams) :
    List CitationAssemblyRejection :=
  (requestedChunkIds params.usedChunkIds).filterMap fun chunkId =>
    match admitChunkId uni params chunkId with
    | .error rejection => some rejection
    | .ok _ => none

/-- Both loops of `assemble`. -/
def selectCitations (uni : EcmaUnicode) (locale : LocaleCompare) (maxCitations : ℕ)
    (params : AssembleParams) : CitationSelection :=
  ((preparedCandidates uni params).mergeSort fun left right =>
    (comparePreparedCandidates locale left right).isLE).foldl (selectCitation uni maxCitations)
      { rejected := firstRejections uni params }

/-- `assemble` (lines 41–148). -/
def assemble (uni : EcmaUnicode) (locale : LocaleCompare) (maxCitations : ℕ)
    (params : AssembleParams) : CitationAssemblyResult :=
  let selection := selectCitations uni locale maxCitations params
  let citations := selection.selected.mapIdx fun index candidate =>
    toCitationView candidate (index + 1)
  { citations := citations
    debug :=
      { policyVersion := CITATION_POLICY_VERSION
        granularity := "answer_level"
        maxCitations := maxCitations
        requestedChunkIds := requestedChunkIds params.usedChunkIds
        acceptedChunkIds := citations.map fun citation => idText citation.chunkId
        rejectedChunkIds := selection.rejected } }

/-! ## What is cited -/

section Cited

variable {uni : EcmaUnicode} {locale : LocaleCompare} {maxCitations : ℕ} {params : AssembleParams}

/-- A grounded candidate is a selected chunk with the id that was asked for. -/
theorem groundedCandidate_spec {selectedChunks : List RetrievalCandidate} {chunkId : Text}
    {chunk : RetrievalCandidate} {rank : ℕ}
    (h : groundedCandidate selectedChunks chunkId = some (chunk, rank)) :
    chunk ∈ selectedChunks ∧ idText chunk.chunkId = chunkId := by
  have hmem : (chunk, rank) ∈ selectedChunks.zipIdx 1 :=
    List.mem_reverse.mp (List.mem_of_find?_eq_some h)
  have hid := List.find?_some h
  exact ⟨List.fst_mem_of_mem_zipIdx hmem, by simpa using hid⟩

theorem prepareCandidate_chunk {chunk : RetrievalCandidate} {rank : ℕ}
    {prepared : PreparedCitationCandidate}
    (h : prepareCandidate uni params chunk rank = .ok prepared) : prepared.chunk = chunk := by
  unfold prepareCandidate at h
  split at h
  · cases h
  · cases h
    rfl

/-- An admitted candidate is a selected chunk that was asked for, with enough
    support. -/
theorem admitChunkId_spec {chunkId : Text} {prepared : PreparedCitationCandidate}
    (h : admitChunkId uni params chunkId = .ok prepared) :
    prepared.chunk ∈ params.selectedChunks ∧ idText prepared.chunk.chunkId = chunkId ∧
      MIN_CITATION_SUPPORT_SCORE ≤ prepared.supportScore := by
  unfold admitChunkId at h
  split at h
  · cases h
  · rename_i chunk rank hgrounded
    split at h
    · cases h
    · rename_i prepared' hprepared
      split_ifs at h with hweak
      cases h
      obtain ⟨hmem, hid⟩ := groundedCandidate_spec hgrounded
      rw [prepareCandidate_chunk hprepared]
      exact ⟨hmem, hid, not_lt.mp hweak⟩

/-- What is prepared was admitted for a requested id. -/
theorem exists_requested_of_mem {prepared : PreparedCitationCandidate}
    (h : prepared ∈ preparedCandidates uni params) :
    ∃ chunkId ∈ requestedChunkIds params.usedChunkIds,
      admitChunkId uni params chunkId = .ok prepared := by
  obtain ⟨chunkId, hrequested, hadmitted⟩ := List.mem_filterMap.mp h
  cases hresult : admitChunkId uni params chunkId with
  | error rejection =>
    rw [hresult] at hadmitted
    cases hadmitted
  | ok found =>
    rw [hresult] at hadmitted
    cases hadmitted
    exact ⟨chunkId, hrequested, hresult⟩

theorem mem_preparedCandidates {prepared : PreparedCitationCandidate}
    (h : prepared ∈ preparedCandidates uni params) :
    prepared.chunk ∈ params.selectedChunks ∧
      idText prepared.chunk.chunkId ∈ requestedChunkIds params.usedChunkIds := by
  obtain ⟨chunkId, hrequested, hadmitted⟩ := exists_requested_of_mem h
  obtain ⟨hmem, hid, -⟩ := admitChunkId_spec hadmitted
  exact ⟨hmem, by rwa [hid]⟩

/-- A step of the second loop selects the candidate or leaves the selection. -/
theorem selected_selectCitation (state : CitationSelection)
    (candidate : PreparedCitationCandidate) :
    (selectCitation uni maxCitations state candidate).selected = state.selected ∨
      (selectCitation uni maxCitations state candidate).selected = state.selected ++ [candidate] ∧
        state.selected.length < maxCitations := by
  unfold selectCitation
  split
  · exact Or.inl rfl
  · split_ifs with hfull
    · exact Or.inl rfl
    · exact Or.inr ⟨rfl, not_le.mp hfull⟩

theorem selected_foldl {candidates : List PreparedCitationCandidate} :
    ∀ {state : CitationSelection}, state.selected.length ≤ maxCitations →
      (candidates.foldl (selectCitation uni maxCitations) state).selected.length ≤ maxCitations ∧
      ∀ candidate ∈ (candidates.foldl (selectCitation uni maxCitations) state).selected,
        candidate ∈ state.selected ∨ candidate ∈ candidates := by
  induction candidates with
  | nil => exact fun hlen => ⟨hlen, fun _ h => Or.inl h⟩
  | cons first candidates ih =>
    intro state hlen
    rw [List.foldl_cons]
    have hstep : (selectCitation uni maxCitations state first).selected.length ≤ maxCitations ∧
        ∀ candidate ∈ (selectCitation uni maxCitations state first).selected,
          candidate ∈ state.selected ∨ candidate = first := by
      rcases selected_selectCitation state first with heq | ⟨heq, hroom⟩
      · rw [heq]
        exact ⟨hlen, fun _ h => Or.inl h⟩
      · rw [heq]
        refine ⟨?_, fun _ h => by simpa using h⟩
        rw [List.length_append]
        exact hroom
    obtain ⟨hlen', hmem⟩ := ih hstep.1
    refine ⟨hlen', fun candidate hcandidate => ?_⟩
    rcases hmem candidate hcandidate with h | h
    · rcases hstep.2 candidate h with h | rfl
      · exact Or.inl h
      · exact Or.inr List.mem_cons_self
    · exact Or.inr (List.mem_cons_of_mem _ h)

theorem mem_selectCitations {candidate : PreparedCitationCandidate}
    (h : candidate ∈ (selectCitations uni locale maxCitations params).selected) :
    candidate ∈ preparedCandidates uni params := by
  rcases (selected_foldl (Nat.zero_le maxCitations)).2 candidate h with h | h
  · cases h
  · exact List.mem_mergeSort.mp h

theorem length_citations_assemble_le :
    (assemble uni locale maxCitations params).citations.length ≤ maxCitations := by
  rw [assemble, List.length_mapIdx]
  exact (selected_foldl (Nat.zero_le maxCitations)).1

/-- The ranks are `1, …, n`. -/
theorem ranks_assemble :
    (assemble uni locale maxCitations params).citations.map CitationView.rank =
      List.range' 1 (assemble uni locale maxCitations params).citations.length := by
  refine List.ext_getElem (by simp) fun i hi hi' => ?_
  simp [assemble, toCitationView, Nat.add_comm]

/-- A cited chunk is one of the selected chunks, and was asked for. -/
theorem mem_citations_assemble {citation : CitationView}
    (h : citation ∈ (assemble uni locale maxCitations params).citations) :
    (∃ chunk ∈ params.selectedChunks, chunk.chunkId = citation.chunkId) ∧
      idText citation.chunkId ∈ requestedChunkIds params.usedChunkIds := by
  obtain ⟨i, hi, rfl⟩ := List.mem_mapIdx.mp h
  obtain ⟨hchunk, hid⟩ := mem_preparedCandidates (mem_selectCitations (List.getElem_mem hi))
  exact ⟨⟨_, hchunk, rfl⟩, hid⟩

theorem mem_requestedChunkIds {usedChunkIds : List Text} {chunkId : Text} :
    chunkId ∈ requestedChunkIds usedChunkIds ↔
      chunkId ≠ [] ∧ ∃ used ∈ usedChunkIds, trim used = chunkId := by
  simp only [requestedChunkIds, List.mem_eraseDups, List.mem_filter, List.mem_map,
    decide_eq_true_eq]
  tauto

end Cited

end RagStack.Chat
