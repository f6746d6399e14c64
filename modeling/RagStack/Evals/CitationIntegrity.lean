import RagStack.Chat.CitationSelection
import RagStack.Evals.Scoring

/-!
# The citations of an executed case

`computeCitationIntegrity` of `services/api/src/evals/eval-scoring.service.ts` on the
results of `executeCase`: the checks are written a second time, independently of
`assemble`.

* `citationIntegrity_executeCase`: a grounded result has the full score, and every
  other result no citations.
-/

namespace RagStack.Evals

open RagStack.Common RagStack.Api RagStack.Chat
open RagStack.Worker (Text)
open RagStack.Ingest (Id)

theorem hasDuplicateChunk_eq_false {citations : List CitationView}
    (h : (citations.map CitationView.chunkId).Nodup) : hasDuplicateChunk citations = false := by
  induction citations with
  | nil => rfl
  | cons citation citations ih =>
    rw [List.map_cons, List.nodup_cons] at h
    rw [hasDuplicateChunk, ih h.2, Bool.or_false, List.any_eq_false]
    intro later hlater heq
    exact h.1 (List.mem_map.mpr ⟨later, hlater, of_decide_eq_true heq⟩)

/-- The source of a selected chunk, where the chunk ids are distinct. -/
theorem sourceOfChunk_selectedSource {selectedChunks : List RetrievalCandidate}
    (hnodup : (selectedChunks.map RetrievalCandidate.chunkId).Nodup) {chunk : RetrievalCandidate}
    (hchunk : chunk ∈ selectedChunks) :
    sourceOfChunk (selectedChunks.map selectedSource) chunk.chunkId =
      some (selectedSource chunk) := by
  have hsome : (sourceOfChunk (selectedChunks.map selectedSource) chunk.chunkId).isSome = true := by
    refine List.find?_isSome.mpr ⟨selectedSource chunk, ?_, by simp [selectedSource]⟩
    exact List.mem_reverse.mpr (List.mem_map_of_mem hchunk)
  obtain ⟨source, hsource⟩ := Option.isSome_iff_exists.mp hsome
  obtain ⟨other, hother, rfl⟩ :=
    List.mem_map.mp (List.mem_reverse.mp (List.mem_of_find?_eq_some hsource))
  rw [sourceOfChunk] at hsource
  have hfound := List.find?_some hsource
  have hid : other.chunkId = chunk.chunkId := of_decide_eq_true hfound
  rw [sourceOfChunk, hsource, List.inj_on_of_nodup_map hnodup hother hchunk hid]

/-- A list of citations without a fault. -/
structure IsIntact (citationLimit : ℕ) (execution : EvalExecutionResult) : Prop where
  ne_nil : execution.citations ≠ []
  nodup : (execution.citations.map CitationView.chunkId).Nodup
  length_le : execution.citations.length ≤ citationLimit
  sources : ∀ citation ∈ execution.citations, ∃ source,
    sourceOfChunk execution.selectedSources citation.chunkId = some source ∧
      source.documentId = citation.documentId

theorem IsIntact.score_eq {citationLimit : ℕ} {execution : EvalExecutionResult}
    (h : IsIntact citationLimit execution) :
    (computeCitationIntegrity citationLimit .groundedAnswer execution).score = some 2 := by
  have hmissing : (execution.citations.any fun citation =>
      (sourceOfChunk execution.selectedSources citation.chunkId).isNone) = false := by
    rw [List.any_eq_false]
    intro citation hcitation
    obtain ⟨source, hsource, -⟩ := h.sources citation hcitation
    simp [hsource]
  have hmismatched : (execution.citations.any fun citation =>
      (sourceOfChunk execution.selectedSources citation.chunkId).any fun source =>
        source.documentId ≠ citation.documentId) = false := by
    rw [List.any_eq_false]
    intro citation hcitation
    obtain ⟨source, hsource, hdocument⟩ := h.sources citation hcitation
    simp [hsource, hdocument]
  have hvalid : ¬(hasDuplicateChunk execution.citations = true ∨
      citationLimit < execution.citations.length) := by
    simp [hasDuplicateChunk_eq_false h.nodup, h.length_le]
  unfold computeCitationIntegrity
  simp only [hmissing, hmismatched]
  rw [if_neg (by simp), if_neg h.ne_nil, if_neg (by simp), if_neg hvalid]
  rfl

section Case

variable {uni : EcmaUnicode} {locale : LocaleCompare} {config : ChatConfig}
  {retrieval : RetrievalResult}

/-- The citations of an assembly trace back to the sources of a case. -/
theorem sources_of_isAssembly {maxCitations : ℕ} {params : AssembleParams}
    {result : CitationAssemblyResult} (h : IsAssembly uni maxCitations params result)
    (hnodup : (params.selectedChunks.map RetrievalCandidate.chunkId).Nodup) :
    ∀ citation ∈ result.citations, ∃ source,
      sourceOfChunk (params.selectedChunks.map selectedSource) citation.chunkId = some source ∧
        source.documentId = citation.documentId := by
  obtain ⟨kept, hcitations, hkept, -⟩ := h.cited
  intro citation hcitation
  rw [hcitations] at hcitation
  obtain ⟨i, hi, rfl⟩ := List.mem_mapIdx.mp hcitation
  exact ⟨selectedSource kept[i].chunk,
    sourceOfChunk_selectedSource hnodup (hkept _ (List.getElem_mem hi)).1, rfl⟩

theorem nodup_chunkIds_of_isAssembly {maxCitations : ℕ} {params : AssembleParams}
    {result : CitationAssemblyResult} (h : IsAssembly uni maxCitations params result) :
    (result.citations.map CitationView.chunkId).Nodup := by
  have haccepted := h.nodup_ids.sublist (List.sublist_append_left _ _)
  rw [h.acceptedChunkIds] at haccepted
  have hids : ((result.citations.map CitationView.chunkId).map idText).Nodup := by
    rwa [List.map_map]
  exact hids.of_map

/-- What is true of each exit of `executeCase`. -/
structure CitesIntactly (citationLimit : ℕ) (result : EvalExecutionResult) : Prop where
  grounded : result.status = .grounded → IsIntact citationLimit result
  refused : result.status ≠ .grounded → result.citations = []

theorem citesIntactly_of_refusal {citationLimit : ℕ} {result : EvalExecutionResult}
    (hstatus : result.status ≠ .grounded) (hcitations : result.citations = []) :
    CitesIntactly citationLimit result :=
  ⟨fun hgrounded => absurd hgrounded hstatus, fun _ => hcitations⟩

/-- The parameters with which a case assembles the citations of a grounded answer. -/
def assembleParams (retrieval : RetrievalResult) (result : GroundedAnswerResult) :
    AssembleParams where
  usedChunkIds := result.answer.usedChunkIds
  selectedChunks := retrieval.selectedChunks
  normalizedQuery := retrieval.normalizedQuery
  answerText := result.answer.answer

/-- The result for a grounded answer: what was assembled, or a refusal where that is
    nothing. -/
theorem modelCaseResult_of_grounded {result : GroundedAnswerResult}
    (hgrounded : result.answer.status = .grounded) (latencyMs : ℕ) :
    (modelCaseResult uni locale config latencyMs retrieval result).citations =
        (assemble uni locale config.citationLimit (assembleParams retrieval result)).citations ∧
      ((modelCaseResult uni locale config latencyMs retrieval result).status = .grounded ↔
        (modelCaseResult uni locale config latencyMs retrieval result).citations ≠ []) := by
  obtain ⟨hstatus, hcitations⟩ :
      SameAnswer (modelCaseResult uni locale config latencyMs retrieval result) _ _ :=
    sameAnswer_modelCaseResult latencyMs result
  rw [hstatus, hcitations, citations_modelOutcome hgrounded]
  refine ⟨rfl, ?_⟩
  rw [modelOutcome_grounded_iff, citations_modelOutcome hgrounded]

theorem citesIntactly_modelCaseResult
    (hnodup : (retrieval.selectedChunks.map RetrievalCandidate.chunkId).Nodup) (latencyMs : ℕ)
    (result : GroundedAnswerResult) :
    CitesIntactly config.citationLimit
      (modelCaseResult uni locale config latencyMs retrieval result) := by
  by_cases hgrounded : result.answer.status = .grounded
  · obtain ⟨hcitations, hstatus⟩ := modelCaseResult_of_grounded hgrounded latencyMs
    have hassembly : IsAssembly uni config.citationLimit (assembleParams retrieval result)
        (assemble uni locale config.citationLimit (assembleParams retrieval result)) :=
      isAssembly_assemble
    refine ⟨fun h => ⟨hstatus.mp h, ?_, ?_, ?_⟩, fun h => not_not.mp (mt hstatus.mpr h)⟩
    · rw [hcitations]
      exact nodup_chunkIds_of_isAssembly hassembly
    · rw [hcitations]
      exact hassembly.length_le
    · rw [hcitations]
      exact sources_of_isAssembly hassembly hnodup
  · exact citesIntactly_of_refusal (by simp [modelCaseResult, hgrounded])
      (by simp [modelCaseResult, hgrounded])

/-- Each exit of the decisions: two refusals, and the result for an answer. -/
theorem citesIntactly_caseResult
    (hnodup : (retrieval.selectedChunks.map RetrievalCandidate.chunkId).Nodup) {gateway : Gateway}
    {latencyMs indexedChunkCount : ℕ} {question : Text} {result : EvalExecutionResult}
    (h : caseResult uni locale config gateway latencyMs question indexedChunkCount retrieval =
      .ok result) :
    CitesIntactly config.citationLimit result := by
  unfold caseResult at h
  split at h
  · cases h
    exact citesIntactly_of_refusal (by simp) rfl
  · split at h
    · cases h
      exact citesIntactly_of_refusal (by simp) rfl
    · split at h
      · cases h
      · cases h
        exact citesIntactly_modelCaseResult hnodup latencyMs _

/-- The checks accept whatever `executeCase` returns: a grounded result has the full
    score of a grounded answer, and any other result has no citations, which is the
    full score of a refusal. -/
theorem citationIntegrity_executeCase {gateway : Gateway}
    {retrieve : Id → Except HttpException RetrievalResult} {db : Database} {latencyMs : ℕ}
    {kbId : Id} {question : Text} {result : EvalExecutionResult}
    (hnodup : ∀ retrieval, retrieve kbId = .ok retrieval →
      (retrieval.selectedChunks.map RetrievalCandidate.chunkId).Nodup)
    (h : executeCase uni locale config gateway retrieve db latencyMs kbId question = .ok result) :
    (result.status = .grounded →
      (computeCitationIntegrity config.citationLimit .groundedAnswer result).score = some 2) ∧
    (result.status ≠ .grounded → result.citations = [] ∧
      (computeCitationIntegrity config.citationLimit .refusal result).score = some 2) := by
  have hcites : CitesIntactly config.citationLimit result := by
    simp only [executeCase, bind, Except.bind] at h
    split at h
    · cases h
    · rename_i retrieval hretrieval
      split at h
      · cases h
      · exact citesIntactly_caseResult (hnodup retrieval hretrieval) h
  refine ⟨fun hgrounded => (hcites.grounded hgrounded).score_eq, fun hrefused => ?_⟩
  have hnone := hcites.refused hrefused
  refine ⟨hnone, ?_⟩
  simp only [computeCitationIntegrity, if_pos hnone]
  rfl

end Case

/-- Two chunks of a guide that are not next to each other. -/
def twoChunkRetrieval : RetrievalResult :=
  { lexicalRetrieval (5 / 10) with
    totalCandidates := 2
    selectedChunks := [{ guideCandidate 1 .lexical 0 with hybridScore := 5 / 10 },
      { guideCandidate 3 .lexical 0 with
        hybridScore := 4 / 10
        content := "Reset the worker.".toList
        searchText := "Reset the worker.".toList
        checksum := "1" }] }

/-- An answer from both. -/
def twoChunkOutput : GroundedOutput := { workerOutput with used_chunk_ids := [idText 1, idText 3] }

/-- A case that is answered from both. -/
def executeTwoChunks : Except HttpException EvalExecutionResult :=
  executeCase .ascii .numeric { configuredChatModel := "chat" } (fun _ => some (twoChunkOutput, {}))
    (fun _ => .ok twoChunkRetrieval) guideDb 5 1 workerQuestion.question

/-- The answer as it is parsed. -/
def twoChunkAnswer : GroundedAnswerResult where
  answer :=
    { status := .grounded
      answer := "Install the worker.".toList
      usedChunkIds := [idText 1, idText 3] }
  usage := {}

/-- No decision keeps the case from the model. -/
theorem executeTwoChunks_eq :
    executeTwoChunks = .ok (modelCaseResult .ascii .numeric { configuredChatModel := "chat" } 5
      twoChunkRetrieval twoChunkAnswer) := by
  have hevidence : ¬(twoChunkRetrieval.selectedChunks = [] ∨
      twoChunkRetrieval.topScore < LOW_EVIDENCE_SCORE_THRESHOLD) := by decide +kernel
  have hparsed : parseGroundedAnswer 3 twoChunkOutput = some twoChunkAnswer.answer := by
    decide +kernel
  have hkb : assertRetrievedChunksStayInKb twoChunkRetrieval.selectedChunks 1 = .ok () := rfl
  simp only [executeTwoChunks, executeCase, bind, Except.bind, hkb]
  rw [caseResult, if_neg (by decide +kernel), if_neg hevidence]
  simp only [createGroundedAnswerOrThrow, Bool.not_true, Bool.false_eq_true, if_false, hparsed]
  rfl

/-- Both are cited; the candidates are already in order. -/
theorem ranks_twoChunks :
    (assemble .ascii .numeric 3 (assembleParams twoChunkRetrieval twoChunkAnswer)).citations.map
      CitationView.rank = [1, 2] := by
  have hsorted : (preparedCandidates .ascii (assembleParams twoChunkRetrieval twoChunkAnswer)).mergeSort
      (fun left right => (comparePreparedCandidates .numeric left right).isLE) =
        preparedCandidates .ascii (assembleParams twoChunkRetrieval twoChunkAnswer) :=
    List.mergeSort_of_pairwise (by decide +kernel)
  rw [assemble, selectCitations, hsorted]
  decide +kernel

theorem citationIntegrity_executeCase_worker :
    ∃ result, executeTwoChunks = .ok result ∧ result.status = .grounded ∧
      result.citations.map CitationView.rank = [1, 2] ∧
      (computeCitationIntegrity 3 .groundedAnswer result).score = some 2 := by
  obtain ⟨hcitations, hstatus⟩ :
      (modelCaseResult .ascii .numeric { configuredChatModel := "chat" } 5 twoChunkRetrieval
        twoChunkAnswer).citations = _ ∧ _ := modelCaseResult_of_grounded rfl 5
  have hranks := ranks_twoChunks
  rw [← hcitations] at hranks
  have hgrounded := hstatus.mpr fun hnone => by simp [hnone] at hranks
  refine ⟨_, executeTwoChunks_eq, hgrounded, hranks,
    (citationIntegrity_executeCase ?_ executeTwoChunks_eq).1 hgrounded⟩
  intro retrieval hretrieval
  cases hretrieval
  decide

end RagStack.Evals
