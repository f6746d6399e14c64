import RagStack.Chat.Ask

/-!
# Executing an eval case

`executeCase` of `services/api/src/evals/evals.service.ts`, which makes the
decisions of `ask` once more. The threshold for weak evidence is always that of
the semantic search here; `ask` has a lower one when only the lexical search has
found something.

* `executeCase_agrees_iff`: the two agree, except between the thresholds.
-/

namespace RagStack.Evals

open RagStack.Common RagStack.Api RagStack.Chat
open RagStack.Worker (Text)
open RagStack.Ingest (Id DocumentChunk)
open RagStack.Access (AuthenticatedUser)

/-! ## The runner -/

/-- `EvalSelectedSource`. -/
structure EvalSelectedSource where
  chunkId : Id
  documentId : Id
  documentTitle : Text
  score : ℚ
  page : Option ℤ
  «section» : Option Text
  snippet : Text
deriving DecidableEq, Repr

/-- `EvalExecutionResult`. -/
structure EvalExecutionResult where
  status : ChatStatus
  answer : Text
  citations : List CitationView := []
  usage : UsageView := {}
  latencyMs : ℕ
  selectedSources : List EvalSelectedSource := []
  topScore : ℚ
  retrievalDebug : Option RetrievalDebugView := none
  citationDebug : Option CitationAssemblyDebug := none

/-- The condition that `executeCase` counts by (lines 652–659). -/
def isIndexedChunk (db : Database) (kbId : Id) (dc : DocumentChunk) : Bool :=
  decide (dc.kbId = kbId) && dc.isActive &&
    (db.documents.get? dc.documentId).any (fun d => d.status = .indexed) &&
    (db.versions.get? dc.documentVersionId).any (fun v => v.status = .indexed)

/-- `toEvidenceSnippet` (lines 791–793). -/
def toEvidenceSnippet (content : Text) : Text := unitsBefore 280 (collapseSpaces content)

/-- An entry of `selectedSources` (lines 756–764). -/
def selectedSource (chunk : RetrievalCandidate) : EvalSelectedSource where
  chunkId := chunk.chunkId
  documentId := chunk.documentId
  documentTitle := chunk.documentTitle
  score := toFixed6 chunk.hybridScore
  page := chunk.pageNumber
  «section» := chunk.sectionTitle
  snippet := toEvidenceSnippet chunk.content

/-- `assertRetrievedChunksStayInKb` (lines 771–789). -/
def assertRetrievedChunksStayInKb (selectedChunks : List RetrievalCandidate) (kbId : Id) :
    Except HttpException Unit :=
  match selectedChunks.find? fun chunk => chunk.kbId ≠ kbId with
  | none => .ok ()
  | some _ => .error (.serviceUnavailable "Retrieval integrity check failed")

/-- `createGroundedAnswerOrThrow` (lines 795–822). -/
def createGroundedAnswerOrThrow (config : ChatConfig) (gateway : Gateway) (prompt : PromptParams) :
    Except HttpException GroundedAnswerResult :=
  if !config.isConfigured then .error (.serviceUnavailable "Eval answer generation failed")
  else
    match gateway prompt with
    | none => .error (.serviceUnavailable "Eval answer generation failed")
    | some (output, usage) =>
      match parseGroundedAnswer config.citationLimit output with
      | none => .error (.serviceUnavailable "Eval answer generation failed")
      | some answer => .ok { answer := answer, usage := usage }

/-- The result for a result of the model (lines 722–768). -/
def modelCaseResult (uni : EcmaUnicode) (locale : LocaleCompare) (config : ChatConfig)
    (latencyMs : ℕ) (retrieval : RetrievalResult) (result : GroundedAnswerResult) :
    EvalExecutionResult :=
  let assembly : CitationAssemblyResult :=
    if result.answer.status = .grounded then
      assemble uni locale config.citationLimit
        { usedChunkIds := result.answer.usedChunkIds
          selectedChunks := retrieval.selectedChunks
          normalizedQuery := retrieval.normalizedQuery
          answerText := result.answer.answer }
    else
      { citations := []
        debug :=
          { policyVersion := CITATION_POLICY_VERSION
            granularity := "answer_level"
            maxCitations := config.citationLimit
            requestedChunkIds := []
            acceptedChunkIds := []
            rejectedChunkIds := [] } }
  let downgraded := result.answer.status = .grounded ∧ assembly.citations.length = 0
  { status := if downgraded then .insufficientData else result.answer.status
    answer := if downgraded then
        "I could not assemble a citation-backed answer from the available sources.".toList
      else result.answer.answer
    citations := assembly.citations
    usage := result.usage
    latencyMs := latencyMs
    selectedSources := retrieval.selectedChunks.map selectedSource
    topScore := retrieval.topScore
    retrievalDebug := some retrieval.debug
    citationDebug := some assembly.debug }

/-- The decisions of `executeCase` (lines 672–768). -/
def caseResult (uni : EcmaUnicode) (locale : LocaleCompare) (config : ChatConfig)
    (gateway : Gateway) (latencyMs : ℕ) (question : Text) (indexedChunkCount : ℕ)
    (retrieval : RetrievalResult) : Except HttpException EvalExecutionResult :=
  if indexedChunkCount = 0 then
    .ok
      { status := .insufficientData
        answer :=
          ("I do not have enough indexed information in this knowledge base to answer that " ++
            "yet.").toList
        latencyMs := latencyMs
        topScore := retrieval.topScore
        retrievalDebug := some retrieval.debug }
  else if retrieval.selectedChunks = [] ∨ retrieval.topScore < LOW_EVIDENCE_SCORE_THRESHOLD then
    .ok
      { status := .outOfScope
        answer :=
          ("I could not find relevant support material in the selected knowledge base for that " ++
            "question.").toList
        latencyMs := latencyMs
        topScore := retrieval.topScore
        retrievalDebug := some retrieval.debug }
  else
    match createGroundedAnswerOrThrow config gateway
      { question := question
        evidenceStrength :=
          if 6 / 10 ≤ retrieval.topScore then .high
          else if GROUNDABLE_EVIDENCE_SCORE_THRESHOLD ≤ retrieval.topScore then .medium
          else .low
        conversationHistory := []
        selectedChunks := retrieval.selectedChunks } with
    | .error e => .error e
    | .ok result => .ok (modelCaseResult uni locale config latencyMs retrieval result)

/-- `executeCase` (lines 642–769). -/
def executeCase (uni : EcmaUnicode) (locale : LocaleCompare) (config : ChatConfig)
    (gateway : Gateway) (retrieve : Id → Except HttpException RetrievalResult) (db : Database)
    (latencyMs : ℕ) (kbId : Id) (question : Text) : Except HttpException EvalExecutionResult := do
  let retrieval ← retrieve kbId
  assertRetrievedChunksStayInKb retrieval.selectedChunks kbId
  caseResult uni locale config gateway latencyMs question
    (db.chunkRows.countP (isIndexedChunk db kbId)) retrieval

/-! ## Agreement -/

/-- The best chunk is below the threshold of the semantic search, but not below
    that of the lexical search, which alone has found something. -/
def BetweenThresholds (indexedChunkCount : ℕ) (retrieval : RetrievalResult) : Prop :=
  indexedChunkCount ≠ 0 ∧ retrieval.selectedChunks ≠ [] ∧ retrieval.semanticUsed = false ∧
    retrieval.lexicalUsed = true ∧
    LOW_EVIDENCE_SCORE_THRESHOLD_LEXICAL_ONLY ≤ retrieval.topScore ∧
    retrieval.topScore < LOW_EVIDENCE_SCORE_THRESHOLD

/-- The result of a case has the status and the citations of an answer. -/
def SameAnswer (result : EvalExecutionResult) (status : ChatStatus)
    (citations : List CitationView) : Prop :=
  result.status = status ∧ result.citations = citations

section Agreement

variable {uni : EcmaUnicode} {locale : LocaleCompare} {config : ChatConfig}
  {retrieval : RetrievalResult} {output : GroundedOutput} {usage : UsageView}

/-- A result of the model is treated in the same way. -/
theorem sameAnswer_modelCaseResult (latencyMs : ℕ) (result : GroundedAnswerResult) :
    SameAnswer (modelCaseResult uni locale config latencyMs retrieval result)
      (modelOutcome uni locale config retrieval result).status
      (modelOutcome uni locale config retrieval result).citations := by
  by_cases hgrounded : result.answer.status = .grounded
  · have hcitations : (modelCaseResult uni locale config latencyMs retrieval result).citations =
        (modelOutcome uni locale config retrieval result).citations := by
      rw [citations_modelOutcome hgrounded]
      simp only [modelCaseResult, if_pos hgrounded]
    refine ⟨?_, hcitations⟩
    simp only [modelCaseResult, modelOutcome, finalizeAnswer, if_pos hgrounded]
    split_ifs <;> rfl
  · constructor
    · simp [modelCaseResult, modelOutcome, finalizeAnswer, hgrounded]
    · simp [modelCaseResult, modelOutcome, hgrounded]

/-- With the provider configured, its output is the answer of the case, whatever the
    prompt. -/
theorem createGroundedAnswerOrThrow_eq (hconfigured : config.isConfigured = true)
    {normalizedQuery : Text} {asked : PromptParams} {result : GroundedAnswerResult}
    (h : Chat.createGroundedAnswerOrThrow uni config (fun _ => some (output, usage))
      normalizedQuery asked = .ok result) (prompt : PromptParams) :
    createGroundedAnswerOrThrow config (fun _ => some (output, usage)) prompt = .ok result ∧
      result.answer.status = output.status := by
  unfold Chat.createGroundedAnswerOrThrow at h
  unfold createGroundedAnswerOrThrow
  rw [hconfigured] at h ⊢
  simp only [Bool.not_true, Bool.false_eq_true, if_false] at h ⊢
  cases hparsed : parseGroundedAnswer config.citationLimit output with
  | none =>
    rw [hparsed] at h
    cases h
  | some answer =>
    rw [hparsed] at h
    cases h
    exact ⟨rfl, status_of_parseGroundedAnswer hparsed⟩

theorem lexicalOnly_le :
    LOW_EVIDENCE_SCORE_THRESHOLD_LEXICAL_ONLY ≤ LOW_EVIDENCE_SCORE_THRESHOLD := by
  norm_num [LOW_EVIDENCE_SCORE_THRESHOLD_LEXICAL_ONLY, LOW_EVIDENCE_SCORE_THRESHOLD]

/-- Where `ask` refuses for weak evidence, the threshold of the case is not below. -/
theorem weak_of_refused (h : retrieval.topScore < resolveLowEvidenceThreshold retrieval) :
    retrieval.topScore < LOW_EVIDENCE_SCORE_THRESHOLD := by
  unfold resolveLowEvidenceThreshold at h
  split_ifs at h
  · exact h.trans_le lexicalOnly_le
  · exact h

/-- Where `ask` does not refuse and the case does, the best chunk is between the
    thresholds. -/
theorem betweenThresholds_of_not_refused {indexedChunkCount : ℕ} (hcount : indexedChunkCount ≠ 0)
    (hselected : retrieval.selectedChunks ≠ [])
    (hstrong : ¬ retrieval.topScore < resolveLowEvidenceThreshold retrieval)
    (hlow : retrieval.topScore < LOW_EVIDENCE_SCORE_THRESHOLD) :
    BetweenThresholds indexedChunkCount retrieval := by
  unfold resolveLowEvidenceThreshold at hstrong
  split_ifs at hstrong with hlexical
  · simp only [Bool.and_eq_true, Bool.not_eq_true'] at hlexical
    exact ⟨hcount, hselected, hlexical.1, hlexical.2, not_lt.mp hstrong, hlow⟩
  · exact absurd hlow hstrong

theorem not_betweenThresholds_of_refused (indexedChunkCount : ℕ)
    (h : retrieval.selectedChunks = [] ∨
      retrieval.topScore < resolveLowEvidenceThreshold retrieval) :
    ¬ BetweenThresholds indexedChunkCount retrieval := by
  rintro ⟨-, hselected, hsemantic, hlexical, hlow, -⟩
  rcases h with hnone | hweak
  · exact hselected hnone
  · have hthreshold : resolveLowEvidenceThreshold retrieval =
        LOW_EVIDENCE_SCORE_THRESHOLD_LEXICAL_ONLY := by
      simp [resolveLowEvidenceThreshold, hsemantic, hlexical]
    rw [hthreshold] at hweak
    exact absurd hlow (not_le.mpr hweak)

/-- The refusal of a case is the answer of `ask` exactly when the model refuses. -/
theorem sameAnswer_refusal_iff {refusal : EvalExecutionResult} {result : GroundedAnswerResult}
    (hstatus : refusal.status = .outOfScope) (hcitations : refusal.citations = []) :
    SameAnswer refusal (modelOutcome uni locale config retrieval result).status
        (modelOutcome uni locale config retrieval result).citations ↔
      result.answer.status = .outOfScope := by
  constructor
  · rintro ⟨hsame, -⟩
    rw [hstatus] at hsame
    exact finalizeAnswer_outOfScope_iff.mp hsame.symm
  · intro hscope
    constructor
    · rw [hstatus]
      exact (finalizeAnswer_outOfScope_iff.mpr hscope).symm
    · rw [hcitations]
      exact (citations_modelOutcome_of_ne (by simp [hscope])).symm

/-- The decisions of the two agree, except between the thresholds. -/
theorem caseResult_agrees_iff (hconfigured : config.isConfigured = true) {question : Text}
    {history : List Message} {indexedChunkCount : ℕ} {outcome : AnswerOutcome} (latencyMs : ℕ)
    (h : answerOutcome uni locale config (fun _ => some (output, usage)) question history
      indexedChunkCount retrieval = .ok outcome) :
    ∃ result, caseResult uni locale config (fun _ => some (output, usage)) latencyMs question
        indexedChunkCount retrieval = .ok result ∧
      (SameAnswer result outcome.status outcome.citations ↔
        ¬ (BetweenThresholds indexedChunkCount retrieval ∧ output.status ≠ .outOfScope)) := by
  unfold answerOutcome at h
  unfold caseResult
  split_ifs at h with hcount hrefused
  · -- nothing is indexed
    cases h
    rw [if_pos hcount]
    exact ⟨_, rfl, ⟨fun _ hbetween => hbetween.1.1 hcount, fun _ => ⟨rfl, rfl⟩⟩⟩
  · -- both refuse
    cases h
    rw [if_neg hcount, if_pos (hrefused.imp id weak_of_refused)]
    have hnot := not_betweenThresholds_of_refused indexedChunkCount hrefused
    exact ⟨_, rfl, ⟨fun _ hbetween => hnot hbetween.1, fun _ => ⟨rfl, rfl⟩⟩⟩
  · rw [if_neg hcount]
    split at h
    · cases h
    · rename_i result hresult
      cases h
      obtain ⟨hselected, hstrong⟩ := not_or.mp hrefused
      by_cases hlow : retrieval.topScore < LOW_EVIDENCE_SCORE_THRESHOLD
      · -- only the case refuses
        have hbetween := betweenThresholds_of_not_refused hcount hselected hstrong hlow
        obtain ⟨-, hstatus⟩ := createGroundedAnswerOrThrow_eq hconfigured hresult
          (chatPrompt question history retrieval)
        rw [if_pos (Or.inr hlow)]
        refine ⟨_, rfl, ?_⟩
        rw [sameAnswer_refusal_iff rfl rfl, hstatus]
        constructor
        · exact fun hscope hexcept => hexcept.2 hscope
        · exact fun hexcept => by_contra fun hother => hexcept ⟨hbetween, hother⟩
      · -- both ask the model
        rw [if_neg (not_or.mpr ⟨hselected, hlow⟩)]
        rw [(createGroundedAnswerOrThrow_eq hconfigured hresult _).1]
        refine ⟨_, rfl, ?_⟩
        constructor
        · exact fun _ hbetween => hlow hbetween.1.2.2.2.2.2
        · exact fun _ => sameAnswer_modelCaseResult latencyMs result

/-- Without filters, both count the same chunks. -/
theorem isIndexedChunk_eq (db : Database) (kbId : Id) :
    Chat.isIndexedChunk uni db kbId none = isIndexedChunk db kbId := by
  funext dc
  simp [Chat.isIndexedChunk, isIndexedChunk]

/-- When `ask` returns, `executeCase` gives the same status and the same citations,
    except when the best chunk is between the thresholds and the model does not
    refuse. -/
theorem executeCase_agrees_iff (hconfigured : config.isConfigured = true) {db : Database}
    {io : AskIo} {user : AuthenticatedUser} {dto : AskQuestionDto} (hfilters : dto.filters = none)
    {response : ChatResponseView} (latencyMs : ℕ)
    (h : (ask uni locale config (fun _ => some (output, usage)) (fun _ => .ok retrieval) db io user
      dto).2 = .ok response) :
    ∃ kb result, resolveKbScope db user dto = .ok kb ∧
      executeCase uni locale config (fun _ => some (output, usage)) (fun _ => .ok retrieval) db
        latencyMs kb.id dto.question = .ok result ∧
      (SameAnswer result response.status response.citations ↔
        ¬ (BetweenThresholds (countIndexedChunks uni db kb.id none) retrieval ∧
          output.status ≠ .outOfScope)) := by
  obtain ⟨before, asked, hasked, hpersisted⟩ := ask_eq_ok h
  obtain ⟨-, rfl⟩ := persistAnswerOutcome_spec hpersisted
  obtain ⟨hscope, hretrieved, hinKb, ⟨hchunks, hdocuments, hversions⟩, hanswered⟩ :=
    askedAnswer_of_askOutcome hasked
  have hretrieval : retrieval = asked.retrieval := Except.ok.inj hretrieved
  have hcount : countIndexedChunks uni before asked.kb.id dto.filters =
      countIndexedChunks uni db asked.kb.id none := by
    unfold countIndexedChunks
    rw [hfilters, isIndexedChunk_eq, isIndexedChunk_eq, Database.chunkRows, hchunks]
    unfold isIndexedChunk
    rw [hdocuments, hversions]
    rfl
  rw [hcount, ← hretrieval] at hanswered
  obtain ⟨result, hresult, hagrees⟩ := caseResult_agrees_iff hconfigured latencyMs hanswered
  refine ⟨asked.kb, result, hscope, ?_, hagrees⟩
  have hintegrity :
      assertRetrievedChunksStayInKb retrieval.selectedChunks asked.kb.id = .ok () := by
    rw [hretrieval]
    exact hinKb
  have hindexed : db.chunkRows.countP (isIndexedChunk db asked.kb.id) =
      countIndexedChunks uni db asked.kb.id none := by
    rw [countIndexedChunks, isIndexedChunk_eq]
  simp only [executeCase, bind, Except.bind, hintegrity, hindexed]
  exact hresult

end Agreement

/-! ## A question with lexical evidence only -/

/-- The result of the question as a case. -/
def executeWorker (hybridScore : ℚ) : Except HttpException EvalExecutionResult :=
  executeCase .ascii .numeric { configuredChatModel := "chat" } (fun _ => some (workerOutput, {}))
    (fun _ => .ok (lexicalRetrieval hybridScore)) guideDb 5 1 workerQuestion.question

theorem executeCase_agrees_iff_worker :
    ∃ response kb result, askWorker (5 / 10) = .ok response ∧
      resolveKbScope guideDb { id := 1 } workerQuestion = .ok kb ∧
      executeCase .ascii .numeric { configuredChatModel := "chat" }
        (fun _ => some (workerOutput, {})) (fun _ => .ok (lexicalRetrieval (5 / 10))) guideDb 5
        kb.id workerQuestion.question = .ok result ∧
      (SameAnswer result response.status response.citations ↔
        ¬ (BetweenThresholds (countIndexedChunks .ascii guideDb kb.id none)
            (lexicalRetrieval (5 / 10)) ∧
          workerOutput.status ≠ .outOfScope)) := by
  have hask : (askWorker (5 / 10)).toOption.isSome = true := by decide +kernel
  cases h : askWorker (5 / 10) with
  | error e =>
    rw [h] at hask
    cases hask
  | ok response =>
    obtain ⟨kb, result, hscope, hcase⟩ := executeCase_agrees_iff rfl rfl 5 h
    exact ⟨response, kb, result, rfl, hscope, hcase⟩

/-- For a score between the thresholds, `ask` answers with a citation and the case is
    out of scope. -/
theorem worker_case_differs :
    ∃ response result, askWorker (5 / 100) = .ok response ∧ executeWorker (5 / 100) = .ok result ∧
      ¬ SameAnswer result response.status response.citations := by
  have hask : (askWorker (5 / 100)).toOption.map ChatResponseView.status = some .grounded := by
    decide +kernel
  have hcase : (executeWorker (5 / 100)).toOption.map EvalExecutionResult.status =
      some .outOfScope := by
    decide +kernel
  cases h : askWorker (5 / 100) with
  | error e => simp [h, Except.toOption] at hask
  | ok response =>
    cases h' : executeWorker (5 / 100) with
    | error e => simp [h', Except.toOption] at hcase
    | ok result =>
      refine ⟨response, result, rfl, rfl, fun hsame => ?_⟩
      simp only [h, Except.toOption, Option.map_some, Option.some.injEq] at hask
      simp only [h', Except.toOption, Option.map_some, Option.some.injEq] at hcase
      have hstatus := hsame.1
      rw [hask, hcase] at hstatus
      cases hstatus

end RagStack.Evals
