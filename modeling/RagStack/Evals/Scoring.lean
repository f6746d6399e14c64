import RagStack.Api.Numbers
import RagStack.Evals.Rubric

/-!
# Scoring an eval case

`services/api/src/evals/eval-scoring.service.ts`.

* `scoreCase` — the score of an execution, `none` where the category has no rule and
  the code throws.
* `judged_scoreByRule`: a dimension says whether it is passed exactly if it is
  applicable, and is not scored above its highest score.
-/

namespace RagStack.Evals

open RagStack.Common RagStack.Api RagStack.Chat
open RagStack.Worker (Text)
open RagStack.Ingest (Id)

/-! ## Terms -/

def STOP_WORDS : List String :=
  ["about", "after", "before", "from", "have", "into", "that", "their", "them", "they", "this",
    "what", "when", "where", "which", "while", "with"]

/-- `significantTerms` (lines 708–717). -/
def significantTerms (uni : EcmaUnicode) (input : Text) : List Text :=
  let cleaned := (uni.toLowerCase (uni.nfkc input)).map fun c =>
    if uni.isAlnum c || isSpace c then c else ' '
  (((splitAtMatches (runOf isSpace) cleaned).map trim).filter
    fun token => 3 ≤ utf16Length token).filter fun token => String.ofList token ∉ STOP_WORDS

/-- `termCoverage` (lines 697–706). -/
def termCoverage (uni : EcmaUnicode) (actual expected : Text) : ℚ :=
  let actualTerms := significantTerms uni actual
  let expectedTerms := significantTerms uni expected
  if actualTerms = [] ∨ expectedTerms = [] then 0
  else (expectedTerms.countP fun term => actualTerms.contains term : ℚ) / expectedTerms.length

/-- `lexicalF1` (lines 674–695). -/
def lexicalF1 (uni : EcmaUnicode) (actual expected : Text) : ℚ :=
  let actualTerms := (significantTerms uni actual).eraseDups
  let expectedTerms := (significantTerms uni expected).eraseDups
  if actualTerms = [] ∨ expectedTerms = [] then 0
  else
    let overlap : ℚ := actualTerms.countP fun term => expectedTerms.contains term
    let precision := overlap / actualTerms.length
    let «recall» := overlap / expectedTerms.length
    if precision = 0 ∨ «recall» = 0 then 0
    else 2 * precision * «recall» / (precision + «recall»)

/-- `/(could not|cannot|…)/i.test(answer)` (lines 668–672). -/
def looksLikeRefusal (answer : Text) : Bool :=
  ["could not", "cannot", "can't", "do not have", "don't have", "not enough", "no relevant",
    "available sources", "support material", "knowledge base"].any fun hint =>
      hint.toList <:+: answer.map Char.toLower

/-- `buildEvidenceText` (lines 652–658). -/
def buildEvidenceText (sources : List EvalSelectedSource) : Text :=
  join [' '] (sources.map fun source =>
    join [' '] [source.documentTitle, source.section.getD [], source.snippet])

/-- `buildCitationText` (lines 660–666). -/
def buildCitationText (execution : EvalExecutionResult) : Text :=
  join [' '] (execution.citations.map fun citation =>
    join [' '] [citation.documentTitle, citation.section.getD [], citation.snippet])

/-- `distinctDocumentCount` (lines 719–721). -/
def distinctDocumentCount (values : List Id) : ℕ := values.eraseDups.length

/-- `compactNotes` (lines 723–728). -/
def compactNotes (notes : List Text) : Text :=
  join [' '] ((notes.map trim).filter fun note => note ≠ [])

/-! ## Dimensions -/

/-- `dimensionResult` (lines 590–607). -/
def dimensionResult (name : EvalRubricDimensionName) (kind : EvalRubricDimensionKind)
    (score maxScore passScore : ℕ) (notes : Text) : EvalDimensionResult where
  name := name
  kind := kind
  applicable := true
  score := some score
  maxScore := maxScore
  passed := some (decide (passScore ≤ score))
  notes := notes

/-- `notApplicableDimension` (lines 609–624). -/
def notApplicableDimension (name : EvalRubricDimensionName) (kind : EvalRubricDimensionKind)
    (maxScore : ℕ) (notes : Text) : EvalDimensionResult where
  name := name
  kind := kind
  applicable := false
  score := none
  maxScore := maxScore
  passed := none
  notes := notes

/-- `text?.trim() ?? ""`. -/
def trimOrEmpty (text : Option Text) : Text := trim (text.getD [])

/-- The result of `computeSourceHit`. -/
structure SourceHit where
  sourceHit : Bool
  expectedSourceCited : Bool
  answerTargetCoverage : ℚ
  dimension : EvalDimensionResult

/-- `computeSourceHit` (lines 223–269). -/
def computeSourceHit (uni : EcmaUnicode) (evalCase : EvalCase)
    (execution : EvalExecutionResult) : SourceHit :=
  let expectedSourceHint := trimOrEmpty evalCase.expectedSourceHint
  let selectedSourceText := buildEvidenceText execution.selectedSources
  let hintCoverage :=
    if expectedSourceHint ≠ [] then termCoverage uni selectedSourceText expectedSourceHint else 0
  let sourceHit : Bool :=
    match evalCase.expectedSourceDocumentId with
    | some expectedSourceId =>
      execution.selectedSources.any fun source => source.documentId = expectedSourceId
    | none =>
      if expectedSourceHint ≠ [] then 6 / 10 ≤ hintCoverage
      else !execution.selectedSources.isEmpty
  let expectedSourceCited : Bool := evalCase.expectedSourceDocumentId.any fun expectedSourceId =>
    execution.citations.any fun citation => citation.documentId = expectedSourceId
  let notes : Text :=
    if evalCase.expectedSourceDocumentId.isSome then
      if sourceHit then
        if expectedSourceCited then "Expected source was retrieved and cited.".toList
        else "Expected source was retrieved but not cited.".toList
      else "Expected source document was not present in retrieved evidence.".toList
    else if expectedSourceHint ≠ [] then
      (if sourceHit then "Retrieved evidence covered the source hint (coverage ".toList
        else "Retrieved evidence did not cover the source hint strongly enough (coverage ".toList) ++
        fixedText 2 hintCoverage ++ ").".toList
    else if sourceHit then
      ("At least one source was retrieved, but no explicit source expectation was " ++
        "configured.").toList
    else "No evidence was retrieved.".toList
  { sourceHit := sourceHit
    expectedSourceCited := expectedSourceCited
    answerTargetCoverage := hintCoverage
    dimension := dimensionResult .retrievalSourceHit .automated (if sourceHit then 1 else 0) 1 1
      notes }

/-- The parameters of `computeEvidenceRelevance`. -/
structure EvidenceRelevanceParams where
  evalCase : EvalCase
  execution : EvalExecutionResult
  sourceHit : Bool
  expectedSourceCited : Bool
  requiresHumanReview : Bool
  minDistinctCitedDocuments : Option ℕ
  requireExpectedSourceCitation : Bool

/-- `computeEvidenceRelevance` (lines 271–345). -/
def computeEvidenceRelevance (uni : EcmaUnicode) (params : EvidenceRelevanceParams) :
    EvalDimensionResult :=
  let execution := params.execution
  if execution.selectedSources = [] then
    dimensionResult .evidenceRelevance .heuristic 0 2 1
      "No retrieved evidence was available to judge relevance.".toList
  else
    let expectedAnswer := trimOrEmpty params.evalCase.expectedAnswer
    let target := if expectedAnswer ≠ [] then expectedAnswer
      else trimOrEmpty params.evalCase.expectedSourceHint
    let retrievedCoverage := if target ≠ [] then
      termCoverage uni (buildEvidenceText execution.selectedSources) target else 0
    let citedCoverage := if target ≠ [] then
      termCoverage uni (buildCitationText execution) target else 0
    let coverage := max retrievedCoverage citedCoverage
    let covered := fixedText 2 coverage ++ ").".toList
    let judged : ℕ × Text :=
      if target = [] then
        (if params.sourceHit then 1 else 0,
          if params.requiresHumanReview then
            ("No expected answer or hint was configured, so evidence relevance is capped at a " ++
              "partial heuristic score.").toList
          else
            ("Evidence relevance relied on source-hit only because no explicit answer target " ++
              "was configured.").toList)
      else if 55 / 100 ≤ coverage ∧ (params.sourceHit = true ∨ 55 / 100 ≤ citedCoverage) then
        (2, ("Retrieved or cited evidence aligned well with the expected target " ++
          "(coverage ").toList ++ covered)
      else if 25 / 100 ≤ coverage ∨ params.sourceHit = true then
        (1, ("Retrieved or cited evidence partially aligned with the expected target " ++
          "(coverage ").toList ++ covered)
      else
        (0, "Retrieved evidence looked weak against the expected target (coverage ".toList ++
          covered)
    let multiSource : ℕ × Text :=
      match params.minDistinctCitedDocuments with
      | some minimum =>
        if 0 < minimum ∧ execution.citations ≠ [] ∧
            distinctDocumentCount (execution.citations.map CitationView.documentId) < minimum then
          (min judged.1 1, judged.2 ++ " Multi-source synthesis expected at least ".toList ++
            Nat.toDigits 10 minimum ++ " cited documents.".toList)
        else judged
      | none => judged
    let cited : ℕ × Text :=
      if params.requireExpectedSourceCitation = true ∧
          params.evalCase.expectedSourceDocumentId ≠ none ∧ params.expectedSourceCited = false then
        (min multiSource.1 1,
          multiSource.2 ++ " The expected source was not cited in the final answer.".toList)
      else multiSource
    dimensionResult .evidenceRelevance .heuristic cited.1 2 1 cited.2

/-- The string of a status. -/
def statusText : ChatStatus → Text
  | .grounded => "grounded".toList
  | .insufficientData => "insufficient_data".toList
  | .outOfScope => "out_of_scope".toList

/-- `computeGroundedness` (lines 347–397). -/
def computeGroundedness (execution : EvalExecutionResult) (sourceHit : Bool)
    (citationIntegrityScore : Option ℕ) : EvalDimensionResult :=
  let result := fun (score : ℕ) (notes : Text) =>
    dimensionResult .answerGroundedness .heuristic score 2 2 notes
  if execution.status ≠ .grounded then
    result 0 ("The model returned ".toList ++ statusText execution.status ++
      " instead of a grounded answer.".toList)
  else if execution.citations = [] then
    result 0 "The answer was marked grounded but carried no citations.".toList
  else if citationIntegrityScore = some 2 ∧
      (sourceHit = true ∨ GROUNDABLE_EVIDENCE_SCORE_THRESHOLD ≤ execution.topScore) then
    result 2 "The answer was grounded, cited, and backed by usable evidence strength.".toList
  else
    result 1 ("The answer was grounded with citations, but either evidence strength or " ++
      "citation integrity remained weak.").toList

/-- `computeAnswerUsefulness` (lines 399–458): the dimension and `scoreSignal`. -/
def computeAnswerUsefulness (uni : EcmaUnicode) (evalCase : EvalCase)
    (execution : EvalExecutionResult) : EvalDimensionResult × ℚ :=
  let result := fun (score : ℕ) (notes : Text) =>
    dimensionResult .answerUsefulness .heuristic score 2 1 notes
  let answer := trim execution.answer
  if answer = [] then (result 0 "The answer body was empty.".toList, 0)
  else
    let expectedAnswer := trimOrEmpty evalCase.expectedAnswer
    let expectedHint := trimOrEmpty evalCase.expectedSourceHint
    let answerF1 := if expectedAnswer ≠ [] then lexicalF1 uni answer expectedAnswer else 0
    let hintCoverage := if expectedHint ≠ [] then termCoverage uni answer expectedHint else 0
    let scoreSignal := max answerF1 hintCoverage
    if expectedAnswer = [] ∧ expectedHint = [] then
      (result (if execution.status = .grounded then 1 else 0)
        ("The answer may be useful, but no expected answer or hint was configured for " ++
          "automated correctness checking.").toList, scoreSignal)
    else
      let signal := fixedText 2 scoreSignal ++ ").".toList
      (if 65 / 100 ≤ scoreSignal then
          result 2 ("The answer overlapped well with the expected target (score ".toList ++ signal)
        else if 35 / 100 ≤ scoreSignal then
          result 1 ("The answer partially matched the expected target (score ".toList ++ signal)
        else
          result 0 ("The answer overlapped weakly with the expected target (score ".toList ++
            signal), scoreSignal)

/-- `computeRefusalQuality` (lines 460–506). -/
def computeRefusalQuality (expectedStatuses : List ChatStatus)
    (execution : EvalExecutionResult) : EvalDimensionResult :=
  let result := fun (score : ℕ) (notes : Text) =>
    dimensionResult .refusalQuality .heuristic score 2 2 notes
  if execution.status = .grounded ∨ execution.citations ≠ [] then
    result 0 ("The system returned a substantive answer or citations instead of refusing " ++
      "cleanly.").toList
  else if execution.status ∈ expectedStatuses then
    if utf16Length (trim execution.answer) ≤ 320 ∧ looksLikeRefusal execution.answer = true then
      result 2 "The refusal mode, brevity, and wording were appropriate.".toList
    else
      result 1 ("The system refused, but the wording was verbose or not clearly " ++
        "refusal-shaped.").toList
  else
    result 1 ("The system refused without citations, but it used the wrong refusal mode for " ++
      "this case.").toList

/-- The citations that repeat the chunk of an earlier one. -/
def hasDuplicateChunk : List CitationView → Bool
  | [] => false
  | citation :: citations =>
    (citations.any fun later => later.chunkId = citation.chunkId) || hasDuplicateChunk citations

/-- `sourceByChunk.get(chunkId)`: of sources with one chunk the last one is in the map. -/
def sourceOfChunk (sources : List EvalSelectedSource) (chunkId : Id) : Option EvalSelectedSource :=
  sources.reverse.find? fun source => source.chunkId = chunkId

/-- `computeCitationIntegrity` (lines 508–588). -/
def computeCitationIntegrity (citationLimit : ℕ) (expectedOutcome : EvalExpectedOutcome)
    (execution : EvalExecutionResult) : EvalDimensionResult :=
  let result := fun (score : ℕ) (notes : Text) =>
    dimensionResult .citationIntegrity .automated score 2 2 notes
  if expectedOutcome = .refusal then
    if execution.citations = [] then result 2 "Refusal carried no citations as expected.".toList
    else result 0 "Refusal response should not include citations.".toList
  else if execution.citations = [] then
    result 0 "Grounded answers must include citations.".toList
  else
    let missingSource := execution.citations.any fun citation =>
      (sourceOfChunk execution.selectedSources citation.chunkId).isNone
    let mismatchedDocument := execution.citations.any fun citation =>
      (sourceOfChunk execution.selectedSources citation.chunkId).any fun source =>
        source.documentId ≠ citation.documentId
    if missingSource || mismatchedDocument then
      result 0 ("At least one citation did not map cleanly back to a retrieved source " ++
        "chunk.").toList
    else if hasDuplicateChunk execution.citations = true ∨
        citationLimit < execution.citations.length then
      result 1 ("Citations were structurally valid, but they contained duplicates or exceeded " ++
        "the configured limit.").toList
    else
      result 2 "Citations were present, unique, and traceable to retrieved evidence.".toList

/-! ## The score -/

/-- `weightedGroundedScore` (lines 626–643), with `EVAL_GROUNDED_SCORE_WEIGHTS`. -/
def weightedGroundedScore (sourceHitScore evidenceRelevanceScore groundednessScore usefulnessScore
    citationIntegrityScore : ℕ) : ℚ :=
  toFixed 4 (25 / 100 * sourceHitScore + 15 / 100 * (evidenceRelevanceScore / 2) +
    25 / 100 * (groundednessScore / 2) + 25 / 100 * (usefulnessScore / 2) +
    10 / 100 * (citationIntegrityScore / 2))

/-- `weightedRefusalScore` (lines 645–650), with `EVAL_REFUSAL_SCORE_WEIGHTS`. -/
def weightedRefusalScore (refusalQualityScore citationIntegrityScore : ℕ) : ℚ :=
  toFixed 4 (7 / 10 * (refusalQualityScore / 2) + 3 / 10 * (citationIntegrityScore / 2))

/-- The dimensions that `scoreCase` computes (lines 57–115). -/
structure ScoredDimensions where
  requiresHumanReview : Bool
  sourceHit : SourceHit
  citationIntegrity : EvalDimensionResult
  groundedness : EvalDimensionResult
  answerUsefulness : EvalDimensionResult × ℚ
  evidenceRelevance : EvalDimensionResult
  refusalQuality : EvalDimensionResult

/-- The record `dimensions` (lines 117–124). -/
def ScoredDimensions.record (scored : ScoredDimensions) :
    EvalRubricDimensionName → EvalDimensionResult
  | .retrievalSourceHit => scored.sourceHit.dimension
  | .evidenceRelevance => scored.evidenceRelevance
  | .answerGroundedness => scored.groundedness
  | .answerUsefulness => scored.answerUsefulness.1
  | .refusalQuality => scored.refusalQuality
  | .citationIntegrity => scored.citationIntegrity

/-- The dimensions of an execution (lines 38–115). -/
def scoreDimensions (uni : EcmaUnicode) (citationLimit : ℕ) (categoryRule : EvalCategoryRule)
    (evalCase : EvalCase) (execution : EvalExecutionResult) : ScoredDimensions :=
  let requiresHumanReview := categoryRule.manualReviewOnly ||
    ((trimOrEmpty evalCase.expectedAnswer).isEmpty && (trimOrEmpty evalCase.expectedSourceHint).isEmpty)
  let sourceHit := computeSourceHit uni evalCase execution
  let citationIntegrity :=
    computeCitationIntegrity citationLimit categoryRule.expectedOutcome execution
  { requiresHumanReview := requiresHumanReview
    sourceHit := sourceHit
    citationIntegrity := citationIntegrity
    groundedness :=
      if categoryRule.expectedOutcome = .groundedAnswer then
        computeGroundedness execution sourceHit.sourceHit citationIntegrity.score
      else notApplicableDimension .answerGroundedness .heuristic 2
        "Refusal cases are not graded on grounded answer quality.".toList
    answerUsefulness :=
      if categoryRule.expectedOutcome = .groundedAnswer then
        computeAnswerUsefulness uni evalCase execution
      else (notApplicableDimension .answerUsefulness .heuristic 2
        "Refusal cases are not graded on answer usefulness.".toList, 0)
    evidenceRelevance :=
      if categoryRule.expectedOutcome = .groundedAnswer then
        computeEvidenceRelevance uni
          { evalCase := evalCase
            execution := execution
            sourceHit := sourceHit.sourceHit
            expectedSourceCited := sourceHit.expectedSourceCited
            requiresHumanReview := requiresHumanReview
            minDistinctCitedDocuments := categoryRule.minDistinctCitedDocuments
            requireExpectedSourceCitation := categoryRule.requireExpectedSourceCitation }
      else notApplicableDimension .evidenceRelevance .heuristic 2
        "Refusal cases are not graded on evidence relevance.".toList
    refusalQuality :=
      if categoryRule.expectedOutcome = .refusal then
        computeRefusalQuality categoryRule.expectedRefusalStatuses execution
      else notApplicableDimension .refusalQuality .heuristic 2
        "Grounded-answer cases are not graded on refusal quality.".toList }

/-- The reasons of a failure (lines 126–173). -/
def scoreFailureReasons (categoryRule : EvalCategoryRule) (evalCase : EvalCase)
    (execution : EvalExecutionResult) (scored : ScoredDimensions) : List EvalFailureReason :=
  if categoryRule.expectedOutcome = .refusal then
    (if scored.refusalQuality.score ≠ some 2 then
      [if "wrong refusal mode".toList <:+: scored.refusalQuality.notes then .wrongRefusalMode
        else .incorrectRefusal] else []) ++
    if scored.citationIntegrity.score ≠ some 2 then [.citationIntegrityFailed] else []
  else
    (if !scored.sourceHit.sourceHit then [.expectedSourceMissing] else []) ++
    (if categoryRule.requireExpectedSourceCitation && evalCase.expectedSourceDocumentId.isSome &&
        !scored.sourceHit.expectedSourceCited then [.expectedSourceNotCited] else []) ++
    (if scored.evidenceRelevance.score.getD 0 < 1 then [.weakEvidenceRelevance] else []) ++
    (if scored.groundedness.score.getD 0 < 2 then [.answerNotGrounded] else []) ++
    (if scored.answerUsefulness.1.score.getD 0 < 1 then [.answerNotUseful] else []) ++
    (if scored.citationIntegrity.score.getD 0 < 2 then [.citationIntegrityFailed] else []) ++
    if categoryRule.minDistinctCitedDocuments.any fun minimum => decide (0 < minimum) &&
        decide (distinctDocumentCount (execution.citations.map CitationView.documentId) < minimum)
      then [.missingMultiSourceSupport] else []

/-- The notes of the dimensions and on the review (lines 141–183). -/
def scoreNotes (categoryRule : EvalCategoryRule) (scored : ScoredDimensions) : List Text :=
  (if categoryRule.expectedOutcome = .refusal then
    [scored.refusalQuality.notes, scored.citationIntegrity.notes]
  else
    [scored.sourceHit.dimension.notes, scored.evidenceRelevance.notes, scored.groundedness.notes,
      scored.answerUsefulness.1.notes, scored.citationIntegrity.notes]) ++
  if scored.requiresHumanReview then
    [if categoryRule.manualReviewOnly then
      ("This category still needs human review because the current eval runner cannot verify " ++
        "access-sensitive behavior end to end.").toList
    else
      ("No expected answer or source hint was configured, so usefulness and evidence relevance " ++
        "remain heuristic-only.").toList]
  else []

/-- `secondaryMetrics` (lines 43–55). -/
def secondaryMetrics (execution : EvalExecutionResult) : EvalSecondaryMetrics where
  latencyMs := execution.latencyMs
  usage := evalUsage execution.usage
  topScore := toFixed 4 execution.topScore
  citationCount := execution.citations.length
  retrievedSourceCount := execution.selectedSources.length
  distinctRetrievedDocuments :=
    distinctDocumentCount (execution.selectedSources.map EvalSelectedSource.documentId)
  distinctCitedDocuments :=
    distinctDocumentCount (execution.citations.map CitationView.documentId)

/-- `scoreCase` with the rule of the category (lines 35–220). -/
def scoreByRule (uni : EcmaUnicode) (citationLimit : ℕ) (categoryRule : EvalCategoryRule)
    (evalCase : EvalCase) (execution : EvalExecutionResult) : EvalScoreResult :=
  let scored := scoreDimensions uni citationLimit categoryRule evalCase execution
  let failureReasons := scoreFailureReasons categoryRule evalCase execution scored
  let score :=
    if categoryRule.expectedOutcome = .refusal then
      weightedRefusalScore (scored.refusalQuality.score.getD 0)
        (scored.citationIntegrity.score.getD 0)
    else
      weightedGroundedScore (scored.sourceHit.dimension.score.getD 0)
        (scored.evidenceRelevance.score.getD 0) (scored.groundedness.score.getD 0)
        (scored.answerUsefulness.1.score.getD 0) (scored.citationIntegrity.score.getD 0)
  { rubricVersion := EVAL_RUBRIC_VERSION
    caseCategory := categoryRule.category.name
    expectedOutcome := categoryRule.expectedOutcome
    passed :=
      if categoryRule.expectedOutcome = .refusal then
        scored.refusalQuality.score = some 2 ∧ scored.citationIntegrity.score = some 2
      else failureReasons = [] ∧ EVAL_GROUNDED_PASS_THRESHOLD ≤ score
    score := score
    notes := compactNotes (scoreNotes categoryRule scored)
    failureReasons := failureReasons.eraseDups.map EvalFailureReason.name
    dimensions := scored.record
    sourceHit := scored.sourceHit.sourceHit
    evidenceRelevant := scored.evidenceRelevance.passed = some true
    grounded := scored.groundedness.passed = some true
    useful := scored.answerUsefulness.1.passed = some true
    citationIntegrity := scored.citationIntegrity.passed = some true
    correctRefusal := scored.refusalQuality.passed = some true
    expectedSourceCited := scored.sourceHit.expectedSourceCited
    answerMatchScore :=
      toFixed 4 (max scored.sourceHit.answerTargetCoverage scored.answerUsefulness.2)
    requiresHumanReview := scored.requiresHumanReview
    secondaryMetrics := secondaryMetrics execution }

/-- `scoreCase` (lines 32–221). Without a rule the code throws. -/
def scoreCase (uni : EcmaUnicode) (citationLimit : ℕ) (evalCase : EvalCase)
    (execution : EvalExecutionResult) : Option EvalScoreResult :=
  (getEvalCategoryRule uni evalCase.category).map fun categoryRule =>
    scoreByRule uni citationLimit categoryRule evalCase execution

/-! ## What a dimension says -/

/-- The dimension says whether it is passed exactly if it is applicable. -/
def EvalDimensionResult.WellFormed (dimension : EvalDimensionResult) : Prop :=
  dimension.applicable = dimension.passed.isSome

/-- What holds of every dimension: it is well formed, and not above the highest score. -/
structure EvalDimensionResult.Judged (dimension : EvalDimensionResult) (highest : ℕ) : Prop where
  wellFormed : dimension.WellFormed
  score_le : dimension.score.getD 0 ≤ highest

/-- The highest score of a dimension. -/
def highestScore : EvalRubricDimensionName → ℕ
  | .retrievalSourceHit => 1
  | .evidenceRelevance | .answerGroundedness | .answerUsefulness | .refusalQuality
  | .citationIntegrity => 2

section Judged

variable {name : EvalRubricDimensionName} {kind : EvalRubricDimensionKind} {notes : Text}
  {highest : ℕ}

theorem judged_dimensionResult {score maxScore passScore : ℕ} (h : score ≤ highest) :
    (dimensionResult name kind score maxScore passScore notes).Judged highest := ⟨rfl, h⟩

theorem judged_notApplicableDimension {maxScore : ℕ} :
    (notApplicableDimension name kind maxScore notes).Judged highest := ⟨rfl, Nat.zero_le _⟩

theorem EvalDimensionResult.Judged.ite {p : Prop} [Decidable p] {a b : EvalDimensionResult}
    (ha : a.Judged highest) (hb : b.Judged highest) : (if p then a else b).Judged highest := by
  split_ifs
  · exact ha
  · exact hb

theorem fst_ite_le {α : Type} {p : Prop} [Decidable p] {a b : ℕ × α} (ha : a.1 ≤ highest)
    (hb : b.1 ≤ highest) : (if p then a else b).1 ≤ highest := by
  split_ifs
  · exact ha
  · exact hb

variable {uni : EcmaUnicode} {evalCase : EvalCase} {execution : EvalExecutionResult}

theorem judged_computeSourceHit :
    (computeSourceHit uni evalCase execution).dimension.Judged 1 := by
  refine judged_dimensionResult ?_
  split_ifs <;> decide

theorem judged_computeEvidenceRelevance (params : EvidenceRelevanceParams) :
    (computeEvidenceRelevance uni params).Judged 2 := by
  unfold computeEvidenceRelevance
  refine .ite (judged_dimensionResult (by decide)) (judged_dimensionResult ?_)
  -- a missing citation caps the score at 1
  have hcapped (score : ℕ) : min score 1 ≤ 2 := (Nat.min_le_right score 1).trans one_le_two
  refine fst_ite_le (hcapped _) ?_
  have hsourceHit : (if params.sourceHit then 1 else 0) ≤ 2 := by
    split_ifs <;> decide
  have hjudged {p q r : Prop} [Decidable p] [Decidable q] [Decidable r] {a b c d : Text} :
      (if p then (if params.sourceHit then 1 else 0, a) else if q then (2, b)
        else if r then (1, c) else (0, d)).1 ≤ 2 :=
    fst_ite_le hsourceHit (fst_ite_le le_rfl (fst_ite_le one_le_two (Nat.zero_le 2)))
  cases params.minDistinctCitedDocuments with
  | none => exact hjudged
  | some minimum => exact fst_ite_le (hcapped _) hjudged

theorem judged_computeGroundedness (sourceHit : Bool) (citationIntegrityScore : Option ℕ) :
    (computeGroundedness execution sourceHit citationIntegrityScore).Judged 2 := by
  unfold computeGroundedness
  simp only
  split_ifs
  all_goals exact judged_dimensionResult (by decide)

theorem judged_computeAnswerUsefulness :
    (computeAnswerUsefulness uni evalCase execution).1.Judged 2 := by
  unfold computeAnswerUsefulness
  simp only
  split_ifs
  all_goals exact judged_dimensionResult (by decide)

theorem judged_computeRefusalQuality (expectedStatuses : List ChatStatus) :
    (computeRefusalQuality expectedStatuses execution).Judged 2 := by
  unfold computeRefusalQuality
  simp only
  split_ifs
  all_goals exact judged_dimensionResult (by decide)

theorem judged_computeCitationIntegrity (citationLimit : ℕ)
    (expectedOutcome : EvalExpectedOutcome) :
    (computeCitationIntegrity citationLimit expectedOutcome execution).Judged 2 := by
  unfold computeCitationIntegrity
  simp only
  split_ifs
  all_goals exact judged_dimensionResult (by decide)

variable (uni evalCase execution)

theorem judged_scoreByRule (citationLimit : ℕ) (categoryRule : EvalCategoryRule)
    (name : EvalRubricDimensionName) :
    ((scoreByRule uni citationLimit categoryRule evalCase execution).dimensions name).Judged
      (highestScore name) := by
  cases name with
  | retrievalSourceHit => exact judged_computeSourceHit
  | evidenceRelevance =>
    exact .ite (judged_computeEvidenceRelevance _) judged_notApplicableDimension
  | answerGroundedness =>
    exact .ite (judged_computeGroundedness _ _) judged_notApplicableDimension
  | answerUsefulness =>
    show (if categoryRule.expectedOutcome = .groundedAnswer then
      computeAnswerUsefulness uni evalCase execution else _).1.Judged 2
    split_ifs
    · exact judged_computeAnswerUsefulness
    · exact judged_notApplicableDimension
  | refusalQuality =>
    exact .ite (judged_computeRefusalQuality _) judged_notApplicableDimension
  | citationIntegrity => exact judged_computeCitationIntegrity _ _

end Judged

end RagStack.Evals
