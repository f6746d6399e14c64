import RagStack.Chat.RetrievalQueries
import RagStack.Evals.Summary

/-!
# The stored items of an eval run

What `runEvalSet` of `services/api/src/evals/evals.service.ts` writes for each case
(lines 305–493), and how `reconstructItemSnapshot` of `eval-reporting.utils.ts` reads it
back. The details of a score are stored as JSON without a schema; items of older runs
lack some of them, and there the reader falls back on what they have.

* `summary_of_storedItems`: the summary of a run can be made of its stored items.
-/

namespace RagStack.Evals

open RagStack.Common RagStack.Api RagStack.Chat
open RagStack.Worker (Text)
open RagStack.Ingest (Id)

/-! ## A case of a run -/

/-- What the execution of a case came to: a result, or the message of what was thrown.
    The clock is read twice where something was thrown. -/
structure CaseOutcome where
  executed : Except Text EvalExecutionResult
  /-- The message of the error of `scoreCase`, for a category without a rule. -/
  scoringError : Text := []
  failedLatencyMs : ℕ := 0
  failedScoreLatencyMs : ℕ := 0

/-- A case with what its execution comes to. -/
structure CaseRun extends CaseOutcome where
  evalCase : EvalCase

/-- A case with its score. -/
structure ScoredCase where
  evalCase : EvalCase
  execution : EvalExecutionResult
  scoreResult : EvalScoreResult

/-- The execution of a case that has failed (lines 319–333). -/
def failedExecution (latencyMs : ℕ) : EvalExecutionResult where
  status := .insufficientData
  answer := []
  latencyMs := latencyMs
  topScore := 0

/-- A dimension of a case that has failed before it was judged. -/
def failedDimension (name : EvalRubricDimensionName) (kind : EvalRubricDimensionKind)
    (maxScore : ℕ) (what : String) : EvalDimensionResult where
  name := name
  kind := kind
  applicable := true
  score := some 0
  maxScore := maxScore
  passed := some false
  notes := "Execution failed before ".toList ++ what.toList

/-- `dimensions` of a case that has failed (lines 342–397). -/
def failedDimensions : EvalRubricDimensionName → EvalDimensionResult
  | .retrievalSourceHit =>
    failedDimension .retrievalSourceHit .automated 1 "retrieval scoring completed."
  | .evidenceRelevance =>
    failedDimension .evidenceRelevance .heuristic 2 "evidence relevance could be judged."
  | .answerGroundedness =>
    failedDimension .answerGroundedness .heuristic 2 "answer grounding could be judged."
  | .answerUsefulness =>
    failedDimension .answerUsefulness .heuristic 2 "answer usefulness could be judged."
  | .refusalQuality =>
    { failedDimension .refusalQuality .heuristic 2 "refusal quality could be judged." with
      applicable := false
      score := none
      passed := none }
  | .citationIntegrity =>
    failedDimension .citationIntegrity .automated 2 "citation integrity could be judged."

/-- The score of a case that has failed (lines 334–416). -/
def failedScoreResult (message : Text) (latencyMs : ℕ) : EvalScoreResult where
  rubricVersion := "practical_v1".toList
  caseCategory := EvalCaseCategory.general.name
  expectedOutcome := .groundedAnswer
  passed := false
  score := 0
  notes := "Execution failed: ".toList ++ message
  failureReasons := [EvalFailureReason.executionFailed.name]
  dimensions := failedDimensions
  sourceHit := false
  evidenceRelevant := false
  grounded := false
  useful := false
  citationIntegrity := false
  correctRefusal := false
  expectedSourceCited := false
  answerMatchScore := 0
  requiresHumanReview := true
  secondaryMetrics :=
    { latencyMs := latencyMs
      usage := {}
      topScore := 0
      citationCount := 0
      retrievedSourceCount := 0
      distinctRetrievedDocuments := 0
      distinctCitedDocuments := 0 }

/-- A case is executed and scored, or what was thrown is caught (lines 310–426). -/
def scoreRun (uni : EcmaUnicode) (citationLimit : ℕ) (run : CaseRun) : ScoredCase :=
  let failed := fun message : Text =>
    { evalCase := run.evalCase
      execution := failedExecution run.failedLatencyMs
      scoreResult := failedScoreResult message run.failedScoreLatencyMs : ScoredCase }
  match run.executed with
  | .error message => failed message
  | .ok execution =>
    match scoreCase uni citationLimit run.evalCase execution with
    | none => failed run.scoringError
    | some scoreResult =>
      { evalCase := run.evalCase, execution := execution, scoreResult := scoreResult }

/-! ## Writing -/

/-- `StoredEvalItem`. -/
structure StoredEvalItem where
  evalCaseId : Id
  passed : Bool
  score : ℚ
  latencyMs : Option ℕ
  notes : Option Text
  retrievedSourcesJson : Json

def DIMENSION_NAMES : List EvalRubricDimensionName :=
  [.retrievalSourceHit, .evidenceRelevance, .answerGroundedness, .answerUsefulness,
    .refusalQuality, .citationIntegrity]

/-- The string of a dimension. -/
def EvalRubricDimensionName.name : EvalRubricDimensionName → Text
  | .retrievalSourceHit => "retrieval_source_hit".toList
  | .evidenceRelevance => "evidence_relevance".toList
  | .answerGroundedness => "answer_groundedness".toList
  | .answerUsefulness => "answer_usefulness".toList
  | .refusalQuality => "refusal_quality".toList
  | .citationIntegrity => "citation_integrity".toList

/-- The string of a kind. -/
def EvalRubricDimensionKind.name : EvalRubricDimensionKind → Text
  | .automated => "automated".toList
  | .heuristic => "heuristic".toList
  | .manualReview => "manual_review".toList

/-- The string of an expected outcome. -/
def EvalExpectedOutcome.name : EvalExpectedOutcome → Text
  | .groundedAnswer => "grounded_answer".toList
  | .refusal => "refusal".toList

def usageJson (usage : EvalUsage) : Json := .obj
  [("inputTokens".toList, .num usage.inputTokens),
    ("outputTokens".toList, .num usage.outputTokens),
    ("totalTokens".toList, .num usage.totalTokens)]

def sourceJson (source : EvalSelectedSource) : Json := .obj
  [("chunkId".toList, .str (idText source.chunkId)),
    ("documentId".toList, .str (idText source.documentId)),
    ("documentTitle".toList, .str source.documentTitle),
    ("score".toList, .num source.score),
    ("page".toList, jsonOrNull source.page fun page => .num page),
    ("section".toList, jsonOrNull source.section Json.str),
    ("snippet".toList, .str source.snippet)]

def citationJson (citation : CitationView) : Json := .obj
  [("rank".toList, .num citation.rank),
    ("score".toList, .num citation.score),
    ("chunkId".toList, .str (idText citation.chunkId)),
    ("documentId".toList, .str (idText citation.documentId)),
    ("documentTitle".toList, .str citation.documentTitle),
    ("snippet".toList, .str citation.snippet),
    ("page".toList, jsonOrNull citation.page fun page => .num page),
    ("section".toList, jsonOrNull citation.section Json.str)]

def dimensionJson (dimension : EvalDimensionResult) : Json := .obj
  [("name".toList, .str dimension.name.name),
    ("kind".toList, .str dimension.kind.name),
    ("applicable".toList, .bool dimension.applicable),
    ("score".toList, jsonOrNull dimension.score fun score => .num score),
    ("maxScore".toList, .num dimension.maxScore),
    ("passed".toList, jsonOrNull dimension.passed Json.bool),
    ("notes".toList, .str dimension.notes)]

def secondaryMetricsJson (metrics : EvalSecondaryMetrics) : Json := .obj
  [("latencyMs".toList, .num metrics.latencyMs),
    ("usage".toList, usageJson metrics.usage),
    ("topScore".toList, .num metrics.topScore),
    ("citationCount".toList, .num metrics.citationCount),
    ("retrievedSourceCount".toList, .num metrics.retrievedSourceCount),
    ("distinctRetrievedDocuments".toList, .num metrics.distinctRetrievedDocuments),
    ("distinctCitedDocuments".toList, .num metrics.distinctCitedDocuments)]

def dimensionsJson (dimensions : EvalRubricDimensionName → EvalDimensionResult) : Json :=
  .obj (DIMENSION_NAMES.map fun name => (name.name, dimensionJson (dimensions name)))

/-- `breakdown` of `retrievedSourcesJson` (lines 465–482). -/
def breakdownJson (scoreResult : EvalScoreResult) : Json := .obj
  [("rubricVersion".toList, .str scoreResult.rubricVersion),
    ("caseCategory".toList, .str scoreResult.caseCategory),
    ("expectedOutcome".toList, .str scoreResult.expectedOutcome.name),
    ("sourceHit".toList, .bool scoreResult.sourceHit),
    ("evidenceRelevant".toList, .bool scoreResult.evidenceRelevant),
    ("grounded".toList, .bool scoreResult.grounded),
    ("useful".toList, .bool scoreResult.useful),
    ("citationIntegrity".toList, .bool scoreResult.citationIntegrity),
    ("answerMatchScore".toList, .num scoreResult.answerMatchScore),
    ("correctRefusal".toList, .bool scoreResult.correctRefusal),
    ("expectedSourceCited".toList, .bool scoreResult.expectedSourceCited),
    ("requiresHumanReview".toList, .bool scoreResult.requiresHumanReview),
    ("failureReasons".toList, .arr (scoreResult.failureReasons.map Json.str)),
    ("notes".toList, .str scoreResult.notes),
    ("dimensions".toList, dimensionsJson scoreResult.dimensions),
    ("secondaryMetrics".toList, secondaryMetricsJson scoreResult.secondaryMetrics)]

/-- The two records for debugging as JSON. -/
structure DebugJson where
  retrieval : RetrievalDebugView → Json
  citation : CitationAssemblyDebug → Json

/-- `retrievedSourcesJson` (lines 455–483). -/
def retrievedSourcesJson (debug : DebugJson) (execution : EvalExecutionResult)
    (scoreResult : EvalScoreResult) : Json := .obj
  [("rubricVersion".toList, .str scoreResult.rubricVersion),
    ("status".toList, .str (statusText execution.status)),
    ("topScore".toList, .num (toFixed 4 execution.topScore)),
    ("sources".toList, .arr (execution.selectedSources.map sourceJson)),
    ("citations".toList, .arr (execution.citations.map citationJson)),
    ("citationChunkIds".toList,
      .arr (execution.citations.map fun citation => .str (idText citation.chunkId))),
    ("retrievalDebug".toList, jsonOrNull execution.retrievalDebug debug.retrieval),
    ("citationDebug".toList, jsonOrNull execution.citationDebug debug.citation),
    ("usage".toList, usageJson (evalUsage execution.usage)),
    ("breakdown".toList, breakdownJson scoreResult)]

/-- The stored item of a case (lines 450–491). -/
def storedItem (debug : DebugJson) (scored : ScoredCase) : StoredEvalItem where
  evalCaseId := scored.evalCase.id
  passed := scored.scoreResult.passed
  score := scored.scoreResult.score
  latencyMs := some scored.execution.latencyMs
  notes := if scored.scoreResult.notes = [] then none else some scored.scoreResult.notes
  retrievedSourcesJson := retrievedSourcesJson debug scored.execution scored.scoreResult

/-! ## Reading -/

/-- `json?.[name]`: what is no object has no such property. -/
def property (name : Text) (json : Option Json) : Option Json :=
  match json with
  | some (.obj entries) => entries.lookup name
  | _ => none

/-- `typeof json === "object"`, and not `null`. -/
def isObject (json : Json) : Bool :=
  match json with
  | .arr _ | .obj _ => true
  | _ => false

def asBoolean : Option Json → Option Bool
  | some (.bool value) => some value
  | _ => none

def asString : Option Json → Option Text
  | some (.str value) => some value
  | _ => none

def asArray : Option Json → Option (List Json)
  | some (.arr items) => some items
  | _ => none

/-- `Boolean(json)`. -/
def truthy : Option Json → Bool
  | none | some .null => false
  | some (.bool value) => value
  | some (.num value) => value ≠ 0
  | some (.str value) => value ≠ []
  | some (.arr _) | some (.obj _) => true

/-- `numberValue` (lines 685–688); `toNumber` is `Number` of a string, an array or an
    object, and `0` where that is not finite. -/
def numberValue (toNumber : Json → ℚ) : Option Json → ℚ
  | none | some .null => 0
  | some (.bool value) => if value then 1 else 0
  | some (.num value) => value
  | some json => toNumber json

/-- `extractStoredObject` (lines 578–582). -/
def extractStoredObject (input : Option Json) : Option Json := input.filter isObject

/-- `extractStoredBreakdown` (lines 565–569). -/
def extractStoredBreakdown (input : Option Json) : Option Json :=
  (property "breakdown".toList (extractStoredObject input)).filter isObject

/-- `extractStoredDimensions` (lines 571–576). -/
def extractStoredDimensions (input : Option Json) : Option Json :=
  (property "dimensions".toList input).filter isObject

/-- `extractStoredStatus` (lines 584–591). -/
def extractStoredStatus (input : Option Json) : Option ChatStatus :=
  let status := asString (property "status".toList (extractStoredObject input))
  [ChatStatus.grounded, .insufficientData, .outOfScope].find? fun s => status = some (statusText s)

/-- `extractStoredCitationCount` (lines 608–616). -/
def extractStoredCitationCount (input : Option Json) : ℕ :=
  let root := extractStoredObject input
  let citations := (asArray (property "citations".toList root)).getD
    ((asArray (property "citationChunkIds".toList root)).getD [])
  citations.length

/-- `extractStoredSourceCount` (lines 618–621). -/
def extractStoredSourceCount (input : Option Json) : ℕ :=
  ((asArray (property "sources".toList (extractStoredObject input))).getD []).length

/-- `extractStoredDistinctDocumentCount` (lines 623–639). -/
def extractStoredDistinctDocumentCount (input : Option Json) (field : String) : ℕ :=
  let entries := (asArray (property field.toList (extractStoredObject input))).getD []
  (entries.filterMap fun entry =>
    asString (property "documentId".toList (some entry))).eraseDups.length

/-- `maxScoreForDimension` (lines 641–643). -/
def maxScoreForDimension (name : EvalRubricDimensionName) : ℕ :=
  if name = .retrievalSourceHit then 1 else 2

/-- The outcome that a breakdown expects (lines 344–347 and 521–522). -/
def storedExpectedOutcome (breakdown : Option Json) : EvalExpectedOutcome :=
  if asString (property "expectedOutcome".toList breakdown) = some "refusal".toList then .refusal
  else .groundedAnswer

/-- `storedDimensionApplicable` (lines 510–529). -/
def storedDimensionApplicable (item : StoredEvalItem) (dimension : EvalRubricDimensionName) :
    Bool :=
  let breakdown := extractStoredBreakdown (some item.retrievedSourcesJson)
  let storedDimension := property dimension.name (extractStoredDimensions breakdown)
  match asBoolean (property "applicable".toList storedDimension) with
  | some applicable => applicable
  | none =>
    if dimension = .refusalQuality then storedExpectedOutcome breakdown = .refusal
    else storedExpectedOutcome breakdown ≠ .refusal

section Reading

variable (toNumber : Json → ℚ)

/-- `extractStoredUsage` (lines 593–606). -/
def extractStoredUsage (input : Option Json) : EvalUsage :=
  match (property "usage".toList (extractStoredObject input)).filter isObject with
  | none => {}
  | some usage =>
    { inputTokens := numberValue toNumber (property "inputTokens".toList (some usage))
      outputTokens := numberValue toNumber (property "outputTokens".toList (some usage))
      totalTokens := numberValue toNumber (property "totalTokens".toList (some usage)) }

/-- `storedDimensionPassed` (lines 531–563). -/
def storedDimensionPassed (item : StoredEvalItem) (dimension : EvalRubricDimensionName) : Bool :=
  let input := some item.retrievedSourcesJson
  let breakdown := extractStoredBreakdown input
  let storedDimension := property dimension.name (extractStoredDimensions breakdown)
  match asBoolean (property "passed".toList storedDimension) with
  | some passed => passed
  | none =>
    let isTrue := fun name : String => asBoolean (property name.toList breakdown) = some true
    match dimension with
    | .retrievalSourceHit => isTrue "sourceHit"
    | .answerGroundedness => isTrue "grounded"
    | .refusalQuality => isTrue "correctRefusal"
    | .citationIntegrity =>
      if extractStoredStatus input = some .grounded then 0 < extractStoredCitationCount input
      else extractStoredCitationCount input = 0
    | .answerUsefulness =>
      45 / 100 ≤ numberValue toNumber (property "answerMatchScore".toList breakdown)
    | .evidenceRelevance => isTrue "sourceHit"

/-- `dimensions` of a stored item (lines 308–321). -/
def reconstructDimension (item : StoredEvalItem) (name : EvalRubricDimensionName) :
    EvalDimensionResult :=
  let passed := storedDimensionPassed toNumber item name
  let applicable := storedDimensionApplicable item name
  { name := name
    kind :=
      if name = .retrievalSourceHit ∨ name = .citationIntegrity then .automated else .heuristic
    applicable := applicable
    score := if applicable then some (if passed then maxScoreForDimension name else 0) else none
    maxScore := maxScoreForDimension name
    passed := if applicable then some passed else none
    notes := [] }

/-- `reconstructScoreResult` (lines 306–381). -/
def reconstructScoreResult (item : StoredEvalItem) : EvalScoreResult :=
  let input := some item.retrievedSourcesJson
  let storedBreakdown := extractStoredBreakdown input
  { rubricVersion :=
      (asString (property "rubricVersion".toList storedBreakdown)).getD EVAL_RUBRIC_VERSION
    caseCategory :=
      (asString (property "caseCategory".toList storedBreakdown)).getD
        EvalCaseCategory.general.name
    expectedOutcome := storedExpectedOutcome storedBreakdown
    passed := item.passed
    score := item.score
    notes := item.notes.getD []
    failureReasons :=
      ((asArray (property "failureReasons".toList storedBreakdown)).getD []).filterMap
        fun reason => asString (some reason)
    dimensions := reconstructDimension toNumber item
    sourceHit := storedDimensionPassed toNumber item .retrievalSourceHit
    evidenceRelevant := storedDimensionPassed toNumber item .evidenceRelevance
    grounded := storedDimensionPassed toNumber item .answerGroundedness
    useful := storedDimensionPassed toNumber item .answerUsefulness
    citationIntegrity := storedDimensionPassed toNumber item .citationIntegrity
    correctRefusal := storedDimensionPassed toNumber item .refusalQuality
    expectedSourceCited := truthy (property "expectedSourceCited".toList storedBreakdown)
    answerMatchScore := numberValue toNumber (property "answerMatchScore".toList storedBreakdown)
    requiresHumanReview := truthy (property "requiresHumanReview".toList storedBreakdown)
    secondaryMetrics :=
      { latencyMs := item.latencyMs.getD 0
        usage := extractStoredUsage toNumber input
        topScore := numberValue toNumber
          (property "topScore".toList (extractStoredObject input))
        citationCount := extractStoredCitationCount input
        retrievedSourceCount := extractStoredSourceCount input
        distinctRetrievedDocuments := extractStoredDistinctDocumentCount input "sources"
        distinctCitedDocuments := extractStoredDistinctDocumentCount input "citations" } }

/-- `reconstructItemSnapshot` (lines 290–304). -/
def reconstructItemSnapshot (item : StoredEvalItem) : EvalRunItemSnapshot :=
  let breakdown := reconstructScoreResult toNumber item
  { evalCaseId := item.evalCaseId
    question := []
    category := some breakdown.caseCategory
    passed := item.passed
    score := item.score
    regressionFlag := false
    latencyMs := item.latencyMs
    usage := breakdown.secondaryMetrics.usage
    executionStatus :=
      (extractStoredStatus (some item.retrievedSourcesJson)).getD .insufficientData
    breakdown := breakdown }

/-! ## The items of a run -/

def CRITICAL_DIMENSIONS : List EvalRubricDimensionName :=
  [.retrievalSourceHit, .answerGroundedness, .refusalQuality, .citationIntegrity]

/-- `shouldFlagRegression` (lines 216–238), with numbers as exact rationals: 1 - 0.8
    reaches 0.2 here, and not in doubles. -/
def shouldFlagRegression (currentItem : EvalRunItemSnapshot)
    (previousItem : Option StoredEvalItem) : Bool :=
  match previousItem with
  | none => false
  | some previousItem =>
    (previousItem.passed && !currentItem.passed) ||
      decide (2 / 10 ≤ previousItem.score - currentItem.score) ||
      CRITICAL_DIMENSIONS.any fun dimension =>
        storedDimensionPassed toNumber previousItem dimension &&
          decide ((currentItem.breakdown.dimensions dimension).passed = some false)

/-- `currentItem` of a case (lines 428–448); `previousItems` are those of the run before. -/
def itemSnapshot (previousItems : List StoredEvalItem) (scored : ScoredCase) :
    EvalRunItemSnapshot :=
  let previousItem := previousItems.reverse.find? fun item =>
    item.evalCaseId = scored.evalCase.id
  let currentItemBase : EvalRunItemSnapshot :=
    { evalCaseId := scored.evalCase.id
      question := scored.evalCase.question
      category := scored.evalCase.category
      passed := scored.scoreResult.passed
      score := scored.scoreResult.score
      regressionFlag := false
      latencyMs := some scored.execution.latencyMs
      usage := evalUsage scored.execution.usage
      executionStatus := scored.execution.status
      breakdown := scored.scoreResult }
  { currentItemBase with
    regressionFlag := shouldFlagRegression toNumber currentItemBase previousItem }

end Reading

/-! ## What is read back -/

section RoundTrip

variable {toNumber : Json → ℚ} {debug : DebugJson} {execution : EvalExecutionResult}
  {scoreResult : EvalScoreResult} {scored : ScoredCase}

theorem extractStoredBreakdown_retrievedSourcesJson :
    extractStoredBreakdown (some (retrievedSourcesJson debug execution scoreResult)) =
      some (breakdownJson scoreResult) := rfl

variable (debug execution scoreResult) in
theorem extractStoredUsage_retrievedSourcesJson :
    extractStoredUsage toNumber (some (retrievedSourcesJson debug execution scoreResult)) =
      evalUsage execution.usage := rfl

theorem extractStoredStatus_retrievedSourcesJson :
    extractStoredStatus (some (retrievedSourcesJson debug execution scoreResult)) =
      some execution.status := by
  have hstatus : asString (property "status".toList
      (extractStoredObject (some (retrievedSourcesJson debug execution scoreResult)))) =
      some (statusText execution.status) := rfl
  simp only [extractStoredStatus, hstatus]
  cases execution.status <;> rfl

/-- The reasons of a breakdown are read back. -/
theorem failureReasons_breakdownJson :
    ((asArray (property "failureReasons".toList (some (breakdownJson scoreResult)))).getD
      []).filterMap (fun reason => asString (some reason)) = scoreResult.failureReasons := by
  have hreasons : asArray (property "failureReasons".toList (some (breakdownJson scoreResult))) =
      some (scoreResult.failureReasons.map Json.str) := rfl
  rw [hreasons, Option.getD_some, List.filterMap_map]
  exact List.filterMap_some

/-- A stored dimension is found by its name. -/
theorem property_dimension (name : EvalRubricDimensionName) :
    property name.name (extractStoredDimensions (some (breakdownJson scoreResult))) =
      some (dimensionJson (scoreResult.dimensions name)) := by
  cases name <;> rfl

theorem passed_dimensionJson (dimension : EvalDimensionResult) :
    asBoolean (property "passed".toList (some (dimensionJson dimension))) = dimension.passed := by
  have hpassed : property "passed".toList (some (dimensionJson dimension)) =
      some (jsonOrNull dimension.passed Json.bool) := rfl
  rw [hpassed]
  cases dimension.passed <;> rfl

theorem storedDimensionApplicable_storedItem (name : EvalRubricDimensionName) :
    storedDimensionApplicable (storedItem debug scored) name =
      (scored.scoreResult.dimensions name).applicable := by
  simp only [storedDimensionApplicable, storedItem, extractStoredBreakdown_retrievedSourcesJson,
    property_dimension]
  rfl

/-- The verdict on an applicable dimension is read back; one that is not applicable
    has `null`, and the rule for older items decides. -/
theorem storedDimensionPassed_storedItem {name : EvalRubricDimensionName} {passed : Bool}
    (h : (scored.scoreResult.dimensions name).passed = some passed) :
    storedDimensionPassed toNumber (storedItem debug scored) name = passed := by
  simp only [storedDimensionPassed, storedItem, extractStoredBreakdown_retrievedSourcesJson,
    property_dimension, passed_dimensionJson, h]

/-- The rule for older items does not show: where it decides, the dimension is not
    applicable. -/
theorem passed_reconstructDimension {name : EvalRubricDimensionName}
    (hwellFormed : (scored.scoreResult.dimensions name).WellFormed) :
    (reconstructDimension toNumber (storedItem debug scored) name).passed =
      (scored.scoreResult.dimensions name).passed := by
  simp only [reconstructDimension, storedDimensionApplicable_storedItem]
  rw [hwellFormed]
  cases hpassed : (scored.scoreResult.dimensions name).passed with
  | none => rfl
  | some passed => rw [storedDimensionPassed_storedItem hpassed]; rfl

/-- The measures of a stored item are those of the item. -/
theorem itemMeasures_reconstructItemSnapshot (previousItems : List StoredEvalItem)
    (hwellFormed : ∀ name, (scored.scoreResult.dimensions name).WellFormed) :
    itemMeasures (reconstructItemSnapshot toNumber (storedItem debug scored)) =
      itemMeasures (itemSnapshot toNumber previousItems scored) := by
  have happlicable : ∀ name,
      (reconstructDimension toNumber (storedItem debug scored) name).applicable =
        (scored.scoreResult.dimensions name).applicable :=
    storedDimensionApplicable_storedItem
  have husage : (reconstructItemSnapshot toNumber (storedItem debug scored)).usage =
      evalUsage scored.execution.usage :=
    extractStoredUsage_retrievedSourcesJson debug scored.execution scored.scoreResult
  simp only [itemMeasures, ItemMeasures.mk.injEq]
  refine ⟨rfl, rfl, rfl, husage, ?_, failureReasons_breakdownJson, rfl, funext happlicable,
    funext fun name => ?_⟩
  · exact congrArg (Option.getD · _) extractStoredStatus_retrievedSourcesJson
  · exact congrArg₂ (fun passed applicable => decide (passed = some true) && applicable)
      (passed_reconstructDimension (hwellFormed name)) (happlicable name)

end RoundTrip

/-! ## Summaries -/

section Summary

variable {uni : EcmaUnicode} {citationLimit : ℕ}

/-- A dimension of a scored case is judged exactly if it is applicable, whether the
    case was scored or has failed. -/
theorem wellFormed_scoreRun (run : CaseRun) (name : EvalRubricDimensionName) :
    ((scoreRun uni citationLimit run).scoreResult.dimensions name).WellFormed := by
  have hfailed : ∀ message latencyMs,
      ((failedScoreResult message latencyMs).dimensions name).WellFormed := by
    intro message latencyMs
    cases name <;> rfl
  unfold scoreRun
  simp only
  split
  · exact hfailed _ _
  · split
    · exact hfailed _ _
    · rename_i scoreResult hscore
      obtain ⟨categoryRule, -, rfl⟩ := Option.map_eq_some_iff.mp hscore
      exact (judged_scoreByRule uni run.evalCase _ citationLimit categoryRule name).wellFormed

/-- The summary of a run, but for its count of regressions, can be made of the stored
    items, in whatever order they are read. -/
theorem summary_of_storedItems (toNumber : Json → ℚ) (debug : DebugJson) (runId : Id)
    (previousItems : List StoredEvalItem) (runs : List CaseRun) {stored : List StoredEvalItem}
    (hstored : stored.Perm (runs.map fun run => storedItem debug (scoreRun uni citationLimit run))) :
    SameSummary (buildRunSummary runId (stored.map (reconstructItemSnapshot toNumber)))
      (buildRunSummary runId
        (runs.map fun run => itemSnapshot toNumber previousItems (scoreRun uni citationLimit run))) := by
  apply sameSummary_of_perm
  rw [List.map_map, List.map_map]
  refine (hstored.map _).trans ?_
  rw [List.map_map]
  refine List.Perm.of_eq (List.map_congr_left fun run _ => ?_)
  exact itemMeasures_reconstructItemSnapshot previousItems (wellFormed_scoreRun run)

end Summary

/-- An answered case, and one whose execution has failed. -/
def guideRuns : List CaseRun :=
  [{ evalCase := { id := 1, question := "How do I start the worker?".toList }
     executed := .ok
       { status := .grounded, answer := "Run it.".toList, latencyMs := 12, topScore := 5 / 10 } },
    { evalCase := { id := 2, question := "Who are you?".toList, category := some "refusal".toList }
      executed := .error "Eval answer generation failed".toList
      failedLatencyMs := 7 }]

/-- The stored items of the two, the later one first. -/
def guideItems : List StoredEvalItem :=
  (guideRuns.map fun run =>
    storedItem ⟨fun _ => .null, fun _ => .null⟩ (scoreRun .ascii 3 run)).reverse

theorem summary_of_storedItems_guide :
    SameSummary (buildRunSummary 1 (guideItems.map (reconstructItemSnapshot fun _ => 0)))
      (buildRunSummary 1
        (guideRuns.map fun run => itemSnapshot (fun _ => 0) [] (scoreRun .ascii 3 run))) :=
  summary_of_storedItems (fun _ => 0) ⟨fun _ => .null, fun _ => .null⟩ 1 [] guideRuns
    (List.reverse_perm _)

end RagStack.Evals
