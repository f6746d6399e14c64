import RagStack.Evals.Execute

/-!
# The rubric of the evals

`services/api/src/evals/eval-rubric.ts`, and the records of `eval.types.ts` that a
score is made of. A category and the reasons of a failure are read back from stored
JSON as whatever string stands there; a score holds their names.
-/

namespace RagStack.Evals

open RagStack.Common RagStack.Api RagStack.Chat
open RagStack.Worker (Text)
open RagStack.Ingest (Id)

/-! ## Categories -/

def EVAL_RUBRIC_VERSION : Text := "practical_v1".toList

def EVAL_GROUNDED_PASS_THRESHOLD : ℚ := 7 / 10

/-- `EvalCaseCategory` (eval-rubric.ts, lines 16–28). -/
inductive EvalCaseCategory
  | general | singleSourceFactual | multiSourceSynthesis | versionRecencySensitive
  | ambiguousKeywordOverlap | outOfScope | insufficientData | refusal | accessSensitive
deriving DecidableEq, Repr

/-- The string of a category. -/
def EvalCaseCategory.name : EvalCaseCategory → Text
  | .general => "general".toList
  | .singleSourceFactual => "single_source_factual".toList
  | .multiSourceSynthesis => "multi_source_synthesis".toList
  | .versionRecencySensitive => "version_recency_sensitive".toList
  | .ambiguousKeywordOverlap => "ambiguous_keyword_overlap".toList
  | .outOfScope => "out_of_scope".toList
  | .insufficientData => "insufficient_data".toList
  | .refusal => "refusal".toList
  | .accessSensitive => "access_sensitive".toList

/-- `EvalExpectedOutcome` (eval-rubric.ts, line 29). -/
inductive EvalExpectedOutcome
  | groundedAnswer | refusal
deriving DecidableEq, Repr

/-- `EvalCategoryRule` (eval-rubric.ts, lines 31–38). -/
structure EvalCategoryRule where
  category : EvalCaseCategory
  expectedOutcome : EvalExpectedOutcome
  expectedRefusalStatuses : List ChatStatus := []
  minDistinctCitedDocuments : Option ℕ := none
  requireExpectedSourceCitation : Bool := false
  manualReviewOnly : Bool := false
deriving DecidableEq, Repr

def CATEGORY_ALIASES : List (String × EvalCaseCategory) :=
  [("ambiguous", .ambiguousKeywordOverlap),
    ("ambiguous_keyword", .ambiguousKeywordOverlap),
    ("ambiguous_keyword_overlap", .ambiguousKeywordOverlap),
    ("general", .general),
    ("insufficient", .insufficientData),
    ("insufficient_data", .insufficientData),
    ("multi_source", .multiSourceSynthesis),
    ("multi_source_synthesis", .multiSourceSynthesis),
    ("out_of_scope", .outOfScope),
    ("recency_sensitive", .versionRecencySensitive),
    ("refusal", .refusal),
    ("single_source", .singleSourceFactual),
    ("single_source_factual", .singleSourceFactual),
    ("version_recency_sensitive", .versionRecencySensitive),
    ("version_sensitive", .versionRecencySensitive),
    ("access_sensitive", .accessSensitive)]

def CATEGORY_RULES : EvalCaseCategory → EvalCategoryRule
  | .general => { category := .general, expectedOutcome := .groundedAnswer }
  | .singleSourceFactual =>
    { category := .singleSourceFactual, expectedOutcome := .groundedAnswer }
  | .multiSourceSynthesis =>
    { category := .multiSourceSynthesis, expectedOutcome := .groundedAnswer
      minDistinctCitedDocuments := some 2 }
  | .versionRecencySensitive =>
    { category := .versionRecencySensitive, expectedOutcome := .groundedAnswer
      requireExpectedSourceCitation := true }
  | .ambiguousKeywordOverlap =>
    { category := .ambiguousKeywordOverlap, expectedOutcome := .groundedAnswer
      requireExpectedSourceCitation := true }
  | .outOfScope =>
    { category := .outOfScope, expectedOutcome := .refusal
      expectedRefusalStatuses := [.outOfScope] }
  | .insufficientData =>
    { category := .insufficientData, expectedOutcome := .refusal
      expectedRefusalStatuses := [.insufficientData] }
  | .refusal =>
    { category := .refusal, expectedOutcome := .refusal
      expectedRefusalStatuses := [.insufficientData, .outOfScope] }
  | .accessSensitive =>
    { category := .accessSensitive, expectedOutcome := .groundedAnswer
      manualReviewOnly := true }

/-- `[^a-z0-9]`. -/
def isCategoryBreak (c : Char) : Bool := !(('a' ≤ c && c ≤ 'z') || ('0' ≤ c && c ≤ '9'))

/-- The key that `normalizeEvalCategory` looks up. -/
def categoryKey (uni : EcmaUnicode) (category : Option Text) : Text :=
  strip (fun c => c == '_')
    (replaceMatches (runOf isCategoryBreak) ['_'] (uni.toLowerCase (trim (category.getD []))))

/-- `normalizeEvalCategory` (lines 103–110). The table of aliases inherits a property
    `constructor`, which is no category: `none`. -/
def normalizeEvalCategory (uni : EcmaUnicode) (category : Option Text) :
    Option EvalCaseCategory :=
  match CATEGORY_ALIASES.lookup (String.ofList (categoryKey uni category)) with
  | some category => some category
  | none => if categoryKey uni category = "constructor".toList then none else some .general

/-- `getEvalCategoryRule` (lines 112–114). -/
def getEvalCategoryRule (uni : EcmaUnicode) (category : Option Text) : Option EvalCategoryRule :=
  (normalizeEvalCategory uni category).map CATEGORY_RULES

/-! ## Dimensions -/

/-- `EvalRubricDimensionName` (eval.types.ts, lines 10–16). -/
inductive EvalRubricDimensionName
  | retrievalSourceHit | evidenceRelevance | answerGroundedness | answerUsefulness
  | refusalQuality | citationIntegrity
deriving DecidableEq, Repr

/-- `EvalRubricDimensionKind` (eval.types.ts, line 18). -/
inductive EvalRubricDimensionKind
  | automated | heuristic | manualReview
deriving DecidableEq, Repr

/-- `EvalFailureReason` (eval.types.ts, lines 20–31). -/
inductive EvalFailureReason
  | expectedSourceMissing | expectedSourceNotCited | weakEvidenceRelevance | answerNotGrounded
  | answerNotUseful | incorrectRefusal | wrongRefusalMode | citationIntegrityFailed
  | missingMultiSourceSupport | caseRequiresHumanReview | executionFailed
deriving DecidableEq, Repr

/-- The string of a reason. -/
def EvalFailureReason.name : EvalFailureReason → Text
  | .expectedSourceMissing => "expected_source_missing".toList
  | .expectedSourceNotCited => "expected_source_not_cited".toList
  | .weakEvidenceRelevance => "weak_evidence_relevance".toList
  | .answerNotGrounded => "answer_not_grounded".toList
  | .answerNotUseful => "answer_not_useful".toList
  | .incorrectRefusal => "incorrect_refusal".toList
  | .wrongRefusalMode => "wrong_refusal_mode".toList
  | .citationIntegrityFailed => "citation_integrity_failed".toList
  | .missingMultiSourceSupport => "missing_multi_source_support".toList
  | .caseRequiresHumanReview => "case_requires_human_review".toList
  | .executionFailed => "execution_failed".toList

/-- `EvalDimensionResult` (eval.types.ts, lines 55–63). -/
structure EvalDimensionResult where
  name : EvalRubricDimensionName
  kind : EvalRubricDimensionKind
  applicable : Bool
  score : Option ℕ
  maxScore : ℕ
  passed : Option Bool
  notes : Text
deriving DecidableEq, Repr

/-- `UsageView` with numbers that may be averages. -/
structure EvalUsage where
  inputTokens : ℚ := 0
  outputTokens : ℚ := 0
  totalTokens : ℚ := 0
deriving DecidableEq, Repr

/-- The numbers of a usage. -/
def evalUsage (usage : UsageView) : EvalUsage where
  inputTokens := usage.inputTokens
  outputTokens := usage.outputTokens
  totalTokens := usage.totalTokens

/-- `EvalSecondaryMetrics` (eval.types.ts, lines 65–73). -/
structure EvalSecondaryMetrics where
  latencyMs : ℕ
  usage : EvalUsage
  topScore : ℚ
  citationCount : ℕ
  retrievedSourceCount : ℕ
  distinctRetrievedDocuments : ℕ
  distinctCitedDocuments : ℕ
deriving DecidableEq, Repr

/-- `EvalScoreResult` (eval.types.ts, lines 75–94). -/
structure EvalScoreResult where
  rubricVersion : Text
  caseCategory : Text
  expectedOutcome : EvalExpectedOutcome
  passed : Bool
  score : ℚ
  notes : Text
  failureReasons : List Text
  dimensions : EvalRubricDimensionName → EvalDimensionResult
  sourceHit : Bool
  evidenceRelevant : Bool
  grounded : Bool
  useful : Bool
  citationIntegrity : Bool
  correctRefusal : Bool
  expectedSourceCited : Bool
  answerMatchScore : ℚ
  requiresHumanReview : Bool
  secondaryMetrics : EvalSecondaryMetrics

/-- `ScoreableEvalCase` (eval-scoring.service.ts, lines 22–28), and the id of the case. -/
structure EvalCase where
  id : Id
  question : Text
  expectedAnswer : Option Text := none
  expectedSourceDocumentId : Option Id := none
  expectedSourceHint : Option Text := none
  category : Option Text := none
deriving DecidableEq, Repr

end RagStack.Evals
