import RagStack.Evals.Scoring

/-!
# Passing an eval case

The gates of `docs/architecture/evals.md` (lines 103–155), and what the score of
`eval-scoring.service.ts` has to do with them.

* `threshold_le_score`: where the hard gates hold, the weighted score reaches the threshold.
* `scoreCase_consistent_iff`: a case passes exactly if it has no failure reason, for
  every category but the one that the code throws for.
-/

namespace RagStack.Evals

open RagStack.Common RagStack.Api RagStack.Chat
open RagStack.Worker (Text)
open RagStack.Ingest (Id)

/-! ## The rules -/

/-- The score of a dimension, 0 where it is not applicable. -/
def EvalScoreResult.scoreOf (result : EvalScoreResult) (name : EvalRubricDimensionName) : ℕ :=
  (result.dimensions name).score.getD 0

/-- The hard gates of the grounded-answer cases (lines 123–138). -/
structure GroundedGates (rule : EvalCategoryRule) (evalCase : EvalCase)
    (result : EvalScoreResult) : Prop where
  sourceHit : 1 ≤ result.scoreOf .retrievalSourceHit
  groundedness : 2 ≤ result.scoreOf .answerGroundedness
  citationIntegrity : 2 ≤ result.scoreOf .citationIntegrity
  usefulness : 1 ≤ result.scoreOf .answerUsefulness
  evidenceRelevance : 1 ≤ result.scoreOf .evidenceRelevance
  citedDocuments : ∀ minimum ∈ rule.minDistinctCitedDocuments,
    minimum ≤ result.secondaryMetrics.distinctCitedDocuments
  expectedSource : rule.requireExpectedSourceCitation = true →
    evalCase.expectedSourceDocumentId.isSome = true → result.expectedSourceCited = true

/-- The hard gates of the refusal cases (lines 146–149). -/
structure RefusalGates (result : EvalScoreResult) : Prop where
  refusalQuality : result.scoreOf .refusalQuality = 2
  citationIntegrity : result.scoreOf .citationIntegrity = 2

/-- The hard gates of a category. -/
def HardGates (rule : EvalCategoryRule) (evalCase : EvalCase) (result : EvalScoreResult) : Prop :=
  match rule.expectedOutcome with
  | .groundedAnswer => GroundedGates rule evalCase result
  | .refusal => RefusalGates result

/-- The verdict, the reasons, the score and the gates of a case fit together. -/
structure Consistent (rule : EvalCategoryRule) (evalCase : EvalCase)
    (result : EvalScoreResult) : Prop where
  passed_iff : result.passed = true ↔ result.failureReasons = []
  score_nonneg : 0 ≤ result.score
  score_le_one : result.score ≤ 1
  passed_le : result.passed = true → EVAL_GROUNDED_PASS_THRESHOLD ≤ result.score
  gates_le : HardGates rule evalCase result → EVAL_GROUNDED_PASS_THRESHOLD ≤ result.score

section Score

variable (uni : EcmaUnicode) (citationLimit : ℕ) (rule : EvalCategoryRule) (evalCase : EvalCase)
  (execution : EvalExecutionResult)

theorem scoreOf_le (name : EvalRubricDimensionName) :
    (scoreByRule uni citationLimit rule evalCase execution).scoreOf name ≤ highestScore name :=
  (judged_scoreByRule uni evalCase execution citationLimit rule name).score_le

/-! ## The weighted score -/

theorem toFixed_mem_unit {value : ℚ} (h0 : 0 ≤ value) (h1 : value ≤ 1) :
    0 ≤ toFixed 4 value ∧ toFixed 4 value ≤ 1 := by
  have hzero : toFixed 4 0 = 0 := by decide +kernel
  have hone : toFixed 4 1 = 1 := by decide +kernel
  have hlow := toFixed_mono 4 le_rfl h0
  have hhigh := toFixed_mono 4 h0 h1
  rw [hzero] at hlow
  rw [hone] at hhigh
  exact ⟨hlow, hhigh⟩

theorem weightedGroundedScore_mem {sourceHit relevance groundedness usefulness integrity : ℕ}
    (h1 : sourceHit ≤ 1) (h2 : relevance ≤ 2) (h3 : groundedness ≤ 2) (h4 : usefulness ≤ 2)
    (h5 : integrity ≤ 2) :
    0 ≤ weightedGroundedScore sourceHit relevance groundedness usefulness integrity ∧
      weightedGroundedScore sourceHit relevance groundedness usefulness integrity ≤ 1 := by
  have h1' : (sourceHit : ℚ) ≤ 1 := by exact_mod_cast h1
  have h2' : (relevance : ℚ) ≤ 2 := by exact_mod_cast h2
  have h3' : (groundedness : ℚ) ≤ 2 := by exact_mod_cast h3
  have h4' : (usefulness : ℚ) ≤ 2 := by exact_mod_cast h4
  have h5' : (integrity : ℚ) ≤ 2 := by exact_mod_cast h5
  exact toFixed_mem_unit (by positivity) (by linarith)

/-- The gates alone are worth 0.8. -/
theorem le_weightedGroundedScore {sourceHit relevance groundedness usefulness integrity : ℕ}
    (h1 : 1 ≤ sourceHit) (h2 : 1 ≤ relevance) (h3 : 2 ≤ groundedness) (h4 : 1 ≤ usefulness)
    (h5 : 2 ≤ integrity) :
    8 / 10 ≤ weightedGroundedScore sourceHit relevance groundedness usefulness integrity := by
  have h1' : (1 : ℚ) ≤ sourceHit := by exact_mod_cast h1
  have h2' : (1 : ℚ) ≤ relevance := by exact_mod_cast h2
  have h3' : (2 : ℚ) ≤ groundedness := by exact_mod_cast h3
  have h4' : (1 : ℚ) ≤ usefulness := by exact_mod_cast h4
  have h5' : (2 : ℚ) ≤ integrity := by exact_mod_cast h5
  have hfixed : toFixed 4 (8 / 10) = 8 / 10 := by decide +kernel
  rw [← hfixed]
  exact toFixed_mono 4 (by norm_num) (by linarith)

theorem weightedRefusalScore_mem {refusal integrity : ℕ} (h1 : refusal ≤ 2) (h2 : integrity ≤ 2) :
    0 ≤ weightedRefusalScore refusal integrity ∧ weightedRefusalScore refusal integrity ≤ 1 := by
  have h1' : (refusal : ℚ) ≤ 2 := by exact_mod_cast h1
  have h2' : (integrity : ℚ) ≤ 2 := by exact_mod_cast h2
  exact toFixed_mem_unit (by positivity) (by linarith)

/-! ## The gates -/

variable {uni citationLimit rule evalCase execution}

theorem hardGates_of_grounded {result : EvalScoreResult}
    (h : rule.expectedOutcome = .groundedAnswer) :
    HardGates rule evalCase result ↔ GroundedGates rule evalCase result := by
  rw [HardGates, h]

theorem hardGates_of_refusal {result : EvalScoreResult} (h : rule.expectedOutcome = .refusal) :
    HardGates rule evalCase result ↔ RefusalGates result := by
  rw [HardGates, h]

theorem score_of_grounded (h : rule.expectedOutcome = .groundedAnswer) :
    let result := scoreByRule uni citationLimit rule evalCase execution
    result.score = weightedGroundedScore (result.scoreOf .retrievalSourceHit)
      (result.scoreOf .evidenceRelevance) (result.scoreOf .answerGroundedness)
      (result.scoreOf .answerUsefulness) (result.scoreOf .citationIntegrity) :=
  if_neg (by rw [h]; decide)

theorem score_of_refusal (h : rule.expectedOutcome = .refusal) :
    let result := scoreByRule uni citationLimit rule evalCase execution
    result.score = weightedRefusalScore (result.scoreOf .refusalQuality)
      (result.scoreOf .citationIntegrity) :=
  if_pos h

/-- The threshold never decides: the gates alone are worth 0.8, and those of a refusal 1. -/
theorem threshold_le_score
    (h : HardGates rule evalCase (scoreByRule uni citationLimit rule evalCase execution)) :
    EVAL_GROUNDED_PASS_THRESHOLD ≤
      (scoreByRule uni citationLimit rule evalCase execution).score := by
  cases houtcome : rule.expectedOutcome with
  | groundedAnswer =>
    have gates := (hardGates_of_grounded houtcome).mp h
    rw [score_of_grounded houtcome]
    have hworth := le_weightedGroundedScore gates.sourceHit gates.evidenceRelevance
      gates.groundedness gates.usefulness gates.citationIntegrity
    have hthreshold : EVAL_GROUNDED_PASS_THRESHOLD ≤ 8 / 10 := by
      norm_num [EVAL_GROUNDED_PASS_THRESHOLD]
    exact hthreshold.trans hworth
  | refusal =>
    have gates := (hardGates_of_refusal houtcome).mp h
    rw [score_of_refusal houtcome, gates.refusalQuality, gates.citationIntegrity]
    decide +kernel

theorem score_mem_unit :
    0 ≤ (scoreByRule uni citationLimit rule evalCase execution).score ∧
      (scoreByRule uni citationLimit rule evalCase execution).score ≤ 1 := by
  have hle := scoreOf_le uni citationLimit rule evalCase execution
  cases houtcome : rule.expectedOutcome with
  | groundedAnswer =>
    rw [score_of_grounded houtcome]
    exact weightedGroundedScore_mem (hle _) (hle _) (hle _) (hle _) (hle _)
  | refusal =>
    rw [score_of_refusal houtcome]
    exact weightedRefusalScore_mem (hle _) (hle _)

theorem getD_eq_two_iff {score : Option ℕ} : score.getD 0 = 2 ↔ score = some 2 := by
  cases score <;> simp

theorem not_citationMissing_iff {required configured cited : Bool} :
    ¬ (required && configured && !cited) = true ↔
      (required = true → configured = true → cited = true) := by
  cases required <;> cases configured <;> cases cited <;> decide

theorem not_tooFewDocuments_iff {minimum : Option ℕ} {count : ℕ} :
    ¬ (minimum.any fun minimum => decide (0 < minimum) && decide (count < minimum)) = true ↔
      ∀ least ∈ minimum, least ≤ count := by
  cases minimum with
  | none => simp
  | some least =>
    simp
    omega

theorem failureReasons_nil_iff_scored :
    (scoreByRule uni citationLimit rule evalCase execution).failureReasons = [] ↔
      scoreFailureReasons rule evalCase execution
        (scoreDimensions uni citationLimit rule evalCase execution) = [] :=
  List.map_eq_nil_iff.trans eraseDups_eq_nil_iff

/-- A failure reason is given exactly where a gate does not hold. -/
theorem failureReasons_eq_nil_iff :
    (scoreByRule uni citationLimit rule evalCase execution).failureReasons = [] ↔
      HardGates rule evalCase (scoreByRule uni citationLimit rule evalCase execution) := by
  rw [failureReasons_nil_iff_scored, scoreFailureReasons]
  cases houtcome : rule.expectedOutcome with
  | groundedAnswer =>
    rw [hardGates_of_grounded houtcome, if_neg (by decide)]
    simp only [List.append_eq_nil_iff, ite_singleton_eq_nil_iff, not_lt]
    have hhit :
        ¬ (!(scoreDimensions uni citationLimit rule evalCase execution).sourceHit.sourceHit) =
          true ↔
        1 ≤ (scoreByRule uni citationLimit rule evalCase execution).scoreOf
          .retrievalSourceHit := by
      show ¬ (!(computeSourceHit uni evalCase execution).sourceHit) = true ↔
        1 ≤ if (computeSourceHit uni evalCase execution).sourceHit then 1 else 0
      cases (computeSourceHit uni evalCase execution).sourceHit <;> decide
    rw [hhit, not_citationMissing_iff, not_tooFewDocuments_iff]
    constructor
    · rintro ⟨⟨⟨⟨⟨⟨hsource, hcited⟩, hrelevance⟩, hground⟩, huseful⟩, hintegrity⟩, hdocuments⟩
      exact ⟨hsource, hground, hintegrity, huseful, hrelevance, hdocuments, hcited⟩
    · intro gates
      exact ⟨⟨⟨⟨⟨⟨gates.sourceHit, gates.expectedSource⟩, gates.evidenceRelevance⟩,
        gates.groundedness⟩, gates.usefulness⟩, gates.citationIntegrity⟩, gates.citedDocuments⟩
  | refusal =>
    rw [hardGates_of_refusal houtcome, if_pos rfl, List.append_eq_nil_iff,
      ite_singleton_eq_nil_iff, ite_singleton_eq_nil_iff, not_not, not_not]
    constructor
    · rintro ⟨hrefusal, hintegrity⟩
      exact ⟨getD_eq_two_iff.mpr hrefusal, getD_eq_two_iff.mpr hintegrity⟩
    · intro gates
      exact ⟨getD_eq_two_iff.mp gates.refusalQuality, getD_eq_two_iff.mp gates.citationIntegrity⟩

theorem passed_of_grounded (h : rule.expectedOutcome = .groundedAnswer) :
    (scoreByRule uni citationLimit rule evalCase execution).passed =
      decide (scoreFailureReasons rule evalCase execution
          (scoreDimensions uni citationLimit rule evalCase execution) = [] ∧
        EVAL_GROUNDED_PASS_THRESHOLD ≤
          (scoreByRule uni citationLimit rule evalCase execution).score) :=
  if_neg (by rw [h]; decide)

theorem passed_of_refusal (h : rule.expectedOutcome = .refusal) :
    (scoreByRule uni citationLimit rule evalCase execution).passed =
      decide ((scoreDimensions uni citationLimit rule evalCase execution).refusalQuality.score =
          some 2 ∧
        (scoreDimensions uni citationLimit rule evalCase execution).citationIntegrity.score =
          some 2) :=
  if_pos h

/-- With its rule, every case has a consistent score. -/
theorem consistent_scoreByRule :
    Consistent rule evalCase (scoreByRule uni citationLimit rule evalCase execution) := by
  have hpassed : (scoreByRule uni citationLimit rule evalCase execution).passed = true ↔
      (scoreByRule uni citationLimit rule evalCase execution).failureReasons = [] := by
    cases houtcome : rule.expectedOutcome with
    | groundedAnswer =>
      rw [passed_of_grounded houtcome, decide_eq_true_iff, ← failureReasons_nil_iff_scored]
      exact and_iff_left_of_imp fun h => threshold_le_score (failureReasons_eq_nil_iff.mp h)
    | refusal =>
      rw [passed_of_refusal houtcome, decide_eq_true_iff, failureReasons_eq_nil_iff,
        hardGates_of_refusal houtcome]
      exact ⟨fun h => ⟨getD_eq_two_iff.mpr h.1, getD_eq_two_iff.mpr h.2⟩,
        fun gates => ⟨getD_eq_two_iff.mp gates.refusalQuality,
          getD_eq_two_iff.mp gates.citationIntegrity⟩⟩
  exact
    { passed_iff := hpassed
      score_nonneg := score_mem_unit.1
      score_le_one := score_mem_unit.2
      passed_le := fun h => threshold_le_score (failureReasons_eq_nil_iff.mp (hpassed.mp h))
      gates_le := threshold_le_score }

end Score

/-! ## The categories -/

/-- Every key but the inherited one has a rule. -/
theorem exists_rule_iff (uni : EcmaUnicode) (category : Option Text) :
    (∃ rule, getEvalCategoryRule uni category = some rule) ↔
      categoryKey uni category ≠ "constructor".toList := by
  rw [getEvalCategoryRule, normalizeEvalCategory]
  constructor
  · rintro ⟨rule, hrule⟩ hkey
    have hnone : CATEGORY_ALIASES.lookup (String.ofList "constructor".toList) = none := by
      decide +kernel
    rw [hkey, hnone] at hrule
    simp at hrule
  · intro hkey
    cases CATEGORY_ALIASES.lookup (String.ofList (categoryKey uni category)) with
    | none => exact ⟨_, by rw [if_neg hkey]; rfl⟩
    | some found => exact ⟨_, rfl⟩

/-- Every eval case is scored, and its verdict, reasons and score fit together, exactly
    if its category does not come to `constructor`. -/
theorem scoreCase_consistent_iff (uni : EcmaUnicode) (citationLimit : ℕ) (evalCase : EvalCase)
    (execution : EvalExecutionResult) :
    (∃ rule result, getEvalCategoryRule uni evalCase.category = some rule ∧
      scoreCase uni citationLimit evalCase execution = some result ∧
      Consistent rule evalCase result) ↔
    categoryKey uni evalCase.category ≠ "constructor".toList := by
  rw [← exists_rule_iff]
  constructor
  · rintro ⟨rule, -, hrule, -⟩
    exact ⟨rule, hrule⟩
  · rintro ⟨rule, hrule⟩
    refine ⟨rule, scoreByRule uni citationLimit rule evalCase execution, hrule, ?_,
      consistent_scoreByRule⟩
    rw [scoreCase, hrule]
    rfl

/-- The category "Constructor" of a case, which the API accepts. -/
theorem scoreCase_constructor :
    ¬ ∀ (uni : EcmaUnicode) (citationLimit : ℕ) (evalCase : EvalCase)
        (execution : EvalExecutionResult),
      ∃ rule result, getEvalCategoryRule uni evalCase.category = some rule ∧
        scoreCase uni citationLimit evalCase execution = some result ∧
        Consistent rule evalCase result := by
  intro h
  obtain ⟨rule, -, hrule, -⟩ := h .ascii 3
    { id := 1, question := "Why?".toList, category := some "Constructor".toList }
    { status := .insufficientData, answer := [], latencyMs := 0, topScore := 0 }
  have hnone : getEvalCategoryRule .ascii (some "Constructor".toList) = none := by
    decide +kernel
  rw [hnone] at hrule
  cases hrule

end RagStack.Evals
