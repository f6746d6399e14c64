import RagStack.Common.Tally
import RagStack.Evals.Scoring

/-!
# The summary of an eval run

`buildRunSummary` of `services/api/src/evals/eval-reporting.utils.ts` (lines 45–155),
without the comparison with an earlier run. An object whose keys are found while the
items are read is a list of entries in the order of `tally`; no key is the name of a
property that every object inherits, and none that a scored case has is.

* `sameSummary_of_perm`: a summary depends on the measures of the items only, and
  not on their order.
-/

namespace RagStack.Evals

open RagStack.Common RagStack.Api RagStack.Chat
open RagStack.Worker (Text)
open RagStack.Ingest (Id)

/-! ## Items and summaries -/

/-- `EvalRunItemSnapshot`. -/
structure EvalRunItemSnapshot where
  evalCaseId : Id
  question : Text
  category : Option Text
  passed : Bool
  score : ℚ
  regressionFlag : Bool
  latencyMs : Option ℕ
  usage : EvalUsage
  executionStatus : ChatStatus
  breakdown : EvalScoreResult

/-- `EvalMetricSummary`. -/
structure EvalMetricSummary where
  applicableCases : ℕ
  passedCases : ℕ
  rate : ℚ
deriving DecidableEq, Repr

/-- An entry of `categoryBreakdown`. -/
structure CategoryEntry where
  totalCases : ℕ := 0
  passedCases : ℕ := 0
  passRate : ℚ := 0
deriving DecidableEq, Repr

/-- `EvalRunSummary` without `comparisonToPrevious`. -/
structure EvalRunSummary where
  rubricVersion : Text
  runId : Id
  totalCases : ℕ
  passedCases : ℕ
  passRate : ℚ
  retrievalHitRate : ℚ
  evidenceRelevanceRate : ℚ
  groundednessRate : ℚ
  usefulnessRate : ℚ
  refusalCorrectnessRate : ℚ
  citationIntegrityRate : ℚ
  averageLatencyMs : ℚ
  averageScore : ℚ
  regressionCount : ℕ
  statusBreakdown : List (Text × ℕ)
  failureReasonCounts : List (Text × ℕ)
  categoryBreakdown : List (Text × CategoryEntry)
  usageTotals : EvalUsage
  usageAverages : EvalUsage
  metrics : EvalRubricDimensionName → EvalMetricSummary

/-- `average` (lines 661–667). -/
def average (values : List ℚ) : ℚ := if values = [] then 0 else values.sum / values.length

/-- `rate` (lines 669–675). -/
def rate (passed total : ℕ) : ℚ := if total = 0 then 0 else toFixed 4 (passed / total)

/-- A step of `usageTotals` (lines 61–68). -/
def addUsage (acc usage : EvalUsage) : EvalUsage where
  inputTokens := acc.inputTokens + usage.inputTokens
  outputTokens := acc.outputTokens + usage.outputTokens
  totalTokens := acc.totalTokens + usage.totalTokens

/-- `(found ?? 0) + 1`. -/
def countEntry {α : Type} (found : Option ℕ) (_ : α) : ℕ := found.getD 0 + 1

/-- A step of `categoryBreakdown` (lines 107–121). -/
def addToCategory (found : Option CategoryEntry) (passed : Bool) : CategoryEntry :=
  let entry := found.getD {}
  let passedCases := if passed then entry.passedCases + 1 else entry.passedCases
  { totalCases := entry.totalCases + 1
    passedCases := passedCases
    passRate := rate passedCases (entry.totalCases + 1) }

/-- An entry of `metrics` (lines 77–91). -/
def metricSummary (items : List EvalRunItemSnapshot) (name : EvalRubricDimensionName) :
    EvalMetricSummary :=
  let applicableItems := items.filter fun item => (item.breakdown.dimensions name).applicable
  let passedItems := applicableItems.filter fun item =>
    (item.breakdown.dimensions name).passed = some true
  { applicableCases := applicableItems.length
    passedCases := passedItems.length
    rate := rate passedItems.length applicableItems.length }

/-- `buildRunSummary` (lines 45–155), with numbers as exact rationals; a sum of doubles
    depends on the order of the items. -/
def buildRunSummary (runId : Id) (items : List EvalRunItemSnapshot) : EvalRunSummary :=
  let totalCases := items.length
  let passedCases := (items.filter EvalRunItemSnapshot.passed).length
  let metrics := metricSummary items
  { rubricVersion := EVAL_RUBRIC_VERSION
    runId := runId
    totalCases := totalCases
    passedCases := passedCases
    passRate := rate passedCases totalCases
    retrievalHitRate := (metrics .retrievalSourceHit).rate
    evidenceRelevanceRate := (metrics .evidenceRelevance).rate
    groundednessRate := (metrics .answerGroundedness).rate
    usefulnessRate := (metrics .answerUsefulness).rate
    refusalCorrectnessRate := (metrics .refusalQuality).rate
    citationIntegrityRate := (metrics .citationIntegrity).rate
    averageLatencyMs :=
      toFixed 2 (average ((items.filterMap EvalRunItemSnapshot.latencyMs).map Nat.cast))
    averageScore := toFixed 4 (average (items.map EvalRunItemSnapshot.score))
    regressionCount := (items.filter EvalRunItemSnapshot.regressionFlag).length
    statusBreakdown := tally (fun item => statusText item.executionStatus) countEntry items
    failureReasonCounts :=
      tally id countEntry (items.flatMap fun item => item.breakdown.failureReasons)
    categoryBreakdown := tally (fun item => item.breakdown.caseCategory)
      (fun found item => addToCategory found item.passed) items
    usageTotals := (items.map EvalRunItemSnapshot.usage).foldl addUsage {}
    usageAverages :=
      { inputTokens := toFixed 2 (average (items.map fun item => item.usage.inputTokens))
        outputTokens := toFixed 2 (average (items.map fun item => item.usage.outputTokens))
        totalTokens := toFixed 2 (average (items.map fun item => item.usage.totalTokens)) }
    metrics := metrics }

/-! ## Equal summaries -/

/-- The fields of two summaries agree, except for the count of the regressions. An
    object is compared by its entries, not by their order. -/
structure SameSummary (summary summary' : EvalRunSummary) : Prop where
  rubricVersion : summary.rubricVersion = summary'.rubricVersion
  runId : summary.runId = summary'.runId
  totalCases : summary.totalCases = summary'.totalCases
  passedCases : summary.passedCases = summary'.passedCases
  passRate : summary.passRate = summary'.passRate
  retrievalHitRate : summary.retrievalHitRate = summary'.retrievalHitRate
  evidenceRelevanceRate : summary.evidenceRelevanceRate = summary'.evidenceRelevanceRate
  groundednessRate : summary.groundednessRate = summary'.groundednessRate
  usefulnessRate : summary.usefulnessRate = summary'.usefulnessRate
  refusalCorrectnessRate : summary.refusalCorrectnessRate = summary'.refusalCorrectnessRate
  citationIntegrityRate : summary.citationIntegrityRate = summary'.citationIntegrityRate
  averageLatencyMs : summary.averageLatencyMs = summary'.averageLatencyMs
  averageScore : summary.averageScore = summary'.averageScore
  statusBreakdown : ∀ status,
    summary.statusBreakdown.lookup status = summary'.statusBreakdown.lookup status
  failureReasonCounts : ∀ reason,
    summary.failureReasonCounts.lookup reason = summary'.failureReasonCounts.lookup reason
  categoryBreakdown : ∀ category,
    summary.categoryBreakdown.lookup category = summary'.categoryBreakdown.lookup category
  usageTotals : summary.usageTotals = summary'.usageTotals
  usageAverages : summary.usageAverages = summary'.usageAverages
  metrics : ∀ name, summary.metrics name = summary'.metrics name

/-- What a summary depends on. -/
structure ItemMeasures where
  passed : Bool
  score : ℚ
  latencyMs : Option ℕ
  usage : EvalUsage
  executionStatus : ChatStatus
  failureReasons : List Text
  caseCategory : Text
  applicable : EvalRubricDimensionName → Bool
  dimensionPassed : EvalRubricDimensionName → Bool

/-- The measures of an item. A dimension that is not applicable is not passed. -/
def itemMeasures (item : EvalRunItemSnapshot) : ItemMeasures where
  passed := item.passed
  score := item.score
  latencyMs := item.latencyMs
  usage := item.usage
  executionStatus := item.executionStatus
  failureReasons := item.breakdown.failureReasons
  caseCategory := item.breakdown.caseCategory
  applicable name := (item.breakdown.dimensions name).applicable
  dimensionPassed name := decide ((item.breakdown.dimensions name).passed = some true) &&
    (item.breakdown.dimensions name).applicable

instance : RightCommutative addUsage where
  right_comm acc a b := by
    simp only [addUsage, EvalUsage.mk.injEq]
    exact ⟨add_right_comm _ _ _, add_right_comm _ _ _, add_right_comm _ _ _⟩

instance {α : Type} :
    RightCommutative fun (found : Option ℕ) (value : α) => some (countEntry found value) where
  right_comm _ _ _ := rfl

/-- The rate of a category is computed anew at each step from the counts. -/
instance {α : Type} (passed : α → Bool) :
    RightCommutative fun found value => some (addToCategory found (passed value)) where
  right_comm found a b := by
    cases ha : passed a <;> cases hb : passed b <;> rfl

theorem average_eq_of_perm {values values' : List ℚ} (h : values.Perm values') :
    average values = average values' := by
  have hnil : values = [] ↔ values' = [] := by
    rw [← List.length_eq_zero_iff, ← List.length_eq_zero_iff, h.length_eq]
  simp only [average, hnil, h.sum_eq, h.length_eq]

section Measures

variable {items items' : List EvalRunItemSnapshot}
  (h : (items.map itemMeasures).Perm (items'.map itemMeasures))

include h

theorem map_perm_of_measures {β : Type} (f : ItemMeasures → β) :
    (items.map fun item => f (itemMeasures item)).Perm
      (items'.map fun item => f (itemMeasures item)) := by
  have hmap := h.map f
  rwa [List.map_map, List.map_map] at hmap

theorem length_filter_of_measures (p : ItemMeasures → Bool) :
    (items.filter fun item => p (itemMeasures item)).length =
      (items'.filter fun item => p (itemMeasures item)).length := by
  rw [← List.countP_eq_length_filter, ← List.countP_eq_length_filter]
  have hcount := h.countP_eq p
  rwa [List.countP_map, List.countP_map] at hcount

theorem average_of_measures (f : ItemMeasures → ℚ) :
    average (items.map fun item => f (itemMeasures item)) =
      average (items'.map fun item => f (itemMeasures item)) :=
  average_eq_of_perm (map_perm_of_measures h f)

theorem metricSummary_of_measures (name : EvalRubricDimensionName) :
    metricSummary items name = metricSummary items' name := by
  have happlicable := length_filter_of_measures h fun measures => measures.applicable name
  have hpassed := length_filter_of_measures h fun measures => measures.dimensionPassed name
  simp only [itemMeasures] at happlicable hpassed
  simp only [metricSummary, List.filter_filter, happlicable, hpassed]

theorem lookup_tally_of_measures {ν : Type} (key : ItemMeasures → Text)
    (step : Option ν → ItemMeasures → ν)
    [RightCommutative fun (found : Option ν) measures => some (step found measures)] (k : Text) :
    (tally (fun item => key (itemMeasures item)) (fun found item => step found (itemMeasures item))
        items).lookup k =
      (tally (fun item => key (itemMeasures item)) (fun found item => step found (itemMeasures item))
        items').lookup k := by
  have hlookup : (tally key step (items.map itemMeasures)).lookup k =
      (tally key step (items'.map itemMeasures)).lookup k := lookup_tally_of_perm h k
  rwa [tally_map, tally_map] at hlookup

/-- A summary depends on the measures of the items, and not on their order. -/
theorem sameSummary_of_perm (runId : Id) :
    SameSummary (buildRunSummary runId items) (buildRunSummary runId items') := by
  have hlength : items.length = items'.length := by
    simpa only [List.length_map] using h.length_eq
  have hpassed := length_filter_of_measures h ItemMeasures.passed
  have hlatencies : (items.filterMap EvalRunItemSnapshot.latencyMs).Perm
      (items'.filterMap EvalRunItemSnapshot.latencyMs) := by
    have hmap := h.filterMap ItemMeasures.latencyMs
    rwa [List.filterMap_map, List.filterMap_map] at hmap
  have hreasons : (items.flatMap fun item => item.breakdown.failureReasons).Perm
      (items'.flatMap fun item => item.breakdown.failureReasons) := by
    have hmap := h.flatMap_right ItemMeasures.failureReasons
    rwa [List.flatMap_map, List.flatMap_map] at hmap
  have hrate : ∀ name, (metricSummary items name).rate = (metricSummary items' name).rate :=
    fun name => congrArg _ (metricSummary_of_measures h name)
  exact
    { rubricVersion := rfl
      runId := rfl
      totalCases := hlength
      passedCases := hpassed
      passRate := congrArg₂ rate hpassed hlength
      retrievalHitRate := hrate _
      evidenceRelevanceRate := hrate _
      groundednessRate := hrate _
      usefulnessRate := hrate _
      refusalCorrectnessRate := hrate _
      citationIntegrityRate := hrate _
      averageLatencyMs := congrArg (toFixed 2) (average_eq_of_perm (hlatencies.map _))
      averageScore := congrArg (toFixed 4) (average_of_measures h ItemMeasures.score)
      statusBreakdown := lookup_tally_of_measures h
        (fun measures => statusText measures.executionStatus) countEntry
      failureReasonCounts := lookup_tally_of_perm hreasons
      categoryBreakdown := lookup_tally_of_measures h ItemMeasures.caseCategory
        fun found measures => addToCategory found measures.passed
      usageTotals := (map_perm_of_measures h ItemMeasures.usage).foldl_eq _
      usageAverages := by
        have haverage := fun f : EvalUsage → ℚ => congrArg (toFixed 2)
          (average_of_measures h fun measures => f measures.usage)
        simp only [buildRunSummary, EvalUsage.mk.injEq]
        exact ⟨haverage EvalUsage.inputTokens, haverage EvalUsage.outputTokens,
          haverage EvalUsage.totalTokens⟩
      metrics := metricSummary_of_measures h }

end Measures

end RagStack.Evals
