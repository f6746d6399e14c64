import RagStack.Common.Lists
import RagStack.Evals.Comparison

/-!
# The regressions of an eval run

`buildRunComparison`, `resolvePreviousSummary` and `buildNotableRegressions` of
`services/api/src/evals/eval-reporting.utils.ts` (lines 240–288 and 383–426): what the summary
of a run says of the run before.

* `notableRegressions_law`: the list has the worst ten of the regressions that the summary
  counts, in order, each with a reason that shows.
* `rerun_unchanged`: a run with the outcomes of the stored run before it has changed nothing.
-/

namespace RagStack.Evals

open RagStack.Common RagStack.Api RagStack.Chat
open RagStack.Worker (Text)
open RagStack.Ingest (Id)

/-! ## Notable regressions -/

/-- `EvalCaseRegression`. -/
structure EvalCaseRegression where
  evalCaseId : Id
  question : Text
  category : Option Text
  previousPassed : Bool
  currentPassed : Bool
  previousScore : ℚ
  currentScore : ℚ
  scoreDelta : ℚ
  previousStatus : Option ChatStatus
  currentStatus : ChatStatus
  changedDimensions : List EvalRubricDimensionName
  failureReasons : List Text

/-- The comparison of the sort (lines 419–424): a case that has passed before comes first, then
    the one that has lost more. -/
def compareRegressions : EvalCaseRegression → EvalCaseRegression → Ordering :=
  compareLex (compareOn fun r => !r.previousPassed) (compareOn EvalCaseRegression.scoreDelta)

instance : Std.TransCmp compareRegressions :=
  inferInstanceAs (Std.TransCmp (compareLex _ _))

/-- The later of two items with one id is in the map (line 387). -/
def previousItemOf (previousItems : List StoredEvalItem) (item : EvalRunItemSnapshot) :
    Option StoredEvalItem :=
  previousItems.reverse.find? fun previousItem => previousItem.evalCaseId = item.evalCaseId

section Reading

variable (toNumber : Json → ℚ)

/-- The dimensions that have passed before and fail now (lines 398–402). -/
def changedDimensions (previousItem : StoredEvalItem) (item : EvalRunItemSnapshot) :
    List EvalRubricDimensionName :=
  DIMENSION_NAMES.filter fun dimension =>
    storedDimensionPassed toNumber previousItem dimension &&
      decide ((item.breakdown.dimensions dimension).passed = some false)

/-- An entry of the list (lines 404–417). -/
def caseRegression (item : EvalRunItemSnapshot) (previousItem : StoredEvalItem) :
    EvalCaseRegression where
  evalCaseId := item.evalCaseId
  question := item.question
  category := item.category
  previousPassed := previousItem.passed
  currentPassed := item.passed
  previousScore := toFixed 4 previousItem.score
  currentScore := toFixed 4 item.score
  scoreDelta := toFixed 4 (item.score - previousItem.score)
  previousStatus := extractStoredStatus (some previousItem.retrievedSourcesJson)
  currentStatus := item.executionStatus
  changedDimensions := changedDimensions toNumber previousItem item
  failureReasons := item.breakdown.failureReasons

/-- The entries of the items that are flagged, in the order of the items. -/
def caseRegressions (currentItems : List EvalRunItemSnapshot)
    (previousItems : List StoredEvalItem) : List EvalCaseRegression :=
  (currentItems.filter fun item =>
    shouldFlagRegression toNumber item (previousItemOf previousItems item)).filterMap fun item =>
      (previousItemOf previousItems item).map (caseRegression toNumber item)

/-- `buildNotableRegressions` (lines 383–426). -/
def buildNotableRegressions (currentItems : List EvalRunItemSnapshot)
    (previousItems : List StoredEvalItem) : List EvalCaseRegression :=
  ((caseRegressions toNumber currentItems previousItems).mergeSort fun left right =>
    (compareRegressions left right).isLE).take 10

/-! ## The run before -/

/-- `PreviousRunSnapshot`. -/
structure PreviousRunSnapshot where
  id : Id
  summaryJson : Option Json
  items : List StoredEvalItem

/-- `typeof json === "number"`. -/
def isNumber : Option Json → Bool
  | some (.num _) => true
  | _ => false

/-- `resolvePreviousSummary` (lines 267–288): a summary without its rates is made anew. -/
def resolvePreviousSummary (summaryJson : Option Json) (items : List StoredEvalItem)
    (runId : Id) : Json :=
  match summaryJson.filter fun summary =>
    ["passRate", "retrievalHitRate", "groundednessRate", "refusalCorrectnessRate",
      "citationIntegrityRate"].all fun name => isNumber (property name.toList (some summary)) with
  | some summary => summary
  | none => summaryRecord (buildRunSummary runId (items.map (reconstructItemSnapshot toNumber)))

/-- `EvalRunComparison`. -/
structure RunComparison extends EvalRunComparison where
  notableRegressions : List EvalCaseRegression

/-- `buildRunComparison` (lines 240–265); no comparison is an error. -/
def buildRunComparison (currentSummary : EvalRunSummary) (currentItems : List EvalRunItemSnapshot)
    (previousRun : PreviousRunSnapshot) : Option RunComparison := do
  let previousSummary :=
    resolvePreviousSummary toNumber previousRun.summaryJson previousRun.items previousRun.id
  let comparison ← buildSummaryOnlyComparison toNumber (summaryRecord currentSummary)
    (some previousSummary) (some previousRun.id)
  return { comparison with
    notableRegressions := buildNotableRegressions toNumber currentItems previousRun.items }

end Reading

/-! ## The worst ten -/

section Law

variable {toNumber : Json → ℚ} {previousItems : List StoredEvalItem}

/-- The left one comes first: it alone had passed before, or it has lost at least as much. -/
def EvalCaseRegression.Worse (left right : EvalCaseRegression) : Prop :=
  (left.previousPassed = true ∧ right.previousPassed = false) ∨
    left.previousPassed = right.previousPassed ∧ left.scoreDelta ≤ right.scoreDelta

theorem compareRegressions_isLE_iff {left right : EvalCaseRegression} :
    (compareRegressions left right).isLE = true ↔ left.Worse right := by
  have hpassed : ∀ (p q : Bool) (o : Ordering), ((compare (!p) (!q)).then o).isLE = true ↔
      (p = true ∧ q = false) ∨ p = q ∧ o.isLE = true := by
    intro p q o
    cases p <;> cases q <;> cases o <;> decide
  have hscore : (compareOn EvalCaseRegression.scoreDelta left right).isLE = true ↔
      left.scoreDelta ≤ right.scoreDelta := by
    rw [Ordering.isLE_iff_ne_gt]
    exact compare_le_iff_le
  exact (hpassed _ _ _).trans (by rw [hscore]; rfl)

/-- Why an item is flagged, read off its entry. -/
def EvalCaseRegression.Shown (r : EvalCaseRegression) : Prop :=
  (r.previousPassed = true ∧ r.currentPassed = false) ∨ r.scoreDelta ≤ -(1 / 5) ∨
    r.changedDimensions ≠ []

theorem toFixed_neg_le {value bound : ℚ} (hbound : 0 < bound) (h : value ≤ -bound) :
    toFixed 4 value ≤ -toFixed 4 bound := by
  have hneg : value < 0 := by linarith
  have hmono : toFixed 4 bound ≤ toFixed 4 (-value) := toFixed_mono 4 hbound.le (by linarith)
  have hflip : toFixed 4 (-value) = scaleFixed 4 (-value) / 10 ^ 4 := if_neg (by linarith)
  rw [toFixed, if_pos hneg, ← hflip]
  linarith

/-- A flagged item has an entry that shows why. -/
theorem shown_caseRegression {item : EvalRunItemSnapshot} {previousItem : StoredEvalItem}
    (h : shouldFlagRegression toNumber item (some previousItem) = true) :
    (caseRegression toNumber item previousItem).Shown := by
  simp only [shouldFlagRegression, Bool.or_eq_true, Bool.and_eq_true, Bool.not_eq_true',
    decide_eq_true_eq, List.any_eq_true] at h
  rcases h with (hlost | hscore) | ⟨dimension, -, hdimension⟩
  · exact Or.inl hlost
  · refine Or.inr (Or.inl ?_)
    have hfifth : toFixed 4 (1 / 5) = 1 / 5 := by
      have hunits : toFixed 4 ((2000 : ℤ) / 10 ^ 4) = (2000 : ℤ) / 10 ^ 4 :=
        toFixed_intCast_div 4 2000
      norm_num at hunits ⊢
      exact hunits
    have hdelta : toFixed 4 (item.score - previousItem.score) ≤ -toFixed 4 (1 / 5) :=
      toFixed_neg_le (by norm_num) (by linarith)
    rwa [hfifth] at hdelta
  · refine Or.inr (Or.inr (List.ne_nil_of_mem (a := dimension) ?_))
    refine List.mem_filter.mpr ⟨by cases dimension <;> decide, ?_⟩
    rw [Bool.and_eq_true, decide_eq_true_eq]
    exact hdimension

/-- What is listed of the regressions that are counted. -/
structure ListsWorst (count : ℕ) (all listed : List EvalCaseRegression) : Prop where
  counted : all.length = count
  length : listed.length = min 10 count
  worst : ∃ omitted, (listed ++ omitted).Perm all ∧
    ∀ r ∈ listed, ∀ r' ∈ omitted, r.Worse r'
  sorted : listed.Pairwise EvalCaseRegression.Worse
  shown : ∀ r ∈ all, r.Shown

theorem length_caseRegressions (currentItems : List EvalRunItemSnapshot) :
    (caseRegressions toNumber currentItems previousItems).length =
      (currentItems.filter fun item =>
        shouldFlagRegression toNumber item (previousItemOf previousItems item)).length := by
  unfold caseRegressions
  rw [List.length_filterMap_eq_countP, List.countP_eq_length.mpr]
  intro item hitem
  have hflag := (List.mem_filter.mp hitem).2
  cases hprevious : previousItemOf previousItems item with
  | none => rw [hprevious] at hflag; cases hflag
  | some previousItem => rfl

/-- The entries are those of the items that are flagged. -/
theorem shown_of_mem_caseRegressions {currentItems : List EvalRunItemSnapshot}
    {r : EvalCaseRegression} (h : r ∈ caseRegressions toNumber currentItems previousItems) :
    r.Shown := by
  obtain ⟨item, hitem, hr⟩ := List.mem_filterMap.mp h
  obtain ⟨previousItem, hprevious, rfl⟩ := Option.map_eq_some_iff.mp hr
  have hflag := (List.mem_filter.mp hitem).2
  rw [hprevious] at hflag
  exact shown_caseRegression hflag

/-- The flag of an item is the one that the comparison computes again. -/
theorem regressionFlag_itemSnapshot (scored : ScoredCase) :
    (itemSnapshot toNumber previousItems scored).regressionFlag =
      shouldFlagRegression toNumber (itemSnapshot toNumber previousItems scored)
        (previousItemOf previousItems (itemSnapshot toNumber previousItems scored)) := by
  unfold itemSnapshot shouldFlagRegression
  rfl

/-- The list has the worst ten of the regressions that the summary of the run counts. -/
theorem notableRegressions_law (toNumber : Json → ℚ) (runId : Id) (scored : List ScoredCase)
    (previousRun : PreviousRunSnapshot) :
    let items := scored.map (itemSnapshot toNumber previousRun.items)
    let summary := buildRunSummary runId items
    ∃ comparison, buildRunComparison toNumber summary items previousRun = some comparison ∧
      ListsWorst summary.regressionCount (caseRegressions toNumber items previousRun.items)
        comparison.notableRegressions := by
  intro items summary
  refine ⟨_, rfl, ?_⟩
  generalize hall : caseRegressions toNumber items previousRun.items = all
  have hcount : all.length = summary.regressionCount := by
    rw [← hall, length_caseRegressions]
    refine congrArg List.length (List.filter_congr fun item hitem => ?_)
    obtain ⟨scoredCase, -, rfl⟩ := List.mem_map.mp hitem
    exact (regressionFlag_itemSnapshot scoredCase).symm
  have hsorted : (all.mergeSort fun left right => (compareRegressions left right).isLE).Pairwise
      fun left right => (compareRegressions left right).isLE = true := pairwise_mergeSort_isLE all
  have hperm := List.mergeSort_perm all fun left right => (compareRegressions left right).isLE
  have hlisted : buildNotableRegressions toNumber items previousRun.items =
      (all.mergeSort fun left right => (compareRegressions left right).isLE).take 10 := by
    rw [buildNotableRegressions, hall]
  generalize all.mergeSort (fun left right => (compareRegressions left right).isLE) = ranked
    at hsorted hperm hlisted
  have hworse : ranked.Pairwise EvalCaseRegression.Worse :=
    hsorted.imp compareRegressions_isLE_iff.mp
  simp only [hlisted]
  exact
    { counted := hcount
      length := by rw [List.length_take, hperm.length_eq, hcount]
      worst := by
        refine ⟨ranked.drop 10, by rwa [List.take_append_drop], ?_⟩
        rw [← List.take_append_drop 10 ranked] at hworse
        exact (List.pairwise_append.mp hworse).2.2
      sorted := hworse.sublist (List.take_sublist _ _)
      shown := fun r hr => shown_of_mem_caseRegressions (hall ▸ hr) }

end Law

/-! ## A run with the same outcomes -/

section Rerun

variable {toNumber : Json → ℚ} {items items' : List EvalRunItemSnapshot}

theorem threshold_pos (value : ℚ) {least : ℤ} (hleast : 0 < least) :
    0 < toFixed 4 (max (least / 10 ^ 4) value) := by
  have hpos : (0 : ℚ) < least / 10 ^ 4 := by positivity
  calc (0 : ℚ) < least / 10 ^ 4 := hpos
    _ = toFixed 4 (least / 10 ^ 4) := (toFixed_intCast_div 4 least).symm
    _ ≤ toFixed 4 (max (least / 10 ^ 4) value) := toFixed_mono 4 hpos.le (le_max_left _ _)

theorem meaningfulRateThreshold_pos (current previous : ℚ) :
    0 < meaningfulRateThreshold current previous := by
  have hunits : (1 / 20 : ℚ) = (500 : ℤ) / 10 ^ 4 := by norm_num
  rw [meaningfulRateThreshold, hunits]
  exact threshold_pos _ (by norm_num)

theorem meaningfulLatencyThreshold_pos (previous : ℚ) : 0 < meaningfulLatencyThreshold previous := by
  have hunits : (250 : ℚ) = (2500000 : ℤ) / 10 ^ 4 := by norm_num
  rw [meaningfulLatencyThreshold, hunits]
  exact threshold_pos _ (by norm_num)

/-- Nothing changes materially where nothing changes. -/
theorem buildMeaningfulChanges_eq_nil {comparison : EvalRunComparison}
    {rateThreshold latencyThreshold : ℚ} (hrate : 0 < rateThreshold) (hlatency : 0 < latencyThreshold)
    (hrates : comparison.passRateDelta = 0 ∧ comparison.retrievalHitRateDelta = 0 ∧
      comparison.groundednessRateDelta = 0 ∧ comparison.refusalCorrectnessRateDelta = 0 ∧
      comparison.citationIntegrityRateDelta = 0 ∧ comparison.averageScoreDelta = 0)
    (hlatencyDelta : comparison.averageLatencyDeltaMs = 0) :
    buildMeaningfulChanges comparison rateThreshold latencyThreshold = [] := by
  have hskip (changes : List EvalMeaningfulChange) (metric : ComparedMetric) :
      pushRateChange changes metric 0 rateThreshold = changes := if_pos (by rwa [abs_zero])
  obtain ⟨h₁, h₂, h₃, h₄, h₅, h₆⟩ := hrates
  simp only [buildMeaningfulChanges, h₁, h₂, h₃, h₄, h₅, h₆, hskip, hlatencyDelta]
  exact if_neg (by rw [abs_zero]; exact not_le.mpr hlatency)

/-- Summaries of the same measures differ by their counts of regressions alone. -/
theorem buildSummaryOnlyComparison_of_measures
    (h : (items.map itemMeasures).Perm (items'.map itemMeasures)) (runId previousRunId : Id) :
    buildSummaryOnlyComparison toNumber (summaryRecord (buildRunSummary runId items))
      (some (summaryRecord (buildRunSummary previousRunId items'))) (some previousRunId) =
    some
      { previousRunId := previousRunId, passRateDelta := 0, retrievalHitRateDelta := 0
        groundednessRateDelta := 0, refusalCorrectnessRateDelta := 0
        citationIntegrityRateDelta := 0, averageLatencyDeltaMs := 0, averageScoreDelta := 0
        regressionCountDelta := toFixed 4 ((buildRunSummary runId items).regressionCount -
          (buildRunSummary previousRunId items').regressionCount) } := by
  have hsame := sameSummary_of_perm h previousRunId
  have hdelta {current previous : ℚ} (hvalue : current = previous) :
      toFixed 4 (current - previous) = 0 := by
    rw [hvalue, sub_self, toFixed_of_nonneg 4 le_rfl, zero_mul, round_zero, Int.cast_zero, zero_div]
  have hpass := hdelta hsame.passRate
  have hretrieval := hdelta hsame.retrievalHitRate
  have hgrounded := hdelta hsame.groundednessRate
  have hrefusal := hdelta hsame.refusalCorrectnessRate
  have hcitation := hdelta hsame.citationIntegrityRate
  have hlatency := hdelta hsame.averageLatencyMs
  have hscore := hdelta hsame.averageScore
  refine congrArg some ?_
  rw [buildMeaningfulChanges_eq_nil (meaningfulRateThreshold_pos _ _)
    (meaningfulLatencyThreshold_pos _) ⟨hpass, hretrieval, hgrounded, hrefusal, hcitation, hscore⟩
    hlatency]
  rw [EvalRunComparison.mk.injEq]
  exact ⟨rfl, hpass, hretrieval, hgrounded, hrefusal, hcitation, hlatency, hscore, rfl, rfl⟩

section Outcomes

variable {uni : EcmaUnicode} {citationLimit : ℕ} {debug : DebugJson} {runs : List CaseRun}
  {previousItems : List StoredEvalItem}

theorem evalCase_scoreRun (run : CaseRun) :
    (scoreRun uni citationLimit run).evalCase = run.evalCase := by
  unfold scoreRun
  simp only
  split
  · rfl
  · split <;> rfl

/-- A case whose stored item is the one before has not regressed. -/
theorem shouldFlagRegression_storedItem {item : EvalRunItemSnapshot} {scored : ScoredCase}
    (hpassed : item.passed = scored.scoreResult.passed)
    (hscore : item.score = scored.scoreResult.score) (hbreakdown : item.breakdown = scored.scoreResult) :
    shouldFlagRegression toNumber item (some (storedItem debug scored)) = false := by
  have hdimension (dimension : EvalRubricDimensionName) :
      (storedDimensionPassed toNumber (storedItem debug scored) dimension &&
        decide ((item.breakdown.dimensions dimension).passed = some false)) = false := by
    rw [hbreakdown]
    by_cases hfails : (scored.scoreResult.dimensions dimension).passed = some false
    · rw [storedDimensionPassed_storedItem hfails, Bool.false_and]
    · rw [decide_eq_false hfails, Bool.and_false]
  have hlost : ((storedItem debug scored).passed && !item.passed) = false := by
    rw [hpassed]
    exact Bool.and_not_self _
  have hsame : (storedItem debug scored).score - item.score = 0 := by
    rw [hscore]
    exact sub_self _
  simp only [shouldFlagRegression, hlost, hsame, hdimension, Bool.false_or, Bool.or_eq_false_iff,
    decide_eq_false_iff_not, List.any_eq_false]
  exact ⟨by norm_num, fun _ _ => Bool.false_ne_true⟩

section Stored

variable (hcases : (runs.map fun run => run.evalCase.id).Nodup)
  (hitems : previousItems.Perm
    (runs.map fun run => storedItem debug (scoreRun uni citationLimit run)))

include hcases hitems

/-- The item before is found by the id of the case. -/
theorem previousItemOf_rerun {run : CaseRun} (hrun : run ∈ runs) {item : EvalRunItemSnapshot}
    (hid : item.evalCaseId = run.evalCase.id) :
    previousItemOf previousItems item =
      some (storedItem debug (scoreRun uni citationLimit run)) := by
  have hkey (run : CaseRun) :
      (storedItem debug (scoreRun uni citationLimit run)).evalCaseId = run.evalCase.id := by
    rw [storedItem, evalCase_scoreRun]
  have hmem : storedItem debug (scoreRun uni citationLimit run) ∈ previousItems :=
    hitems.mem_iff.mpr (List.mem_map_of_mem hrun)
  unfold previousItemOf
  cases hfound : previousItems.reverse.find? fun found => found.evalCaseId = item.evalCaseId with
  | none =>
    have hnone := List.find?_eq_none.mp hfound _ (List.mem_reverse.mpr hmem)
    exact absurd (decide_eq_true ((hkey run).trans hid.symm)) hnone
  | some found =>
    have hfoundId : found.evalCaseId = item.evalCaseId := by simpa using List.find?_some hfound
    have hfoundMem := List.mem_reverse.mp (List.mem_of_find?_eq_some hfound)
    obtain ⟨run', hrun', rfl⟩ := List.mem_map.mp (hitems.mem_iff.mp hfoundMem)
    rw [hkey, hid] at hfoundId
    rw [List.inj_on_of_nodup_map hcases hrun' hrun hfoundId]

theorem regressionFlag_rerun {run : CaseRun} (hrun : run ∈ runs) :
    (itemSnapshot toNumber previousItems (scoreRun uni citationLimit run)).regressionFlag =
      false := by
  have hid : (itemSnapshot toNumber previousItems (scoreRun uni citationLimit run)).evalCaseId =
      run.evalCase.id := congrArg EvalCase.id (evalCase_scoreRun run)
  rw [regressionFlag_itemSnapshot, previousItemOf_rerun hcases hitems hrun hid]
  exact shouldFlagRegression_storedItem rfl rfl rfl

end Stored

/-- A run with the cases and the outcomes of the stored run before it has changed nothing, whether
    the summary of that run is stored or is made of its items. -/
theorem rerun_unchanged (toNumber : Json → ℚ) (debug : DebugJson) (runId : Id)
    (runs : List CaseRun) (previousRun : PreviousRunSnapshot)
    (hcases : (runs.map fun run => run.evalCase.id).Nodup)
    (hitems : previousRun.items.Perm
      (runs.map fun run => storedItem debug (scoreRun uni citationLimit run)))
    (hsummary : previousRun.summaryJson = none ∨
      ∃ earlier, previousRun.summaryJson = some (summaryRecord (buildRunSummary previousRun.id
        (runs.map fun run => itemSnapshot toNumber earlier (scoreRun uni citationLimit run))))) :
    let items := runs.map fun run =>
      itemSnapshot toNumber previousRun.items (scoreRun uni citationLimit run)
    ∃ fewer : ℕ, buildRunComparison toNumber (buildRunSummary runId items) items previousRun =
      some
        { previousRunId := previousRun.id, passRateDelta := 0, retrievalHitRateDelta := 0
          groundednessRateDelta := 0, refusalCorrectnessRateDelta := 0
          citationIntegrityRateDelta := 0, averageLatencyDeltaMs := 0, averageScoreDelta := 0
          regressionCountDelta := -fewer, meaningfulChanges := [], notableRegressions := [] } := by
  intro items
  have hflags : ∀ item ∈ items, item.regressionFlag = false := by
    intro item hitem
    obtain ⟨run, hrun, rfl⟩ := List.mem_map.mp hitem
    exact regressionFlag_rerun hcases hitems hrun
  -- the summary of the run before is of items with the same measures
  obtain ⟨previous, hmeasures, hresolved⟩ : ∃ previous : List EvalRunItemSnapshot,
      (items.map itemMeasures).Perm (previous.map itemMeasures) ∧
      resolvePreviousSummary toNumber previousRun.summaryJson previousRun.items previousRun.id =
        summaryRecord (buildRunSummary previousRun.id previous) := by
    rcases hsummary with hnone | ⟨earlier, hstored⟩
    · refine ⟨previousRun.items.map (reconstructItemSnapshot toNumber), ?_, by rw [hnone]; rfl⟩
      rw [List.map_map, List.map_map]
      refine List.Perm.trans (List.Perm.of_eq ?_) (hitems.map _).symm
      rw [List.map_map]
      refine List.map_congr_left fun run _ => ?_
      exact (itemMeasures_reconstructItemSnapshot _ (wellFormed_scoreRun run)).symm
    · refine ⟨_, List.Perm.of_eq ?_, by rw [hstored]; rfl⟩
      rw [List.map_map, List.map_map]
      rfl
  have hcount : (buildRunSummary runId items).regressionCount = 0 := by
    refine List.length_eq_zero_iff.mpr (List.filter_eq_nil_iff.mpr fun item hitem => ?_)
    rw [hflags item hitem]
    exact Bool.false_ne_true
  have hregressions : buildNotableRegressions toNumber items previousRun.items = [] := by
    have hnil : caseRegressions toNumber items previousRun.items = [] := by
      rw [← List.length_eq_zero_iff, length_caseRegressions]
      refine List.length_eq_zero_iff.mpr (List.filter_eq_nil_iff.mpr fun item hitem => ?_)
      obtain ⟨run, -, rfl⟩ := List.mem_map.mp hitem
      rw [← regressionFlag_itemSnapshot, hflags _ hitem]
      exact Bool.false_ne_true
    rw [buildNotableRegressions, hnil, List.mergeSort_nil, List.take_nil]
  refine ⟨(buildRunSummary previousRun.id previous).regressionCount, ?_⟩
  generalize hfewer : (buildRunSummary previousRun.id previous).regressionCount = fewer
  have hdelta : toFixed 4 ((0 : ℕ) - (fewer : ℚ)) = -fewer := by
    have hunits : (0 : ℕ) - (fewer : ℚ) = (-(fewer * 10 ^ 4 : ℤ) : ℤ) / 10 ^ 4 := by
      push_cast
      ring
    rw [hunits, toFixed_intCast_div, ← hunits]
    ring
  have hcomparison : buildSummaryOnlyComparison toNumber _ _ _ = _ :=
    buildSummaryOnlyComparison_of_measures hmeasures runId previousRun.id
  rw [hcount, hfewer, hdelta] at hcomparison
  simp only [buildRunComparison, hresolved, hcomparison, hregressions]
  rfl

end Outcomes

/-- The two cases are run again. -/
theorem rerun_unchanged_guide :
    let items := guideRuns.map fun run => itemSnapshot (fun _ => 0) guideItems (scoreRun .ascii 3 run)
    ∃ fewer : ℕ, buildRunComparison (fun _ => 0) (buildRunSummary 2 items) items
        { id := 1, summaryJson := none, items := guideItems } =
      some
        { previousRunId := 1, passRateDelta := 0, retrievalHitRateDelta := 0
          groundednessRateDelta := 0, refusalCorrectnessRateDelta := 0
          citationIntegrityRateDelta := 0, averageLatencyDeltaMs := 0, averageScoreDelta := 0
          regressionCountDelta := -fewer, meaningfulChanges := [], notableRegressions := [] } :=
  rerun_unchanged (fun _ => 0) ⟨fun _ => .null, fun _ => .null⟩ 2 guideRuns
    { id := 1, summaryJson := none, items := guideItems } (by decide) (List.reverse_perm _)
    (Or.inl rfl)

end Rerun

end RagStack.Evals
