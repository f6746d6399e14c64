import RagStack.Common.Rounding
import RagStack.Evals.StoredItems

/-!
# The comparison of two eval runs

`buildSummaryOnlyComparison` and `buildMeaningfulChanges` of
`services/api/src/evals/eval-reporting.utils.ts` (lines 157–214 and 428–508).

* `reportsPassRate_iff`: the pass rates that are compared at the threshold of
  `docs/architecture/evals.md` (lines 237–245): all but those that rounding to four
  decimals moves across it.
-/

namespace RagStack.Evals

open RagStack.Common RagStack.Api
open RagStack.Worker (Text)
open RagStack.Ingest (Id)

/-! ## Comparisons -/

/-- `EvalMeaningfulChange["metric"]`. -/
inductive ComparedMetric
  | passRate | retrievalHitRate | groundednessRate | refusalCorrectnessRate
  | citationIntegrityRate | averageLatencyMs | averageScore
deriving DecidableEq, Repr

/-- The string of a metric. -/
def ComparedMetric.name : ComparedMetric → Text
  | .passRate => "pass_rate".toList
  | .retrievalHitRate => "retrieval_hit_rate".toList
  | .groundednessRate => "groundedness_rate".toList
  | .refusalCorrectnessRate => "refusal_correctness_rate".toList
  | .citationIntegrityRate => "citation_integrity_rate".toList
  | .averageLatencyMs => "average_latency_ms".toList
  | .averageScore => "average_score".toList

/-- `EvalMeaningfulChange["direction"]`. -/
inductive ChangeDirection
  | improved | regressed
deriving DecidableEq, Repr

/-- `EvalMeaningfulChange`. -/
structure EvalMeaningfulChange where
  metric : ComparedMetric
  direction : ChangeDirection
  delta : ℚ
  threshold : ℚ
  note : Text
deriving DecidableEq, Repr

/-- `EvalRunComparison` without `notableRegressions`, which are empty here. -/
structure EvalRunComparison where
  previousRunId : Id
  passRateDelta : ℚ
  retrievalHitRateDelta : ℚ
  groundednessRateDelta : ℚ
  refusalCorrectnessRateDelta : ℚ
  citationIntegrityRateDelta : ℚ
  averageLatencyDeltaMs : ℚ
  averageScoreDelta : ℚ
  regressionCountDelta : ℚ
  meaningfulChanges : List EvalMeaningfulChange := []
deriving DecidableEq, Repr

/-- `meaningfulRateThreshold` (lines 645–647). -/
def meaningfulRateThreshold (currentTotalCases previousTotalCases : ℚ) : ℚ :=
  toFixed 4 (max (1 / 20) (1 / max (max currentTotalCases previousTotalCases) 1))

/-- `meaningfulLatencyThreshold` (lines 649–651). -/
def meaningfulLatencyThreshold (previousAverageLatencyMs : ℚ) : ℚ :=
  toFixed 4 (max 250 (previousAverageLatencyMs * (1 / 5)))

/-- `delta` (lines 677–679). -/
def delta (toNumber : Json → ℚ) (current previous : Option Json) : ℚ :=
  toFixed 4 (numberValue toNumber current - numberValue toNumber previous)

/-- What `pushRateChange` pushes. -/
def rateChange (metric : ComparedMetric) (value threshold : ℚ) : EvalMeaningfulChange where
  metric := metric
  direction := if 0 < value then .improved else .regressed
  delta := toFixed 4 value
  threshold := toFixed 4 threshold
  note := metric.name ++
    (if 0 < value then " improved materially." else " regressed materially.").toList

/-- `pushRateChange` (lines 488–508). -/
def pushRateChange (changes : List EvalMeaningfulChange) (metric : ComparedMetric)
    (value threshold : ℚ) : List EvalMeaningfulChange :=
  if |value| < threshold then changes else changes ++ [rateChange metric value threshold]

/-- The change of the latency (lines 473–483): less is better. -/
def latencyChange (value threshold : ℚ) : EvalMeaningfulChange where
  metric := .averageLatencyMs
  direction := if value < 0 then .improved else .regressed
  delta := toFixed 4 value
  threshold := toFixed 4 threshold
  note :=
    (if value < 0 then "Average latency dropped materially."
    else "Average latency increased materially.").toList

/-- `buildMeaningfulChanges` (lines 428–486). -/
def buildMeaningfulChanges (comparison : EvalRunComparison) (rateThreshold latencyThreshold : ℚ) :
    List EvalMeaningfulChange :=
  let changes := pushRateChange [] .passRate comparison.passRateDelta rateThreshold
  let changes := pushRateChange changes .retrievalHitRate comparison.retrievalHitRateDelta
    rateThreshold
  let changes := pushRateChange changes .groundednessRate comparison.groundednessRateDelta
    rateThreshold
  let changes := pushRateChange changes .refusalCorrectnessRate
    comparison.refusalCorrectnessRateDelta rateThreshold
  let changes := pushRateChange changes .citationIntegrityRate
    comparison.citationIntegrityRateDelta rateThreshold
  let changes := pushRateChange changes .averageScore comparison.averageScoreDelta rateThreshold
  if latencyThreshold ≤ |comparison.averageLatencyDeltaMs| then
    changes ++ [latencyChange comparison.averageLatencyDeltaMs latencyThreshold]
  else changes

/-- `buildSummaryOnlyComparison` (lines 157–214). -/
def buildSummaryOnlyComparison (toNumber : Json → ℚ) (currentSummary : Json)
    (previousSummary : Option Json) (previousRunId : Option Id) : Option EvalRunComparison := do
  let previousSummary ← previousSummary
  let previousRunId ← previousRunId
  let current := fun name : String => property name.toList (some currentSummary)
  let previous := fun name : String => property name.toList (some previousSummary)
  let previousTotalCases := numberValue toNumber (previous "totalCases")
  let currentTotalCases := numberValue toNumber (current "totalCases")
  let rateThreshold := meaningfulRateThreshold currentTotalCases previousTotalCases
  let previousLatency := numberValue toNumber (previous "averageLatencyMs")
  let latencyThreshold := meaningfulLatencyThreshold previousLatency
  let deltaOf := fun name : String => delta toNumber (current name) (previous name)
  let comparison : EvalRunComparison :=
    { previousRunId := previousRunId
      passRateDelta := deltaOf "passRate"
      retrievalHitRateDelta := deltaOf "retrievalHitRate"
      groundednessRateDelta := deltaOf "groundednessRate"
      refusalCorrectnessRateDelta := deltaOf "refusalCorrectnessRate"
      citationIntegrityRateDelta := deltaOf "citationIntegrityRate"
      averageLatencyDeltaMs := deltaOf "averageLatencyMs"
      averageScoreDelta := deltaOf "averageScore"
      regressionCountDelta := deltaOf "regressionCount" }
  return { comparison with
    meaningfulChanges := buildMeaningfulChanges comparison rateThreshold latencyThreshold }

/-- The numbers of a summary, as the object that they are stored in. -/
def summaryRecord (summary : EvalRunSummary) : Json := .obj
  [("totalCases".toList, .num summary.totalCases),
    ("passedCases".toList, .num summary.passedCases),
    ("passRate".toList, .num summary.passRate),
    ("retrievalHitRate".toList, .num summary.retrievalHitRate),
    ("evidenceRelevanceRate".toList, .num summary.evidenceRelevanceRate),
    ("groundednessRate".toList, .num summary.groundednessRate),
    ("usefulnessRate".toList, .num summary.usefulnessRate),
    ("refusalCorrectnessRate".toList, .num summary.refusalCorrectnessRate),
    ("citationIntegrityRate".toList, .num summary.citationIntegrityRate),
    ("averageLatencyMs".toList, .num summary.averageLatencyMs),
    ("averageScore".toList, .num summary.averageScore),
    ("regressionCount".toList, .num summary.regressionCount)]

/-! ## The changes that are listed -/

variable {changes : List EvalMeaningfulChange} {change : EvalMeaningfulChange}

theorem mem_pushRateChange {metric : ComparedMetric} {value threshold : ℚ} :
    change ∈ pushRateChange changes metric value threshold ↔
      change ∈ changes ∨ (threshold ≤ |value| ∧ change = rateChange metric value threshold) := by
  unfold pushRateChange
  split_ifs with hbelow
  · simp [not_le.mpr hbelow]
  · simp [not_lt.mp hbelow]

/-- The delta that is compared at the threshold of the rates. -/
def EvalRunComparison.rateDelta (comparison : EvalRunComparison) : ComparedMetric → Option ℚ
  | .passRate => some comparison.passRateDelta
  | .retrievalHitRate => some comparison.retrievalHitRateDelta
  | .groundednessRate => some comparison.groundednessRateDelta
  | .refusalCorrectnessRate => some comparison.refusalCorrectnessRateDelta
  | .citationIntegrityRate => some comparison.citationIntegrityRateDelta
  | .averageLatencyMs => none
  | .averageScore => some comparison.averageScoreDelta

/-- A change of a rate is listed exactly when its delta reaches the threshold. -/
theorem mem_buildMeaningfulChanges {comparison : EvalRunComparison} {metric : ComparedMetric}
    {value : ℚ} (h : comparison.rateDelta metric = some value)
    (rateThreshold latencyThreshold : ℚ) :
    (change ∈ buildMeaningfulChanges comparison rateThreshold latencyThreshold ∧
      change.metric = metric) ↔
    rateThreshold ≤ |value| ∧ change = rateChange metric value rateThreshold := by
  have hlatency : ∀ changes : List EvalMeaningfulChange,
      (change ∈ (if latencyThreshold ≤ |comparison.averageLatencyDeltaMs| then
          changes ++ [latencyChange comparison.averageLatencyDeltaMs latencyThreshold]
        else changes) ∧ change.metric = metric) ↔ change ∈ changes ∧ change.metric = metric := by
    intro changes
    have hother : change.metric = metric →
        change ≠ latencyChange comparison.averageLatencyDeltaMs latencyThreshold := by
      rintro rfl rfl
      cases h
    split_ifs
    · simp only [List.mem_append, List.mem_singleton]
      exact ⟨fun hmem => ⟨hmem.1.resolve_right (hother hmem.2), hmem.2⟩,
        fun hmem => ⟨Or.inl hmem.1, hmem.2⟩⟩
    · exact Iff.rfl
  unfold buildMeaningfulChanges
  rw [hlatency]
  simp only [mem_pushRateChange, List.not_mem_nil, false_or]
  constructor
  · rintro ⟨hmem, rfl⟩
    rcases hmem with ((((h' | h') | h') | h') | h') | h' <;>
      obtain ⟨hreach, hchange⟩ := h' <;> rw [hchange] at h ⊢ <;>
      exact ⟨(Option.some.inj h) ▸ hreach, by rw [← Option.some.inj h]; rfl⟩
  · rintro ⟨hreach, rfl⟩
    cases metric <;> cases h <;> simp [hreach, rateChange]

/-! ## Four decimals -/

/-- A number in units of the fourth decimal. -/
def scaled (value : ℚ) : ℚ := value * 10 ^ 4

theorem scaled_le_scaled_iff {low high : ℚ} : scaled low ≤ scaled high ↔ low ≤ high :=
  mul_le_mul_iff_of_pos_right (by norm_num)

theorem scaled_max_sub_min (current previous : ℚ) :
    scaled (max current previous) - scaled (min current previous) =
      scaled |current - previous| := by
  rw [scaled, scaled, ← sub_mul, max_sub_min_eq_abs, abs_sub_comm]
  rfl

theorem toFixed_eq_scaled {value : ℚ} (h : 0 ≤ value) :
    toFixed 4 value = round (scaled value) / 10 ^ 4 :=
  toFixed_of_nonneg 4 h

/-- The comparison of two rounded rates is a comparison of integers. -/
theorem le_abs_toFixed_sub_iff {current previous threshold : ℚ} (hcurrent : 0 ≤ current)
    (hprevious : 0 ≤ previous) (hthreshold : 0 ≤ threshold) :
    toFixed 4 threshold ≤ |toFixed 4 (toFixed 4 current - toFixed 4 previous)| ↔
      round (scaled (min current previous)) + round (scaled threshold) ≤
        round (scaled (max current previous)) := by
  have hround : Monotone fun value => round (scaled value) := fun _ _ h =>
    round_mono (scaled_le_scaled_iff.mpr h)
  rw [toFixed_eq_scaled hcurrent, toFixed_eq_scaled hprevious, toFixed_eq_scaled hthreshold,
    ← sub_div, ← Int.cast_sub, toFixed_intCast_div, abs_div, ← Int.cast_abs,
    abs_of_pos (by norm_num : (0 : ℚ) < 10 ^ 4), div_le_div_iff_of_pos_right (by norm_num),
    Int.cast_le, ← max_sub_min_eq_abs, ← hround.map_max, ← hround.map_min, max_comm, min_comm]
  exact le_sub_iff_add_le'

/-- A difference of rounded rates has the sign of the difference of the rates. -/
theorem toFixed_sub_pos_iff {current previous : ℚ} (hcurrent : 0 ≤ current)
    (hprevious : 0 ≤ previous)
    (hne : 0 < |toFixed 4 (toFixed 4 current - toFixed 4 previous)|) :
    0 < toFixed 4 (toFixed 4 current - toFixed 4 previous) ↔ previous < current := by
  rw [toFixed_eq_scaled hcurrent, toFixed_eq_scaled hprevious, ← sub_div, ← Int.cast_sub,
    toFixed_intCast_div] at hne ⊢
  have hdiffer : round (scaled current) - round (scaled previous) ≠ 0 := by
    intro hzero
    rw [hzero] at hne
    simp at hne
  rw [div_pos_iff_of_pos_right (by norm_num), Int.cast_pos]
  constructor
  · intro hpos
    refine lt_of_not_ge fun hle => ?_
    have := round_mono (scaled_le_scaled_iff.mpr hle)
    omega
  · intro hlt
    have := round_mono (scaled_le_scaled_iff.mpr hlt.le)
    omega

/-! ## The rates of two runs -/

/-- The share of the cases that pass. -/
def passRatio (items : List EvalRunItemSnapshot) : ℚ :=
  (items.filter EvalRunItemSnapshot.passed).length / items.length

/-- `max(0.05, 1 / max(case_count_current, case_count_previous))`. -/
def documentedThreshold (items previousItems : List EvalRunItemSnapshot) : ℚ :=
  max (1 / 20) (1 / max items.length previousItems.length)

/-- The comparison of the summaries of two runs. -/
def compareRuns (toNumber : Json → ℚ) (runId previousRunId : Id)
    (items previousItems : List EvalRunItemSnapshot) : Option EvalRunComparison :=
  buildSummaryOnlyComparison toNumber (summaryRecord (buildRunSummary runId items))
    (some (summaryRecord (buildRunSummary previousRunId previousItems))) (some previousRunId)

/-- A change of the pass rate is listed when the shares differ by the documented
    threshold, with the right direction. -/
structure ReportsPassRate (items previousItems : List EvalRunItemSnapshot)
    (changes : List EvalMeaningfulChange) : Prop where
  listed : (∃ change ∈ changes, change.metric = .passRate) ↔
    documentedThreshold items previousItems ≤ |passRatio items - passRatio previousItems|
  direction : ∀ change ∈ changes, change.metric = .passRate →
    change.direction =
      if passRatio previousItems < passRatio items then .improved else .regressed

variable {items previousItems : List EvalRunItemSnapshot}

theorem passRatio_nonneg (items : List EvalRunItemSnapshot) : 0 ≤ passRatio items := by
  unfold passRatio
  positivity

theorem documentedThreshold_pos (items previousItems : List EvalRunItemSnapshot) :
    0 < documentedThreshold items previousItems :=
  lt_max_of_lt_left (by norm_num)

/-- A threshold of 500 units or more is not rounded to nothing. -/
theorem toFixed_documentedThreshold_pos (items previousItems : List EvalRunItemSnapshot) :
    0 < toFixed 4 (documentedThreshold items previousItems) := by
  have hunits : (500 : ℚ) ≤ scaled (documentedThreshold items previousItems) := by
    have hle : scaled (1 / 20) ≤ scaled (documentedThreshold items previousItems) :=
      scaled_le_scaled_iff.mpr (le_max_left _ _)
    norm_num [scaled] at hle ⊢
    exact hle
  have hround : (500 : ℤ) ≤ round (scaled (documentedThreshold items previousItems)) := by
    have hmono := round_mono hunits
    rwa [round_ofNat] at hmono
  rw [toFixed_eq_scaled (documentedThreshold_pos items previousItems).le]
  have hcast : (0 : ℚ) < round (scaled (documentedThreshold items previousItems)) :=
    Int.cast_pos.mpr (by omega)
  positivity

/-- Two fractions with denominators below 20 whose difference is not `1 / max N M` are
    at least `1 / 361` away from it. -/
theorem abs_sub_inv_max_ge {N M : ℕ} (p q : ℕ) (hN : 0 < N) (hM : 0 < M) (hsmall : max N M < 20)
    (hne : |(p : ℚ) / N - q / M| ≠ 1 / max N M) :
    1 / 361 ≤ |(|(p : ℚ) / N - q / M| - 1 / max N M)| := by
  have hN' : (0 : ℚ) < N := Nat.cast_pos.mpr hN
  have hM' : (0 : ℚ) < M := Nat.cast_pos.mpr hM
  have hmax : (1 : ℚ) / max N M = (min N M : ℕ) / (N * M) := by
    rw [← max_mul_min (N : ℚ) M, ← Nat.cast_max, Nat.cast_min]
    have hpos : (0 : ℚ) < min (N : ℚ) M := lt_min hN' hM'
    have hpos' : (0 : ℚ) < max (N : ℚ) M := lt_max_of_lt_left hN'
    rw [Nat.cast_max]
    field_simp
  have hdiff : |(p : ℚ) / N - q / M| = (|(p * M : ℤ) - N * q| : ℤ) / (N * M) := by
    rw [div_sub_div _ _ hN'.ne' hM'.ne', abs_div, abs_of_pos (mul_pos hN' hM')]
    push_cast
    rfl
  have hnumerator : |(p * M : ℤ) - N * q| - (min N M : ℕ) ≠ 0 := by
    intro hzero
    refine hne ?_
    rw [hmax, hdiff, sub_eq_zero.mp hzero, Int.cast_natCast]
  have hproduct : N * M ≤ 19 * 19 := Nat.mul_le_mul (by omega) (by omega)
  have hcast : (N : ℚ) * M ≤ 361 := by exact_mod_cast hproduct
  rw [hmax, hdiff, ← sub_div, abs_div, abs_of_pos (mul_pos hN' hM'), ← Int.cast_natCast (min N M),
    ← Int.cast_sub, ← Int.cast_abs]
  have hone : (1 : ℚ) ≤ (|(|(p * M : ℤ) - N * q| - (min N M : ℕ))| : ℤ) := by
    exact_mod_cast Int.one_le_abs hnumerator
  exact div_le_div₀ (by positivity) hone (mul_pos hN' hM') hcast

/-- The threshold is 500 units, or the rates differ by it, or they are further from it
    than rounding moves them. -/
theorem step_cases (hitems : items ≠ []) (hprevious : previousItems ≠ []) :
    (∃ n : ℤ, scaled (documentedThreshold items previousItems) = n) ∨
    scaled (max (passRatio items) (passRatio previousItems)) -
        scaled (min (passRatio items) (passRatio previousItems)) =
      scaled (documentedThreshold items previousItems) ∨
    2 < |scaled (max (passRatio items) (passRatio previousItems)) -
        scaled (min (passRatio items) (passRatio previousItems)) -
      scaled (documentedThreshold items previousItems)| := by
  have hlength := List.length_pos_iff.mpr hitems
  have hlength' := List.length_pos_iff.mpr hprevious
  rw [scaled_max_sub_min]
  rcases Nat.lt_or_ge (max items.length previousItems.length) 20 with hsmall | hlarge
  · have hinv : documentedThreshold items previousItems =
        1 / max items.length previousItems.length := by
      have hpos : 0 < max items.length previousItems.length := lt_max_of_lt_left hlength
      exact max_eq_right (one_div_le_one_div_of_le (by exact_mod_cast hpos)
        (by exact_mod_cast hsmall.le))
    right
    by_cases heq : |passRatio items - passRatio previousItems| =
        documentedThreshold items previousItems
    · exact Or.inl (congrArg scaled heq)
    · right
      rw [hinv] at heq ⊢
      have hfar := abs_sub_inv_max_ge _ _ hlength hlength' hsmall heq
      rw [scaled, scaled, ← sub_mul, abs_mul, abs_of_pos (by norm_num : (0 : ℚ) < 10 ^ 4)]
      unfold passRatio
      linarith
  · refine Or.inl ⟨500, ?_⟩
    have hfloor : documentedThreshold items previousItems = 1 / 20 := by
      exact max_eq_left (one_div_le_one_div_of_le (by norm_num) (by exact_mod_cast hlarge))
    rw [hfloor]
    norm_num [scaled]

theorem property_summaryRecord_passRate (summary : EvalRunSummary) :
    property "passRate".toList (some (summaryRecord summary)) = some (.num summary.passRate) :=
  rfl

theorem property_summaryRecord_totalCases (summary : EvalRunSummary) :
    property "totalCases".toList (some (summaryRecord summary)) =
      some (.num summary.totalCases) :=
  rfl

theorem passRate_buildRunSummary (runId : Id) (h : items ≠ []) :
    (buildRunSummary runId items).passRate = toFixed 4 (passRatio items) :=
  if_neg (List.length_pos_iff.mpr h).ne'

theorem meaningfulRateThreshold_eq (hitems : items ≠ []) :
    meaningfulRateThreshold items.length previousItems.length =
      toFixed 4 (documentedThreshold items previousItems) := by
  have hone : (1 : ℚ) ≤ (max items.length previousItems.length : ℕ) :=
    Nat.one_le_cast.mpr (le_max_of_le_left (List.length_pos_iff.mpr hitems))
  rw [meaningfulRateThreshold, ← Nat.cast_max, max_eq_left hone]
  rfl

/-- What is listed about the pass rates of two runs. -/
theorem mem_compareRuns (toNumber : Json → ℚ) (runId previousRunId : Id) (hitems : items ≠ [])
    (hprevious : previousItems ≠ []) :
    ∃ comparison, compareRuns toNumber runId previousRunId items previousItems =
      some comparison ∧ ∀ change : EvalMeaningfulChange,
      (change ∈ comparison.meaningfulChanges ∧ change.metric = .passRate) ↔
        let value := toFixed 4 (toFixed 4 (passRatio items) - toFixed 4 (passRatio previousItems))
        let threshold := toFixed 4 (documentedThreshold items previousItems)
        threshold ≤ |value| ∧ change = rateChange .passRate value threshold := by
  refine ⟨_, rfl, fun change => (mem_buildMeaningfulChanges rfl _ _).trans ?_⟩
  simp only [property_summaryRecord_passRate, property_summaryRecord_totalCases, delta,
    numberValue, passRate_buildRunSummary _ hitems, passRate_buildRunSummary _ hprevious]
  rw [show (buildRunSummary runId items).totalCases = items.length from rfl,
    show (buildRunSummary previousRunId previousItems).totalCases = previousItems.length from rfl,
    meaningfulRateThreshold_eq hitems]

/-- The comparison of two runs reports their pass rates at the documented threshold, unless
    rounding to four decimals moves the difference across it. -/
theorem reportsPassRate_iff (toNumber : Json → ℚ) (runId previousRunId : Id)
    (hitems : items ≠ []) (hprevious : previousItems ≠ []) :
    (∃ comparison, compareRuns toNumber runId previousRunId items previousItems =
      some comparison ∧ ReportsPassRate items previousItems comparison.meaningfulChanges) ↔
    ¬ RoundingDiffers (scaled (min (passRatio items) (passRatio previousItems)))
      (scaled (max (passRatio items) (passRatio previousItems)))
      (scaled (documentedThreshold items previousItems)) := by
  obtain ⟨comparison, hcompare, hmem⟩ :=
    mem_compareRuns toNumber runId previousRunId hitems hprevious
  have hratio := passRatio_nonneg items
  have hratio' := passRatio_nonneg previousItems
  have hthreshold := documentedThreshold_pos items previousItems
  have hlisted : (∃ change ∈ comparison.meaningfulChanges, change.metric = .passRate) ↔
      toFixed 4 (documentedThreshold items previousItems) ≤
        |toFixed 4 (toFixed 4 (passRatio items) - toFixed 4 (passRatio previousItems))| := by
    simp only [hmem, exists_and_left, exists_eq, and_true]
  have hdocumented : documentedThreshold items previousItems ≤
      |passRatio items - passRatio previousItems| ↔
      scaled (documentedThreshold items previousItems) ≤
        scaled (max (passRatio items) (passRatio previousItems)) -
          scaled (min (passRatio items) (passRatio previousItems)) := by
    rw [scaled_max_sub_min, scaled_le_scaled_iff]
  rw [← round_sub_reaches_iff (step_cases hitems hprevious),
    ← le_abs_toFixed_sub_iff hratio hratio' hthreshold.le, ← hlisted, ← hdocumented]
  constructor
  · rintro ⟨comparison', hcompare', hreports⟩
    cases hcompare.symm.trans hcompare'
    exact hreports.listed
  · intro hiff
    refine ⟨comparison, hcompare, hiff, fun change hchange hmetric => ?_⟩
    obtain ⟨hreach, rfl⟩ := (hmem change).mp ⟨hchange, hmetric⟩
    have hpos := toFixed_documentedThreshold_pos items previousItems
    have hsign := toFixed_sub_pos_iff hratio hratio' (hpos.trans_le hreach)
    simp only [rateChange, hsign]

/-- A run of which the first cases pass. -/
def sampleRun (passed total : ℕ) : List EvalRunItemSnapshot :=
  (List.range total).map fun n =>
    { evalCaseId := n, question := [], category := none, passed := n < passed, score := 0,
      regressionFlag := false, latencyMs := none, usage := {}, executionStatus := .grounded,
      breakdown := failedScoreResult [] 0 }

theorem reportsPassRate_sampleRun :
    ∃ comparison, compareRuns (fun _ => 0) 2 1 (sampleRun 2 20) (sampleRun 1 20) =
      some comparison ∧ ReportsPassRate (sampleRun 2 20) (sampleRun 1 20)
        comparison.meaningfulChanges :=
  (reportsPassRate_iff _ 2 1 (by decide) (by decide)).mpr (by
    unfold RoundingDiffers
    decide +kernel)

/-- Of seven cases a second one passes: 0.2857 - 0.1429 is less than 0.1429. -/
theorem reportsPassRate_second_of_seven :
    ¬ ∀ items previousItems : List EvalRunItemSnapshot, items ≠ [] → previousItems ≠ [] →
      ∃ comparison, compareRuns (fun _ => 0) 2 1 items previousItems = some comparison ∧
        ReportsPassRate items previousItems comparison.meaningfulChanges := by
  intro h
  obtain ⟨comparison, hcompare, hreports⟩ :=
    h (sampleRun 2 7) (sampleRun 1 7) (by decide) (by decide)
  have hnone : (compareRuns (fun _ => 0) 2 1 (sampleRun 2 7) (sampleRun 1 7)).all (fun comparison =>
      comparison.meaningfulChanges.all fun change => change.metric ≠ .passRate) = true := by
    decide +kernel
  obtain ⟨change, hchange, hmetric⟩ := hreports.listed.mpr (by decide +kernel)
  rw [hcompare] at hnone
  exact of_decide_eq_true (List.all_eq_true.mp hnone change hchange) hmetric

end RagStack.Evals
