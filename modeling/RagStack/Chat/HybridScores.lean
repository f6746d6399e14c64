import Mathlib.Tactic.Linarith
import Mathlib.Tactic.Positivity
import RagStack.Chat.RetrievalQueries

/-!
# Bounds and monotonicity of the scores

The scores that `scoreCandidate` of `services/api/src/chat/hybrid-scorer.service.ts`
gives to the candidates that `toCandidate` of `retrieval-query.repository.ts` makes.

* `toFixed6_mono`, `clamp01_mono`: rounding and clamping keep the order.
* `hybridScore_scoreCandidate_mono`: of two candidates for one stored row, the one with
  the higher partial scores has the higher final score.
* `score_range_and_monotonicity`: all scores lie between 0 and 1, a smaller distance, a
  higher rank or a second search never lower the final score.
-/

namespace RagStack.Chat

open RagStack.Common RagStack.Api
open RagStack.Worker (Text)
open RagStack.Ingest (Id Time)
open RagStack.Retrieval (NormalizedChatFilters)

/-! ## Numbers -/

/-- A score is a number between 0 and 1. -/
def IsScore (value : ℚ) : Prop := 0 ≤ value ∧ value ≤ 1

theorem isScore_zero : IsScore 0 := ⟨le_rfl, zero_le_one⟩

theorem isScore_one : IsScore 1 := ⟨zero_le_one, le_rfl⟩

theorem IsScore.max {a b : ℚ} (ha : IsScore a) (hb : IsScore b) : IsScore (max a b) :=
  ⟨le_max_of_le_left ha.1, max_le ha.2 hb.2⟩

theorem isScore_clamp01 (value : ℚ) : IsScore (clamp01 value) :=
  ⟨le_max_left _ _, max_le zero_le_one (min_le_left _ _)⟩

theorem clamp01_mono {a b : ℚ} (h : a ≤ b) : clamp01 a ≤ clamp01 b :=
  max_le_max le_rfl (min_le_min le_rfl h)

/-- The part of `toFixed6` for a number that is not negative. -/
def roundFixed6 (value : ℚ) : ℚ := (⌊value * 1000000 + 1 / 2⌋ : ℚ) / 1000000

theorem roundFixed6_mono {a b : ℚ} (h : a ≤ b) : roundFixed6 a ≤ roundFixed6 b := by
  have hscaled : a * 1000000 + 1 / 2 ≤ b * 1000000 + 1 / 2 := by linarith
  have hfloor : (⌊a * 1000000 + 1 / 2⌋ : ℚ) ≤ ⌊b * 1000000 + 1 / 2⌋ :=
    Int.cast_le.mpr (Int.floor_le_floor hscaled)
  exact div_le_div_of_nonneg_right hfloor (by norm_num)

theorem roundFixed6_nonneg {value : ℚ} (h : 0 ≤ value) : 0 ≤ roundFixed6 value := by
  have hfloor : 0 ≤ ⌊value * 1000000 + 1 / 2⌋ := Int.floor_nonneg.mpr (by positivity)
  exact div_nonneg (Int.cast_nonneg hfloor) (by norm_num)

theorem toFixed6_of_nonneg {value : ℚ} (h : 0 ≤ value) : toFixed6 value = roundFixed6 value :=
  if_neg (not_lt.mpr h)

theorem toFixed6_of_neg {value : ℚ} (h : value < 0) : toFixed6 value = -roundFixed6 (-value) :=
  if_pos h

/-- Rounding to six decimals keeps the order. -/
theorem toFixed6_mono {a b : ℚ} (h : a ≤ b) : toFixed6 a ≤ toFixed6 b := by
  rcases lt_or_ge a 0 with ha | ha
  · rw [toFixed6_of_neg ha]
    rcases lt_or_ge b 0 with hb | hb
    · rw [toFixed6_of_neg hb]
      exact neg_le_neg (roundFixed6_mono (neg_le_neg h))
    · rw [toFixed6_of_nonneg hb]
      have hleft := roundFixed6_nonneg (neg_nonneg.mpr ha.le)
      have hright := roundFixed6_nonneg hb
      linarith
  · rw [toFixed6_of_nonneg ha, toFixed6_of_nonneg (ha.trans h)]
    exact roundFixed6_mono h

@[simp] theorem toFixed6_zero : toFixed6 0 = 0 := by decide +kernel

@[simp] theorem toFixed6_one : toFixed6 1 = 1 := by decide +kernel

theorem IsScore.toFixed6 {value : ℚ} (h : IsScore value) : IsScore (toFixed6 value) := by
  have hlow := toFixed6_mono h.1
  have hhigh := toFixed6_mono h.2
  rw [toFixed6_zero] at hlow
  rw [toFixed6_one] at hhigh
  exact ⟨hlow, hhigh⟩

/-! ## The partial scores -/

theorem isScore_ratio {part whole : ℕ} (h : part ≤ whole) : IsScore ((part : ℚ) / whole) :=
  ⟨by positivity, div_le_one_of_le₀ (Nat.cast_le.mpr h) (Nat.cast_nonneg whole)⟩

theorem isScore_computeTokenCoverage (uni : EcmaUnicode) (haystack : Option Text)
    (tokens : List Text) : IsScore (computeTokenCoverage uni haystack tokens) := by
  unfold computeTokenCoverage
  simp only
  split_ifs
  · exact isScore_zero
  · exact isScore_ratio List.countP_le_length

theorem isScore_computePhraseCoverage (uni : EcmaUnicode) (haystack : Option Text)
    (phrases : List Text) : IsScore (computePhraseCoverage uni haystack phrases) := by
  unfold computePhraseCoverage
  simp only
  split_ifs
  · exact isScore_zero
  · exact isScore_ratio List.countP_le_length

theorem isScore_normalizeSemanticDistance (distance : Option ℚ) :
    IsScore (normalizeSemanticDistance distance) := by
  cases distance with
  | none => exact isScore_zero
  | some distance => exact isScore_clamp01 _

theorem isScore_computeRecencyScore (now : Time) (indexedAt : Option Time)
    (freshnessIntent : Bool) : IsScore (computeRecencyScore now indexedAt freshnessIntent) := by
  unfold computeRecencyScore
  split
  · exact isScore_zero
  · split_ifs
    · exact isScore_clamp01 _
    · exact isScore_zero

/-- The mean of scores is a score. -/
theorem isScore_mean {scores : List ℚ} (h : ∀ score ∈ scores, IsScore score) :
    IsScore (scores.sum / scores.length) := by
  have hnonneg : 0 ≤ scores.sum := List.sum_nonneg fun score hscore => (h score hscore).1
  have hle : scores.sum ≤ scores.length := by
    have hcard := List.sum_le_card_nsmul scores 1 fun score hscore => (h score hscore).2
    rwa [nsmul_one] at hcard
  exact ⟨by positivity, div_le_one_of_le₀ hle (Nat.cast_nonneg _)⟩

theorem isScore_roundedMean {scores : List ℚ} (h : ∀ score ∈ scores, IsScore score) :
    IsScore (if scores = [] then 0 else toFixed6 (scores.sum / scores.length)) := by
  split_ifs
  · exact isScore_zero
  · exact (isScore_mean h).toFixed6

theorem isScore_of_mem_filterScore {filtered matched : Bool} {signal : String} {score : ℚ}
    (h : score ∈ (filterScore filtered matched signal).1) : IsScore score := by
  cases filtered with
  | false => cases h
  | true =>
    cases matched with
    | false =>
      obtain rfl := List.mem_singleton.mp h
      exact isScore_zero
    | true =>
      obtain rfl := List.mem_singleton.mp h
      exact isScore_one

theorem isScore_computeMetadataScore (uni : EcmaUnicode) (candidate : RetrievalCandidate)
    (query : NormalizedRetrievalQuery) (filters : NormalizedChatFilters) :
    IsScore (computeMetadataScore uni candidate query filters).1 := by
  unfold computeMetadataScore
  refine isScore_roundedMean fun score hscore => ?_
  rcases List.mem_append.mp hscore with hfilter | htags
  · rcases List.mem_append.mp hfilter with hfilter | hfilter
    · exact isScore_of_mem_filterScore hfilter
    · exact isScore_of_mem_filterScore hfilter
  · split_ifs at htags
    · obtain rfl := List.mem_singleton.mp htags
      exact (isScore_computeTokenCoverage _ _ _).max (isScore_computePhraseCoverage _ _ _)
    · cases htags

theorem isScore_computeStructuralScore (uni : EcmaUnicode) (candidate : RetrievalCandidate)
    (query : NormalizedRetrievalQuery) : IsScore (computeStructuralScore uni candidate query).1 :=
  (isScore_clamp01 _).toFixed6

/-- A higher raw rank is not worth less. -/
theorem normalizeLexicalRank_mono {a b : ℚ} (h : a ≤ b) :
    normalizeLexicalRank (some a) ≤ normalizeLexicalRank (some b) := by
  simp only [normalizeLexicalRank]
  split_ifs with ha hb hb
  · exact le_rfl
  · exact (isScore_clamp01 _).1
  · exact absurd (h.trans hb) ha
  · refine clamp01_mono ?_
    rw [not_le] at ha hb
    rw [div_le_div_iff₀ (by linarith) (by linarith)]
    linarith

theorem normalizeLexicalRank_nonneg (rawRank : Option ℚ) : 0 ≤ normalizeLexicalRank rawRank := by
  unfold normalizeLexicalRank
  split
  · exact le_rfl
  · split_ifs
    · exact le_rfl
    · exact (isScore_clamp01 _).1

/-- A smaller distance is not worth less. -/
theorem normalizeSemanticDistance_anti {a b : ℚ} (h : a ≤ b) :
    normalizeSemanticDistance (some b) ≤ normalizeSemanticDistance (some a) :=
  clamp01_mono (by linarith)

theorem normalizeLexicalRank_pickHigherNumber_le (left right : Option ℚ) :
    normalizeLexicalRank left ≤ normalizeLexicalRank (pickHigherNumber left right) ∧
      normalizeLexicalRank right ≤ normalizeLexicalRank (pickHigherNumber left right) := by
  cases left with
  | none =>
    rw [pickHigherNumber, Option.merge_none_left]
    exact ⟨normalizeLexicalRank_nonneg right, le_rfl⟩
  | some a =>
    cases right with
    | none => exact ⟨le_rfl, normalizeLexicalRank_nonneg _⟩
    | some b =>
      exact ⟨normalizeLexicalRank_mono (le_max_left a b), normalizeLexicalRank_mono (le_max_right a b)⟩

/-! ## The final score -/

section Final

variable (uni : EcmaUnicode) (now : Time) (query : NormalizedRetrievalQuery)
  (filters : NormalizedChatFilters)

/-- The scores of a candidate are scores. -/
structure HasScores (candidate : RetrievalCandidate) : Prop where
  semantic : IsScore candidate.semanticScore
  lexical : IsScore candidate.lexicalScore
  metadata : IsScore candidate.metadataScore
  recency : IsScore candidate.recencyScore
  structural : IsScore candidate.structuralScore
  final : IsScore candidate.hybridScore

/-- The weights are a partition of 1. -/
theorem isScore_weighted {s l m r t : ℚ} (hs : IsScore s) (hl : IsScore l) (hm : IsScore m)
    (hr : IsScore r) (ht : IsScore t) :
    IsScore (HYBRID_SCORE_WEIGHTS.semantic * s + HYBRID_SCORE_WEIGHTS.lexical * l +
      HYBRID_SCORE_WEIGHTS.metadata * m + HYBRID_SCORE_WEIGHTS.recency * r +
      HYBRID_SCORE_WEIGHTS.structural * t) := by
  simp only [HYBRID_SCORE_WEIGHTS]
  constructor
  · linarith [hs.1, hl.1, hm.1, hr.1, ht.1]
  · linarith [hs.2, hl.2, hm.2, hr.2, ht.2]

theorem hasScores_scoreCandidate {candidate : RetrievalCandidate}
    (h : IsScore candidate.semanticScore) :
    HasScores (scoreCandidate uni now query filters candidate) where
  semantic := h
  lexical := isScore_clamp01 _
  metadata := isScore_computeMetadataScore uni candidate query filters
  recency := isScore_computeRecencyScore now candidate.indexedAt query.freshnessIntent
  structural := isScore_computeStructuralScore uni candidate query
  final := (isScore_weighted h (isScore_clamp01 _)
    (isScore_computeMetadataScore uni candidate query filters)
    (isScore_computeRecencyScore now candidate.indexedAt query.freshnessIntent)
    (isScore_computeStructuralScore uni candidate query)).toFixed6

/-- The final score grows with the semantic score and with the raw rank. Everything
    else is taken from the stored row and the filters. -/
theorem hybridScore_scoreCandidate_mono {a b : RetrievalCandidate} (hrow : a.row = b.row)
    (hsignals : ∀ signal : String,
      a.debug.metadataSignals.contains signal = b.debug.metadataSignals.contains signal)
    (hsemantic : a.semanticScore ≤ b.semanticScore)
    (hlexical : normalizeLexicalRank a.debug.rawLexicalScore ≤
      normalizeLexicalRank b.debug.rawLexicalScore) :
    (scoreCandidate uni now query filters a).hybridScore ≤
      (scoreCandidate uni now query filters b).hybridScore := by
  have hstructural := computeStructuralScore_row uni query hrow
  simp only [RetrievalCandidate.row, ChunkSearchRow.mk.injEq] at hrow
  have hmetadata :
      computeMetadataScore uni a query filters = computeMetadataScore uni b query filters := by
    simp only [computeMetadataScore, hrow, hsignals]
  have hclamped : ∀ coverage phrases : ℚ,
      clamp01 (55 / 100 * normalizeLexicalRank a.debug.rawLexicalScore + coverage + phrases) ≤
        clamp01 (55 / 100 * normalizeLexicalRank b.debug.rawLexicalScore + coverage + phrases) :=
    fun coverage phrases => clamp01_mono (by linarith)
  simp only [scoreCandidate, hmetadata, hstructural, hrow, HYBRID_SCORE_WEIGHTS]
  refine toFixed6_mono ?_
  linarith [hclamped (25 / 100 * computeTokenCoverage uni (some b.searchText) query.tokens)
    (2 / 10 * computePhraseCoverage uni (some b.searchText) query.phrases)]

variable (row : ChunkSearchRow)

/-- The final score of a candidate that one search found. -/
def finalScore (scores : CandidateScores) : ℚ :=
  (scoreCandidate uni now query filters (toCandidate uni filters row scores)).hybridScore

/-- The candidate of a chunk that both searches found. -/
def mergedCandidate (left right : CandidateScores) : RetrievalCandidate :=
  mergeCandidate (toCandidate uni filters row left) (toCandidate uni filters row right)

theorem row_mergedCandidate (left right : CandidateScores) :
    (mergedCandidate uni filters row left right).row = row :=
  row_mergeCandidate rfl

theorem contains_metadataSignals_mergedCandidate (left right : CandidateScores) (signal : String) :
    (mergedCandidate uni filters row left right).debug.metadataSignals.contains signal =
      (calculateMetadataSignals uni row filters).contains signal := by
  rw [Bool.eq_iff_iff]
  simp [mergedCandidate, mergeCandidate, toCandidate, List.mem_eraseDups]

/-- A second search does not lower the final score. -/
theorem finalScore_le_mergedCandidate (left right : CandidateScores) :
    finalScore uni now query filters row left ≤
        (scoreCandidate uni now query filters
          (mergedCandidate uni filters row left right)).hybridScore ∧
      finalScore uni now query filters row right ≤
        (scoreCandidate uni now query filters
          (mergedCandidate uni filters row left right)).hybridScore := by
  have hrank := normalizeLexicalRank_pickHigherNumber_le left.rawLexicalScore right.rawLexicalScore
  constructor
  · exact hybridScore_scoreCandidate_mono uni now query filters
      (row_mergedCandidate uni filters row left right).symm
      (fun signal => (contains_metadataSignals_mergedCandidate uni filters row left right signal).symm)
      (le_max_left _ _) hrank.1
  · exact hybridScore_scoreCandidate_mono uni now query filters
      (row_mergedCandidate uni filters row left right).symm
      (fun signal => (contains_metadataSignals_mergedCandidate uni filters row left right signal).symm)
      (le_max_right _ _) hrank.2

/-- The scores of the candidates for a stored row: their range, and what does not lower
    the final one. -/
theorem score_range_and_monotonicity (scores : CandidateScores) :
    HasScores (scoreCandidate uni now query filters (toCandidate uni filters row scores)) ∧
    (∀ nearer farther : ℚ, nearer ≤ farther →
      finalScore uni now query filters row { scores with semanticDistance := some farther } ≤
        finalScore uni now query filters row { scores with semanticDistance := some nearer }) ∧
    (∀ lower higher : ℚ, lower ≤ higher →
      finalScore uni now query filters row { scores with rawLexicalScore := some lower } ≤
        finalScore uni now query filters row { scores with rawLexicalScore := some higher }) ∧
    ∀ other : CandidateScores,
      HasScores (scoreCandidate uni now query filters
        (mergedCandidate uni filters row scores other)) ∧
      finalScore uni now query filters row scores ≤
        (scoreCandidate uni now query filters
          (mergedCandidate uni filters row scores other)).hybridScore ∧
      finalScore uni now query filters row other ≤
        (scoreCandidate uni now query filters
          (mergedCandidate uni filters row scores other)).hybridScore := by
  have hsemantic : ∀ scores : CandidateScores,
      IsScore (toCandidate uni filters row scores).semanticScore :=
    fun scores => isScore_normalizeSemanticDistance scores.semanticDistance
  refine ⟨hasScores_scoreCandidate uni now query filters (hsemantic scores), ?_, ?_, ?_⟩
  · intro nearer farther h
    exact hybridScore_scoreCandidate_mono uni now query filters rfl (fun _ => rfl)
      (normalizeSemanticDistance_anti h) le_rfl
  · intro lower higher h
    exact hybridScore_scoreCandidate_mono uni now query filters rfl (fun _ => rfl) le_rfl
      (normalizeLexicalRank_mono h)
  · intro other
    exact ⟨hasScores_scoreCandidate uni now query filters ((hsemantic scores).max (hsemantic other)),
      finalScore_le_mergedCandidate uni now query filters row scores other⟩

end Final

end RagStack.Chat
