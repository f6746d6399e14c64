import RagStack.Chat.Retrieval

/-!
# Phrases of suppressed candidates

`dedupReason` of `services/api/src/chat/retrieval.service.ts` compares which part of
the quoted phrases two candidates match. A candidate with a phrase of its own is
suppressed all the same if the kept neighbour matches as many other phrases.

* `removedAsNearDuplicate_iff`: what is removed as a near-duplicate.
* `uniquePhrasesKept_iff`: the ranked candidates of which no part loses a phrase.
* `uniquePhrasesKept_of_single`: no phrase is lost if one is quoted.
-/

namespace RagStack.Chat

open RagStack.Common RagStack.Api
open RagStack.Worker (Text)
open RagStack.Ingest (Id Time)

/-- `normalizedHaystack.includes(phrase)` of `computePhraseCoverage`. -/
def RetrievalCandidate.ContainsPhrase (uni : EcmaUnicode) (candidate : RetrievalCandidate)
    (phrase : Text) : Prop :=
  phrase <:+: normalizeTextForMatch uni (some candidate.searchText)

instance (uni : EcmaUnicode) (candidate : RetrievalCandidate) (phrase : Text) :
    Decidable (candidate.ContainsPhrase uni phrase) :=
  inferInstanceAs (Decidable (phrase <:+: normalizeTextForMatch uni (some candidate.searchText)))

/-- The candidate was removed with a reason that begins with `near-duplicate`. -/
def RetrievalCandidate.RemovedAsNearDuplicate (candidate : RetrievalCandidate) : Prop :=
  ∃ reason, candidate.debug.dedupReason = some reason ∧ "near-duplicate".toList <+: reason

/-- No candidate with a phrase that no kept candidate contains is removed as a
    near-duplicate. -/
def UniquePhrasesKept (uni : EcmaUnicode) (phrases : List Text) (deduped : DedupState) : Prop :=
  ∀ candidate ∈ deduped.candidates, ∀ phrase ∈ phrases, candidate.ContainsPhrase uni phrase →
    (∀ existing ∈ deduped.selected, ¬existing.ContainsPhrase uni phrase) →
      ¬candidate.RemovedAsNearDuplicate

/-! ## The reasons -/

/-- An exact duplicate. -/
def IsDuplicate (existing candidate : RetrievalCandidate) : Prop :=
  existing.chunkId = candidate.chunkId ∨ existing.checksum = candidate.checksum

/-- The candidate is suppressed for `existing`, and not as an exact duplicate: it is next to it,
    has nearly the same words, matches no greater part of the phrases, and does not score clearly
    higher in structure. -/
structure IsNearDuplicate (uni : EcmaUnicode) (existing candidate : RetrievalCandidate) : Prop where
  distinct : ¬IsDuplicate existing candidate
  neighbour : isNeighbour existing candidate = true
  overlap : isApart uni existing candidate = false
  coverage_le : hasUniquePhrase existing candidate = false
  structure_le : hasUniqueStructure existing candidate = false

/-- `existing` contains the phrases that the candidate contains. -/
def CarriesPhrases (uni : EcmaUnicode) (phrases : List Text)
    (existing candidate : RetrievalCandidate) : Prop :=
  ∀ phrase ∈ phrases, candidate.ContainsPhrase uni phrase → existing.ContainsPhrase uni phrase

/-- Of the ranked candidates, those before a near-duplicate of theirs contain its phrases. -/
def NearDuplicatesCarry (uni : EcmaUnicode) (phrases : List Text)
    (ranked : List RetrievalCandidate) : Prop :=
  ranked.Pairwise fun existing candidate =>
    IsNearDuplicate uni existing candidate → CarriesPhrases uni phrases existing candidate

section Reasons

variable {uni : EcmaUnicode} {left right : RetrievalCandidate}

theorem dedupReason_of_isDuplicate (h : IsDuplicate left right) :
    dedupReason uni left right = some ("duplicate of ".toList ++ idText left.chunkId) :=
  if_pos h

theorem dedupReason_of_isNearDuplicate (h : IsNearDuplicate uni left right) :
    dedupReason uni left right = some ("near-duplicate of ".toList ++ idText left.chunkId) := by
  have hdistinct := h.distinct
  unfold IsDuplicate at hdistinct
  unfold dedupReason
  rw [if_neg hdistinct]
  simp [h.neighbour, h.overlap, h.coverage_le, h.structure_le]

theorem isNearDuplicate_of_dedupReason {reason : Text}
    (h : dedupReason uni left right = some reason) (hdistinct : ¬IsDuplicate left right) :
    IsNearDuplicate uni left right := by
  have hne := hdistinct
  unfold IsDuplicate at hne
  unfold dedupReason at h
  rw [if_neg hne] at h
  simp only at h
  split_ifs at h with hneighbour hapart hchanged hunique
  rw [Bool.or_eq_true, not_or, Bool.not_eq_true, Bool.not_eq_true] at hunique
  exact ⟨hdistinct, by simpa using hneighbour, Bool.eq_false_of_not_eq_true hapart, hunique.1,
    hunique.2⟩

/-- The two kinds of reasons differ in how they begin. -/
theorem not_nearDuplicate_prefix (id : Id) :
    ¬"near-duplicate".toList <+: "duplicate of ".toList ++ idText id := by
  intro h
  have hfirst := (List.cons_prefix_cons.mp h).1
  exact absurd hfirst (by decide)

theorem nearDuplicate_prefix (id : Id) :
    "near-duplicate".toList <+: "near-duplicate of ".toList ++ idText id :=
  ⟨" of ".toList ++ idText id, rfl⟩

end Reasons

/-! ## What is removed as a near-duplicate -/

section Removed

variable {uni : EcmaUnicode}

/-- A candidate is removed as a near-duplicate exactly if it is one of a candidate that is kept
    before it, and no exact duplicate of one before that. -/
theorem removedAsNearDuplicate_iff {before : List RetrievalCandidate}
    {candidate written : RetrievalCandidate} (h : DedupCase uni before candidate written) :
    written.RemovedAsNearDuplicate ↔
      ∃ j, ∃ _ : j < (keptCandidates uni before).length,
        IsNearDuplicate uni (keptCandidates uni before)[j] candidate ∧
        ∀ existing ∈ (keptCandidates uni before).take j, ¬IsDuplicate existing candidate := by
  cases h with
  | kept admits =>
    refine iff_of_false (fun h => ?_) (fun h => ?_)
    · obtain ⟨reason, hreason, -⟩ := h
      cases hreason
    · obtain ⟨j, hj, hnear, -⟩ := h
      have hnone := List.all_eq_true.mp admits _ (List.getElem_mem hj)
      rw [dedupReason_of_isNearDuplicate hnear] at hnone
      cases hnone
  | @suppressed i reason hi first duplicate =>
    have hbefore : ∀ existing ∈ (keptCandidates uni before).take i,
        ¬IsDuplicate existing candidate := by
      intro existing hexisting hdup
      obtain ⟨j, hj, rfl⟩ := List.mem_take_iff_getElem.mp hexisting
      have hnone := first j (lt_min_iff.mp hj).1
      rw [dedupReason_of_isDuplicate hdup] at hnone
      cases hnone
    constructor
    · rintro ⟨_, hreason, hstart⟩
      cases hreason
      have hdistinct : ¬IsDuplicate (keptCandidates uni before)[i] candidate := by
        intro hdup
        rw [dedupReason_of_isDuplicate hdup, Option.some.injEq] at duplicate
        rw [← duplicate] at hstart
        exact not_nearDuplicate_prefix _ hstart
      exact ⟨i, hi, isNearDuplicate_of_dedupReason duplicate hdistinct, hbefore⟩
    · rintro ⟨j, hj, hnear, hearlier⟩
      -- the near-duplicate is a reason, so that the first reason is not behind it
      have hle : i ≤ j := by
        by_contra hlt
        have hnone := first j (not_le.mp hlt)
        rw [dedupReason_of_isNearDuplicate hnear] at hnone
        cases hnone
      have hdistinct : ¬IsDuplicate (keptCandidates uni before)[i] candidate := by
        rcases hle.lt_or_eq with hlt | rfl
        · exact hearlier _ (List.mem_take_iff_getElem.mpr ⟨i, lt_min hlt hi, rfl⟩)
        · exact hnear.distinct
      rw [dedupReason_of_isNearDuplicate (isNearDuplicate_of_dedupReason duplicate hdistinct),
        Option.some.injEq] at duplicate
      exact ⟨reason, rfl, duplicate ▸ nearDuplicate_prefix _⟩

/-- What the deduplication writes does not change the phrases. -/
theorem DedupCase.containsPhrase_iff {before : List RetrievalCandidate}
    {candidate written : RetrievalCandidate} (h : DedupCase uni before candidate written)
    (phrase : Text) : written.ContainsPhrase uni phrase ↔ candidate.ContainsPhrase uni phrase := by
  cases h with
  | kept admits => exact Iff.rfl
  | suppressed hi first duplicate => exact Iff.rfl

theorem forall_selected_not_containsPhrase_iff (ranked : List RetrievalCandidate) (phrase : Text) :
    (∀ existing ∈ (suppressDuplicates uni ranked).selected, ¬existing.ContainsPhrase uni phrase) ↔
      ∀ existing ∈ keptCandidates uni ranked, ¬existing.ContainsPhrase uni phrase := by
  rw [selected_suppressDuplicates]
  constructor
  · intro h existing hexisting
    obtain ⟨i, hi, rfl⟩ := List.getElem_of_mem hexisting
    exact h (numberKept i (keptCandidates uni ranked)[i]) (List.mem_mapIdx.mpr ⟨i, hi, rfl⟩)
  · intro h existing hexisting
    obtain ⟨i, hi, rfl⟩ := List.mem_mapIdx.mp hexisting
    exact h (keptCandidates uni ranked)[i] (List.getElem_mem hi)

/-- The candidates kept of a beginning are kept of the whole. -/
theorem keptCandidates_take_subset (ranked : List RetrievalCandidate) (i : ℕ) :
    keptCandidates uni (ranked.take i) ⊆ keptCandidates uni ranked := by
  conv_rhs => rw [← List.take_append_drop i ranked]
  exact List.IsPrefix.subset <| greedy_prefix _ _

/-- A candidate that contains the phrases of its near-duplicates keeps them when they go. -/
theorem uniquePhrasesKept_of_carry {phrases : List Text} {ranked : List RetrievalCandidate}
    (h : NearDuplicatesCarry uni phrases ranked) :
    UniquePhrasesKept uni phrases (suppressDuplicates uni ranked) := by
  intro written hmem phrase hphrase hcontains hunique hremoved
  obtain ⟨i, hi, rfl⟩ := List.getElem_of_mem hmem
  have hi' : i < ranked.length := by rwa [length_candidates_suppressDuplicates] at hi
  obtain ⟨written, hwritten, hcase⟩ := dedupCase_of_getElem uni ranked i hi'
  obtain rfl := Option.some.inj ((List.getElem?_eq_getElem hi).symm.trans hwritten)
  obtain ⟨j, hj, hnear, -⟩ := (removedAsNearDuplicate_iff hcase).mp hremoved
  have hexisting := List.getElem_mem hj
  have hsplit : ranked.take i ++ ranked[i] :: ranked.drop (i + 1) = ranked := by simp
  have hcarries : CarriesPhrases uni phrases (keptCandidates uni (ranked.take i))[j] ranked[i] := by
    rw [NearDuplicatesCarry, ← hsplit, List.pairwise_append] at h
    exact h.2.2 _ ((greedy_sublist _).subset hexisting) _ List.mem_cons_self hnear
  have hother := (forall_selected_not_containsPhrase_iff ranked phrase).mp hunique _
    (keptCandidates_take_subset ranked i hexisting)
  exact hother (hcarries phrase hphrase ((hcase.containsPhrase_iff phrase).mp hcontains))

end Removed

/-! ## Which phrases are kept -/

/-- `lexicalPhraseCoverage` as `scoreCandidate` writes it. -/
def phraseCoverage (uni : EcmaUnicode) (phrases : List Text) (candidate : RetrievalCandidate) : ℚ :=
  toFixed6 (computePhraseCoverage uni (some candidate.searchText) phrases)

theorem lexicalPhraseCoverage_mergeAndScore {uni : EcmaUnicode} {locale : LocaleCompare}
    {now : Time} {params : MergeParams} {candidate : RetrievalCandidate}
    (h : candidate ∈ mergeAndScore uni locale now params) :
    candidate.debug.lexicalPhraseCoverage = phraseCoverage uni params.query.phrases candidate := by
  obtain ⟨i, hi, rfl⟩ := List.mem_mapIdx.mp h
  have hranked := List.mem_of_mem_take (List.getElem_mem hi)
  generalize ((rankedCandidates uni locale now params).take _)[i] = scored at hranked
  rw [rankedCandidates, List.mem_mergeSort] at hranked
  obtain ⟨merged, -, rfl⟩ := List.mem_map.mp hranked
  rfl

/-- Of a single phrase a candidate matches all or nothing. -/
theorem phraseCoverage_single {uni : EcmaUnicode} {phrase : Text} (hphrase : phrase ≠ [])
    (candidate : RetrievalCandidate) :
    (candidate.ContainsPhrase uni phrase → phraseCoverage uni [phrase] candidate = 1) ∧
      (¬candidate.ContainsPhrase uni phrase → phraseCoverage uni [phrase] candidate = 0) := by
  have hone : toFixed6 1 = 1 := by decide +kernel
  have hzero : toFixed6 0 = 0 := by decide +kernel
  constructor
  · intro hcontains
    have hne : normalizeTextForMatch uni (some candidate.searchText) ≠ [] := by
      intro hempty
      rw [RetrievalCandidate.ContainsPhrase, hempty, List.infix_nil] at hcontains
      exact hphrase hcontains
    have hcoverage : computePhraseCoverage uni (some candidate.searchText) [phrase] = 1 := by
      unfold RetrievalCandidate.ContainsPhrase at hcontains
      simp [computePhraseCoverage, hne, hcontains]
    rw [phraseCoverage, hcoverage, hone]
  · intro hcontains
    have hcoverage : computePhraseCoverage uni (some candidate.searchText) [phrase] = 0 := by
      unfold RetrievalCandidate.ContainsPhrase at hcontains
      simp [computePhraseCoverage, hcontains]
    rw [phraseCoverage, hcoverage, hzero]

/-- With one quoted phrase no candidate that contains it is suppressed for one that
    does not. -/
theorem uniquePhrasesKept_of_single (uni : EcmaUnicode) (locale : LocaleCompare) (now : Time)
    {params : MergeParams} {phrase : Text} (hphrase : phrase ≠ [])
    (h : params.query.phrases = [phrase]) :
    UniquePhrasesKept uni params.query.phrases
      (suppressDuplicates uni (mergeAndScore uni locale now params)) := by
  have hdouble : double 0 < double 1 := by decide +kernel
  refine uniquePhrasesKept_of_carry (List.pairwise_of_forall_mem_list ?_)
  intro existing hexisting candidate hcandidate hnear phrase' hmem hcontains
  rw [h] at hmem
  obtain rfl := List.mem_singleton.mp hmem
  by_contra hother
  have hcoverage := hnear.coverage_le
  rw [hasUniquePhrase, lexicalPhraseCoverage_mergeAndScore hexisting,
    lexicalPhraseCoverage_mergeAndScore hcandidate, h, (phraseCoverage_single hphrase _).1 hcontains,
    (phraseCoverage_single hphrase _).2 hother] at hcoverage
  exact of_decide_eq_false hcoverage hdouble

end RagStack.Chat
