import RagStack.Api.Numbers
import RagStack.Chat.CitationAssembler
import RagStack.Common.Greedy

/-!
# Selecting the grounding chunks

`retrieve` of `services/api/src/chat/retrieval.service.ts` from the fetched
candidates on: they are ranked, duplicates are suppressed, and the first of the
rest are selected.

* `selected_suppressDuplicates`: the kept candidates are chosen greedily, and
  numbered.
* `selection_contract`: what the selected chunks and the written ranks and reasons
  are.
-/

namespace RagStack.Chat

open RagStack.Common RagStack.Api
open RagStack.Worker (Text)
open RagStack.Ingest (Id Time)
open RagStack.Retrieval (NormalizedChatFilters)

/-! ## Duplicates -/

/-- `right` is adjacent to `left`, in the same version of a document. -/
def isNeighbour (left right : RetrievalCandidate) : Bool :=
  left.documentVersionId = right.documentVersionId ∧ left.chunkNo ≤ right.chunkNo + 1 ∧
    right.chunkNo ≤ left.chunkNo + 1

/-- `rightHasUniquePhrase`. The numbers of a candidate are written as decimals, and compared
    as doubles. -/
def hasUniquePhrase (left right : RetrievalCandidate) : Bool :=
  double left.debug.lexicalPhraseCoverage < double right.debug.lexicalPhraseCoverage

/-- `rightHasUniqueStructure`. The sum is a double, as the numbers are: 0.35 + 0.1 is less
    than 0.45. -/
def hasUniqueStructure (left right : RetrievalCandidate) : Bool :=
  double (double left.structuralScore + double (1 / 10)) < double right.structuralScore ∧
    right.debug.structuralSignals ≠ []

/-- `overlap < 0.88`. -/
def isApart (uni : EcmaUnicode) (left right : RetrievalCandidate) : Bool :=
  double (computeJaccard uni (some left.searchText) (some right.searchText)) < double (88 / 100)

/-- `dedupReason` (lines 317–353). -/
def dedupReason (uni : EcmaUnicode) (left right : RetrievalCandidate) : Option Text :=
  if left.chunkId = right.chunkId ∨ left.checksum = right.checksum then
    some ("duplicate of ".toList ++ idText left.chunkId)
  else if !isNeighbour left right then none
  else if isApart uni left right then none
  else
    let leftSection := normalizeTextForMatch uni left.sectionTitle
    let rightSection := normalizeTextForMatch uni right.sectionTitle
    let sectionChanged := (leftSection ≠ [] ∨ rightSection ≠ []) ∧ leftSection ≠ rightSection
    if sectionChanged ∧ (hasUniquePhrase left right || hasUniqueStructure left right) = true then none
    else if hasUniquePhrase left right || hasUniqueStructure left right then none
    else some ("near-duplicate of ".toList ++ idText left.chunkId)

/-- What the deduplication writes to a candidate. -/
def RetrievalCandidate.withDedup (candidate : RetrievalCandidate) (rankAfterDedup : Option ℕ)
    (dedupReason : Option Text) : RetrievalCandidate :=
  { candidate with
    debug := { candidate.debug with rankAfterDedup := rankAfterDedup, dedupReason := dedupReason } }

/-- The variables of `suppressDuplicates`: the candidates as they are after the loop,
    and the selected ones. -/
structure DedupState where
  candidates : List RetrievalCandidate := []
  selected : List RetrievalCandidate := []

/-- A candidate in the loop of `suppressDuplicates` (lines 298–312). -/
def suppressDuplicate (uni : EcmaUnicode) (state : DedupState) (candidate : RetrievalCandidate) :
    DedupState :=
  match state.selected.find? fun existing => (dedupReason uni existing candidate).isSome with
  | none =>
    let kept := candidate.withDedup (some (state.selected.length + 1)) none
    { candidates := state.candidates ++ [kept], selected := state.selected ++ [kept] }
  | some duplicateOf =>
    { state with
      candidates := state.candidates ++
        [candidate.withDedup none (dedupReason uni duplicateOf candidate)] }

/-- `suppressDuplicates` (lines 295–315). -/
def suppressDuplicates (uni : EcmaUnicode) (candidates : List RetrievalCandidate) : DedupState :=
  candidates.foldl (suppressDuplicate uni) {}

/-! ## Retrieving -/

/-- An entry of `debug.rankedCandidates` (lines 222–238). -/
def debugCandidate (candidate : RetrievalCandidate) : RetrievalDebugCandidate where
  chunkId := candidate.chunkId
  documentId := candidate.documentId
  semanticScore := candidate.semanticScore
  lexicalScore := candidate.lexicalScore
  metadataMatchScore := candidate.metadataScore
  recencyScore := candidate.recencyScore
  structuralScore := candidate.structuralScore
  finalScore := candidate.hybridScore
  selectionReason := candidate.debug.selectionReason
  rankBeforeDedup := candidate.debug.rankBeforeDedup
  rankAfterDedup := candidate.debug.rankAfterDedup
  retrievedBy := candidate.debug.retrievedBy
  semanticRank := candidate.semanticRank
  lexicalRank := candidate.lexicalRank
  dedupReason := candidate.debug.dedupReason

/-- What `retrieve` has when both searches are done. -/
structure FetchedCandidates where
  query : NormalizedRetrievalQuery
  filters : NormalizedChatFilters
  embeddingsEnabled : Bool
  limits : RetrievalLimits
  semanticFetch : List RetrievalCandidate
  lexicalFetch : List RetrievalCandidate

/-- The parameters of `mergeAndScore` (lines 127–133). -/
def FetchedCandidates.mergeParams (fetched : FetchedCandidates) : MergeParams where
  query := fetched.query
  filters := fetched.filters
  semanticCandidates := fetched.semanticFetch
  lexicalCandidates := fetched.lexicalFetch
  rerankPoolLimit := fetched.limits.rerankPoolLimit

/-- `retrieve` of a question that is not blank, from the fetched candidates on
    (lines 126–240). -/
def retrievalResult (uni : EcmaUnicode) (locale : LocaleCompare) (now : Time)
    (fetched : FetchedCandidates) : RetrievalResult :=
  let rankedCandidates := mergeAndScore uni locale now fetched.mergeParams
  let deduped := suppressDuplicates uni rankedCandidates
  { normalizedQuery := fetched.query.normalizedText
    embeddingsEnabled := fetched.embeddingsEnabled
    semanticUsed := !fetched.semanticFetch.isEmpty
    lexicalUsed := !fetched.lexicalFetch.isEmpty
    totalCandidates := rankedCandidates.length
    selectedChunks := deduped.selected.take fetched.limits.groundingTopK
    debug :=
      { normalizedText := fetched.query.normalizedText
        lexicalText := fetched.query.lexicalText
        tokens := fetched.query.tokens
        phrases := fetched.query.phrases
        freshnessIntent := fetched.query.freshnessIntent
        limits := fetched.limits
        weights := HYBRID_SCORE_WEIGHTS
        rankedCandidates := deduped.candidates.map debugCandidate } }

/-! ## The kept candidates -/

section Kept

variable {uni : EcmaUnicode}

/-- None of the kept candidates is a reason against the candidate. -/
def admitsCandidate (uni : EcmaUnicode) (kept : List RetrievalCandidate)
    (candidate : RetrievalCandidate) : Bool :=
  kept.all fun existing => (dedupReason uni existing candidate).isNone

/-- The candidates that are kept, as they were ranked. -/
def keptCandidates (uni : EcmaUnicode) (candidates : List RetrievalCandidate) :
    List RetrievalCandidate :=
  greedy (admitsCandidate uni) candidates

/-- `rankAfterDedup` of a kept candidate. -/
def numberKept (index : ℕ) (candidate : RetrievalCandidate) : RetrievalCandidate :=
  candidate.withDedup (some (index + 1)) none

/-- What the deduplication writes is not read by it. -/
@[simp] theorem dedupReason_withDedup (left right : RetrievalCandidate) (rank : Option ℕ)
    (reason : Option Text) :
    dedupReason uni (left.withDedup rank reason) right = dedupReason uni left right := rfl

@[simp] theorem dedupReason_numberKept (index : ℕ) (left right : RetrievalCandidate) :
    dedupReason uni (numberKept index left) right = dedupReason uni left right := rfl

theorem suppressDuplicates_concat (candidates : List RetrievalCandidate)
    (candidate : RetrievalCandidate) :
    suppressDuplicates uni (candidates ++ [candidate]) =
      suppressDuplicate uni (suppressDuplicates uni candidates) candidate := by
  rw [suppressDuplicates, List.foldl_append]
  rfl

/-- A numbered candidate is a reason exactly if the candidate itself is. -/
theorem find?_numberKept_eq_none_iff (kept : List RetrievalCandidate)
    (candidate : RetrievalCandidate) :
    ((kept.mapIdx numberKept).find? fun existing =>
        (dedupReason uni existing candidate).isSome) = none ↔
      admitsCandidate uni kept candidate = true := by
  rw [List.find?_eq_none, admitsCandidate, List.all_eq_true]
  constructor
  · intro h existing hexisting
    obtain ⟨i, hi, rfl⟩ := List.getElem_of_mem hexisting
    have hnumbered : numberKept i kept[i] ∈ kept.mapIdx numberKept :=
      List.mem_mapIdx.mpr ⟨i, hi, rfl⟩
    simpa using h _ hnumbered
  · intro h existing hexisting
    obtain ⟨i, hi, rfl⟩ := List.mem_mapIdx.mp hexisting
    simpa using h _ (List.getElem_mem hi)

theorem keptCandidates_concat_of_admits {candidates : List RetrievalCandidate}
    {candidate : RetrievalCandidate}
    (h : admitsCandidate uni (keptCandidates uni candidates) candidate = true) :
    keptCandidates uni (candidates ++ [candidate]) = keptCandidates uni candidates ++ [candidate] :=
  greedy_concat_of_admits h

theorem keptCandidates_concat_of_not {candidates : List RetrievalCandidate}
    {candidate : RetrievalCandidate}
    (h : admitsCandidate uni (keptCandidates uni candidates) candidate = false) :
    keptCandidates uni (candidates ++ [candidate]) = keptCandidates uni candidates :=
  greedy_concat_of_not h

/-- What the loop writes to a candidate that comes behind those of `before`. -/
inductive DedupCase (uni : EcmaUnicode) (before : List RetrievalCandidate)
    (candidate : RetrievalCandidate) : RetrievalCandidate → Prop
  | kept (admits : admitsCandidate uni (keptCandidates uni before) candidate = true) :
      DedupCase uni before candidate (numberKept (keptCandidates uni before).length candidate)
  /-- The first of the kept candidates that is a reason gives it. -/
  | suppressed {i : ℕ} {reason : Text} (hi : i < (keptCandidates uni before).length)
      (first : ∀ j (_ : j < i), dedupReason uni (keptCandidates uni before)[j] candidate = none)
      (duplicate : dedupReason uni (keptCandidates uni before)[i] candidate = some reason) :
      DedupCase uni before candidate (candidate.withDedup none (some reason))

/-- One iteration of the loop. -/
theorem suppressDuplicate_cases {state : DedupState} {before : List RetrievalCandidate}
    (h : state.selected = (keptCandidates uni before).mapIdx numberKept)
    (candidate : RetrievalCandidate) :
    ∃ written, DedupCase uni before candidate written ∧
      (suppressDuplicate uni state candidate).candidates = state.candidates ++ [written] ∧
      (suppressDuplicate uni state candidate).selected =
        (keptCandidates uni (before ++ [candidate])).mapIdx numberKept := by
  rw [suppressDuplicate, h]
  cases hadmits : admitsCandidate uni (keptCandidates uni before) candidate with
  | true =>
    rw [(find?_numberKept_eq_none_iff _ _).mpr hadmits, keptCandidates_concat_of_admits hadmits]
    refine ⟨_, .kept hadmits, ?_, ?_⟩
    · simp [numberKept]
    · simp [numberKept]
  | false =>
    rw [keptCandidates_concat_of_not hadmits]
    split
    · rename_i hnone
      rw [find?_numberKept_eq_none_iff, hadmits] at hnone
      cases hnone
    · rename_i duplicateOf hfound
      obtain ⟨hsome, i, hi, rfl, hfirst⟩ := List.find?_eq_some_iff_getElem.mp hfound
      simp only [List.getElem_mapIdx, dedupReason_numberKept] at hsome hfirst
      rw [List.length_mapIdx] at hi
      obtain ⟨reason, hreason⟩ := Option.isSome_iff_exists.mp hsome
      refine ⟨_, .suppressed hi (fun j hj => ?_) hreason, ?_, rfl⟩
      · simpa using hfirst j hj
      · rw [List.getElem_mapIdx, dedupReason_numberKept, hreason]

/-- The selected candidates are the kept ones, numbered. -/
theorem selected_suppressDuplicates (candidates : List RetrievalCandidate) :
    (suppressDuplicates uni candidates).selected =
      (keptCandidates uni candidates).mapIdx numberKept := by
  induction candidates using List.reverseRecOn with
  | nil => rfl
  | append_singleton candidates candidate ih =>
    obtain ⟨_, -, -, hselected⟩ := suppressDuplicate_cases ih candidate
    rw [suppressDuplicates_concat, hselected]

variable (uni) in
theorem candidates_suppressDuplicates_concat (candidates : List RetrievalCandidate)
    (candidate : RetrievalCandidate) :
    ∃ written, DedupCase uni candidates candidate written ∧
      (suppressDuplicates uni (candidates ++ [candidate])).candidates =
        (suppressDuplicates uni candidates).candidates ++ [written] := by
  obtain ⟨written, hcase, hwritten, -⟩ :=
    suppressDuplicate_cases (selected_suppressDuplicates candidates) candidate
  exact ⟨written, hcase, by rw [suppressDuplicates_concat, hwritten]⟩

theorem length_candidates_suppressDuplicates (candidates : List RetrievalCandidate) :
    (suppressDuplicates uni candidates).candidates.length = candidates.length := by
  induction candidates using List.reverseRecOn with
  | nil => rfl
  | append_singleton candidates candidate ih =>
    obtain ⟨_, -, heq⟩ := candidates_suppressDuplicates_concat uni candidates candidate
    rw [heq, List.length_append, List.length_append, ih]
    rfl

variable (uni) in
/-- Each candidate is written to as the kept ones before it demand. -/
theorem dedupCase_of_getElem (candidates : List RetrievalCandidate) :
    ∀ i (hi : i < candidates.length),
      ∃ written, (suppressDuplicates uni candidates).candidates[i]? = some written ∧
        DedupCase uni (candidates.take i) candidates[i] written := by
  induction candidates using List.reverseRecOn with
  | nil => exact fun i hi => absurd hi (Nat.not_lt_zero i)
  | append_singleton candidates candidate ih =>
    intro i hi
    obtain ⟨written, hcase, heq⟩ := candidates_suppressDuplicates_concat uni candidates candidate
    rw [heq]
    by_cases hlast : i < candidates.length
    · obtain ⟨earlier, hearlier, hcase'⟩ := ih i hlast
      refine ⟨earlier, ?_, ?_⟩
      · rw [List.getElem?_append_left (by rwa [length_candidates_suppressDuplicates]), hearlier]
      · rwa [List.take_append_of_le_length hlast.le, List.getElem_append_left hlast]
    · obtain rfl : i = candidates.length := by
        rw [List.length_append, List.length_singleton] at hi
        omega
      refine ⟨written, ?_, ?_⟩
      · rw [List.getElem?_append_right (by rw [length_candidates_suppressDuplicates]),
          length_candidates_suppressDuplicates]
        simp
      · simpa using hcase

/-- No kept candidate is a reason against a later one. -/
theorem keptCandidates_pairwise (candidates : List RetrievalCandidate) :
    (keptCandidates uni candidates).Pairwise fun a b => dedupReason uni a b = none := by
  refine pairwise_greedy (fun kept candidate hadmits existing hexisting => ?_) candidates
  simpa using List.all_eq_true.mp hadmits existing hexisting

/-- A reason names the candidate that is kept. -/
theorem dedupReason_cases {left right : RetrievalCandidate} {reason : Text}
    (h : dedupReason uni left right = some reason) :
    reason = "duplicate of ".toList ++ idText left.chunkId ∨
      reason = "near-duplicate of ".toList ++ idText left.chunkId := by
  unfold dedupReason at h
  simp only at h
  split_ifs at h
  · cases h
    exact Or.inl rfl
  · cases h
    exact Or.inr rfl

theorem ne_of_dedupReason_eq_none {left right : RetrievalCandidate}
    (h : dedupReason uni left right = none) :
    left.chunkId ≠ right.chunkId ∧ left.checksum ≠ right.checksum := by
  unfold dedupReason at h
  split_ifs at h with hexact
  all_goals exact not_or.mp hexact

/-- A relation that does not read what the deduplication writes. -/
theorem pairwise_mapIdx_numberKept {R : RetrievalCandidate → RetrievalCandidate → Prop}
    (hR : ∀ i j a b, R a b → R (numberKept i a) (numberKept j b))
    {candidates : List RetrievalCandidate} (h : candidates.Pairwise R) :
    (candidates.mapIdx numberKept).Pairwise R := by
  rw [List.pairwise_iff_getElem] at h ⊢
  intro i j hi hj hij
  rw [List.length_mapIdx] at hi hj
  rw [List.getElem_mapIdx, List.getElem_mapIdx]
  exact hR _ _ _ _ (h i j hi hj hij)

theorem sublist_suppressDuplicate {state : DedupState}
    (h : state.selected.Sublist state.candidates) (candidate : RetrievalCandidate) :
    (suppressDuplicate uni state candidate).selected.Sublist
      (suppressDuplicate uni state candidate).candidates := by
  unfold suppressDuplicate
  split
  · exact h.append (List.Sublist.refl _)
  · exact h.trans (List.sublist_append_left _ _)

theorem sublist_suppressDuplicates (candidates : List RetrievalCandidate) :
    (suppressDuplicates uni candidates).selected.Sublist
      (suppressDuplicates uni candidates).candidates := by
  induction candidates using List.reverseRecOn with
  | nil => exact List.Sublist.refl _
  | append_singleton candidates candidate ih =>
    rw [suppressDuplicates_concat]
    exact sublist_suppressDuplicate ih candidate

theorem DedupCase.beforeDedup {before : List RetrievalCandidate}
    {candidate written : RetrievalCandidate} (h : DedupCase uni before candidate written) :
    written.beforeDedup = candidate.beforeDedup := by
  cases h with
  | kept admits => rfl
  | suppressed hi first duplicate => rfl

theorem map_beforeDedup_suppressDuplicates (candidates : List RetrievalCandidate) :
    (suppressDuplicates uni candidates).candidates.map RetrievalCandidate.beforeDedup =
      candidates.map RetrievalCandidate.beforeDedup := by
  induction candidates using List.reverseRecOn with
  | nil => rfl
  | append_singleton candidates candidate ih =>
    obtain ⟨written, hcase, heq⟩ :=
      candidates_suppressDuplicates_concat uni candidates candidate
    rw [heq, List.map_append, List.map_append, ih, List.map_singleton, List.map_singleton,
      hcase.beforeDedup]

end Kept

/-! ## The contract -/

/-- `deduped` is what the deduplication of the ranked candidates leaves: some of
    them, numbered, and a reason for each of the others. -/
structure IsDeduplication (uni : EcmaUnicode) (locale : LocaleCompare)
    (ranked : List RetrievalCandidate) (deduped : DedupState) : Prop where
  unchanged : deduped.candidates.map RetrievalCandidate.beforeDedup =
    ranked.map RetrievalCandidate.beforeDedup
  sublist : deduped.selected.Sublist deduped.candidates
  distinct : deduped.selected.Pairwise fun a b => dedupReason uni a b = none
  /-- A candidate is kept, and has its position, or suppressed for a kept candidate
      that is ranked before it, and that its reason names. -/
  cases : ∀ candidate ∈ deduped.candidates,
    (∃ position, deduped.selected[position]? = some candidate ∧
      candidate.debug.rankAfterDedup = some (position + 1) ∧ candidate.debug.dedupReason = none) ∨
    ∃ existing ∈ deduped.selected, RankedBefore locale existing candidate ∧
      candidate.debug.rankAfterDedup = none ∧
      candidate.debug.dedupReason = dedupReason uni existing candidate ∧
      (candidate.debug.dedupReason = some ("duplicate of ".toList ++ idText existing.chunkId) ∨
        candidate.debug.dedupReason =
          some ("near-duplicate of ".toList ++ idText existing.chunkId))

theorem cases_suppressDuplicates {uni : EcmaUnicode} {locale : LocaleCompare}
    {ranked : List RetrievalCandidate} (hsorted : ranked.Pairwise (RankedBefore locale))
    {candidate : RetrievalCandidate}
    (hcandidate : candidate ∈ (suppressDuplicates uni ranked).candidates) :
    (∃ position, (suppressDuplicates uni ranked).selected[position]? = some candidate ∧
      candidate.debug.rankAfterDedup = some (position + 1) ∧ candidate.debug.dedupReason = none) ∨
    ∃ existing ∈ (suppressDuplicates uni ranked).selected, RankedBefore locale existing candidate ∧
      candidate.debug.rankAfterDedup = none ∧
      candidate.debug.dedupReason = dedupReason uni existing candidate ∧
      (candidate.debug.dedupReason = some ("duplicate of ".toList ++ idText existing.chunkId) ∨
        candidate.debug.dedupReason =
          some ("near-duplicate of ".toList ++ idText existing.chunkId)) := by
  obtain ⟨i, hi, rfl⟩ := List.getElem_of_mem hcandidate
  have hi' : i < ranked.length := by rwa [length_candidates_suppressDuplicates] at hi
  obtain ⟨written, hwritten, hcase⟩ := dedupCase_of_getElem uni ranked i hi'
  obtain rfl := Option.some.inj ((List.getElem?_eq_getElem hi).symm.trans hwritten)
  have hsplit : ranked.take i ++ ranked[i] :: ranked.drop (i + 1) = ranked := by simp
  rw [selected_suppressDuplicates]
  generalize (suppressDuplicates uni ranked).candidates[i] = written at hcase
  cases hcase with
  | kept admits =>
    left
    refine ⟨(keptCandidates uni (ranked.take i)).length, ?_, rfl, rfl⟩
    have hstart : keptCandidates uni (ranked.take i) ++ [ranked[i]] <+:
        keptCandidates uni ranked := by
      rw [← keptCandidates_concat_of_admits admits]
      conv_rhs => rw [← hsplit, List.append_cons]
      exact greedy_prefix _ _
    obtain ⟨rest, hrest⟩ := hstart
    rw [← hrest]
    simp
  | @suppressed position reason hposition first duplicate =>
    right
    have hmem := List.getElem_mem hposition
    generalize (keptCandidates uni (ranked.take i))[position] = existing at duplicate hmem
    have hstart : keptCandidates uni (ranked.take i) <+: keptCandidates uni ranked := by
      conv_rhs => rw [← hsplit]
      exact greedy_prefix _ _
    have hkept : existing ∈ keptCandidates uni ranked := hstart.subset hmem
    have hbefore : RankedBefore locale existing ranked[i] := by
      rw [← hsplit, List.pairwise_append] at hsorted
      exact hsorted.2.2 existing ((greedy_sublist _).subset hmem) _ List.mem_cons_self
    obtain ⟨position, hposition, rfl⟩ := List.getElem_of_mem hkept
    refine ⟨numberKept position (keptCandidates uni ranked)[position],
      List.mem_mapIdx.mpr ⟨position, hposition, rfl⟩, hbefore, rfl, duplicate.symm, ?_⟩
    rcases dedupReason_cases duplicate with rfl | rfl
    · exact Or.inl rfl
    · exact Or.inr rfl

theorem isDeduplication_suppressDuplicates (uni : EcmaUnicode) {locale : LocaleCompare}
    {ranked : List RetrievalCandidate} (hsorted : ranked.Pairwise (RankedBefore locale)) :
    IsDeduplication uni locale ranked (suppressDuplicates uni ranked) where
  unchanged := map_beforeDedup_suppressDuplicates ranked
  sublist := sublist_suppressDuplicates ranked
  distinct := by
    rw [selected_suppressDuplicates]
    exact pairwise_mapIdx_numberKept (fun _ _ _ _ h => h) (keptCandidates_pairwise ranked)
  cases := fun _ hcandidate => cases_suppressDuplicates hsorted hcandidate

/-- `selectedChunks` can be grounded on: the first of the kept candidates. -/
structure IsGroundingSet (locale : LocaleCompare) (params : MergeParams) (groundingTopK : ℕ)
    (ranked kept selectedChunks : List RetrievalCandidate) : Prop where
  isPrefix : selectedChunks <+: kept
  length_le : selectedChunks.length ≤ groundingTopK
  nodup_chunkIds : (selectedChunks.map RetrievalCandidate.chunkId).Nodup
  nodup_checksums : (selectedChunks.map RetrievalCandidate.checksum).Nodup
  sorted : selectedChunks.Pairwise (RankedBefore locale)
  fetched : ∀ chunk ∈ selectedChunks,
    ∃ candidate ∈ params.semanticCandidates ++ params.lexicalCandidates,
      candidate.chunkId = chunk.chunkId
  head : params.semanticCandidates ++ params.lexicalCandidates ≠ [] →
    ∃ top rest, ranked = top :: rest ∧ selectedChunks.head? = some (numberKept 0 top)

theorem chunkId_mem_of_isRanking {locale : LocaleCompare} {params : MergeParams}
    {ranked : List RetrievalCandidate} (h : IsRanking locale params ranked)
    {candidate : RetrievalCandidate} (hcandidate : candidate ∈ ranked) :
    ∃ fetched ∈ params.semanticCandidates ++ params.lexicalCandidates,
      fetched.chunkId = candidate.chunkId := by
  obtain ⟨all, hall, -, -, rfl⟩ := h.complete
  obtain ⟨i, hi, rfl⟩ := List.mem_mapIdx.mp hcandidate
  have hmem : (all.take params.rerankPoolLimit)[i] ∈ all :=
    List.mem_of_mem_take (List.getElem_mem hi)
  have hid := (hall _).mp (List.mem_map_of_mem (f := RetrievalCandidate.chunkId) hmem)
  exact List.mem_map.mp hid

/-- Something is ranked if something is fetched. -/
theorem exists_cons_of_isRanking {locale : LocaleCompare} {params : MergeParams}
    {ranked : List RetrievalCandidate} (h : IsRanking locale params ranked)
    (hlimit : 1 ≤ params.rerankPoolLimit)
    (hfetched : params.semanticCandidates ++ params.lexicalCandidates ≠ []) :
    ∃ top rest, ranked = top :: rest := by
  obtain ⟨all, hall, -, -, rfl⟩ := h.complete
  obtain ⟨candidate, hcandidate⟩ := List.exists_mem_of_ne_nil _ hfetched
  obtain ⟨k, hk⟩ := Nat.exists_eq_add_of_le' hlimit
  cases all with
  | nil => exact absurd ((hall _).mpr (List.mem_map_of_mem hcandidate)) List.not_mem_nil
  | cons top rest =>
    rw [hk, List.take_succ_cons, List.mapIdx_cons]
    exact ⟨_, _, rfl⟩

theorem isGroundingSet_take {uni : EcmaUnicode} {locale : LocaleCompare} {params : MergeParams}
    {ranked : List RetrievalCandidate} (h : IsRanking locale params ranked)
    (hpool : 1 ≤ params.rerankPoolLimit) {groundingTopK : ℕ} (hgrounding : 1 ≤ groundingTopK) :
    IsGroundingSet locale params groundingTopK ranked (suppressDuplicates uni ranked).selected
      ((suppressDuplicates uni ranked).selected.take groundingTopK) := by
  have htake := List.take_sublist groundingTopK (suppressDuplicates uni ranked).selected
  have hdedup := (isDeduplication_suppressDuplicates uni h.sorted).distinct.sublist htake
  constructor
  case isPrefix => exact List.take_prefix _ _
  case length_le => exact List.length_take_le _ _
  case nodup_chunkIds =>
    exact List.pairwise_map.mpr (hdedup.imp fun hreason => (ne_of_dedupReason_eq_none hreason).1)
  case nodup_checksums =>
    exact List.pairwise_map.mpr (hdedup.imp fun hreason => (ne_of_dedupReason_eq_none hreason).2)
  case sorted =>
    refine List.Pairwise.sublist htake ?_
    rw [selected_suppressDuplicates]
    exact pairwise_mapIdx_numberKept (fun _ _ _ _ hbefore => hbefore)
      (h.sorted.sublist (greedy_sublist ranked))
  case fetched =>
    intro chunk hchunk
    have hkept := htake.subset hchunk
    rw [selected_suppressDuplicates] at hkept
    obtain ⟨i, hi, rfl⟩ := List.mem_mapIdx.mp hkept
    have hranked : (keptCandidates uni ranked)[i] ∈ ranked :=
      (greedy_sublist ranked).subset (List.getElem_mem hi)
    obtain ⟨candidate, hcandidate, hid⟩ := chunkId_mem_of_isRanking h hranked
    exact ⟨candidate, hcandidate, hid⟩
  case head =>
    intro hfetched
    obtain ⟨top, rest, rfl⟩ := exists_cons_of_isRanking h hpool hfetched
    obtain ⟨k, rfl⟩ := Nat.exists_eq_add_of_le' hgrounding
    have hhead : (keptCandidates uni (top :: rest)).head? = some top := head?_greedy rfl rest
    obtain ⟨kept, hkept⟩ := List.head?_eq_some_iff.mp hhead
    refine ⟨top, rest, rfl, ?_⟩
    rw [selected_suppressDuplicates, hkept, List.mapIdx_cons, List.take_succ_cons]
    rfl

/-- The chunks that a search selects, the ranks and the reasons that it writes. -/
theorem selection_contract (uni : EcmaUnicode) (locale : LocaleCompare) (now : Time)
    (fetched : FetchedCandidates) (hpool : 1 ≤ fetched.limits.rerankPoolLimit)
    (hgrounding : 1 ≤ fetched.limits.groundingTopK) :
    let ranked := mergeAndScore uni locale now fetched.mergeParams
    let deduped := suppressDuplicates uni ranked
    let result := retrievalResult uni locale now fetched
    IsDeduplication uni locale ranked deduped ∧
      IsGroundingSet locale fetched.mergeParams fetched.limits.groundingTopK ranked deduped.selected
        result.selectedChunks ∧
      result.debug.rankedCandidates = deduped.candidates.map debugCandidate := by
  have hranking : IsRanking locale fetched.mergeParams
      (mergeAndScore uni locale now fetched.mergeParams) := isRanking_mergeAndScore uni locale now hpool
  exact ⟨isDeduplication_suppressDuplicates uni hranking.sorted,
    isGroundingSet_take hranking hpool hgrounding, rfl⟩

/-- The candidates of `guideParams`, and limits for them. -/
def guideFetched : FetchedCandidates where
  query := guideParams.query
  filters := {}
  embeddingsEnabled := true
  limits := { semanticTopN := 24, lexicalTopN := 24, rerankPoolLimit := 24, groundingTopK := 6 }
  semanticFetch := guideParams.semanticCandidates
  lexicalFetch := guideParams.lexicalCandidates

theorem selection_contract_guide :
    let ranked := mergeAndScore .ascii .numeric 0 guideFetched.mergeParams
    let deduped := suppressDuplicates .ascii ranked
    let result := retrievalResult .ascii .numeric 0 guideFetched
    IsDeduplication .ascii .numeric ranked deduped ∧
      IsGroundingSet .numeric guideFetched.mergeParams guideFetched.limits.groundingTopK ranked
        deduped.selected result.selectedChunks ∧
      result.debug.rankedCandidates = deduped.candidates.map debugCandidate :=
  selection_contract .ascii .numeric 0 guideFetched (by decide) (by decide)

end RagStack.Chat
