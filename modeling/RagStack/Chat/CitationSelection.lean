import RagStack.Chat.CitationAssembler
import RagStack.Common.Greedy

/-!
# The law of the citations

What `assemble` of `services/api/src/chat/citation-assembler.service.ts` makes of the
chunk ids of an answer.

* `ids_perm`: each requested id is accepted or rejected.
* `selected_foldl_eq`: the second loop selects greedily.
* `citation_assembly_law`: the citations, the rejections, and that the order, the
  repetitions and the blanks of the used ids do not matter.
-/

namespace RagStack.Chat

open RagStack.Common RagStack.Api
open RagStack.Worker (Text)
open RagStack.Ingest (Id)

/-! ## The comparison -/

section Order

variable (locale : LocaleCompare)

theorem comparePreparedCandidates_eq :
    comparePreparedCandidates locale =
      compareLex (fun left right => compareOn (fun c => c.supportScore) right left)
        (compareLex (fun left right => compareOn (fun c => c.chunk.hybridScore) right left)
          (compareLex (fun left right => compareOn (fun c => c.answerCoverage) right left)
            (compareLex (fun left right => compareOn (fun c => c.queryCoverage) right left)
              (compareLex (compareOn fun c => c.groundingRank)
                (compareLex (compareOn fun c => c.chunk.pageNumber.getD 9007199254740991)
                  fun left right => locale.compare left.chunk.chunkId right.chunk.chunkId))))) :=
  rfl

instance : Std.TransCmp fun left right : PreparedCitationCandidate =>
    locale.compare left.chunk.chunkId right.chunk.chunkId where
  eq_swap := locale.trans.eq_swap
  isLE_trans := locale.trans.isLE_trans

instance : Std.TransCmp (comparePreparedCandidates locale) := by
  rw [comparePreparedCandidates_eq]
  infer_instance

theorem chunkId_eq_of_comparePreparedCandidates {a b : PreparedCitationCandidate}
    (h : comparePreparedCandidates locale a b = .eq) : a.chunk.chunkId = b.chunk.chunkId := by
  simp only [comparePreparedCandidates, Ordering.then_eq_eq] at h
  exact locale.lawfulEq.eq_of_compare h.2.2.2.2.2.2

theorem supportScore_le_of_comparePreparedCandidates {a b : PreparedCitationCandidate}
    (h : (comparePreparedCandidates locale a b).isLE = true) :
    b.supportScore ≤ a.supportScore := by
  by_contra hlt
  have hgt : compare b.supportScore a.supportScore = .gt := compare_gt_iff_gt.mpr (not_le.mp hlt)
  rw [comparePreparedCandidates, hgt] at h
  cases h

/-- The prepared candidates, sorted. -/
def sortedCandidates (uni : EcmaUnicode) (params : AssembleParams) :
    List PreparedCitationCandidate :=
  (preparedCandidates uni params).mergeSort fun left right =>
    (comparePreparedCandidates locale left right).isLE

theorem pairwise_sortedCandidates (uni : EcmaUnicode) (params : AssembleParams) :
    (sortedCandidates locale uni params).Pairwise fun a b => b.supportScore ≤ a.supportScore := by
  have hsorted : (sortedCandidates locale uni params).Pairwise
      fun a b => (comparePreparedCandidates locale a b).isLE = true :=
    pairwise_mergeSort_isLE _
  exact hsorted.imp (supportScore_le_of_comparePreparedCandidates locale)

end Order

/-! ## The first loop -/

section Requested

variable {uni : EcmaUnicode} {params : AssembleParams}

theorem admitChunkId_rejection {chunkId : Text} {rejection : CitationAssemblyRejection}
    (h : admitChunkId uni params chunkId = .error rejection) :
    rejection.chunkId = chunkId ∧ rejection.reason ∈
      ["not_in_grounding_set", "snippet_unavailable", "support_too_weak"] := by
  unfold admitChunkId at h
  split at h
  · cases h
    exact ⟨rfl, by simp⟩
  · split at h
    · rename_i reason hprepared
      cases h
      unfold prepareCandidate at hprepared
      split at hprepared
      · cases hprepared
        exact ⟨rfl, by simp⟩
      · cases hprepared
    · split_ifs at h
      cases h
      exact ⟨rfl, by simp⟩

/-- Each requested id is prepared or rejected by the first loop. -/
theorem prepared_append_rejected_perm :
    ((preparedCandidates uni params).map (fun prepared => idText prepared.chunk.chunkId) ++
      (firstRejections uni params).map CitationAssemblyRejection.chunkId).Perm
        (requestedChunkIds params.usedChunkIds) := by
  refine perm_of_results (fun chunkId => ?_) (requestedChunkIds params.usedChunkIds)
  cases hresult : admitChunkId uni params chunkId with
  | ok prepared => exact Or.inl ⟨prepared, rfl, rfl, (admitChunkId_spec hresult).2.1⟩
  | error rejection => exact Or.inr ⟨rejection, rfl, rfl, (admitChunkId_rejection hresult).1⟩

theorem exists_admitChunkId_of_mem {prepared : PreparedCitationCandidate}
    (h : prepared ∈ preparedCandidates uni params) :
    admitChunkId uni params (idText prepared.chunk.chunkId) = .ok prepared := by
  obtain ⟨chunkId, -, hadmitted⟩ := exists_requested_of_mem h
  rw [(admitChunkId_spec hadmitted).2.1, hadmitted]

/-- A prepared candidate is told by its chunk id. -/
theorem prepared_eq_of_chunkId_eq {a b : PreparedCitationCandidate}
    (ha : a ∈ preparedCandidates uni params) (hb : b ∈ preparedCandidates uni params)
    (h : a.chunk.chunkId = b.chunk.chunkId) : a = b := by
  have hadmitted := exists_admitChunkId_of_mem ha
  rw [h, exists_admitChunkId_of_mem hb] at hadmitted
  exact (Except.ok.inj hadmitted).symm

theorem mem_firstRejections {rejection : CitationAssemblyRejection}
    (h : rejection ∈ firstRejections uni params) :
    rejection.reason ∈ ["not_in_grounding_set", "snippet_unavailable", "support_too_weak"] := by
  obtain ⟨chunkId, -, hrejected⟩ := List.mem_filterMap.mp h
  split at hrejected
  · rename_i hresult
    cases hrejected
    exact (admitChunkId_rejection hresult).2
  · cases hrejected

end Requested

/-! ## The second loop -/

section Selected

variable {uni : EcmaUnicode} {maxCitations : ℕ}

/-- A candidate is admitted if it is not redundant, and there is room. -/
def admitsCitation (uni : EcmaUnicode) (maxCitations : ℕ)
    (selected : List PreparedCitationCandidate) (candidate : PreparedCitationCandidate) : Bool :=
  selected.all (fun existing => (findRedundantReason uni existing candidate).isNone) &&
    selected.length < maxCitations

/-- What the second loop does with a candidate. -/
inductive SelectCase (uni : EcmaUnicode) (maxCitations : ℕ) (state : CitationSelection)
    (candidate : PreparedCitationCandidate) : CitationSelection → Prop
  | selected (admits : admitsCitation uni maxCitations state.selected candidate = true) :
      SelectCase uni maxCitations state candidate
        { state with selected := state.selected ++ [candidate] }
  | redundant {existing : PreparedCitationCandidate} {reason : String}
      (rejects : admitsCitation uni maxCitations state.selected candidate = false)
      (mem : existing ∈ state.selected)
      (redundant : findRedundantReason uni existing candidate = some reason) :
      SelectCase uni maxCitations state candidate
        { state with
          rejected := state.rejected ++
            [{ chunkId := idText candidate.chunk.chunkId, reason := reason }] }
  | full (rejects : admitsCitation uni maxCitations state.selected candidate = false)
      (full : maxCitations ≤ state.selected.length) :
      SelectCase uni maxCitations state candidate
        { state with
          rejected := state.rejected ++
            [{ chunkId := idText candidate.chunk.chunkId, reason := "citation_limit_exceeded" }] }

theorem selectCitation_cases (state : CitationSelection) (candidate : PreparedCitationCandidate) :
    SelectCase uni maxCitations state candidate
      (selectCitation uni maxCitations state candidate) := by
  unfold selectCitation
  simp only
  split
  · rename_i reason hfound
    obtain ⟨existing, hmem, hreason⟩ := List.exists_of_findSome?_eq_some hfound
    refine .redundant ?_ hmem hreason
    rw [admitsCitation, Bool.and_eq_false_iff, List.all_eq_false]
    exact Or.inl ⟨existing, hmem, by simp [hreason]⟩
  · rename_i hnone
    rw [List.findSome?_eq_none_iff] at hnone
    split_ifs with hfull
    · exact .full (by simp [admitsCitation, hfull]) hfull
    · refine .selected ?_
      rw [admitsCitation, Bool.and_eq_true, List.all_eq_true, decide_eq_true_eq]
      exact ⟨fun existing hmem => by simp [hnone existing hmem], not_le.mp hfull⟩

/-- The selected candidates after a step. -/
theorem SelectCase.selected_eq {state state' : CitationSelection}
    {candidate : PreparedCitationCandidate} (h : SelectCase uni maxCitations state candidate state') :
    state'.selected =
      greedyStep (admitsCitation uni maxCitations) state.selected candidate := by
  cases h with
  | selected admits => simp [greedyStep, admits]
  | redundant rejects mem redundant => simp [greedyStep, rejects]
  | full rejects full => simp [greedyStep, rejects]

theorem selected_foldl_eq (candidates : List PreparedCitationCandidate)
    (rejected : List CitationAssemblyRejection) :
    (candidates.foldl (selectCitation uni maxCitations) { rejected := rejected }).selected =
      greedy (admitsCitation uni maxCitations) candidates := by
  induction candidates using List.reverseRecOn with
  | nil => rfl
  | append_singleton candidates candidate ih =>
    rw [List.foldl_append, List.foldl_cons, List.foldl_nil,
      (selectCitation_cases _ candidate).selected_eq, ih, greedy_concat]

/-- A step accepts or rejects the id of its candidate. -/
theorem SelectCase.ids_perm {state state' : CitationSelection}
    {candidate : PreparedCitationCandidate} (h : SelectCase uni maxCitations state candidate state') :
    (state'.selected.map (fun c => idText c.chunk.chunkId) ++
      state'.rejected.map CitationAssemblyRejection.chunkId).Perm
        (idText candidate.chunk.chunkId :: (state.selected.map (fun c => idText c.chunk.chunkId) ++
          state.rejected.map CitationAssemblyRejection.chunkId)) := by
  cases h with
  | selected admits =>
    rw [List.map_append, List.append_assoc]
    exact List.perm_middle
  | redundant rejects mem redundant =>
    rw [List.map_append, ← List.append_assoc]
    exact List.perm_append_singleton _ _
  | full rejects full =>
    rw [List.map_append, ← List.append_assoc]
    exact List.perm_append_singleton _ _

theorem ids_foldl_perm (candidates : List PreparedCitationCandidate)
    (rejected : List CitationAssemblyRejection) :
    ((candidates.foldl (selectCitation uni maxCitations) { rejected := rejected }).selected.map
        (fun c => idText c.chunk.chunkId) ++
      (candidates.foldl (selectCitation uni maxCitations) { rejected := rejected }).rejected.map
        CitationAssemblyRejection.chunkId).Perm
      (candidates.map (fun c => idText c.chunk.chunkId) ++
        rejected.map CitationAssemblyRejection.chunkId) := by
  induction candidates using List.reverseRecOn with
  | nil => exact List.Perm.refl _
  | append_singleton candidates candidate ih =>
    rw [List.foldl_append, List.foldl_cons, List.foldl_nil, List.map_append, List.append_assoc]
    exact (selectCitation_cases _ candidate).ids_perm.trans
      ((ih.cons _).trans List.perm_middle.symm)

end Selected

/-! ## The rejections of the second loop -/

/-- The reasons that name the chunk that a candidate is redundant with. -/
def redundantReasons (chunkId : Id) : List String :=
  ["duplicate_of_" ++ String.ofList (idText chunkId),
    "near_duplicate_of_" ++ String.ofList (idText chunkId),
    "same_section_redundant_with_" ++ String.ofList (idText chunkId)]

theorem mem_redundantReasons {uni : EcmaUnicode} {existing candidate : PreparedCitationCandidate}
    {reason : String} (h : findRedundantReason uni existing candidate = some reason) :
    reason ∈ redundantReasons existing.chunk.chunkId := by
  unfold findRedundantReason at h
  simp only at h
  split_ifs at h
  all_goals
    cases h
    simp [redundantReasons]

/-- A rejection by the second loop: the candidate is redundant with a selected one of
    at least its score, or there is no room for it. -/
def IsSecondRejection (maxCitations : ℕ) (candidates selected : List PreparedCitationCandidate)
    (rejection : CitationAssemblyRejection) : Prop :=
  ∃ candidate ∈ candidates, idText candidate.chunk.chunkId = rejection.chunkId ∧
    ((∃ existing ∈ selected, candidate.supportScore ≤ existing.supportScore ∧
        rejection.reason ∈ redundantReasons existing.chunk.chunkId) ∨
      rejection.reason = "citation_limit_exceeded" ∧ maxCitations ≤ selected.length)

theorem IsSecondRejection.mono {maxCitations : ℕ}
    {candidates candidates' selected selected' : List PreparedCitationCandidate}
    {rejection : CitationAssemblyRejection}
    (h : IsSecondRejection maxCitations candidates selected rejection)
    (hcandidates : candidates ⊆ candidates') (hselected : selected.Sublist selected') :
    IsSecondRejection maxCitations candidates' selected' rejection := by
  obtain ⟨candidate, hmem, hid, hreason⟩ := h
  refine ⟨candidate, hcandidates hmem, hid, ?_⟩
  rcases hreason with ⟨existing, hexisting, hscore, hreason⟩ | ⟨hreason, hfull⟩
  · exact Or.inl ⟨existing, hselected.subset hexisting, hscore, hreason⟩
  · exact Or.inr ⟨hreason, hfull.trans hselected.length_le⟩

theorem SelectCase.rejections {uni : EcmaUnicode} {maxCitations : ℕ}
    {state state' : CitationSelection} {candidate : PreparedCitationCandidate}
    (h : SelectCase uni maxCitations state candidate state')
    (hscore : ∀ existing ∈ state.selected, candidate.supportScore ≤ existing.supportScore)
    {rejection : CitationAssemblyRejection} (hrejection : rejection ∈ state'.rejected) :
    rejection ∈ state.rejected ∨
      IsSecondRejection maxCitations [candidate] state'.selected rejection := by
  cases h with
  | selected admits => exact Or.inl hrejection
  | redundant rejects mem redundant =>
    rcases List.mem_append.mp hrejection with hold | hnew
    · exact Or.inl hold
    · obtain rfl := List.mem_singleton.mp hnew
      exact Or.inr ⟨candidate, List.mem_singleton_self _, rfl,
        Or.inl ⟨_, mem, hscore _ mem, mem_redundantReasons redundant⟩⟩
  | full rejects full =>
    rcases List.mem_append.mp hrejection with hold | hnew
    · exact Or.inl hold
    · obtain rfl := List.mem_singleton.mp hnew
      exact Or.inr ⟨candidate, List.mem_singleton_self _, rfl, Or.inr ⟨rfl, full⟩⟩

/-- Of candidates sorted by their scores. -/
theorem rejections_foldl {uni : EcmaUnicode} {maxCitations : ℕ}
    {rejected : List CitationAssemblyRejection} {candidates : List PreparedCitationCandidate}
    (hsorted : candidates.Pairwise fun a b => b.supportScore ≤ a.supportScore) :
    ∀ rejection ∈
        (candidates.foldl (selectCitation uni maxCitations) { rejected := rejected }).rejected,
      rejection ∈ rejected ∨ IsSecondRejection maxCitations candidates
        (candidates.foldl (selectCitation uni maxCitations) { rejected := rejected }).selected
        rejection := by
  induction candidates using List.reverseRecOn with
  | nil => exact fun rejection h => Or.inl h
  | append_singleton candidates candidate ih =>
    obtain ⟨hbefore, -, hlast⟩ := List.pairwise_append.mp hsorted
    intro rejection hrejection
    rw [List.foldl_append, List.foldl_cons, List.foldl_nil] at hrejection ⊢
    have hsublist : (candidates.foldl (selectCitation uni maxCitations)
        { rejected := rejected }).selected.Sublist candidates := by
      rw [selected_foldl_eq]
      exact greedy_sublist candidates
    generalize hstate : candidates.foldl (selectCitation uni maxCitations)
      { rejected := rejected } = state at hrejection ih hsublist ⊢
    have hcase : SelectCase uni maxCitations state candidate _ := selectCitation_cases state candidate
    have hgrows : state.selected.Sublist
        (selectCitation uni maxCitations state candidate).selected := by
      rw [hcase.selected_eq]
      exact sublist_greedyStep _ _
    have hscore : ∀ existing ∈ state.selected, candidate.supportScore ≤ existing.supportScore :=
      fun existing h => hlast existing (hsublist.subset h) candidate (List.mem_singleton_self _)
    rcases hcase.rejections hscore hrejection with hold | hnew
    · rcases ih hbefore rejection hold with hfirst | hsecond
      · exact Or.inl hfirst
      · exact Or.inr (hsecond.mono (List.subset_append_left _ _) hgrows)
    · exact Or.inr (hnew.mono (List.subset_append_right _ _) (List.Sublist.refl _))

/-! ## The ids that are used -/

/-- `padded` is the text with blanks around it. -/
def IsPadded (text padded : Text) : Prop :=
  ∃ before after, (∀ c ∈ before, isSpace c = true) ∧ (∀ c ∈ after, isSpace c = true) ∧
    padded = before ++ text ++ after

/-- `usedChunkIds'` has the elements of `usedChunkIds`, in any order, any number of
    times, and with blanks around them. -/
def SameChunkIds (usedChunkIds usedChunkIds' : List Text) : Prop :=
  (∀ used ∈ usedChunkIds, ∃ padded ∈ usedChunkIds', IsPadded used padded) ∧
    ∀ padded ∈ usedChunkIds', ∃ used ∈ usedChunkIds, IsPadded used padded

theorem trim_of_isPadded {text padded : Text} (h : IsPadded text padded) :
    trim padded = trim text := by
  obtain ⟨before, after, hbefore, hafter, rfl⟩ := h
  exact strip_append_seps isSpace hbefore hafter text

theorem requestedChunkIds_perm {usedChunkIds usedChunkIds' : List Text}
    (h : SameChunkIds usedChunkIds usedChunkIds') :
    (requestedChunkIds usedChunkIds).Perm (requestedChunkIds usedChunkIds') := by
  refine eraseDups_perm fun chunkId => ?_
  simp only [List.mem_filter, List.mem_map, and_congr_left_iff]
  rintro -
  constructor
  · rintro ⟨used, hused, rfl⟩
    obtain ⟨padded, hpadded, hpad⟩ := h.1 used hused
    exact ⟨padded, hpadded, trim_of_isPadded hpad⟩
  · rintro ⟨padded, hpadded, rfl⟩
    obtain ⟨used, hused, hpad⟩ := h.2 padded hpadded
    exact ⟨used, hused, (trim_of_isPadded hpad).symm⟩

section Independent

variable {uni : EcmaUnicode} {params : AssembleParams} {usedChunkIds' : List Text}

theorem preparedCandidates_perm (h : SameChunkIds params.usedChunkIds usedChunkIds') :
    (preparedCandidates uni params).Perm
      (preparedCandidates uni { params with usedChunkIds := usedChunkIds' }) :=
  (requestedChunkIds_perm h).filterMap fun chunkId => (admitChunkId uni params chunkId).toOption

theorem sortedCandidates_eq (locale : LocaleCompare)
    (h : SameChunkIds params.usedChunkIds usedChunkIds') :
    sortedCandidates locale uni params =
      sortedCandidates locale uni { params with usedChunkIds := usedChunkIds' } := by
  refine mergeSort_eq_of_perm (fun a b ha hb heq => ?_) (preparedCandidates_perm h)
  exact prepared_eq_of_chunkId_eq ha hb (chunkId_eq_of_comparePreparedCandidates locale heq)

theorem selected_selectCitations (locale : LocaleCompare) (maxCitations : ℕ) :
    (selectCitations uni locale maxCitations params).selected =
      greedy (admitsCitation uni maxCitations) (sortedCandidates locale uni params) :=
  selected_foldl_eq _ _

theorem citations_assemble_eq (locale : LocaleCompare) (maxCitations : ℕ)
    (h : SameChunkIds params.usedChunkIds usedChunkIds') :
    (assemble uni locale maxCitations { params with usedChunkIds := usedChunkIds' }).citations =
      (assemble uni locale maxCitations params).citations := by
  simp only [assemble, selected_selectCitations, sortedCandidates_eq locale h]

end Independent

/-! ## The law -/

/-- What `assemble` returns for the ids, the chunks and the texts of `params`. -/
structure IsAssembly (uni : EcmaUnicode) (maxCitations : ℕ) (params : AssembleParams)
    (result : CitationAssemblyResult) : Prop where
  /-- Each used id that is not blank is accepted or rejected, and nothing else. -/
  mem_ids : ∀ id, id ∈ result.debug.acceptedChunkIds ++
      result.debug.rejectedChunkIds.map CitationAssemblyRejection.chunkId ↔
    id ≠ [] ∧ ∃ used ∈ params.usedChunkIds, trim used = id
  nodup_ids : (result.debug.acceptedChunkIds ++
    result.debug.rejectedChunkIds.map CitationAssemblyRejection.chunkId).Nodup
  acceptedChunkIds : result.debug.acceptedChunkIds =
    result.citations.map fun citation => idText citation.chunkId
  /-- The citations are made of used chunks that are not redundant with each other. -/
  cited : ∃ kept : List PreparedCitationCandidate,
    result.citations = (kept.mapIdx fun index candidate => toCitationView candidate (index + 1)) ∧
    (∀ candidate ∈ kept, candidate.chunk ∈ params.selectedChunks ∧
      ∃ used ∈ params.usedChunkIds, trim used = idText candidate.chunk.chunkId) ∧
    kept.Pairwise fun existing candidate => findRedundantReason uni existing candidate = none
  supported : ∀ citation ∈ result.citations, MIN_CITATION_SUPPORT_SCORE ≤ citation.score
  sorted : result.citations.Pairwise fun a b => b.score ≤ a.score
  ranks : result.citations.map CitationView.rank = List.range' 1 result.citations.length
  length_le : result.citations.length ≤ maxCitations
  /-- A redundant candidate is rejected for a citation of at least its score. -/
  rejected : ∀ rejection ∈ result.debug.rejectedChunkIds,
    rejection.reason ∈ ["not_in_grounding_set", "snippet_unavailable", "support_too_weak"] ∨
    rejection.reason = "citation_limit_exceeded" ∧ result.citations.length = maxCitations ∨
    ∃ candidate, admitChunkId uni params rejection.chunkId = .ok candidate ∧
      ∃ citation ∈ result.citations, candidate.supportScore ≤ citation.score ∧
        rejection.reason ∈ redundantReasons citation.chunkId

section Law

variable {uni : EcmaUnicode} {locale : LocaleCompare} {maxCitations : ℕ} {params : AssembleParams}

theorem ids_assemble_perm :
    ((assemble uni locale maxCitations params).debug.acceptedChunkIds ++
      (assemble uni locale maxCitations params).debug.rejectedChunkIds.map
        CitationAssemblyRejection.chunkId).Perm (requestedChunkIds params.usedChunkIds) := by
  have haccepted : (assemble uni locale maxCitations params).debug.acceptedChunkIds =
      (selectCitations uni locale maxCitations params).selected.map
        fun c => idText c.chunk.chunkId := by
    refine List.ext_getElem (by simp [assemble]) fun i hi hi' => ?_
    simp [assemble, toCitationView]
  rw [haccepted]
  refine (ids_foldl_perm (sortedCandidates locale uni params) (firstRejections uni params)).trans ?_
  exact (((List.mergeSort_perm _ _).map _).append_right _).trans prepared_append_rejected_perm

theorem pairwise_citations_assemble {R : PreparedCitationCandidate → PreparedCitationCandidate → Prop}
    {S : CitationView → CitationView → Prop}
    (hRS : ∀ i j a b, R a b → S (toCitationView a i) (toCitationView b j))
    (h : (selectCitations uni locale maxCitations params).selected.Pairwise R) :
    (assemble uni locale maxCitations params).citations.Pairwise S := by
  rw [List.pairwise_iff_getElem] at h ⊢
  intro i j hi hj hij
  simp only [assemble, List.length_mapIdx] at hi hj
  simp only [assemble, List.getElem_mapIdx]
  exact hRS _ _ _ _ (h i j hi hj hij)

theorem exists_citation_of_selected {candidate : PreparedCitationCandidate}
    (h : candidate ∈ (selectCitations uni locale maxCitations params).selected) :
    ∃ citation ∈ (assemble uni locale maxCitations params).citations,
      citation.chunkId = candidate.chunk.chunkId ∧ citation.score = candidate.supportScore := by
  obtain ⟨i, hi, rfl⟩ := List.getElem_of_mem h
  exact ⟨_, List.mem_mapIdx.mpr ⟨i, hi, rfl⟩, rfl, rfl⟩

theorem rejected_assemble {rejection : CitationAssemblyRejection}
    (h : rejection ∈ (assemble uni locale maxCitations params).debug.rejectedChunkIds) :
    rejection.reason ∈ ["not_in_grounding_set", "snippet_unavailable", "support_too_weak"] ∨
    rejection.reason = "citation_limit_exceeded" ∧
      (assemble uni locale maxCitations params).citations.length = maxCitations ∨
    ∃ candidate, admitChunkId uni params rejection.chunkId = .ok candidate ∧
      ∃ citation ∈ (assemble uni locale maxCitations params).citations,
        candidate.supportScore ≤ citation.score ∧
          rejection.reason ∈ redundantReasons citation.chunkId := by
  rcases rejections_foldl (pairwise_sortedCandidates locale uni params) rejection h with
    hfirst | ⟨candidate, hmem, hid, hreason⟩
  · exact Or.inl (mem_firstRejections hfirst)
  · rcases hreason with ⟨existing, hexisting, hscore, hreason⟩ | ⟨hreason, hfull⟩
    · obtain ⟨citation, hcitation, hchunk, hscore'⟩ := exists_citation_of_selected hexisting
      refine Or.inr (Or.inr ⟨candidate, ?_, citation, hcitation, ?_, ?_⟩)
      · rw [← hid]
        exact exists_admitChunkId_of_mem (List.mem_mergeSort.mp hmem)
      · rwa [hscore']
      · rwa [hchunk]
    · refine Or.inr (Or.inl ⟨hreason, le_antisymm length_citations_assemble_le ?_⟩)
      rw [assemble, List.length_mapIdx]
      exact hfull

theorem isAssembly_assemble :
    IsAssembly uni maxCitations params (assemble uni locale maxCitations params) := by
  have hsublist : (selectCitations uni locale maxCitations params).selected.Sublist
      (sortedCandidates locale uni params) := by
    rw [selected_selectCitations]
    exact greedy_sublist _
  have hprepared : ∀ candidate ∈ (selectCitations uni locale maxCitations params).selected,
      candidate ∈ preparedCandidates uni params :=
    fun candidate h => List.mem_mergeSort.mp (hsublist.subset h)
  constructor
  case mem_ids =>
    intro id
    rw [ids_assemble_perm.mem_iff, mem_requestedChunkIds]
  case nodup_ids => exact ids_assemble_perm.nodup_iff.mpr (nodup_eraseDups _)
  case acceptedChunkIds => rfl
  case cited =>
    refine ⟨_, rfl, fun candidate h => ?_, ?_⟩
    · obtain ⟨hchunk, hid⟩ := mem_preparedCandidates (hprepared candidate h)
      exact ⟨hchunk, (mem_requestedChunkIds.mp hid).2⟩
    · rw [selected_selectCitations]
      refine pairwise_greedy (fun kept candidate hadmits existing hexisting => ?_) _
      rw [admitsCitation, Bool.and_eq_true, List.all_eq_true] at hadmits
      simpa using hadmits.1 existing hexisting
  case supported =>
    intro citation h
    obtain ⟨i, hi, rfl⟩ := List.mem_mapIdx.mp h
    have hadmitted := exists_admitChunkId_of_mem (hprepared _ (List.getElem_mem hi))
    exact (admitChunkId_spec hadmitted).2.2
  case sorted =>
    exact pairwise_citations_assemble (fun _ _ _ _ hscore => hscore)
      ((pairwise_sortedCandidates locale uni params).sublist hsublist)
  case ranks => exact ranks_assemble
  case length_le => exact length_citations_assemble_le
  case rejected => exact fun _ h => rejected_assemble h

end Law

/-- The citations of an answer, and that the way in which the used ids are written does
    not matter for them. -/
theorem citation_assembly_law (uni : EcmaUnicode) (locale : LocaleCompare) (maxCitations : ℕ)
    (params : AssembleParams) :
    IsAssembly uni maxCitations params (assemble uni locale maxCitations params) ∧
      ∀ usedChunkIds', SameChunkIds params.usedChunkIds usedChunkIds' →
        (assemble uni locale maxCitations
          { params with usedChunkIds := usedChunkIds' }).citations =
            (assemble uni locale maxCitations params).citations :=
  ⟨isAssembly_assemble, fun _ h => citations_assemble_eq locale maxCitations h⟩

end RagStack.Chat
