import RagStack.Api.Numbers
import RagStack.Chat.Ask
import RagStack.Chat.CitationSelection
import RagStack.Chat.Excerpts
import RagStack.Chat.HybridScores

/-!
# The local answer is citable

The answer that `createGroundedAnswer` of
`services/api/src/chat/local-grounded-answer.service.ts` composes from the chunks, as
`assemble` of `citation-assembler.service.ts` sees it.

* `usedChunks` — the chunks that the answer is composed of.
* `exists_used_of_mem_terms`: each term of the answer is a term of a used chunk.
* `hybridScore_of_mem_used`: of several used chunks, none scores below the minimum for
  those after the first.
* `local_answer_citable`: the answer gets a citation, and stays grounded.
-/

namespace RagStack.Chat

open RagStack.Common RagStack.Api
open RagStack.Worker (Text)
open RagStack.Ingest (Id)

/-! ## The used chunks -/

/-- The snippet of a chunk in `createGroundedAnswer`. -/
def localSnippet (uni : EcmaUnicode) (question normalizedQuery : Text)
    (chunk : RetrievalCandidate) : Text :=
  cleanSnippet ((buildSnippet uni chunk.content normalizedQuery question).getD chunk.content)

/-- The chunks that an answer is composed of. -/
def usedChunks (uni : EcmaUnicode) (question normalizedQuery : Text)
    (selectedChunks : List RetrievalCandidate) : List RetrievalCandidate :=
  (selectChunks uni question selectedChunks).filter fun chunk =>
    localSnippet uni question normalizedQuery chunk ≠ []

section Used

variable {uni : EcmaUnicode} {question normalizedQuery : Text}
  {selectedChunks : List RetrievalCandidate}

/-- A grounded answer is composed of the snippets of the used chunks. -/
theorem createLocalAnswer_grounded
    (h : (createLocalAnswer uni question normalizedQuery selectedChunks).answer.status =
      .grounded) :
    usedChunks uni question normalizedQuery selectedChunks ≠ [] ∧
      (createLocalAnswer uni question normalizedQuery selectedChunks).answer.answer =
        composeAnswer ((usedChunks uni question normalizedQuery selectedChunks).map
          (localSnippet uni question normalizedQuery)) ∧
      (createLocalAnswer uni question normalizedQuery selectedChunks).answer.usedChunkIds =
        (usedChunks uni question normalizedQuery selectedChunks).map fun chunk =>
          idText chunk.chunkId := by
  have hentries : ((selectChunks uni question selectedChunks).map fun chunk =>
      (idText chunk.chunkId,
        cleanSnippet ((buildSnippet uni chunk.content normalizedQuery question).getD
          chunk.content))).filter (fun entry => entry.2 ≠ []) =
      (usedChunks uni question normalizedQuery selectedChunks).map fun chunk =>
        (idText chunk.chunkId, localSnippet uni question normalizedQuery chunk) := by
    simp only [List.filter_map, usedChunks, localSnippet, Function.comp_def]
    rfl
  unfold createLocalAnswer at h ⊢
  simp only [hentries] at h ⊢
  split_ifs at h ⊢ with hnone
  simp only [List.map_map, Function.comp_def, and_true]
  intro hnil
  exact hnone (by rw [hnil, List.map_nil])

/-- The chosen chunks stand in the order of the selected ones, are three at most, and
    have a minimum score behind the first. -/
structure IsChosen (chunks chosen : List RetrievalCandidate) : Prop where
  sublist : chosen.Sublist chunks
  length_le : chosen.length ≤ MAX_LOCAL_GROUNDED_CHUNKS
  followOns : ∀ chunk ∈ chosen.tail, MIN_FOLLOW_ON_CHUNK_SCORE ≤ chunk.hybridScore

theorem chosen_selectChunk (queryTerms : List Text) (topScore : ℚ) (state : ChunkSelection)
    (chunk : RetrievalCandidate) :
    (selectChunk uni queryTerms topScore state chunk).chosen = state.chosen ∨
      (selectChunk uni queryTerms topScore state chunk).chosen = state.chosen ++ [chunk] ∧
        state.chosen.length < MAX_LOCAL_GROUNDED_CHUNKS ∧
        (state.chosen ≠ [] → MIN_FOLLOW_ON_CHUNK_SCORE ≤ chunk.hybridScore) := by
  unfold selectChunk
  simp only
  split_ifs with hfull hweak hcovered
  · exact Or.inl rfl
  · exact Or.inl rfl
  · exact Or.inl rfl
  · refine Or.inr ⟨rfl, not_le.mp hfull, fun hne => ?_⟩
    exact (le_max_left _ _).trans (not_lt.mp fun hlt => hweak ⟨hne, hlt⟩)

theorem isChosen_foldl (queryTerms : List Text) (topScore : ℚ) (chunks : List RetrievalCandidate) :
    IsChosen chunks (chunks.foldl (selectChunk uni queryTerms topScore) {}).chosen := by
  induction chunks using List.reverseRecOn with
  | nil => exact ⟨List.nil_sublist _, Nat.zero_le _, List.forall_mem_nil _⟩
  | append_singleton chunks chunk ih =>
    rw [List.foldl_append, List.foldl_cons, List.foldl_nil]
    rcases chosen_selectChunk queryTerms topScore
      (chunks.foldl (selectChunk uni queryTerms topScore) {}) chunk with hkeep | ⟨hpush, hroom, hmin⟩
    · rw [hkeep]
      exact ⟨ih.sublist.trans (List.sublist_append_left _ _), ih.length_le, ih.followOns⟩
    · rw [hpush]
      refine ⟨ih.sublist.append (List.Sublist.refl _), ?_, fun added hadded => ?_⟩
      · rw [List.length_append]
        exact hroom
      · generalize (chunks.foldl (selectChunk uni queryTerms topScore) {}).chosen = chosen at *
        cases chosen with
        | nil => cases hadded
        | cons first chosen =>
          rw [List.cons_append, List.tail_cons, List.mem_append, List.mem_singleton] at hadded
          rcases hadded with hadded | rfl
          · exact ih.followOns added hadded
          · exact hmin (List.cons_ne_nil _ _)

theorem isChosen_selectChunks (question : Text) (selectedChunks : List RetrievalCandidate) :
    IsChosen selectedChunks (selectChunks uni question selectedChunks) := by
  unfold selectChunks
  split
  · exact ⟨List.nil_sublist _, Nat.zero_le _, List.forall_mem_nil _⟩
  · rename_i first rest
    simp only
    split_ifs
    · have hone : 1 ≤ MAX_LOCAL_GROUNDED_CHUNKS := by decide
      exact ⟨List.singleton_sublist.mpr List.mem_cons_self, hone, List.forall_mem_nil _⟩
    · exact isChosen_foldl _ _ _

theorem usedChunks_sublist :
    (usedChunks uni question normalizedQuery selectedChunks).Sublist selectedChunks :=
  List.filter_sublist.trans (isChosen_selectChunks question selectedChunks).sublist

theorem length_usedChunks_le :
    (usedChunks uni question normalizedQuery selectedChunks).length ≤ 3 :=
  (List.length_filter_le _ _).trans (isChosen_selectChunks question selectedChunks).length_le

/-- Where more than one chunk is used, each scores at least the minimum: the first one is
    not below the others. -/
theorem hybridScore_of_mem_used
    (hsorted : selectedChunks.Pairwise fun left right => right.hybridScore ≤ left.hybridScore)
    (hseveral : 1 < (usedChunks uni question normalizedQuery selectedChunks).length)
    {chunk : RetrievalCandidate}
    (h : chunk ∈ usedChunks uni question normalizedQuery selectedChunks) :
    MIN_FOLLOW_ON_CHUNK_SCORE ≤ chunk.hybridScore := by
  have hchosen : IsChosen selectedChunks (selectChunks uni question selectedChunks) :=
    isChosen_selectChunks question selectedChunks
  have hmem : chunk ∈ selectChunks uni question selectedChunks := List.mem_of_mem_filter h
  have hlength : 1 < (selectChunks uni question selectedChunks).length :=
    hseveral.trans_le (List.length_filter_le _ _)
  have hpairs := hsorted.sublist hchosen.sublist
  have hfollowOns := hchosen.followOns
  cases hlist : selectChunks uni question selectedChunks with
  | nil =>
    rw [hlist] at hmem
    cases hmem
  | cons first followOns =>
    rw [hlist] at hmem hlength hpairs hfollowOns
    rcases List.mem_cons.mp hmem with rfl | hmem
    · obtain ⟨second, hsecond⟩ := List.exists_mem_of_length_pos (Nat.lt_of_succ_lt_succ hlength)
      exact (hfollowOns second hsecond).trans (List.rel_of_pairwise_cons hpairs hsecond)
    · exact hfollowOns chunk hmem

end Used

/-! ## The terms of the answer -/

/-- The answer before it is cut. -/
def joinedAnswer (snippets : List Text) : Text := join [' '] (snippets.map ensureSentence).eraseDups

section Terms

variable {uni : EcmaUnicode} {plain : Char → Prop} {lowerChar : Char → Char}
  {question normalizedQuery : Text} {used : List RetrievalCandidate}

/-- A snippet is cut out of the collapsed content. Where there is nothing to cut out of,
    the content itself takes its place. -/
theorem localSnippet_cases {chunk : RetrievalCandidate}
    (hnormal : uni.nfkc chunk.content = chunk.content) :
    ∃ value, localSnippet uni question normalizedQuery chunk = cleanSnippet value ∧
      (value = chunk.content ∨
        ∃ start stop, trimExcerpt (collapseSpaces chunk.content) start stop = some value) := by
  refine ⟨_, rfl, ?_⟩
  by_cases hempty : normalizeWhitespace uni chunk.content = []
  · rw [buildSnippet, if_pos hempty]
    exact Or.inl rfl
  · obtain ⟨start, stop, heq⟩ := buildSnippet_eq normalizedQuery question hempty
    rw [heq, normalizeWhitespace, hnormal]
    cases hexcerpt : trimExcerpt (collapseSpaces chunk.content) start stop with
    | none => exact Or.inl rfl
    | some snippet => exact Or.inr ⟨start, stop, hexcerpt⟩

/-- A core of a snippet is one of the content. -/
theorem mem_cores_localSnippet {sp edge : Char → Bool} (splits : Splits sp edge)
    {chunk : RetrievalCandidate} (hnormal : uni.nfkc chunk.content = chunk.content) {core : Text}
    (h : core ∈ cores sp edge (localSnippet uni question normalizedQuery chunk)) :
    core ∈ cores sp edge chunk.content := by
  obtain ⟨value, hvalue, hcases⟩ := localSnippet_cases hnormal
  rw [hvalue, splits.cores_cleanSnippet] at h
  rcases hcases with rfl | ⟨start, stop, hexcerpt⟩
  · exact h
  · have hcore := splits.mem_cores_trimExcerpt hexcerpt h
    rwa [splits.cores_collapseSpaces] at hcore

theorem mem_cores_joinedAnswer {sp edge : Char → Bool} (splits : Splits sp edge)
    (hnormal : ∀ chunk ∈ used, uni.nfkc chunk.content = chunk.content) {core : Text}
    (h : core ∈ cores sp edge (joinedAnswer (used.map (localSnippet uni question normalizedQuery)))) :
    ∃ chunk ∈ used, core ∈ cores sp edge chunk.content := by
  have hblank : ∀ c ∈ [' '], sp c = true := fun c hc =>
    splits.blank_sep c (by rw [List.mem_singleton.mp hc]; decide)
  rw [joinedAnswer, cores_join (List.cons_ne_nil _ _) hblank, List.mem_flatMap] at h
  obtain ⟨part, hpart, hcore⟩ := h
  rw [List.mem_eraseDups, List.map_map] at hpart
  obtain ⟨chunk, hchunk, rfl⟩ := List.mem_map.mp hpart
  rw [Function.comp_apply, splits.cores_ensureSentence] at hcore
  exact ⟨chunk, hchunk, mem_cores_localSnippet splits (hnormal chunk hchunk) hcore⟩

theorem mem_localSnippet {chunk : RetrievalCandidate}
    (hnormal : uni.nfkc chunk.content = chunk.content) {c : Char}
    (h : c ∈ localSnippet uni question normalizedQuery chunk) :
    c ∈ chunk.content ∨ c = ' ' ∨ c = '.' := by
  obtain ⟨value, hvalue, hcases⟩ := localSnippet_cases hnormal
  rw [hvalue] at h
  rcases mem_cleanSnippet h with h | rfl
  · rcases hcases with rfl | ⟨start, stop, hexcerpt⟩
    · exact Or.inl h
    · rcases mem_trimExcerpt hexcerpt h with htext | hdot
      · exact (mem_collapseSpaces htext).imp id Or.inl
      · exact Or.inr hdot
  · exact Or.inr (Or.inl rfl)

/-- A content with a snippet is not blank. -/
theorem normalizeWhitespace_ne_nil {chunk : RetrievalCandidate}
    (hnormal : uni.nfkc chunk.content = chunk.content)
    (h : localSnippet uni question normalizedQuery chunk ≠ []) :
    normalizeWhitespace uni chunk.content ≠ [] := by
  intro hempty
  have hcollapsed : collapseSpaces chunk.content = [] := by
    rwa [normalizeWhitespace, hnormal] at hempty
  have hblank : ∀ c ∈ localSnippet uni question normalizedQuery chunk, isSpace c = true := by
    intro c hc
    rw [localSnippet, buildSnippet, if_pos hempty] at hc
    rcases mem_cleanSnippet hc with hc | rfl
    · exact isSpace_of_collapseSpaces_eq_nil hcollapsed c hc
    · decide
  obtain ⟨c, rest, hcons⟩ := List.exists_cons_of_ne_nil h
  have hfirst : c ∈ (localSnippet uni question normalizedQuery chunk).head? := by
    rw [hcons]
    rfl
  have hedge : isSpace c = false := head?_strip isSpace _ c hfirst
  rw [hblank c (List.mem_of_mem_head? hfirst)] at hedge
  cases hedge

section Laws

variable (laws : PlainLaws uni plain lowerChar)
  (hplain : ∀ chunk ∈ used, ∀ c ∈ chunk.content, plain c)
  (hnormal : ∀ chunk ∈ used, uni.nfkc chunk.content = chunk.content)
include laws

theorem splits_isTermEdge : Splits (isQueryBreak uni) (isTermEdge uni) where
  blank_sep _ := isQueryBreak_of_isSpace
  blank_edge c hc := by rw [isTermEdge, not_alnum_of_mem laws (Or.inl hc), Bool.not_false]
  dot_edge := by rw [isTermEdge, not_alnum_of_mem laws (Or.inr (by decide)), Bool.not_false]

omit laws in
theorem splits_isQueryStop : Splits (isQueryStop uni) (isQueryStop uni) where
  blank_sep _ := isQueryStop_of_isSpace
  blank_edge _ := isQueryStop_of_isSpace
  dot_edge := isQueryStop_dot

include hplain hnormal

/-- The answer is plain, as the contents are. -/
theorem isPlain_joinedAnswer :
    IsPlain uni plain (joinedAnswer (used.map (localSnippet uni question normalizedQuery))) := by
  -- what the answer consists of
  have hchars : ∀ c ∈ joinedAnswer (used.map (localSnippet uni question normalizedQuery)),
      c = ' ' ∨ c = '.' ∨
        ∃ chunk ∈ used, c ∈ localSnippet uni question normalizedQuery chunk := by
    intro c hc
    rcases mem_join hc with hblank | ⟨part, hpart, hc⟩
    · exact Or.inl (List.mem_singleton.mp hblank)
    · rw [List.mem_eraseDups, List.map_map] at hpart
      obtain ⟨chunk, hchunk, rfl⟩ := List.mem_map.mp hpart
      rw [Function.comp_apply] at hc
      rcases mem_ensureSentence hc with hc | rfl
      · exact Or.inr (Or.inr ⟨chunk, hchunk, hc⟩)
      · exact Or.inr (Or.inl rfl)
  have hblank : plain ' ' := laws.plain_stop _ (by decide)
  have hdot : plain '.' := laws.plain_stop _ (by decide)
  refine ⟨fun c hc => ?_, fun c hc hspace => ?_, fun w hw => ?_⟩
  · rcases hchars c hc with rfl | rfl | ⟨chunk, hchunk, hc⟩
    · exact hblank
    · exact hdot
    · rcases mem_localSnippet (hnormal chunk hchunk) hc with hc | rfl | rfl
      · exact hplain chunk hchunk c hc
      · exact hblank
      · exact hdot
  · rcases hchars c hc with rfl | rfl | ⟨chunk, hchunk, hc⟩
    · rfl
    · cases hspace
    · exact (isCollapsed_collapseSpaces _).1 c hc hspace
  · -- a word between stops is a word of a content
    rw [← cores_self] at hw
    obtain ⟨chunk, hchunk, hword⟩ := mem_cores_joinedAnswer splits_isQueryStop hnormal hw
    rw [cores_self] at hword
    exact laws.nfkc_part _ w (hnormal chunk hchunk) (infix_of_mem_words hword)

/-- Each term of the answer is a term of the search text of a used chunk. -/
theorem exists_used_of_mem_terms
    (hsearch : ∀ chunk ∈ used, chunk.searchText = uni.toLowerCase (collapseSpaces chunk.content))
    {token : Text} (h : token ∈ extractMatchingTerms uni
      (joinedAnswer (used.map (localSnippet uni question normalizedQuery)))) :
    ∃ chunk ∈ used, token ∈ extractMatchingTerms uni chunk.matchedText := by
  have hanswer : IsPlain uni plain
      (joinedAnswer (used.map (localSnippet uni question normalizedQuery))) :=
    isPlain_joinedAnswer laws hplain hnormal
  obtain ⟨⟨core, hcore, rfl⟩, hterm⟩ := (mem_extractMatchingTerms_plain laws hanswer).mp h
  obtain ⟨chunk, hchunk, hcore⟩ := mem_cores_joinedAnswer (splits_isTermEdge laws) hnormal hcore
  refine ⟨chunk, hchunk, ?_⟩
  -- a content with a word has a search text
  have hmatched : chunk.matchedText = uni.toLowerCase (collapseSpaces chunk.content) := by
    rw [RetrievalCandidate.matchedText, if_neg, hsearch chunk hchunk]
    intro hempty
    rw [hsearch chunk hchunk, searchText_eq laws (hplain chunk hchunk), List.map_eq_nil_iff]
      at hempty
    rw [← (splits_isTermEdge laws).cores_collapseSpaces, hempty] at hcore
    cases hcore
  rw [hmatched, mem_extractMatchingTerms_searchText laws (hplain chunk hchunk)
    (hnormal chunk hchunk)]
  exact ⟨⟨core, hcore, rfl⟩, hterm⟩

end Laws

end Terms

/-! ## The support -/

section Support

variable {uni : EcmaUnicode} {locale : LocaleCompare} {maxCitations : ℕ} {params : AssembleParams}

/-- A haystack with a share of the tokens covers that share. -/
theorem share_le_computeTokenCoverage {haystack : Text} {tokens : List Text} (hne : tokens ≠ [])
    {n : ℕ} (hshare : tokens.length ≤ n * tokens.countP fun token =>
      (extractMatchingTerms uni haystack).contains token) :
    1 ≤ n * computeTokenCoverage uni (some haystack) tokens := by
  have hpos : 0 < tokens.length := List.length_pos_iff.mpr hne
  have hterms : extractMatchingTerms uni haystack ≠ [] := by
    intro hnil
    rw [hnil] at hshare
    have hcount : tokens.countP (fun token => ([] : List Text).contains token) = 0 :=
      List.countP_eq_zero.mpr fun token _ => by simp
    rw [hcount] at hshare
    omega
  have hcovered : computeTokenCoverage uni (some haystack) tokens =
      (tokens.countP fun token => (extractMatchingTerms uni haystack).contains token : ℚ) /
        tokens.length := by
    rw [computeTokenCoverage]
    exact if_neg (not_or.mpr ⟨hne, hterms⟩)
  have hlength : (0 : ℚ) < tokens.length := Nat.cast_pos.mpr hpos
  rw [hcovered, ← mul_div_assoc, one_le_div hlength]
  exact_mod_cast hshare

theorem toFixed6_clamp01_ge {value : ℚ} (h : MIN_CITATION_SUPPORT_SCORE ≤ value) :
    MIN_CITATION_SUPPORT_SCORE ≤ toFixed6 (clamp01 value) := by
  have hself : toFixed6 (clamp01 MIN_CITATION_SUPPORT_SCORE) = MIN_CITATION_SUPPORT_SCORE := by
    decide +kernel
  calc
    MIN_CITATION_SUPPORT_SCORE = toFixed6 (clamp01 MIN_CITATION_SUPPORT_SCORE) := hself.symm
    _ ≤ toFixed6 (clamp01 value) := toFixed6_mono (clamp01_mono h)

/-- A chunk with a snippet whose score and coverage are large enough is prepared. -/
theorem prepareCandidate_support {chunk : RetrievalCandidate}
    (hsnippet : buildSnippet uni chunk.content params.normalizedQuery params.answerText ≠ none)
    (hsupport : MIN_CITATION_SUPPORT_SCORE ≤ 75 / 100 * chunk.hybridScore +
      15 / 100 * computeTokenCoverage uni (some chunk.matchedText)
        (extractMatchingTerms uni params.answerText)) (rank : ℕ) :
    ∃ prepared, prepareCandidate uni params chunk rank = .ok prepared ∧
      MIN_CITATION_SUPPORT_SCORE ≤ prepared.supportScore := by
  unfold prepareCandidate
  split
  · rename_i hnone
    exact absurd hnone hsnippet
  · refine ⟨_, rfl, toFixed6_clamp01_ge (hsupport.trans ?_)⟩
    have hquery : 0 ≤ max (computeTokenCoverage uni (some chunk.matchedText)
          (extractMatchingTerms uni params.normalizedQuery))
        (computePhraseCoverage uni (some chunk.matchedText)
          (extractQuotedPhrases uni params.normalizedQuery)) :=
      le_max_of_le_left (isScore_computeTokenCoverage _ _ _).1
    linarith

/-- The chunk of an id is found, where no two chunks have one id. -/
theorem groundedCandidate_of_mem {selectedChunks : List RetrievalCandidate}
    (hnodup : (selectedChunks.map RetrievalCandidate.chunkId).Nodup) {chunk : RetrievalCandidate}
    (h : chunk ∈ selectedChunks) :
    ∃ rank, groundedCandidate selectedChunks (idText chunk.chunkId) = some (chunk, rank) := by
  obtain ⟨rank, hrank⟩ : ∃ rank, (chunk, rank) ∈ selectedChunks.zipIdx 1 := by
    obtain ⟨i, hi, rfl⟩ := List.getElem_of_mem h
    exact ⟨1 + i, by simp [List.mk_mem_zipIdx_iff_le_and_getElem?_sub, hi]⟩
  cases hfound : groundedCandidate selectedChunks (idText chunk.chunkId) with
  | none =>
    have hnone := List.find?_eq_none.mp hfound (chunk, rank) (List.mem_reverse.mpr hrank)
    simp at hnone
  | some entry =>
    obtain ⟨found, foundRank⟩ := entry
    obtain ⟨hmem, hid⟩ := groundedCandidate_spec hfound
    have heq : found = chunk := List.inj_on_of_nodup_map hnodup hmem h (toDigits_injective hid)
    exact ⟨foundRank, by rw [heq]⟩

theorem mem_requestedChunkIds_idText {chunkId : Id} (h : idText chunkId ∈ params.usedChunkIds) :
    idText chunkId ∈ requestedChunkIds params.usedChunkIds :=
  mem_requestedChunkIds.mpr ⟨Nat.toDigits_ne_nil, _, h, trim_idText chunkId⟩

/-- A used chunk with a snippet and enough support is prepared. -/
theorem preparedCandidates_ne_nil
    (hnodup : (params.selectedChunks.map RetrievalCandidate.chunkId).Nodup)
    {chunk : RetrievalCandidate} (hmem : chunk ∈ params.selectedChunks)
    (hused : idText chunk.chunkId ∈ params.usedChunkIds)
    (hsnippet : buildSnippet uni chunk.content params.normalizedQuery params.answerText ≠ none)
    (hsupport : MIN_CITATION_SUPPORT_SCORE ≤ 75 / 100 * chunk.hybridScore +
      15 / 100 * computeTokenCoverage uni (some chunk.matchedText)
        (extractMatchingTerms uni params.answerText)) :
    preparedCandidates uni params ≠ [] := by
  obtain ⟨rank, hgrounded⟩ := groundedCandidate_of_mem hnodup hmem
  obtain ⟨prepared, hprepared, hsupported⟩ := prepareCandidate_support hsnippet hsupport rank
  have hadmitted : admitChunkId uni params (idText chunk.chunkId) = .ok prepared := by
    rw [admitChunkId, hgrounded]
    simp only [hprepared]
    exact if_neg (not_lt.mpr hsupported)
  have hcandidate : prepared ∈ preparedCandidates uni params := by
    refine List.mem_filterMap.mpr ⟨_, mem_requestedChunkIds_idText hused, ?_⟩
    rw [hadmitted]
    rfl
  exact List.ne_nil_of_mem hcandidate

/-- If a candidate is prepared, and a citation is admitted at all, there is a citation. -/
theorem citations_assemble_ne_nil (hlimit : 1 ≤ maxCitations)
    (h : preparedCandidates uni params ≠ []) :
    (assemble uni locale maxCitations params).citations ≠ [] := by
  have hsorted : sortedCandidates locale uni params ≠ [] := by
    intro hnil
    have hperm : (sortedCandidates locale uni params).Perm (preparedCandidates uni params) :=
      List.mergeSort_perm _ _
    rw [hnil] at hperm
    exact h hperm.nil_eq.symm
  obtain ⟨first, rest, hcons⟩ := List.exists_cons_of_ne_nil hsorted
  have hadmits : admitsCitation uni maxCitations [] first = true := by
    simp [admitsCitation]
    omega
  have hhead := head?_greedy hadmits rest
  rw [← hcons, ← selected_selectCitations] at hhead
  intro hnil
  rw [assemble] at hnil
  simp only [List.mapIdx_eq_nil_iff] at hnil
  rw [hnil] at hhead
  cases hhead

end Support

/-! ## The answer is citable -/

/-- A retrieval that passes the gate of the evidence, with the search texts of the
    contents, which are normalized and over an alphabet. -/
structure GatedEvidence (uni : EcmaUnicode) (plain : Char → Prop) (retrieval : RetrievalResult) :
    Prop where
  nonempty : retrieval.selectedChunks ≠ []
  distinct : (retrieval.selectedChunks.map RetrievalCandidate.chunkId).Nodup
  sorted : retrieval.selectedChunks.Pairwise fun left right => right.hybridScore ≤ left.hybridScore
  scores : ∀ chunk ∈ retrieval.selectedChunks, IsScore chunk.hybridScore
  topScore : LOW_EVIDENCE_SCORE_THRESHOLD_LEXICAL_ONLY ≤ retrieval.topScore
  searchText : ∀ chunk ∈ retrieval.selectedChunks,
    chunk.searchText = uni.toLowerCase (collapseSpaces chunk.content)
  normalized : ∀ chunk ∈ retrieval.selectedChunks, uni.nfkc chunk.content = chunk.content
  plain : ∀ chunk ∈ retrieval.selectedChunks, ∀ c ∈ chunk.content, plain c

section Citable

variable {uni : EcmaUnicode} {plain : Char → Prop} {lowerChar : Char → Char}
  {retrieval : RetrievalResult} {question : Text}

/-- A used chunk with its share of the terms has enough support: a single one covers all terms,
    and of two or three with the minimum score one covers a third. -/
theorem supported_of_share {used : List RetrievalCandidate} {score coverage : ℚ}
    (hne : used ≠ []) (hthree : used.length ≤ 3) (hscore : 0 ≤ score) (hcoverage : 0 ≤ coverage)
    (hmin : 1 < used.length → MIN_FOLLOW_ON_CHUNK_SCORE ≤ score)
    (hshare : 1 ≤ (used.length : ℚ) * coverage) :
    MIN_CITATION_SUPPORT_SCORE ≤ 75 / 100 * score + 15 / 100 * coverage := by
  rw [MIN_CITATION_SUPPORT_SCORE]
  by_cases hseveral : 1 < used.length
  · have hfollow := hmin hseveral
    rw [MIN_FOLLOW_ON_CHUNK_SCORE] at hfollow
    have hlength : (used.length : ℚ) ≤ 3 := by exact_mod_cast hthree
    have hthird := hshare.trans (mul_le_mul_of_nonneg_right hlength hcoverage)
    linarith
  · have hone : used.length = 1 := by
      have hpos := List.length_pos_iff.mpr hne
      omega
    rw [hone, Nat.cast_one, one_mul] at hshare
    linarith

/-- One used chunk has enough support. -/
theorem exists_supported (laws : PlainLaws uni plain lowerChar)
    (gated : GatedEvidence uni plain retrieval)
    {used : List RetrievalCandidate}
    (hused : used = usedChunks uni question retrieval.normalizedQuery retrieval.selectedChunks)
    (hne : used ≠ [])
    (hterms : extractMatchingTerms uni
      (joinedAnswer (used.map (localSnippet uni question retrieval.normalizedQuery))) ≠ []) :
    ∃ chunk ∈ used, normalizeWhitespace uni chunk.content ≠ [] ∧
      MIN_CITATION_SUPPORT_SCORE ≤ 75 / 100 * chunk.hybridScore +
        15 / 100 * computeTokenCoverage uni (some chunk.matchedText) (extractMatchingTerms uni
          (joinedAnswer (used.map (localSnippet uni question retrieval.normalizedQuery)))) := by
  have hmem : ∀ chunk ∈ used, chunk ∈ retrieval.selectedChunks := by
    rw [hused]
    exact fun chunk hchunk => usedChunks_sublist.subset hchunk
  generalize hanswer : joinedAnswer
    (used.map (localSnippet uni question retrieval.normalizedQuery)) = answer at hterms ⊢
  -- some used chunk has its share of the terms
  have hcovered : ∀ token ∈ extractMatchingTerms uni answer, ∃ chunk ∈ used,
      (extractMatchingTerms uni chunk.matchedText).contains token = true := by
    intro token htoken
    rw [← hanswer] at htoken
    obtain ⟨chunk, hchunk, htoken⟩ := exists_used_of_mem_terms laws
      (fun chunk hchunk => gated.plain chunk (hmem chunk hchunk))
      (fun chunk hchunk => gated.normalized chunk (hmem chunk hchunk))
      (fun chunk hchunk => gated.searchText chunk (hmem chunk hchunk)) htoken
    exact ⟨chunk, hchunk, by simpa using htoken⟩
  obtain ⟨chunk, hchunk, hshare⟩ := exists_share hne hcovered
  have hcoverage := share_le_computeTokenCoverage hterms hshare
  refine ⟨chunk, hchunk, ?_, ?_⟩
  · have hsnippet : localSnippet uni question retrieval.normalizedQuery chunk ≠ [] := by
      rw [hused] at hchunk
      simpa using List.of_mem_filter hchunk
    exact normalizeWhitespace_ne_nil (gated.normalized chunk (hmem chunk hchunk)) hsnippet
  · have hthree : used.length ≤ 3 := by
      rw [hused]
      exact length_usedChunks_le
    have hmin : 1 < used.length → MIN_FOLLOW_ON_CHUNK_SCORE ≤ chunk.hybridScore := by
      intro hseveral
      rw [hused] at hseveral hchunk
      exact hybridScore_of_mem_used gated.sorted hseveral hchunk
    exact supported_of_share hne hthree (gated.scores chunk (hmem chunk hchunk)).1
      (isScore_computeTokenCoverage uni _ _).1 hmin hcoverage

/-- Without a provider a grounded answer that is not cut, with a term, is cited, so that it
    stays grounded. -/
theorem local_answer_citable (uni : EcmaUnicode) (locale : LocaleCompare) (config : ChatConfig)
    (gateway : Gateway) (question : Text) (history : List Message) (retrieval : RetrievalResult)
    (result : GroundedAnswerResult) (plain : Char → Prop) (lowerChar : Char → Char)
    (laws : PlainLaws uni plain lowerChar) (gated : GatedEvidence uni plain retrieval)
    (hlocal : config.isConfigured = false) (hlimit : 1 ≤ config.citationLimit)
    (hresult : createGroundedAnswerOrThrow uni config gateway retrieval.normalizedQuery
      (chatPrompt question history retrieval) = .ok result)
    (hgrounded : result.answer.status = .grounded)
    (hshort : utf16Length result.answer.answer < 1600)
    (hterms : extractMatchingTerms uni result.answer.answer ≠ []) :
    (assemble uni locale config.citationLimit
        { usedChunkIds := result.answer.usedChunkIds
          selectedChunks := retrieval.selectedChunks
          normalizedQuery := retrieval.normalizedQuery
          answerText := result.answer.answer }).citations ≠ [] ∧
      (modelOutcome uni locale config retrieval result).status = .grounded := by
  have hcitations : (assemble uni locale config.citationLimit
      { usedChunkIds := result.answer.usedChunkIds
        selectedChunks := retrieval.selectedChunks
        normalizedQuery := retrieval.normalizedQuery
        answerText := result.answer.answer }).citations ≠ [] := by
    have hcreated : createLocalAnswer uni question retrieval.normalizedQuery
        retrieval.selectedChunks = result := by
      rw [createGroundedAnswerOrThrow, hlocal] at hresult
      exact Except.ok.inj hresult
    rw [← hcreated] at hgrounded hshort hterms ⊢
    obtain ⟨hne, hanswer, hids⟩ := createLocalAnswer_grounded hgrounded
    rw [hanswer] at hshort hterms ⊢
    rw [hids]
    -- the answer is short, so nothing of it was cut off
    rw [show composeAnswer ((usedChunks uni question retrieval.normalizedQuery
      retrieval.selectedChunks).map (localSnippet uni question retrieval.normalizedQuery)) =
        joinedAnswer _ from sliceStart_eq_self hshort] at hterms ⊢
    obtain ⟨chunk, hchunk, hcontent, hsupport⟩ := exists_supported laws gated rfl hne hterms
    have hmem : chunk ∈ retrieval.selectedChunks := usedChunks_sublist.subset hchunk
    exact citations_assemble_ne_nil hlimit (preparedCandidates_ne_nil gated.distinct hmem
      (List.mem_map_of_mem hchunk) (buildSnippet_ne_none _ _ hcontent) hsupport)
  refine ⟨hcitations, modelOutcome_grounded_iff.mpr ?_⟩
  rwa [citations_modelOutcome hgrounded]

end Citable

/-! ## Two chunks -/

/-- One chunk on the worker and one on its logs. -/
def workerLogsRetrieval : RetrievalResult :=
  { lexicalRetrieval (3 / 10) with
    selectedChunks := [
      { guideCandidate 1 .lexical 0 with
        searchText := "install the worker.".toList
        hybridScore := 3 / 10 },
      { guideCandidate 2 .lexical 0 with
        content := "Read the logs!".toList
        searchText := "read the logs!".toList
        hybridScore := 25 / 100 }] }

theorem gatedEvidence_workerLogs : GatedEvidence .ascii (fun _ => True) workerLogsRetrieval where
  nonempty := List.cons_ne_nil _ _
  distinct := by decide
  sorted := by
    refine List.pairwise_pair.mpr ?_
    decide +kernel
  scores := by
    refine List.forall_mem_cons.mpr ⟨?_, List.forall_mem_singleton.mpr ?_⟩
    · exact ⟨by decide +kernel, by decide +kernel⟩
    · exact ⟨by decide +kernel, by decide +kernel⟩
  topScore := by decide +kernel
  searchText := by
    refine List.forall_mem_cons.mpr ⟨?_, List.forall_mem_singleton.mpr ?_⟩
    · decide +kernel
    · decide +kernel
  normalized _ _ := rfl
  plain _ _ _ _ := trivial

/-- The answer is "Install the worker. Read the logs!". -/
theorem local_answer_citable_workerLogs :
    (modelOutcome .ascii .numeric { isConfigured := false, configuredChatModel := "chat" }
      workerLogsRetrieval (createLocalAnswer .ascii "worker logs".toList "worker".toList
        workerLogsRetrieval.selectedChunks)).status = .grounded :=
  (local_answer_citable .ascii .numeric { isConfigured := false, configuredChatModel := "chat" }
    (fun _ => none) "worker logs".toList [] workerLogsRetrieval _ (fun _ => True) Char.toLower
    plainLaws_ascii gatedEvidence_workerLogs rfl (by decide) rfl (by decide +kernel)
    (by decide +kernel) (by decide +kernel)).2

end RagStack.Chat
