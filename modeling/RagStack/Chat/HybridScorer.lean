import Mathlib.Order.Std
import RagStack.Chat.LexicalQuery
import RagStack.Common.Upsert

/-!
# Merging and ranking the candidates

`services/api/src/chat/hybrid-scorer.service.ts`. The candidates of both sources
are merged by chunk, scored, sorted and cut.

* `Evidence` — what a merge takes from both sides; it is combined by a commutative
  and associative operation.
* `ranking_of_candidates`: the ranking does not depend on the order of the
  candidates; it is the beginning of the sorted list of all merged chunks.
-/

namespace RagStack.Chat

open RagStack.Common RagStack.Api
open RagStack.Worker (Text)
open RagStack.Ingest (Id Time)
open RagStack.Retrieval (NormalizedChatFilters)

/-- `HYBRID_SCORE_WEIGHTS` (chat.constants.ts). -/
def HYBRID_SCORE_WEIGHTS : RetrievalScoreWeights where
  semantic := 4 / 10
  lexical := 4 / 10
  metadata := 1 / 10
  recency := 3 / 100
  structural := 7 / 100

/-! ## Merging -/

/-- `mergeRetrievedBy` (lines 349–357). -/
def mergeRetrievedBy (left right : List RetrievalSource) : List RetrievalSource :=
  [.semantic, .lexical].filter fun source => source ∈ left ++ right

/-- `pickBestRank` (lines 359–367). -/
def pickBestRank (left right : Option ℕ) : Option ℕ := Option.merge min left right

/-- `pickHigherNumber` (lines 369–377). -/
def pickHigherNumber (left right : Option ℚ) : Option ℚ := Option.merge max left right

/-- `pickLowerNumber` (lines 379–387). -/
def pickLowerNumber (left right : Option ℚ) : Option ℚ := Option.merge min left right

/-- `pickNewerDate` (lines 389–397). -/
def pickNewerDate (left right : Option Time) : Option Time := Option.merge max left right

/-- `mergeCandidate` (lines 72–120). -/
def mergeCandidate (left right : RetrievalCandidate) : RetrievalCandidate :=
  { left with
    content := if left.content = [] then right.content else left.content
    indexedAt := pickNewerDate left.indexedAt right.indexedAt
    lexicalRank := pickBestRank left.lexicalRank right.lexicalRank
    semanticRank := pickBestRank left.semanticRank right.semanticRank
    lexicalScore := max left.lexicalScore right.lexicalScore
    semanticScore := max left.semanticScore right.semanticScore
    metadataScore := max left.metadataScore right.metadataScore
    recencyScore := max left.recencyScore right.recencyScore
    structuralScore := max left.structuralScore right.structuralScore
    hybridScore := max left.hybridScore right.hybridScore
    debug :=
      { left.debug with
        retrievedBy := mergeRetrievedBy left.debug.retrievedBy right.debug.retrievedBy
        rawSemanticDistance :=
          pickLowerNumber left.debug.rawSemanticDistance right.debug.rawSemanticDistance
        rawSemanticSimilarity :=
          pickHigherNumber left.debug.rawSemanticSimilarity right.debug.rawSemanticSimilarity
        rawLexicalScore := pickHigherNumber left.debug.rawLexicalScore right.debug.rawLexicalScore
        metadataSignals := (left.debug.metadataSignals ++ right.debug.metadataSignals).eraseDups
        structuralSignals :=
          (left.debug.structuralSignals ++ right.debug.structuralSignals).eraseDups } }

theorem chunkId_mergeCandidate (left right : RetrievalCandidate) :
    (mergeCandidate left right).chunkId = left.chunkId := rfl

/-- The map `merged`, after both loops over `upsert` (lines 30–43). -/
def mergedCandidates (candidates : List RetrievalCandidate) :
    Table RetrievalCandidate RetrievalCandidate.chunkId :=
  Table.upsertAll mergeCandidate chunkId_mergeCandidate candidates

/-! ## Scoring -/

/-- The signal of a filter: 1 or 0, when there is a filter. -/
def filterScore (filtered matched : Bool) (signal : String) : List ℚ × List String :=
  if filtered then if matched then ([1], [signal]) else ([0], []) else ([], [])

/-- `computeMetadataScore` (lines 189–238). -/
def computeMetadataScore (uni : EcmaUnicode) (candidate : RetrievalCandidate)
    (query : NormalizedRetrievalQuery) (filters : NormalizedChatFilters) : ℚ × List String :=
  let document := filterScore (!filters.documentIds.isEmpty)
    (candidate.debug.metadataSignals.contains "document_filter") "document filter matched"
  let language := filterScore (!filters.languages.isEmpty)
    (candidate.debug.metadataSignals.contains "language_filter") "language filter matched"
  let metadataTerms := extractMetadataTerms uni candidate.metadataJson
  let tags : List ℚ × List String :=
    if metadataTerms ≠ [] ∧ (query.tokens ≠ [] ∨ query.phrases ≠ []) then
      let metadataText := join [' '] metadataTerms
      let tagCoverage := max (computeTokenCoverage uni (some metadataText) query.tokens)
        (computePhraseCoverage uni (some metadataText) query.phrases)
      ([tagCoverage], if 0 < tagCoverage then ["metadata tags aligned"] else [])
    else ([], [])
  let scores := document.1 ++ language.1 ++ tags.1
  (if scores = [] then 0 else toFixed6 (scores.sum / scores.length),
    document.2 ++ language.2 ++ tags.2)

/-- `sourceTitle || documentTitle`. -/
def candidateTitle (candidate : RetrievalCandidate) : Text :=
  match candidate.sourceTitle with
  | none => candidate.documentTitle
  | some title => if title = [] then candidate.documentTitle else title

/-- `computeStructuralScore` (lines 240–279). -/
def computeStructuralScore (uni : EcmaUnicode) (candidate : RetrievalCandidate)
    (query : NormalizedRetrievalQuery) : ℚ × List String :=
  let sectionCoverage := max (computeTokenCoverage uni candidate.sectionTitle query.tokens)
    (computePhraseCoverage uni candidate.sectionTitle query.phrases)
  let titleCoverage := max
    (computeTokenCoverage uni (some (candidateTitle candidate)) query.tokens)
    (computePhraseCoverage uni (some (candidateTitle candidate)) query.phrases)
  let faqBonus : ℚ :=
    if query.questionLike &&
      isFaqLikeChunk uni candidate.sectionTitle candidate.sourceTitle (some candidate.content)
    then 1 else 0
  (toFixed6 (clamp01 (55 / 100 * sectionCoverage + 3 / 10 * titleCoverage + 15 / 100 * faqBonus)),
    (if 0 < sectionCoverage then ["section title aligned"] else []) ++
      (if 0 < titleCoverage then ["source title aligned"] else []) ++
      (if 0 < faqBonus then ["faq style chunk"] else []))

/-- The parameters of `buildSelectionReason`. -/
structure SelectionReasonParams where
  candidate : RetrievalCandidate
  lexicalTokenCoverage : ℚ
  lexicalPhraseCoverage : ℚ
  metadataSignals : List String
  metadataScore : ℚ
  structuralSignals : List String
  structuralScore : ℚ
  recencyScore : ℚ
  freshnessIntent : Bool

/-- `buildSelectionReason` (lines 281–320). -/
def buildSelectionReason (params : SelectionReasonParams) : String :=
  let reasons :=
    (if params.candidate.debug.retrievedBy.length = 2 then
      ["semantic and lexical retrieval agreed"] else []) ++
    (if 75 / 100 ≤ params.candidate.semanticScore then ["strong semantic match"]
      else if 55 / 100 ≤ params.candidate.semanticScore then ["good semantic match"] else []) ++
    (if 0 < params.lexicalPhraseCoverage then ["exact phrase match"]
      else if 6 / 10 ≤ params.lexicalTokenCoverage then ["high lexical overlap"] else []) ++
    (if 0 < params.metadataScore then params.metadataSignals.take 1 else []) ++
    (if 2 / 10 ≤ params.structuralScore then params.structuralSignals.take 1 else []) ++
    if params.freshnessIntent ∧ 45 / 100 ≤ params.recencyScore then
      ["fresh content for time-sensitive query"] else []
  if reasons = [] then "scored from available signals"
  else "; ".intercalate (reasons.take 3)

/-- `scoreCandidate` (lines 122–187), at the time `now`. -/
def scoreCandidate (uni : EcmaUnicode) (now : Time) (query : NormalizedRetrievalQuery)
    (filters : NormalizedChatFilters) (candidate : RetrievalCandidate) : RetrievalCandidate :=
  let lexicalTokenCoverage := computeTokenCoverage uni (some candidate.searchText) query.tokens
  let lexicalPhraseCoverage := computePhraseCoverage uni (some candidate.searchText) query.phrases
  let lexicalScore := clamp01 (55 / 100 * normalizeLexicalRank candidate.debug.rawLexicalScore +
    25 / 100 * lexicalTokenCoverage + 2 / 10 * lexicalPhraseCoverage)
  let metadata := computeMetadataScore uni candidate query filters
  let structural := computeStructuralScore uni candidate query
  let recencyScore := computeRecencyScore now candidate.indexedAt query.freshnessIntent
  let hybridScore := HYBRID_SCORE_WEIGHTS.semantic * candidate.semanticScore +
    HYBRID_SCORE_WEIGHTS.lexical * lexicalScore + HYBRID_SCORE_WEIGHTS.metadata * metadata.1 +
    HYBRID_SCORE_WEIGHTS.recency * recencyScore + HYBRID_SCORE_WEIGHTS.structural * structural.1
  { candidate with
    lexicalScore := lexicalScore
    metadataScore := metadata.1
    recencyScore := recencyScore
    structuralScore := structural.1
    hybridScore := toFixed6 hybridScore
    debug :=
      { candidate.debug with
        lexicalTokenCoverage := toFixed6 lexicalTokenCoverage
        lexicalPhraseCoverage := toFixed6 lexicalPhraseCoverage
        metadataSignals := metadata.2
        structuralSignals := structural.2
        selectionReason := buildSelectionReason
          { candidate := candidate
            lexicalTokenCoverage := lexicalTokenCoverage
            lexicalPhraseCoverage := lexicalPhraseCoverage
            metadataSignals := metadata.2
            metadataScore := metadata.1
            structuralSignals := structural.2
            structuralScore := structural.1
            recencyScore := recencyScore
            freshnessIntent := query.freshnessIntent } } }

/-! ## Ranking -/

/-- `localeCompare` on chunk ids: a total order. -/
structure LocaleCompare where
  compare : Id → Id → Ordering
  trans : Std.TransCmp compare
  lawfulEq : Std.LawfulEqCmp compare

/-- The greater key comes first. -/
def descending {α : Type} [LinearOrder α] (key : RetrievalCandidate → α)
    (left right : RetrievalCandidate) : Ordering :=
  compare (key right) (key left)

/-- `compareCandidates` (lines 322–347). -/
def compareCandidates (locale : LocaleCompare) : RetrievalCandidate → RetrievalCandidate → Ordering :=
  compareLex (descending fun c => c.hybridScore) <|
  compareLex (descending fun c => c.semanticScore) <|
  compareLex (descending fun c => c.lexicalScore) <|
  compareLex (descending fun c => c.metadataScore) <|
  compareLex (descending fun c => c.structuralScore) <|
  compareLex (descending fun c => c.indexedAt.getD 0) fun left right =>
    locale.compare left.chunkId right.chunkId

/-- The parameters of `mergeAndScore`. -/
structure MergeParams where
  query : NormalizedRetrievalQuery
  filters : NormalizedChatFilters
  semanticCandidates : List RetrievalCandidate
  lexicalCandidates : List RetrievalCandidate
  rerankPoolLimit : ℕ

/-- All merged candidates, scored and sorted. -/
def rankedCandidates (uni : EcmaUnicode) (locale : LocaleCompare) (now : Time)
    (params : MergeParams) : List RetrievalCandidate :=
  ((mergedCandidates (params.semanticCandidates ++ params.lexicalCandidates)).rows.map
    (scoreCandidate uni now params.query params.filters)).mergeSort
      fun left right => (compareCandidates locale left right).isLE

/-- `rankBeforeDedup: index + 1`. -/
def numberCandidate (index : ℕ) (candidate : RetrievalCandidate) : RetrievalCandidate :=
  { candidate with debug := { candidate.debug with rankBeforeDedup := some (index + 1) } }

/-- `mergeAndScore` (lines 23–58). -/
def mergeAndScore (uni : EcmaUnicode) (locale : LocaleCompare) (now : Time) (params : MergeParams) :
    List RetrievalCandidate :=
  ((rankedCandidates uni locale now params).take (max 1 params.rerankPoolLimit)).mapIdx
    numberCandidate

/-- The candidate as it is ranked. What the deduplication writes later is left
    out. -/
def RetrievalCandidate.beforeDedup (candidate : RetrievalCandidate) : RetrievalCandidate :=
  { candidate with debug := { candidate.debug with rankAfterDedup := none, dedupReason := none } }

/-- The candidate as it is scored, without any rank of its own. -/
def RetrievalCandidate.scored (candidate : RetrievalCandidate) : RetrievalCandidate :=
  { candidate with
    debug :=
      { candidate.debug with rankBeforeDedup := none, rankAfterDedup := none, dedupReason := none } }

/-- `a` is ranked before `b`: by the scores, then by the time of indexing, all of
    them descending, then by the chunk id. -/
def RankedBefore (locale : LocaleCompare) (a b : RetrievalCandidate) : Prop :=
  b.hybridScore < a.hybridScore ∨ b.hybridScore = a.hybridScore ∧
    (b.semanticScore < a.semanticScore ∨ b.semanticScore = a.semanticScore ∧
      (b.lexicalScore < a.lexicalScore ∨ b.lexicalScore = a.lexicalScore ∧
        (b.metadataScore < a.metadataScore ∨ b.metadataScore = a.metadataScore ∧
          (b.structuralScore < a.structuralScore ∨ b.structuralScore = a.structuralScore ∧
            (b.indexedAt.getD 0 < a.indexedAt.getD 0 ∨ b.indexedAt.getD 0 = a.indexedAt.getD 0 ∧
              locale.compare a.chunkId b.chunkId = .lt)))))

/-! ## The comparison -/

section Order

variable (locale : LocaleCompare)

instance {α : Type} [LinearOrder α] (key : RetrievalCandidate → α) :
    Std.TransCmp (descending key) where
  eq_swap {a b} := by
    show compare (key b) (key a) = (compare (key a) (key b)).swap
    exact Std.OrientedCmp.eq_swap
  isLE_trans {a b c} hab hbc := by
    have hba : (compare (key b) (key a)).isLE = true := hab
    have hcb : (compare (key c) (key b)).isLE = true := hbc
    show (compare (key c) (key a)).isLE = true
    exact Std.TransCmp.isLE_trans hcb hba

instance : Std.TransCmp fun left right : RetrievalCandidate =>
    locale.compare left.chunkId right.chunkId where
  eq_swap := locale.trans.eq_swap
  isLE_trans := locale.trans.isLE_trans

instance : Std.TransCmp (compareCandidates locale) := by
  unfold compareCandidates
  infer_instance

theorem compareCandidates_eq_lt_iff {a b : RetrievalCandidate} :
    compareCandidates locale a b = .lt ↔ RankedBefore locale a b := by
  simp only [compareCandidates, compareLex, Ordering.then_eq_lt, descending, compare_lt_iff_lt,
    compare_eq_iff_eq, RankedBefore]

theorem chunkId_eq_of_compareCandidates {a b : RetrievalCandidate}
    (h : compareCandidates locale a b = .eq) : a.chunkId = b.chunkId := by
  simp only [compareCandidates, compareLex_eq_eq] at h
  exact locale.lawfulEq.eq_of_compare h.2.2.2.2.2.2

end Order

/-! ## What is merged -/

/-- What a merge takes from both candidates. -/
@[ext]
structure Evidence where
  semanticScore : ℚ
  semanticRank : Option ℕ
  lexicalRank : Option ℕ
  retrievedBy : List RetrievalSource
  rawSemanticDistance : Option ℚ
  rawSemanticSimilarity : Option ℚ
  rawLexicalScore : Option ℚ
  documentFilter : Bool
  languageFilter : Bool

/-- The evidence for a candidate. -/
def RetrievalCandidate.evidence (candidate : RetrievalCandidate) : Evidence where
  semanticScore := candidate.semanticScore
  semanticRank := candidate.semanticRank
  lexicalRank := candidate.lexicalRank
  retrievedBy := candidate.debug.retrievedBy
  rawSemanticDistance := candidate.debug.rawSemanticDistance
  rawSemanticSimilarity := candidate.debug.rawSemanticSimilarity
  rawLexicalScore := candidate.debug.rawLexicalScore
  documentFilter := candidate.debug.metadataSignals.contains "document_filter"
  languageFilter := candidate.debug.metadataSignals.contains "language_filter"

/-- The evidence of two sources. -/
def Evidence.combine (a b : Evidence) : Evidence where
  semanticScore := max a.semanticScore b.semanticScore
  semanticRank := pickBestRank a.semanticRank b.semanticRank
  lexicalRank := pickBestRank a.lexicalRank b.lexicalRank
  retrievedBy := mergeRetrievedBy a.retrievedBy b.retrievedBy
  rawSemanticDistance := pickLowerNumber a.rawSemanticDistance b.rawSemanticDistance
  rawSemanticSimilarity := pickHigherNumber a.rawSemanticSimilarity b.rawSemanticSimilarity
  rawLexicalScore := pickHigherNumber a.rawLexicalScore b.rawLexicalScore
  documentFilter := a.documentFilter || b.documentFilter
  languageFilter := a.languageFilter || b.languageFilter

theorem mem_mergeRetrievedBy {left right : List RetrievalSource} {source : RetrievalSource} :
    source ∈ mergeRetrievedBy left right ↔ source ∈ left ∨ source ∈ right := by
  cases source <;> simp [mergeRetrievedBy]

theorem mergeRetrievedBy_comm (left right : List RetrievalSource) :
    mergeRetrievedBy left right = mergeRetrievedBy right left := by
  refine List.filter_congr fun source _ => ?_
  simp [or_comm]

theorem mergeRetrievedBy_assoc (a b c : List RetrievalSource) :
    mergeRetrievedBy (mergeRetrievedBy a b) c = mergeRetrievedBy a (mergeRetrievedBy b c) := by
  refine List.filter_congr fun source _ => ?_
  simp [mem_mergeRetrievedBy, or_assoc]

instance : Std.Commutative pickBestRank := inferInstanceAs (Std.Commutative (Option.merge min))

instance : Std.Associative pickBestRank := inferInstanceAs (Std.Associative (Option.merge min))

instance : Std.Commutative pickHigherNumber := inferInstanceAs (Std.Commutative (Option.merge max))

instance : Std.Associative pickHigherNumber := inferInstanceAs (Std.Associative (Option.merge max))

instance : Std.Commutative pickLowerNumber := inferInstanceAs (Std.Commutative (Option.merge min))

instance : Std.Associative pickLowerNumber := inferInstanceAs (Std.Associative (Option.merge min))

instance : Std.Commutative Evidence.combine where
  comm a b := by
    have hrank : ∀ x y, pickBestRank x y = pickBestRank y x := Std.Commutative.comm
    have hlower : ∀ x y, pickLowerNumber x y = pickLowerNumber y x := Std.Commutative.comm
    have hhigher : ∀ x y, pickHigherNumber x y = pickHigherNumber y x := Std.Commutative.comm
    rw [Evidence.combine, Evidence.combine, max_comm, hrank, hrank a.lexicalRank,
      mergeRetrievedBy_comm, hlower, hhigher, hhigher a.rawLexicalScore,
      Bool.or_comm a.documentFilter, Bool.or_comm a.languageFilter]

instance : Std.Associative Evidence.combine where
  assoc a b c := by
    have hrank : ∀ x y z, pickBestRank (pickBestRank x y) z = pickBestRank x (pickBestRank y z) :=
      Std.Associative.assoc
    have hlower : ∀ x y z,
        pickLowerNumber (pickLowerNumber x y) z = pickLowerNumber x (pickLowerNumber y z) :=
      Std.Associative.assoc
    have hhigher : ∀ x y z,
        pickHigherNumber (pickHigherNumber x y) z = pickHigherNumber x (pickHigherNumber y z) :=
      Std.Associative.assoc
    simp only [Evidence.combine, max_assoc, hrank, hlower, hhigher, mergeRetrievedBy_assoc,
      Bool.or_assoc]

theorem evidence_mergeCandidate (left right : RetrievalCandidate) :
    (mergeCandidate left right).evidence = left.evidence.combine right.evidence := by
  have hsignal : ∀ signal : String,
      ((left.debug.metadataSignals ++ right.debug.metadataSignals).eraseDups.contains signal) =
        (left.debug.metadataSignals.contains signal ||
          right.debug.metadataSignals.contains signal) := by
    intro signal
    rw [Bool.eq_iff_iff]
    simp [List.mem_eraseDups]
  simp only [RetrievalCandidate.evidence, mergeCandidate, Evidence.combine, hsignal]

theorem row_mergeCandidate {left right : RetrievalCandidate} (h : left.row = right.row) :
    (mergeCandidate left right).row = left.row := by
  have hcontent : left.content = right.content := congrArg ChunkSearchRow.content h
  have hindexed : left.indexedAt = right.indexedAt := congrArg ChunkSearchRow.indexedAt h
  have hnewer : pickNewerDate left.indexedAt left.indexedAt = left.indexedAt := by
    cases left.indexedAt <;> simp [pickNewerDate]
  simp only [RetrievalCandidate.row, mergeCandidate, ← hcontent, ← hindexed, hnewer, ite_self]

theorem computeStructuralScore_row (uni : EcmaUnicode) (query : NormalizedRetrievalQuery)
    {a b : RetrievalCandidate} (hrow : a.row = b.row) :
    computeStructuralScore uni a query = computeStructuralScore uni b query := by
  simp only [RetrievalCandidate.row, ChunkSearchRow.mk.injEq] at hrow
  have htitle : candidateTitle a = candidateTitle b := by
    rw [candidateTitle, candidateTitle, hrow.2.2.1, hrow.2.2.2.2.2.2.2.2.2.2.2.1]
  simp only [computeStructuralScore, hrow, htitle]

/-- The score of a candidate depends on its stored row and its evidence only. -/
theorem scored_scoreCandidate (uni : EcmaUnicode) (now : Time)
    (query : NormalizedRetrievalQuery) (filters : NormalizedChatFilters)
    {a b : RetrievalCandidate} (hrow : a.row = b.row) (hevidence : a.evidence = b.evidence) :
    (scoreCandidate uni now query filters a).scored =
      (scoreCandidate uni now query filters b).scored := by
  have hstructural := computeStructuralScore_row uni query hrow
  simp only [RetrievalCandidate.row, ChunkSearchRow.mk.injEq] at hrow
  simp only [RetrievalCandidate.evidence, Evidence.mk.injEq] at hevidence
  have hmetadata :
      computeMetadataScore uni a query filters = computeMetadataScore uni b query filters := by
    simp only [computeMetadataScore, hrow, hevidence]
  simp only [RetrievalCandidate.scored, scoreCandidate, buildSelectionReason, hmetadata,
    hstructural, hrow, hevidence]

/-! ## The ranking -/

section Ranking

variable (uni : EcmaUnicode) (locale : LocaleCompare) (now : Time)

/-- Candidates of one chunk have the same stored row. -/
def SameRows (candidates : List RetrievalCandidate) : Prop :=
  ∀ a ∈ candidates, ∀ b ∈ candidates, a.chunkId = b.chunkId → a.row = b.row

/-- The merged row of a chunk is the row of its candidates. -/
theorem row_of_get?_mergedCandidates {candidates : List RetrievalCandidate}
    (h : SameRows candidates) {candidate merged : RetrievalCandidate}
    (hcandidate : candidate ∈ candidates)
    (hmerged : (mergedCandidates candidates).get? candidate.chunkId = some merged) :
    merged.row = candidate.row := by
  have hkeep : ∀ a b : RetrievalCandidate, a.row = candidate.row → b.row = candidate.row →
      (mergeCandidate a b).row = candidate.row := by
    intro a b ha hb
    rw [row_mergeCandidate (ha.trans hb.symm), ha]
  exact Table.of_get?_upsertAll hkeep (fun a ha hid => h a ha candidate hcandidate hid)
    merged hmerged

theorem mem_ids_mergedCandidates {candidates : List RetrievalCandidate} {id : Id} :
    id ∈ (mergedCandidates candidates).rows.map RetrievalCandidate.chunkId ↔
      id ∈ candidates.map RetrievalCandidate.chunkId :=
  Table.mem_keys_upsertAll

/-- The merged chunks, as they are scored, do not depend on the order of the
    candidates. -/
theorem scored_mergedCandidates_perm (query : NormalizedRetrievalQuery)
    (filters : NormalizedChatFilters) {candidates candidates' : List RetrievalCandidate}
    (hrows : SameRows candidates) (h : candidates.Perm candidates') :
    ((mergedCandidates candidates).rows.map
      fun c => (scoreCandidate uni now query filters c).scored).Perm
    ((mergedCandidates candidates').rows.map
      fun c => (scoreCandidate uni now query filters c).scored) := by
  have hrows' : SameRows candidates' := fun a ha b hb =>
    hrows a (h.mem_iff.mpr ha) b (h.mem_iff.mpr hb)
  refine Table.map_rows_perm fun id => ?_
  have hevidence : ((mergedCandidates candidates).get? id).map RetrievalCandidate.evidence =
      ((mergedCandidates candidates').get? id).map RetrievalCandidate.evidence :=
    Table.map_get?_upsertAll_of_perm evidence_mergeCandidate h id
  cases hleft : (mergedCandidates candidates).get? id with
  | none =>
    rw [hleft] at hevidence
    rw [Option.map_eq_none_iff.mp hevidence.symm]
  | some a =>
    rw [hleft] at hevidence
    obtain ⟨b, hright, hab⟩ := Option.map_eq_some_iff.mp hevidence.symm
    -- both rows are the row of any candidate of this chunk
    have hid : id ∈ candidates.map RetrievalCandidate.chunkId := by
      rw [← mem_ids_mergedCandidates, ← Table.key_of_get? hleft]
      exact List.mem_map_of_mem (Table.mem_of_get? hleft)
    obtain ⟨candidate, hcandidate, rfl⟩ := List.mem_map.mp hid
    have hrow : a.row = b.row :=
      (row_of_get?_mergedCandidates hrows hcandidate hleft).trans
        (row_of_get?_mergedCandidates hrows' (h.mem_iff.mp hcandidate) hright).symm
    rw [hright]
    exact congrArg some (scored_scoreCandidate uni now query filters hrow hab.symm)

theorem rankedCandidates_map_scored (params : MergeParams) :
    (rankedCandidates uni locale now params).map RetrievalCandidate.scored =
      ((mergedCandidates (params.semanticCandidates ++ params.lexicalCandidates)).rows.map
        fun c => (scoreCandidate uni now params.query params.filters c).scored).mergeSort
          fun left right => (compareCandidates locale left right).isLE := by
  have hle : ∀ a b : RetrievalCandidate, (compareCandidates locale a b).isLE =
      (compareCandidates locale a.scored b.scored).isLE := fun _ _ => rfl
  rw [rankedCandidates,
    List.map_mergeSort (s := fun a b => (compareCandidates locale a b).isLE) fun a _ b _ => hle a b,
    List.map_map]
  rfl

theorem ids_rankedCandidates_perm (params : MergeParams) :
    ((rankedCandidates uni locale now params).map RetrievalCandidate.chunkId).Perm
      ((mergedCandidates (params.semanticCandidates ++ params.lexicalCandidates)).rows.map
        RetrievalCandidate.chunkId) := by
  refine ((List.mergeSort_perm _ _).map RetrievalCandidate.chunkId).trans ?_
  rw [List.map_map]
  exact List.Perm.refl _

theorem nodup_ids_rankedCandidates (params : MergeParams) :
    ((rankedCandidates uni locale now params).map RetrievalCandidate.chunkId).Nodup :=
  (ids_rankedCandidates_perm uni locale now params).nodup_iff.mpr (Table.keys_nodup _)

theorem rankedCandidates_sorted (params : MergeParams) :
    (rankedCandidates uni locale now params).Pairwise (RankedBefore locale) := by
  have hsorted : (rankedCandidates uni locale now params).Pairwise
      fun a b => (compareCandidates locale a b).isLE = true :=
    pairwise_mergeSort_isLE _
  have hids := List.pairwise_map.mp (nodup_ids_rankedCandidates uni locale now params)
  refine (hsorted.and hids).imp fun {a b} h => ?_
  rw [← compareCandidates_eq_lt_iff]
  cases hcompare : compareCandidates locale a b with
  | lt => rfl
  | eq => exact absurd (chunkId_eq_of_compareCandidates locale hcompare) h.2
  | gt =>
    rw [hcompare] at h
    exact absurd h.1 (by decide)

/-- The sorted list of all merged chunks does not depend on the order of the
    candidates. -/
theorem rankedCandidates_perm {params params' : MergeParams} (hquery : params.query = params'.query)
    (hfilters : params.filters = params'.filters)
    (hrows : SameRows (params.semanticCandidates ++ params.lexicalCandidates))
    (h : (params.semanticCandidates ++ params.lexicalCandidates).Perm
      (params'.semanticCandidates ++ params'.lexicalCandidates)) :
    (rankedCandidates uni locale now params).map RetrievalCandidate.scored =
      (rankedCandidates uni locale now params').map RetrievalCandidate.scored := by
  rw [rankedCandidates_map_scored, rankedCandidates_map_scored, ← hquery, ← hfilters]
  refine mergeSort_eq_of_perm (fun a b ha hb heq => ?_)
    (scored_mergedCandidates_perm uni now params.query params.filters hrows h)
  obtain ⟨x, hx, rfl⟩ := List.mem_map.mp ha
  obtain ⟨y, hy, rfl⟩ := List.mem_map.mp hb
  have hid := chunkId_eq_of_compareCandidates locale heq
  rw [Table.eq_of_key_eq _ hx hy hid]

theorem map_beforeDedup_numbered (candidates : List RetrievalCandidate) :
    (candidates.mapIdx numberCandidate).map RetrievalCandidate.beforeDedup =
      (candidates.map RetrievalCandidate.scored).mapIdx numberCandidate := by
  refine List.ext_getElem (by simp) fun i hi hi' => ?_
  simp [numberCandidate, RetrievalCandidate.beforeDedup, RetrievalCandidate.scored]

theorem mergeAndScore_eq {params : MergeParams} (hlimit : 1 ≤ params.rerankPoolLimit) :
    mergeAndScore uni locale now params =
      ((rankedCandidates uni locale now params).take params.rerankPoolLimit).mapIdx
        numberCandidate := by
  rw [mergeAndScore, max_eq_right hlimit]

end Ranking

/-- `ranked` is the beginning, numbered, of a sorted list that has every chunk of
    the candidates once. -/
structure IsRanking (locale : LocaleCompare) (params : MergeParams)
    (ranked : List RetrievalCandidate) : Prop where
  nodup : (ranked.map RetrievalCandidate.chunkId).Nodup
  sorted : ranked.Pairwise (RankedBefore locale)
  complete : ∃ all : List RetrievalCandidate,
    (∀ id, id ∈ all.map RetrievalCandidate.chunkId ↔
      id ∈ (params.semanticCandidates ++ params.lexicalCandidates).map RetrievalCandidate.chunkId) ∧
    (all.map RetrievalCandidate.chunkId).Nodup ∧ all.Pairwise (RankedBefore locale) ∧
    ranked = (all.take params.rerankPoolLimit).mapIdx numberCandidate

theorem isRanking_mergeAndScore (uni : EcmaUnicode) (locale : LocaleCompare) (now : Time)
    {params : MergeParams} (hlimit : 1 ≤ params.rerankPoolLimit) :
    IsRanking locale params (mergeAndScore uni locale now params) := by
  have hids := nodup_ids_rankedCandidates uni locale now params
  have hsorted := rankedCandidates_sorted uni locale now params
  have hnumbered : ∀ candidates : List RetrievalCandidate,
      (candidates.mapIdx numberCandidate).map RetrievalCandidate.chunkId =
        candidates.map RetrievalCandidate.chunkId := fun candidates =>
    List.ext_getElem (by simp) fun i hi hi' => by simp [numberCandidate]
  refine ⟨?_, ?_, rankedCandidates uni locale now params, fun id => ?_, hids, hsorted, ?_⟩
  · rw [mergeAndScore_eq uni locale now hlimit, hnumbered]
    exact hids.sublist ((List.take_sublist _ _).map _)
  · rw [mergeAndScore_eq uni locale now hlimit, List.pairwise_iff_getElem]
    intro i j hi hj hij
    have hle := List.pairwise_iff_getElem.mp
      (hsorted.sublist (List.take_sublist params.rerankPoolLimit _)) i j (by simpa using hi)
      (by simpa using hj) hij
    rw [List.getElem_mapIdx, List.getElem_mapIdx]
    exact hle
  · rw [(ids_rankedCandidates_perm uni locale now params).mem_iff, mem_ids_mergedCandidates]
  · exact mergeAndScore_eq uni locale now hlimit

/-- Candidates in another order have the same ranking, and it is one. -/
theorem ranking_of_candidates (uni : EcmaUnicode) (locale : LocaleCompare) (now : Time)
    (params : MergeParams) (semanticCandidates' lexicalCandidates' : List RetrievalCandidate)
    (hlimit : 1 ≤ params.rerankPoolLimit)
    (hrows : SameRows (params.semanticCandidates ++ params.lexicalCandidates))
    (hsemantic : params.semanticCandidates.Perm semanticCandidates')
    (hlexical : params.lexicalCandidates.Perm lexicalCandidates') :
    (mergeAndScore uni locale now params).map RetrievalCandidate.beforeDedup =
      (mergeAndScore uni locale now
        { params with
          semanticCandidates := semanticCandidates'
          lexicalCandidates := lexicalCandidates' }).map RetrievalCandidate.beforeDedup ∧
    IsRanking locale params (mergeAndScore uni locale now params) := by
  refine ⟨?_, isRanking_mergeAndScore uni locale now hlimit⟩
  have hlists : (rankedCandidates uni locale now params).map RetrievalCandidate.scored =
      (rankedCandidates uni locale now
        { params with
          semanticCandidates := semanticCandidates'
          lexicalCandidates := lexicalCandidates' }).map RetrievalCandidate.scored :=
    rankedCandidates_perm uni locale now rfl rfl hrows (hsemantic.append hlexical)
  rw [mergeAndScore, mergeAndScore, map_beforeDedup_numbered, map_beforeDedup_numbered,
    List.map_take, List.map_take, hlists]

/-- A candidate for a chunk of a guide. -/
def guideCandidate (chunkId : Id) (retrievedBy : RetrievalSource) (semanticScore : ℚ) :
    RetrievalCandidate where
  chunkId := chunkId
  documentId := 1
  documentTitle := "Guide".toList
  documentVersionId := 1
  kbId := 1
  chunkNo := chunkId
  content := "Install the worker.".toList
  searchText := "Install the worker.".toList
  checksum := "0"
  sectionTitle := none
  pageNumber := none
  sourceTitle := none
  language := none
  metadataJson := none
  semanticScore := semanticScore
  semanticRank := none
  lexicalRank := none
  indexedAt := none
  debug :=
    { retrievedBy := [retrievedBy]
      rawSemanticDistance := none
      rawSemanticSimilarity := none
      rawLexicalScore := none }

/-- The order of the numbers. -/
def LocaleCompare.numeric : LocaleCompare where
  compare := fun a b => Ord.compare a b
  trans := inferInstanceAs (Std.TransOrd ℕ)
  lawfulEq := inferInstanceAs (Std.LawfulEqOrd ℕ)

/-- A question about the worker, with three candidates for two chunks. -/
def guideParams : MergeParams where
  query := preprocess .ascii "worker".toList
  filters := {}
  semanticCandidates := [guideCandidate 1 .semantic (8 / 10), guideCandidate 2 .semantic (6 / 10)]
  lexicalCandidates := [guideCandidate 1 .lexical 0]
  rerankPoolLimit := 24

theorem ranking_of_candidates_guide :
    (mergeAndScore .ascii .numeric 0 guideParams).map RetrievalCandidate.beforeDedup =
      (mergeAndScore .ascii .numeric 0
        { guideParams with
          semanticCandidates := guideParams.semanticCandidates.reverse
          lexicalCandidates := guideParams.lexicalCandidates.reverse }).map
        RetrievalCandidate.beforeDedup ∧
    IsRanking .numeric guideParams (mergeAndScore .ascii .numeric 0 guideParams) := by
  refine ranking_of_candidates .ascii .numeric 0 guideParams _ _ (by decide) ?_
    (List.reverse_perm _).symm (List.reverse_perm _).symm
  intro a ha b hb hid
  simp only [guideParams, List.cons_append, List.nil_append, List.mem_cons, List.not_mem_nil,
    or_false] at ha hb
  rcases ha with rfl | rfl | rfl <;> rcases hb with rfl | rfl | rfl <;>
    first | rfl | exact absurd hid (by decide)

end RagStack.Chat
