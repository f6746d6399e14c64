import RagStack.Common.Pack
import RagStack.Chunking.Sections
import Mathlib.Algebra.BigOperators.Ring.List
import Mathlib.Algebra.Order.BigOperators.Group.List
import Mathlib.Data.List.Sort

/-!
# `Chunker`: text units

`app/services/chunker.py`, lines 156–319: the blocks of a section become text
units; a text over the section's budget goes through the fallback splitters.

* `words_splitUnitText`: the units of a text have the words of the text.
* `buildUnits_eq`: the units of a section are those of consecutive runs of its
  blocks.
* `words_buildUnits`: the units of a section have the words of its blocks.
* `length_of_mem_splitUnitText`: with the fallback counter a unit has less than five
  characters for each token of the budget, unless a part that was not split
  further exceeds the budget.
-/

namespace RagStack.Chunking

open RagStack.Common RagStack.Worker

/-- `_TextUnit` (lines 22–31). -/
structure TextUnit where
  text : Text
  tokenCount : ℕ
  pageNumbers : List ℤ
  blockKinds : List BlockKind
  blockIndexes : List ℕ
  sectionTitle : Option Text
  sectionPath : List Text
  headingLevel : Option ℕ
deriving DecidableEq, Repr

/-- `unit.block_kinds == ["heading"]`. -/
def TextUnit.isHeading (unit : TextUnit) : Bool := unit.blockKinds = [.heading]

/-- `_unique_page_numbers` (lines 489–490). -/
def uniquePageNumbers (pages : List (Option ℤ)) : List ℤ :=
  (pages.filterMap id).dedup.insertionSort (· ≤ ·)

/-! ## Fallback splitters -/

/-- `\n(?=Q:)`. -/
def faqBoundaryAt : Matcher Char := fun _ l =>
  match l with
  | '\n' :: 'Q' :: ':' :: _ => 1
  | _ => 0

/-- `(?<=[.!?])\s+`. -/
def sentenceBoundaryAt : Matcher Char := fun prev l =>
  match prev with
  | some p => if p == '.' || p == '!' || p == '?' then (l.takeWhile isSpace).length else 0
  | none => 0

/-- The parts of `text` at the first kind of boundary that gives more than one
    (lines 272–282). -/
def fallbackParts (text : Text) (blockKind : BlockKind) : List Text :=
  let parts :=
    match blockKind with
    | .qaPair => stripParts (splitAtMatches faqBoundaryAt text)
    | .listItem | .tableRow => stripParts (splitNewlines text)
    | _ => []
  let parts :=
    if parts.length ≤ 1 then stripParts (splitAtMatches (runAt (· == '\n') 2) text) else parts
  let parts :=
    if parts.length ≤ 1 then stripParts (splitAtMatches sentenceBoundaryAt text) else parts
  if parts.length ≤ 1 then stripParts (splitLines text) else parts

/-- `_pack_parts` (lines 287–302). -/
def Chunker.packParts (ck : Chunker) (parts : List Text) (maxTokens : ℕ) : List Text :=
  (greedyPack ck.tokenCounter.count maxTokens parts).map fun current => stripText (join [' '] current)

/-- `_split_by_words` (lines 304–319). -/
def Chunker.splitByWords (ck : Chunker) (text : Text) (maxTokens : ℕ) : List Text :=
  (greedyPack ck.tokenCounter.count maxTokens (splitWords text)).map fun current =>
    join [' '] current

/-- `_split_large_text` (lines 271–285). -/
def Chunker.splitLargeText (ck : Chunker) (text : Text) (blockKind : BlockKind) (maxTokens : ℕ) :
    List Text :=
  let parts := fallbackParts text blockKind
  if parts.length ≤ 1 then ck.splitByWords text maxTokens else ck.packParts parts maxTokens

/-- `_split_unit_text` (lines 229–269); `block_kinds` is always one kind. -/
def Chunker.splitUnitText (ck : Chunker) (sec : Section) (text : Text) (maxTokens : ℕ)
    (pageNumbers : List ℤ) (blockKind : BlockKind) (blockIndexes : List ℕ) : List TextUnit :=
  let unit (text : Text) : TextUnit :=
    { text := text, tokenCount := ck.tokenCounter.count text, pageNumbers := pageNumbers,
      blockKinds := [blockKind], blockIndexes := blockIndexes, sectionTitle := sec.title,
      sectionPath := sec.path, headingLevel := sec.headingLevel }
  if text = [] then []
  else if ck.tokenCounter.count text ≤ maxTokens then [unit text]
  else ((ck.splitLargeText text blockKind maxTokens).filter fun part => part ≠ []).map unit

/-! ## Units of a section -/

/-- `str(block.metadata.get("qa_label", ""))`. -/
def qaLabel (block : ParsedBlock) : Text := block.metadata.qaLabel.getD []

/-- The inner loop of `_build_units` (lines 189–200): the question and answer
    blocks that join the current run, and the blocks that are left. -/
def collectQa (labels : List Text) :
    List (ℕ × ParsedBlock) → List (ℕ × ParsedBlock) × List (ℕ × ParsedBlock)
  | [] => ([], [])
  | next :: rest =>
    if next.2.kind ≠ .qaPair then ([], next :: rest)
    else if qaLabel next.2 = ['Q'] ∧ ['A'] ∈ labels then ([], next :: rest)
    else
      let (run, rest) := collectQa (labels ++ [qaLabel next.2]) rest
      (next :: run, rest)

/-- `"\n".join(text for text in merged_texts if text)` for the stripped texts of a run. -/
def combineTexts (run : List (ℕ × ParsedBlock)) : Text :=
  join ['\n'] (stripParts (run.map fun b => b.2.text))

/-- `max_tokens` of `_build_units` (lines 178–180): the target less the title. -/
def Chunker.sectionBudget (ck : Chunker) (sec : Section) : ℕ :=
  match truthy sec.title with
  | some title => max 1 (ck.settings.chunkTargetTokens - ck.tokenCounter.count title)
  | none => ck.settings.chunkTargetTokens

/-- The variables of the loop of `_build_units`. -/
structure UnitState where
  units : List TextUnit
  rest : List (ℕ × ParsedBlock)

/-- The loop body of `_build_units` (lines 182–226). -/
def Chunker.unitStep (ck : Chunker) (sec : Section) (s : UnitState) : UnitState :=
  match s.rest with
  | [] => s
  | (blockIndex, block) :: rest =>
    if block.kind = .qaPair then
      let (run, rest) := collectQa [qaLabel block] rest
      let run := (blockIndex, block) :: run
      let pageNumbers := run.flatMap fun b => uniquePageNumbers [b.2.pageNumber]
      { units := s.units ++ ck.splitUnitText sec (combineTexts run) (ck.sectionBudget sec)
          (uniquePageNumbers (pageNumbers.map some)) .qaPair (run.map Prod.fst)
        rest := rest }
    else
      { units := s.units ++ ck.splitUnitText sec (stripText block.text) (ck.sectionBudget sec)
          (uniquePageNumbers [block.pageNumber]) block.kind [blockIndex]
        rest := rest }

/-- `_build_units` (lines 176–227). -/
def Chunker.buildUnits (ck : Chunker) (sec : Section) : List TextUnit :=
  (whileLoop (fun s : UnitState => s.rest.length) (fun s => s.rest ≠ []) (ck.unitStep sec)
    { units := [], rest := sec.blocks }).units

/-- `_section_page_numbers` (lines 480–481). -/
def sectionPageNumbers (sec : Section) : List ℤ :=
  uniquePageNumbers (sec.blocks.map fun b => b.2.pageNumber)

/-- The heading unit of a section in a merged group (lines 159–172). -/
def Chunker.titleUnit (ck : Chunker) (sec : Section) (title : Text) : TextUnit :=
  { text := title, tokenCount := ck.tokenCounter.count title, pageNumbers := sectionPageNumbers sec,
    blockKinds := [.heading], blockIndexes := sec.blocks.map Prod.fst, sectionTitle := some title,
    sectionPath := sec.path, headingLevel := sec.headingLevel }

/-- `_build_group_units` (lines 156–174). -/
def Chunker.buildGroupUnits (ck : Chunker) (sections : List Section) : List TextUnit :=
  sections.flatMap fun sec =>
    ((truthy sec.title).elim [] fun title => [ck.titleUnit sec title]) ++ ck.buildUnits sec

/-! ## Words of units -/

theorem faqBoundaryAt_within : faqBoundaryAt.Within isSpace := by
  intro prev l c hc
  unfold faqBoundaryAt at hc
  split at hc
  · rw [show c = '\n' by simpa using hc]
    decide
  · simp at hc

theorem sentenceBoundaryAt_within : sentenceBoundaryAt.Within isSpace := by
  intro prev l c hc
  unfold sentenceBoundaryAt at hc
  split at hc
  · split_ifs at hc
    · rw [← List.prefix_iff_eq_take.mp (List.takeWhile_prefix isSpace)] at hc
      exact List.mem_takeWhile_imp hc
    · simp at hc
  · simp at hc

/-- The fallback parts have the words of the text, whichever boundary cut it. -/
theorem words_fallbackParts (text : Text) (blockKind : BlockKind) :
    (fallbackParts text blockKind).flatMap splitWords = splitWords text := by
  have hsplit {m : Matcher Char} (hm : m.Within isSpace) :
      (stripParts (splitAtMatches m text)).flatMap splitWords = splitWords text := by
    rw [flatMap_splitWords_stripParts]
    exact words_splitAtMatches hm text
  have hlines : (stripParts (splitLines text)).flatMap splitWords = splitWords text := by
    rw [flatMap_splitWords_stripParts, flatMap_splitWords_splitLines]
  have hnewlines : (stripParts (splitNewlines text)).flatMap splitWords = splitWords text := by
    rw [flatMap_splitWords_stripParts, flatMap_splitWords_splitNewlines]
  -- a step of the cascade either replaces the parts or keeps two or more of them
  have hstep {parts parts' : List Text}
      (h : 1 < parts.length → parts.flatMap splitWords = splitWords text)
      (h' : parts'.flatMap splitWords = splitWords text) :
      (if parts.length ≤ 1 then parts' else parts).flatMap splitWords = splitWords text := by
    split_ifs with hlen
    · exact h'
    · exact h (by omega)
  have hnewline (c : Char) (hc : (c == '\n') = true) : isSpace c = true := by
    rw [beq_iff_eq.mp hc]
    rfl
  unfold fallbackParts
  refine hstep (fun _ => hstep (fun _ => hstep ?_ (hsplit (runAt_within hnewline 2)))
    (hsplit sentenceBoundaryAt_within)) hlines
  intro hlen
  cases blockKind with
  | qaPair => exact hsplit faqBoundaryAt_within
  | listItem => exact hnewlines
  | tableRow => exact hnewlines
  | heading => simp at hlen
  | paragraph => simp at hlen

theorem splitWords_join_space (parts : List Text) :
    splitWords (join [' '] parts) = parts.flatMap splitWords :=
  words_join (by simp) (List.all_eq_true.mp (by decide)) parts

variable (ck : Chunker)

/-- Packing keeps the words of the parts. -/
theorem words_packParts (parts : List Text) (maxTokens : ℕ) :
    (ck.packParts parts maxTokens).flatMap splitWords = parts.flatMap splitWords :=
  calc (ck.packParts parts maxTokens).flatMap splitWords
      = (greedyPack ck.tokenCounter.count maxTokens parts).flatMap
          (fun current => current.flatMap splitWords) := by
        simp only [Chunker.packParts, List.flatMap_map, splitWords_stripText, splitWords_join_space]
    _ = parts.flatMap splitWords := flatMap_greedyPack _ _ splitWords _

theorem words_splitByWords (text : Text) (maxTokens : ℕ) :
    (ck.splitByWords text maxTokens).flatMap splitWords = splitWords text :=
  calc (ck.splitByWords text maxTokens).flatMap splitWords
      = (greedyPack ck.tokenCounter.count maxTokens (splitWords text)).flatMap
          (fun current => current.flatMap splitWords) := by
        simp only [Chunker.splitByWords, List.flatMap_map, splitWords_join_space]
    _ = (splitWords text).flatMap splitWords := flatMap_greedyPack _ _ splitWords _
    _ = splitWords text := flatMap_words_words text

theorem words_splitLargeText (text : Text) (blockKind : BlockKind) (maxTokens : ℕ) :
    (ck.splitLargeText text blockKind maxTokens).flatMap splitWords = splitWords text := by
  unfold Chunker.splitLargeText
  simp only
  split_ifs
  · exact words_splitByWords ck text maxTokens
  · rw [words_packParts, words_fallbackParts]

/-- The words of a list of units, in order. -/
def unitWords (units : List TextUnit) : List Text := units.flatMap fun u => splitWords u.text

theorem unitWords_append (a b : List TextUnit) : unitWords (a ++ b) = unitWords a ++ unitWords b :=
  List.flatMap_append

/-- The units of a text have the words of the text. -/
theorem words_splitUnitText (sec : Section) (text : Text) (maxTokens : ℕ) (pageNumbers : List ℤ)
    (blockKind : BlockKind) (blockIndexes : List ℕ) :
    unitWords (ck.splitUnitText sec text maxTokens pageNumbers blockKind blockIndexes) =
      splitWords text := by
  unfold Chunker.splitUnitText unitWords
  simp only
  split_ifs with hnil
  · rw [hnil]
    rfl
  · simp
  · rw [List.flatMap_map, ← words_splitLargeText ck text blockKind maxTokens]
    induction ck.splitLargeText text blockKind maxTokens with
    | nil => rfl
    | cons part parts ih =>
      by_cases hp : part = []
      · rw [List.filter_cons_of_neg (by simp [hp]), ih, List.flatMap_cons, hp]
        rfl
      · rw [List.filter_cons_of_pos (by simp [hp]), List.flatMap_cons, List.flatMap_cons, ih]

/-! ## Runs of blocks -/

theorem collectQa_append (rest : List (ℕ × ParsedBlock)) :
    ∀ labels, (collectQa labels rest).1 ++ (collectQa labels rest).2 = rest := by
  induction rest with
  | nil => intro labels; rfl
  | cons next rest ih =>
    intro labels
    unfold collectQa
    split_ifs
    · rfl
    · rfl
    · exact congrArg (next :: ·) (ih _)

/-- The units of one iteration of `_build_units`, for the blocks it reads. -/
def Chunker.unitsOfRun (ck : Chunker) (sec : Section) (run : List (ℕ × ParsedBlock)) :
    List TextUnit :=
  match run with
  | [] => []
  | (_, block) :: _ =>
    ck.splitUnitText sec (combineTexts run) (ck.sectionBudget sec)
      (uniquePageNumbers ((run.flatMap fun b => uniquePageNumbers [b.2.pageNumber]).map some))
      block.kind (run.map Prod.fst)

theorem combineTexts_singleton (b : ℕ × ParsedBlock) : combineTexts [b] = stripText b.2.text := by
  by_cases h : stripText b.2.text = [] <;> simp [combineTexts, stripParts, h]

theorem uniquePageNumbers_singleton (page : Option ℤ) :
    uniquePageNumbers ((uniquePageNumbers [page]).map some) = uniquePageNumbers [page] := by
  cases page <;> rfl

/-- The blocks that one iteration reads, and those that are left. -/
def nextRun (b : ℕ × ParsedBlock) (rest : List (ℕ × ParsedBlock)) :
    List (ℕ × ParsedBlock) × List (ℕ × ParsedBlock) :=
  if b.2.kind = .qaPair then
    (b :: (collectQa [qaLabel b.2] rest).1, (collectQa [qaLabel b.2] rest).2)
  else ([b], rest)

theorem nextRun_append (b : ℕ × ParsedBlock) (rest : List (ℕ × ParsedBlock)) :
    (nextRun b rest).1 ++ (nextRun b rest).2 = b :: rest := by
  unfold nextRun
  split_ifs
  · rw [List.cons_append, collectQa_append]
  · rfl

theorem length_snd_nextRun (b : ℕ × ParsedBlock) (rest : List (ℕ × ParsedBlock)) :
    (nextRun b rest).2.length ≤ rest.length := by
  unfold nextRun
  split_ifs
  · conv_rhs => rw [← collectQa_append rest [qaLabel b.2], List.length_append]
    exact Nat.le_add_left _ _
  · exact Nat.le_refl _

/-- The runs of blocks that `_build_units` reads: one block, or consecutive
    question and answer blocks. -/
def sectionRuns : List (ℕ × ParsedBlock) → List (List (ℕ × ParsedBlock))
  | [] => []
  | b :: rest => (nextRun b rest).1 :: sectionRuns (nextRun b rest).2
termination_by blocks => blocks.length
decreasing_by exact Nat.lt_succ_of_le (length_snd_nextRun b rest)

theorem flatten_sectionRuns (blocks : List (ℕ × ParsedBlock)) :
    (sectionRuns blocks).flatten = blocks := by
  induction blocks using sectionRuns.induct with
  | case1 => simp [sectionRuns]
  | case2 b rest ih => rw [sectionRuns, List.flatten_cons, ih, nextRun_append]

theorem unitStep_cons (sec : Section) (units : List TextUnit) (b : ℕ × ParsedBlock)
    (rest : List (ℕ × ParsedBlock)) :
    ck.unitStep sec ⟨units, b :: rest⟩ =
      ⟨units ++ ck.unitsOfRun sec (nextRun b rest).1, (nextRun b rest).2⟩ := by
  unfold Chunker.unitStep nextRun
  simp only
  split_ifs with hk
  · simp [Chunker.unitsOfRun, hk]
  · simp [Chunker.unitsOfRun, combineTexts_singleton, uniquePageNumbers_singleton]

/-- The units of a section are those of its runs. -/
theorem buildUnits_eq (sec : Section) :
    ck.buildUnits sec = (sectionRuns sec.blocks).flatMap (ck.unitsOfRun sec) := by
  obtain ⟨hinv, hend⟩ := @whileLoop_rule UnitState (fun s => s.rest.length)
    (fun s => decide (s.rest ≠ [])) (ck.unitStep sec)
    (fun s => s.units ++ (sectionRuns s.rest).flatMap (ck.unitsOfRun sec) =
      (sectionRuns sec.blocks).flatMap (ck.unitsOfRun sec))
    (by
      rintro ⟨units, rest⟩ hs hc
      obtain ⟨b, rest, rfl⟩ := List.exists_cons_of_ne_nil (by simpa using hc : rest ≠ [])
      rw [unitStep_cons]
      refine ⟨?_, Nat.lt_succ_of_le (length_snd_nextRun b rest)⟩
      rw [← hs, sectionRuns, List.flatMap_cons, List.append_assoc])
    { units := [], rest := sec.blocks } (by simp)
  rw [show (whileLoop _ _ (ck.unitStep sec) _).rest = [] by simpa using hend, sectionRuns,
    List.flatMap_nil, List.append_nil] at hinv
  exact hinv

/-! ## What a unit carries -/

/-- The data of a unit that comes from a text of kind `blockKind` in `sec`. -/
structure UnitOf (ck : Chunker) (sec : Section) (blockKind : BlockKind) (u : TextUnit) : Prop where
  text_ne_nil : u.text ≠ []
  tokenCount : u.tokenCount = ck.tokenCounter.count u.text
  blockKinds : u.blockKinds = [blockKind]
  sectionTitle : u.sectionTitle = sec.title
  sectionPath : u.sectionPath = sec.path

theorem unitOf_of_mem_splitUnitText {ck : Chunker} {sec : Section} {text : Text} {maxTokens : ℕ}
    {pageNumbers : List ℤ} {blockKind : BlockKind} {blockIndexes : List ℕ} {u : TextUnit}
    (h : u ∈ ck.splitUnitText sec text maxTokens pageNumbers blockKind blockIndexes) :
    UnitOf ck sec blockKind u := by
  unfold Chunker.splitUnitText at h
  simp only at h
  split_ifs at h with hnil
  · cases h
  · rw [List.mem_singleton] at h
    subst h
    exact ⟨hnil, rfl, rfl, rfl, rfl⟩
  · obtain ⟨part, hpart, rfl⟩ := List.mem_map.mp h
    exact ⟨by simpa using (List.mem_filter.mp hpart).2, rfl, rfl, rfl, rfl⟩

/-- A unit of a section comes from a run of the section's blocks. -/
theorem exists_run_of_mem_buildUnits {ck : Chunker} {sec : Section} {u : TextUnit}
    (h : u ∈ ck.buildUnits sec) : ∃ run ∈ sectionRuns sec.blocks, u ∈ ck.unitsOfRun sec run := by
  rw [buildUnits_eq, List.mem_flatMap] at h
  exact h

theorem mem_of_mem_sectionRuns {blocks run : List (ℕ × ParsedBlock)} (hrun : run ∈ sectionRuns blocks)
    {b : ℕ × ParsedBlock} (hb : b ∈ run) : b ∈ blocks := by
  rw [← flatten_sectionRuns blocks]
  exact List.mem_flatten.mpr ⟨run, hrun, hb⟩

/-- The kind of a unit is the kind of a block of its section. -/
theorem exists_kind_of_mem_buildUnits {ck : Chunker} {sec : Section} {u : TextUnit}
    (h : u ∈ ck.buildUnits sec) : ∃ b ∈ sec.blocks, UnitOf ck sec b.2.kind u := by
  obtain ⟨run, hrun, hu⟩ := exists_run_of_mem_buildUnits h
  cases run with
  | nil => cases hu
  | cons b run => exact ⟨b, mem_of_mem_sectionRuns hrun (by simp), unitOf_of_mem_splitUnitText hu⟩

/-- The texts of a run, joined, have the words of its blocks. -/
theorem words_combineTexts (run : List (ℕ × ParsedBlock)) :
    splitWords (combineTexts run) = run.flatMap fun b => splitWords b.2.text := by
  have h : splitWords (combineTexts run) =
      (stripParts (run.map fun b => b.2.text)).flatMap splitWords :=
    words_join (by simp) (List.all_eq_true.mp (by decide)) _
  rw [h, flatMap_splitWords_stripParts, List.flatMap_map]

theorem words_unitsOfRun (sec : Section) (run : List (ℕ × ParsedBlock)) :
    unitWords (ck.unitsOfRun sec run) = run.flatMap fun b => splitWords b.2.text := by
  cases run with
  | nil => rfl
  | cons b run => rw [Chunker.unitsOfRun, words_splitUnitText, words_combineTexts]

/-- The units of a section have the words of its blocks, in order. -/
theorem words_buildUnits (sec : Section) :
    unitWords (ck.buildUnits sec) = sec.blocks.flatMap fun b => splitWords b.2.text :=
  calc unitWords (ck.buildUnits sec)
      = (sectionRuns sec.blocks).flatMap fun run => unitWords (ck.unitsOfRun sec run) := by
        rw [buildUnits_eq, unitWords, List.flatMap_assoc]
        rfl
    _ = (sectionRuns sec.blocks).flatten.flatMap fun b => splitWords b.2.text := by
        simp only [words_unitsOfRun, ← List.flatMap_id', List.flatMap_assoc]
    _ = sec.blocks.flatMap fun b => splitWords b.2.text := by rw [flatten_sectionRuns]

/-! ## Sizes of units -/

/-- The parts of an oversize text that no splitter cuts further: the fallback
    parts, or the words if no boundary was found. -/
def unsplitParts (text : Text) (blockKind : BlockKind) : List Text :=
  if (fallbackParts text blockKind).length ≤ 1 then splitWords text
  else fallbackParts text blockKind

theorem strip_of_mem_stripParts {parts : List Text} {part : Text} (h : part ∈ stripParts parts) :
    part ≠ [] ∧ stripText part = part := by
  obtain ⟨h1, h2⟩ := List.mem_filter.mp h
  obtain ⟨raw, -, rfl⟩ := List.mem_map.mp h1
  exact ⟨by simpa using h2, strip_strip isSpace raw⟩

/-- An unsplit part is not empty and has no whitespace at its ends. -/
theorem strip_of_mem_unsplitParts {text part : Text} {blockKind : BlockKind}
    (h : part ∈ unsplitParts text blockKind) : part ≠ [] ∧ stripText part = part := by
  unfold unsplitParts at h
  split_ifs at h with hlen
  · obtain ⟨hne, hsp⟩ := mem_words h
    refine ⟨hne, strip_eq_self isSpace (fun c hc => ?_) fun c hc => ?_⟩
    · exact hsp c (List.mem_of_mem_head? hc)
    · exact hsp c (List.mem_of_getLast? hc)
  · unfold fallbackParts at h hlen
    simp only at h hlen
    split_ifs at h with h1 h2 h3
    · exact strip_of_mem_stripParts h
    · exact strip_of_mem_stripParts h
    · exact strip_of_mem_stripParts h
    · cases blockKind with
      | qaPair => exact strip_of_mem_stripParts h
      | listItem => exact strip_of_mem_stripParts h
      | tableRow => exact strip_of_mem_stripParts h
      | heading => cases h
      | paragraph => cases h

/-- A part of `_split_large_text` is a greedy group of unsplit parts, joined by spaces. -/
theorem exists_group_of_mem_splitLargeText {ck : Chunker} {text part : Text}
    {blockKind : BlockKind} {maxTokens : ℕ} (h : part ∈ ck.splitLargeText text blockKind maxTokens) :
    ∃ group ∈ greedyPack ck.tokenCounter.count maxTokens (unsplitParts text blockKind),
      part = join [' '] group ∨ part = stripText (join [' '] group) := by
  unfold Chunker.splitLargeText at h
  unfold unsplitParts
  simp only at h
  split_ifs at h ⊢
  · obtain ⟨group, hg, rfl⟩ := List.mem_map.mp h
    exact ⟨group, hg, Or.inl rfl⟩
  · obtain ⟨group, hg, rfl⟩ := List.mem_map.mp h
    exact ⟨group, hg, Or.inr rfl⟩

/-- A stripped part of a group is in the group's text, stripped or not. -/
theorem infix_of_mem_group {group : List Text} {joined part : Text}
    (hjoined : joined = join [' '] group ∨ joined = stripText (join [' '] group))
    (hpart : part ∈ group) (hstrip : stripText part = part) : part <:+: joined := by
  rcases hjoined with rfl | rfl
  · exact infix_join hpart
  · rw [← hstrip]
    exact strip_infix_strip isSpace (infix_join hpart)

/-- Texts joined by a separator are at most four characters for each of their
    tokens long, and one separator for each token but the first. -/
theorem length_join_le {parts : List Text} (hne : parts ≠ []) (hparts : ∀ p ∈ parts, p ≠ [])
    (sep : Text) {budget : ℕ} (hsum : (parts.map TokenCounter.charApprox.count).sum ≤ budget) :
    (join sep parts).length + sep.length ≤ (4 + sep.length) * budget := by
  have hlen : (parts.map List.length).sum ≤ 4 * budget := by
    refine le_trans ?_ (Nat.mul_le_mul_left 4 hsum)
    rw [← List.sum_map_mul_left]
    exact List.sum_le_sum fun p _ => TokenCounter.length_le_four_mul_count p
  have hcount : parts.length ≤ budget := by
    refine le_trans ?_ hsum
    rw [← List.length_map (f := TokenCounter.charApprox.count)]
    apply List.length_le_sum_of_one_le
    intro n hn
    obtain ⟨p, hp, rfl⟩ := List.mem_map.mp hn
    exact TokenCounter.count_pos_of_ne_nil (hparts p hp)
  have hpos := List.length_pos_iff.mpr hne
  rw [length_join, Nat.add_mul, Nat.add_assoc]
  apply Nat.add_le_add hlen
  calc sep.length * (parts.length - 1) + sep.length
      = sep.length * parts.length := by
        rw [← Nat.mul_succ, Nat.succ_eq_add_one, Nat.sub_add_cancel hpos]
    _ ≤ sep.length * budget := Nat.mul_le_mul_left _ hcount

/-- With the fallback counter a unit has less than five characters for each
    token of the budget, unless an unsplit part of it exceeds the budget. -/
theorem length_of_mem_splitUnitText {ck : Chunker} (hck : ck.tokenCounter = .charApprox)
    {sec : Section} {text : Text} {maxTokens : ℕ} (hmax : 1 ≤ maxTokens) {pageNumbers : List ℤ}
    {blockKind : BlockKind} {blockIndexes : List ℕ} {u : TextUnit}
    (h : u ∈ ck.splitUnitText sec text maxTokens pageNumbers blockKind blockIndexes) :
    u.text.length + 1 ≤ 5 * maxTokens ∨
      ∃ part ∈ unsplitParts text blockKind,
        part <:+: u.text ∧ maxTokens < ck.tokenCounter.count part := by
  unfold Chunker.splitUnitText at h
  simp only [hck] at h ⊢
  split_ifs at h with hnil hcount
  · cases h
  · rw [List.mem_singleton] at h
    subst h
    left
    have := (TokenCounter.count_charApprox_le_iff text maxTokens).mp hcount
    simp only
    omega
  obtain ⟨joined, hjoined, rfl⟩ := List.mem_map.mp h
  obtain ⟨group, hgroup, hpart⟩ :=
    exists_group_of_mem_splitLargeText (List.mem_filter.mp hjoined).1
  rw [hck] at hgroup
  have hunsplit : ∀ p ∈ group, p ∈ unsplitParts text blockKind := fun p hp =>
    mem_of_mem_greedyPack hgroup hp
  -- the unit is the joined group, up to whitespace at its ends
  have hlen : joined.length ≤ (join [' '] group).length := by
    rcases hpart with rfl | rfl
    · exact Nat.le_refl _
    · exact (isInfix_strip isSpace _).length_le
  have hinfix : ∀ p ∈ group, p <:+: joined := fun p hp =>
    infix_of_mem_group hpart hp (strip_of_mem_unsplitParts (hunsplit p hp)).2
  by_cases hbig : ∃ p ∈ group, maxTokens < TokenCounter.charApprox.count p
  · obtain ⟨p, hp, hlt⟩ := hbig
    exact Or.inr ⟨p, hunsplit p hp, hinfix p hp, hlt⟩
  · left
    have hsum : (group.map TokenCounter.charApprox.count).sum ≤ maxTokens := by
      rcases weight_of_mem_greedyPack hgroup with hsum | ⟨p, rfl⟩
      · exact hsum
      · have := mt (fun hlt => Exists.intro p ⟨List.mem_singleton.mpr rfl, hlt⟩) hbig
        simpa using this
    have := length_join_le (ne_nil_of_mem_greedyPack hgroup)
      (fun p hp => (strip_of_mem_unsplitParts (hunsplit p hp)).1) [' '] hsum
    simp only [List.length_singleton] at this
    simp only
    omega

theorem one_le_sectionBudget (sec : Section) : 1 ≤ ck.sectionBudget sec := by
  unfold Chunker.sectionBudget
  cases truthy sec.title with
  | none => exact le_trans (by decide) ck.settings.target_ge
  | some title => exact Nat.le_max_left _ _

/-- The unsplit parts of the text of a run. -/
def unsplitPartsOfRun (run : List (ℕ × ParsedBlock)) : List Text :=
  match run with
  | [] => []
  | (_, block) :: _ => unsplitParts (combineTexts run) block.kind

theorem strip_of_mem_unsplitPartsOfRun {run : List (ℕ × ParsedBlock)} {part : Text}
    (h : part ∈ unsplitPartsOfRun run) : stripText part = part := by
  cases run with
  | nil => cases h
  | cons b run => exact (strip_of_mem_unsplitParts h).2

/-- The size of a unit of a section. -/
theorem length_of_mem_buildUnits {ck : Chunker} (hck : ck.tokenCounter = .charApprox) {sec : Section}
    {u : TextUnit} (h : u ∈ ck.buildUnits sec) :
    u.text.length + 1 ≤ 5 * ck.sectionBudget sec ∨
      ∃ run ∈ sectionRuns sec.blocks, ∃ part ∈ unsplitPartsOfRun run,
        part <:+: u.text ∧ ck.sectionBudget sec < ck.tokenCounter.count part := by
  obtain ⟨run, hrun, hu⟩ := exists_run_of_mem_buildUnits h
  cases run with
  | nil => cases hu
  | cons b run =>
    rcases length_of_mem_splitUnitText hck (one_le_sectionBudget ck sec) hu with h | h
    · exact Or.inl h
    · exact Or.inr ⟨_, hrun, h⟩

end RagStack.Chunking
