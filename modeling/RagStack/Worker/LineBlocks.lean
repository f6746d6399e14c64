import RagStack.Common.Segments
import RagStack.Worker.LineGrammar

/-!
# `build_blocks_from_lines`

`app/services/parsers/base.py`, lines 83–148: blocks from the lines of a page or of
a text file, each with the numbers of the lines that it was made of.

* `rangesPartition_iff`: the line ranges partition the page if and only if a
  paragraph ends with the input. A paragraph that is closed by the line behind it
  gets the number of that line as its end.
-/

namespace RagStack.Worker

open RagStack.Common

/-- `ParsedBlock` with the metadata of `build_blocks_from_lines`: those of the call (`β`),
    those of the classifier, and the line range. -/
structure LineBlock (β : Type) where
  text : Text
  kind : BlockKind
  pageNumber : Option ℤ
  baseMetadata : β
  metadata : LineMetadata
  sourceLineCount : ℕ
  sourceLineStart : ℕ
  sourceLineEnd : ℕ

/-- The block as the normalizer and the chunker read it. -/
def LineBlock.parsed {β : Type} (block : LineBlock β) : ParsedBlock where
  text := block.text
  kind := block.kind
  pageNumber := block.pageNumber
  metadata :=
    { headingLevel := block.metadata.headingLevel.map Int.ofNat, qaLabel := block.metadata.qaLabel }

/-- The variables of `build_blocks_from_lines`. -/
structure LinesState (β : Type) where
  blocks : List (LineBlock β) := []
  paragraphLines : List Text := []
  sourceLineNo : ℕ := 0
  paragraphStartLine : ℕ := 0

section Code

variable {β : Type} (lu : LineUnicode) (pageNumber : Option ℤ) (baseMetadata : β)

/-- `flush_paragraph` (lines 95–116). -/
def flushParagraph (s : LinesState β) : LinesState β :=
  if s.paragraphLines = [] then s
  else
    let paragraph := stripText (join ['\n'] s.paragraphLines)
    { s with
      blocks :=
        if paragraph = [] then s.blocks
        else s.blocks ++ [
          { text := paragraph, kind := .paragraph, pageNumber := pageNumber,
            baseMetadata := baseMetadata, metadata := {},
            sourceLineCount := s.paragraphLines.length,
            sourceLineStart := s.paragraphStartLine, sourceLineEnd := s.sourceLineNo }]
      paragraphLines := []
      paragraphStartLine := 0 }

/-- The loop body (lines 118–145). -/
def readLine (s : LinesState β) (rawLine : Text) : LinesState β :=
  let s := { s with sourceLineNo := s.sourceLineNo + 1 }
  let stripped := stripText rawLine
  if stripped = [] then flushParagraph pageNumber baseMetadata s
  else
    match classifyLine lu stripped with
    | some structured =>
      let s := flushParagraph pageNumber baseMetadata s
      { s with
        blocks := s.blocks ++ [
          { text := structured.text, kind := structured.kind, pageNumber := pageNumber,
            baseMetadata := baseMetadata, metadata := structured.metadata, sourceLineCount := 1,
            sourceLineStart := s.sourceLineNo, sourceLineEnd := s.sourceLineNo }] }
    | none =>
      { s with
        paragraphLines := s.paragraphLines ++ [stripped]
        paragraphStartLine :=
          if s.paragraphLines = [] then s.sourceLineNo else s.paragraphStartLine }

/-- `build_blocks_from_lines` (lines 83–148). -/
def buildBlocksFromLines (lines : List Text) : List (LineBlock β) :=
  (flushParagraph pageNumber baseMetadata
    (lines.foldl (readLine lu pageNumber baseMetadata) {})).blocks

end Code

/-! ## What the ranges should be -/

/-- The line numbers from which and to which a block was made. -/
def LineBlock.range {β : Type} (b : LineBlock β) : ℕ × ℕ := (b.sourceLineStart, b.sourceLineEnd)

/-- The line with this number, counted from one, is not blank. -/
def NonblankLine (lines : List Text) (number : ℕ) : Prop :=
  0 < number ∧ ∃ line ∈ lines[number - 1]?, stripText line ≠ []

/-- The ranges are disjoint and increasing, cover the lines that are not blank, and have as
    many lines as are counted. -/
structure RangesPartition {β : Type} (lines : List Text) (blocks : List (LineBlock β)) : Prop where
  partitions : PartitionsUpTo (blocks.map LineBlock.range) lines.length (NonblankLine lines)
  counts : ∀ b ∈ blocks, b.sourceLineEnd + 1 = b.sourceLineStart + b.sourceLineCount

/-- A line that is added to a paragraph. -/
def IsParagraphLine (lu : LineUnicode) (line : Text) : Prop :=
  stripText line ≠ [] ∧ classifyLine lu (stripText line) = none

section Proofs

variable {β : Type} {lu : LineUnicode} {pageNumber : Option ℤ} {baseMetadata : β}
  {lines : List Text} {n : ℕ} {s : LinesState β}

/-! ## The pending lines -/

/-- After `n` lines: the pending lines are the paragraph lines read last, and the start of
    the paragraph is the number of the first of them. -/
structure Pending (lu : LineUnicode) (lines : List Text) (n : ℕ) (s : LinesState β) : Prop where
  lineNo : s.sourceLineNo = n
  start : s.paragraphLines ≠ [] → s.paragraphStartLine + s.paragraphLines.length = n + 1
  last : s.paragraphLines ≠ [] ↔ 0 < n ∧ ∃ line ∈ lines[n - 1]?, IsParagraphLine lu line
  texts : ∀ text ∈ s.paragraphLines, text ≠ [] ∧ stripText text = text

theorem pending_zero : Pending lu lines 0 ({} : LinesState β) := by
  refine ⟨rfl, fun h => absurd rfl h, ?_, by simp⟩
  simp

/-- The block of the pending lines. -/
def pendingBlock (pageNumber : Option ℤ) (baseMetadata : β) (s : LinesState β) : LineBlock β where
  text := stripText (join ['\n'] s.paragraphLines)
  kind := .paragraph
  pageNumber := pageNumber
  baseMetadata := baseMetadata
  metadata := {}
  sourceLineCount := s.paragraphLines.length
  sourceLineStart := s.paragraphStartLine
  sourceLineEnd := s.sourceLineNo

theorem flushParagraph_of_nil (h : s.paragraphLines = []) :
    flushParagraph pageNumber baseMetadata s = s := by
  rw [flushParagraph, if_pos h]

theorem flushParagraph_of_ne_nil (h : s.paragraphLines ≠ [])
    (htexts : ∀ text ∈ s.paragraphLines, text ≠ [] ∧ stripText text = text) :
    flushParagraph pageNumber baseMetadata s =
      { s with blocks := s.blocks ++ [pendingBlock pageNumber baseMetadata s]
               paragraphLines := [], paragraphStartLine := 0 } := by
  obtain ⟨text, htext⟩ := List.exists_mem_of_ne_nil _ h
  have hwithin : text <:+: stripText (join ['\n'] s.paragraphLines) := by
    conv_lhs => rw [← (htexts text htext).2]
    exact strip_infix_strip isSpace (infix_join htext)
  have hne : stripText (join ['\n'] s.paragraphLines) ≠ [] := by
    intro hnil
    rw [hnil] at hwithin
    exact (htexts text htext).1 (List.infix_nil.mp hwithin)
  rw [flushParagraph, if_neg h]
  simp only [if_neg hne]
  rfl

theorem blocks_subset_flushParagraph (s : LinesState β) :
    s.blocks ⊆ (flushParagraph pageNumber baseMetadata s).blocks := by
  unfold flushParagraph
  simp only
  split_ifs
  · exact List.Subset.refl _
  · exact List.Subset.refl _
  · exact List.subset_append_left _ _

/-- A blank line closes the paragraph, a structured line closes it and is a block, and any
    other line is pending. -/
theorem readLine_cases (lu : LineUnicode) (pageNumber : Option ℤ) (baseMetadata : β)
    (s : LinesState β) (line : Text) :
    (stripText line = [] ∧ readLine lu pageNumber baseMetadata s line =
        flushParagraph pageNumber baseMetadata { s with sourceLineNo := s.sourceLineNo + 1 }) ∨
      (stripText line ≠ [] ∧ ∃ structured, classifyLine lu (stripText line) = some structured ∧
        ∃ flushed, flushed =
            flushParagraph pageNumber baseMetadata { s with sourceLineNo := s.sourceLineNo + 1 } ∧
          readLine lu pageNumber baseMetadata s line =
            { flushed with blocks := flushed.blocks ++ [
                { text := structured.text, kind := structured.kind, pageNumber := pageNumber,
                  baseMetadata := baseMetadata, metadata := structured.metadata,
                  sourceLineCount := 1, sourceLineStart := flushed.sourceLineNo,
                  sourceLineEnd := flushed.sourceLineNo }] }) ∨
      (IsParagraphLine lu line ∧ readLine lu pageNumber baseMetadata s line =
        { s with sourceLineNo := s.sourceLineNo + 1
                 paragraphLines := s.paragraphLines ++ [stripText line]
                 paragraphStartLine :=
                   if s.paragraphLines = [] then s.sourceLineNo + 1 else s.paragraphStartLine }) := by
  unfold readLine
  by_cases hblank : stripText line = []
  · exact Or.inl ⟨hblank, by rw [if_pos hblank]⟩
  · right
    rw [if_neg hblank]
    cases hclass : classifyLine lu (stripText line) with
    | some structured => exact Or.inl ⟨hblank, structured, rfl, _, rfl, rfl⟩
    | none => exact Or.inr ⟨⟨hblank, hclass⟩, rfl⟩

theorem sourceLineNo_flushParagraph (s : LinesState β) :
    (flushParagraph pageNumber baseMetadata s).sourceLineNo = s.sourceLineNo := by
  unfold flushParagraph
  split_ifs <;> rfl

theorem paragraphLines_flushParagraph (s : LinesState β) :
    (flushParagraph pageNumber baseMetadata s).paragraphLines = [] := by
  unfold flushParagraph
  split_ifs with h
  · exact h
  · rfl

/-- One line keeps the pending lines right. -/
theorem Pending.step (h : Pending lu lines n s) {line : Text} (hline : line ∈ lines[n]?) :
    Pending lu lines (n + 1) (readLine lu pageNumber baseMetadata s line) := by
  have hlast (hnot : ¬ IsParagraphLine lu line) :
      ¬ (0 < n + 1 ∧ ∃ line ∈ lines[n + 1 - 1]?, IsParagraphLine lu line) := by
    rintro ⟨-, other, hother, hparagraph⟩
    obtain rfl := Option.mem_unique hline hother
    exact hnot hparagraph
  rcases readLine_cases lu pageNumber baseMetadata s line with
    ⟨hblank, hread⟩ | ⟨-, structured, hclass, flushed, hflushed, hread⟩ | ⟨hparagraph, hread⟩
  · have hnot : ¬ IsParagraphLine lu line := fun hp => hp.1 hblank
    have hnil : (readLine lu pageNumber baseMetadata s line).paragraphLines = [] := by
      rw [hread, paragraphLines_flushParagraph]
    refine ⟨?_, fun hne => absurd hnil hne, ?_, by simp [hnil]⟩
    · rw [hread, sourceLineNo_flushParagraph, ← h.lineNo]
    · exact iff_of_false (fun hne => hne hnil) (hlast hnot)
  · have hnot : ¬ IsParagraphLine lu line := fun hp => by simp [hp.2] at hclass
    have hnil : (readLine lu pageNumber baseMetadata s line).paragraphLines = [] := by
      rw [hread, hflushed]
      exact paragraphLines_flushParagraph _
    refine ⟨?_, fun hne => absurd hnil hne, ?_, by simp [hnil]⟩
    · rw [hread, hflushed, ← h.lineNo]
      exact sourceLineNo_flushParagraph _
    · exact iff_of_false (fun hne => hne hnil) (hlast hnot)
  · rw [hread]
    refine ⟨by rw [← h.lineNo], fun _ => ?_, ?_, ?_⟩
    · simp only [List.length_append, List.length_singleton]
      split_ifs with hnil
      · simp [hnil, h.lineNo]
      · have := h.start hnil
        omega
    · exact iff_of_true (by simp) ⟨Nat.succ_pos n, line, hline, hparagraph⟩
    · intro text htext
      rcases List.mem_append.mp htext with htext | htext
      · exact h.texts text htext
      · obtain rfl := List.mem_singleton.mp htext
        exact ⟨hparagraph.1, strip_strip isSpace line⟩

/-! ## A paragraph that is closed by the line behind it -/

theorem blocks_subset_readLine (s : LinesState β) (line : Text) :
    s.blocks ⊆ (readLine lu pageNumber baseMetadata s line).blocks := by
  have hflush : s.blocks ⊆ (flushParagraph pageNumber baseMetadata
      { s with sourceLineNo := s.sourceLineNo + 1 }).blocks :=
    blocks_subset_flushParagraph { s with sourceLineNo := s.sourceLineNo + 1 }
  rcases readLine_cases lu pageNumber baseMetadata s line with
    ⟨-, hread⟩ | ⟨-, structured, -, flushed, hflushed, hread⟩ | ⟨-, hread⟩
  · rw [hread]
    exact hflush
  · rw [hread, hflushed]
    exact List.subset_append_of_subset_left _ hflush
  · rw [hread]
    exact List.Subset.refl _

theorem blocks_subset_foldl (rest : List Text) :
    ∀ s : LinesState β, s.blocks ⊆ (rest.foldl (readLine lu pageNumber baseMetadata) s).blocks := by
  induction rest with
  | nil => intro s; exact List.Subset.refl _
  | cons line rest ih =>
    intro s
    exact List.Subset.trans (blocks_subset_readLine s line) (ih _)

theorem pending_foldl (before : List Text) :
    ∀ {after : List Text}, lines = before ++ after →
      Pending lu lines before.length (before.foldl (readLine lu pageNumber baseMetadata) {}) := by
  induction before using List.reverseRecOn with
  | nil => intro after _; exact pending_zero
  | append_singleton before line ih =>
    intro after hlines
    rw [List.foldl_append, List.length_append, List.length_singleton]
    have hsplit : lines = before ++ line :: after := by simpa using hlines
    exact (ih hsplit).step (by simp [hsplit])

/-- The line behind a paragraph line, if it is not one: the paragraph gets its number. -/
theorem pendingBlock_mem {before after : List Text} {line : Text}
    (hlines : lines = before ++ line :: after) (hnot : ¬ IsParagraphLine lu line)
    (hlast : ∃ prev ∈ before.getLast?, IsParagraphLine lu prev) :
    ∃ b ∈ buildBlocksFromLines lu pageNumber baseMetadata lines,
      b.sourceLineEnd = b.sourceLineStart + b.sourceLineCount := by
  have hpending : Pending lu lines before.length
      (before.foldl (readLine lu pageNumber baseMetadata) {}) := pending_foldl before hlines
  generalize hs : before.foldl (readLine lu pageNumber baseMetadata) {} = s at hpending
  have hne : s.paragraphLines ≠ [] := by
    rw [hpending.last]
    obtain ⟨prev, hprev, hparagraph⟩ := hlast
    have hpos : 0 < before.length :=
      List.length_pos_of_ne_nil (by rintro rfl; simp at hprev)
    refine ⟨hpos, prev, ?_, hparagraph⟩
    rw [hlines, List.getElem?_append_left (by omega), ← List.getLast?_eq_getElem?]
    exact hprev
  let closing : LinesState β := { s with sourceLineNo := s.sourceLineNo + 1 }
  have hflush : pendingBlock pageNumber baseMetadata closing ∈
      (flushParagraph pageNumber baseMetadata closing).blocks := by
    have hclosing : closing.paragraphLines ≠ [] := hne
    rw [flushParagraph_of_ne_nil hclosing hpending.texts]
    simp
  have hmem : pendingBlock pageNumber baseMetadata closing ∈
      (readLine lu pageNumber baseMetadata s line).blocks := by
    rcases readLine_cases lu pageNumber baseMetadata s line with
      ⟨-, hread⟩ | ⟨-, structured, -, flushed, hflushed, hread⟩ | ⟨hparagraph, -⟩
    · rw [hread]
      exact hflush
    · rw [hread, hflushed]
      exact List.mem_append_left _ hflush
    · exact absurd hparagraph hnot
  refine ⟨pendingBlock pageNumber baseMetadata closing, ?_, ?_⟩
  · rw [buildBlocksFromLines, hlines, List.foldl_append, hs, List.foldl_cons]
    exact blocks_subset_flushParagraph _ (blocks_subset_foldl after _ hmem)
  · have hstart := hpending.start hne
    have hlineNo := hpending.lineNo
    show s.sourceLineNo + 1 = s.paragraphStartLine + s.paragraphLines.length
    omega

/-! ## Paragraphs that end with the input -/

/-- No paragraph line is directly followed by a blank line or by a structured line. -/
def ParagraphsLast (lu : LineUnicode) (lines : List Text) : Prop :=
  ∀ i, ∀ line ∈ lines[i]?, IsParagraphLine lu line →
    ∀ next ∈ lines[i + 1]?, IsParagraphLine lu next

/-- After `n` lines: the blocks partition the lines before the pending ones. -/
structure Segmented (lines : List Text) (n : ℕ) (s : LinesState β) : Prop where
  partitions : ∃ d, d + s.paragraphLines.length = n ∧
    PartitionsUpTo (s.blocks.map LineBlock.range) d (NonblankLine lines) ∧
    ∀ m, d < m → m ≤ n → NonblankLine lines m
  counts : ∀ b ∈ s.blocks, b.sourceLineEnd + 1 = b.sourceLineStart + b.sourceLineCount

theorem segmented_zero : Segmented lines 0 ({} : LinesState β) := by
  refine ⟨⟨0, rfl, partitionsUpTo_zero fun h => ?_, fun m h1 h2 => by omega⟩, by simp⟩
  exact absurd h.1 (Nat.lt_irrefl 0)

/-- At the end of the input a paragraph is closed with its own lines. -/
theorem Segmented.flush (h : Segmented lines n s) (hpending : Pending lu lines n s) :
    PartitionsUpTo ((flushParagraph pageNumber baseMetadata s).blocks.map LineBlock.range) n
        (NonblankLine lines) ∧
      ∀ b ∈ (flushParagraph pageNumber baseMetadata s).blocks,
        b.sourceLineEnd + 1 = b.sourceLineStart + b.sourceLineCount := by
  obtain ⟨d, hd, hparts, hrun⟩ := h.partitions
  by_cases hnil : s.paragraphLines = []
  · rw [flushParagraph_of_nil hnil]
    rw [hnil] at hd
    obtain rfl : d = n := hd
    exact ⟨hparts, h.counts⟩
  · have hstart := hpending.start hnil
    have hlineNo := hpending.lineNo
    have hrange : (pendingBlock pageNumber baseMetadata s).range =
        (d + 1, d + s.paragraphLines.length) := by
      refine Prod.ext ?_ ?_
      · show s.paragraphStartLine = d + 1
        omega
      · show s.sourceLineNo = d + s.paragraphLines.length
        omega
    rw [flushParagraph_of_ne_nil hnil hpending.texts]
    simp only [List.map_append, List.map_cons, List.map_nil]
    refine ⟨?_, fun b hb => ?_⟩
    · rw [hrange, ← hd]
      exact hparts.snoc (List.length_pos_of_ne_nil hnil) fun m h1 h2 => hrun m h1 (by omega)
    · rcases List.mem_append.mp hb with hb | hb
      · exact h.counts b hb
      · obtain rfl := List.mem_singleton.mp hb
        show s.sourceLineNo + 1 = s.paragraphStartLine + s.paragraphLines.length
        omega

theorem Segmented.step (h : Segmented lines n s) (hpending : Pending lu lines n s)
    (hlast : ParagraphsLast lu lines) {line : Text} (hline : line ∈ lines[n]?) :
    Segmented lines (n + 1) (readLine lu pageNumber baseMetadata s line) := by
  have hnumber : NonblankLine lines (n + 1) ↔ stripText line ≠ [] := by
    constructor
    · rintro ⟨-, other, hother, hne⟩
      obtain rfl := Option.mem_unique hline hother
      exact hne
    · exact fun hne => ⟨Nat.succ_pos n, line, hline, hne⟩
  -- a line that is not of a paragraph meets no pending lines
  have hclosed (hnot : ¬ IsParagraphLine lu line) : s.paragraphLines = [] := by
    by_contra hne
    obtain ⟨hn, prev, hprev, hparagraph⟩ := hpending.last.mp hne
    apply hnot
    apply hlast (n - 1) prev hprev hparagraph
    rwa [Nat.sub_add_cancel hn]
  obtain ⟨d, hd, hparts, hrun⟩ := h.partitions
  have hlineNo := hpending.lineNo
  rcases readLine_cases lu pageNumber baseMetadata s line with
    ⟨hblank, hread⟩ | ⟨hne, structured, hclass, flushed, hflushed, hread⟩ | ⟨hparagraph, hread⟩
  · have hnil := hclosed fun hp => hp.1 hblank
    rw [hread, flushParagraph_of_nil (by exact hnil)]
    obtain rfl : d = n := by simpa [hnil] using hd
    refine ⟨⟨d + 1, by simp [hnil], hparts.skip fun hm => hnumber.mp hm hblank, ?_⟩, h.counts⟩
    exact fun m h1 h2 => absurd h1 (by omega)
  · have hnil := hclosed fun hp => by simp [hp.2] at hclass
    rw [flushParagraph_of_nil (by exact hnil)] at hflushed
    subst hflushed
    rw [hread]
    obtain rfl : d = n := by simpa [hnil] using hd
    refine ⟨⟨d + 1, by simp [hnil], ?_, fun m h1 h2 => absurd h1 (by omega)⟩, ?_⟩
    · simp only [List.map_append, List.map_cons, List.map_nil, LineBlock.range, hlineNo]
      apply hparts.snoc Nat.one_pos
      intro m h1 h2
      obtain rfl : m = d + 1 := by omega
      exact hnumber.mpr hne
    · intro b hb
      rcases List.mem_append.mp hb with hb | hb
      · exact h.counts b hb
      · obtain rfl := List.mem_singleton.mp hb
        rfl
  · rw [hread]
    refine ⟨⟨d, ?_, hparts, fun m h1 h2 => ?_⟩, h.counts⟩
    · simp only [List.length_append, List.length_singleton]
      omega
    · rcases Nat.lt_or_ge n m with hlt | hge
      · obtain rfl : m = n + 1 := by omega
        exact hnumber.mpr hparagraph.1
      · exact hrun m h1 hge

theorem segmented_foldl (hlast : ParagraphsLast lu lines) (before : List Text) :
    ∀ {after : List Text}, lines = before ++ after →
      Segmented lines before.length (before.foldl (readLine lu pageNumber baseMetadata) {}) := by
  induction before using List.reverseRecOn with
  | nil => intro after _; exact segmented_zero
  | append_singleton before line ih =>
    intro after hlines
    have hsplit : lines = before ++ line :: after := by simpa using hlines
    rw [List.foldl_append, List.length_append, List.length_singleton]
    exact (ih hsplit).step (pending_foldl before hsplit) hlast (by simp [hsplit])

/-- The line ranges partition the lines that are not blank if and only if no paragraph line is
    directly followed by a blank line or by a structured line. -/
theorem rangesPartition_iff (lu : LineUnicode) (pageNumber : Option ℤ) (baseMetadata : β)
    (lines : List Text) :
    RangesPartition lines (buildBlocksFromLines lu pageNumber baseMetadata lines) ↔
      ParagraphsLast lu lines := by
  constructor
  · intro h i prev hprev hparagraph next hnext
    by_contra hnot
    obtain ⟨hi, rfl⟩ := List.getElem?_eq_some_iff.mp hprev
    obtain ⟨hnexti, rfl⟩ := List.getElem?_eq_some_iff.mp hnext
    have hsplit : lines = lines.take (i + 1) ++ lines[i + 1] :: lines.drop (i + 2) := by
      rw [← List.drop_eq_getElem_cons hnexti, List.take_append_drop]
    have hlast : ∃ prev ∈ (lines.take (i + 1)).getLast?, IsParagraphLine lu prev := by
      refine ⟨lines[i], ?_, hparagraph⟩
      rw [List.take_add_one, List.getElem?_eq_getElem hi, Option.toList_some]
      exact List.getLast?_concat
    obtain ⟨b, hb, hend⟩ : ∃ b ∈ buildBlocksFromLines lu pageNumber baseMetadata lines,
      b.sourceLineEnd = b.sourceLineStart + b.sourceLineCount := pendingBlock_mem hsplit hnot hlast
    have hcount := h.counts b hb
    omega
  · intro hlast
    have hall : lines = lines ++ [] := (List.append_nil lines).symm
    have hread : Segmented lines lines.length
        (lines.foldl (readLine lu pageNumber baseMetadata) {}) := segmented_foldl hlast lines hall
    obtain ⟨hparts, hcounts⟩ := hread.flush (pending_foldl lines hall)
    exact ⟨hparts, hcounts⟩

end Proofs

/-- A paragraph line with a blank line behind it. -/
theorem rangesPartition_blank_line :
    ¬ ∀ (lu : LineUnicode) (lines : List Text),
      RangesPartition lines (buildBlocksFromLines lu none () lines) := by
  intro hall
  have hblocks : (buildBlocksFromLines LineUnicode.ascii none () ["reset the worker".toList, []]).map
      (fun b => (b.sourceLineStart, b.sourceLineEnd, b.sourceLineCount)) = [(1, 2, 1)] := by
    decide +kernel
  obtain ⟨b, hb, hrange⟩ := List.mem_map.mp (hblocks ▸ List.mem_singleton_self (1, 2, 1))
  have hcount := (hall LineUnicode.ascii ["reset the worker".toList, []]).counts b hb
  simp only [Prod.mk.injEq] at hrange
  omega

end RagStack.Worker
