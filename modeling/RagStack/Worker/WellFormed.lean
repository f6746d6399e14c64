import RagStack.Worker.Parsers

/-!
# Parsed blocks are well formed

What the normalizer and the chunker are given by the parsers.

* `wellFormed_classifyLine`: headings, and only they, have a level from one to six;
  questions and answers, and only they, have a label, with which their text begins; only a
  heading can have an empty text.
* `wellFormed_parse`: so for the blocks of every file, except that a heading style of a DOCX
  file can be of level zero. The blocks of a PDF file have the numbers of their pages, in
  order.
-/

namespace RagStack.Worker

open RagStack.Common

/-- What the metadata of a block say about its kind and its text. -/
structure WellFormed (least : ℤ) (b : ParsedBlock) : Prop where
  heading : b.metadata.headingLevel.isSome ↔ b.kind = .heading
  level : ∀ level ∈ b.metadata.headingLevel, least ≤ level ∧ level ≤ 6
  pair : b.metadata.qaLabel.isSome ↔ b.kind = .qaPair
  label : ∀ label ∈ b.metadata.qaLabel, (label = ['Q'] ∨ label = ['A']) ∧
    label ++ ": ".toList <+: b.text
  text : b.text = [] → b.kind = .heading

/-- A block of a kind without metadata. -/
theorem wellFormed_of_plain {least : ℤ} {b : ParsedBlock} (hlevel : b.metadata.headingLevel = none)
    (hlabel : b.metadata.qaLabel = none) (hheading : b.kind ≠ .heading) (hpair : b.kind ≠ .qaPair)
    (htext : b.text ≠ []) : WellFormed least b where
  heading := by simp [hlevel, hheading]
  level := by simp [hlevel]
  pair := by simp [hlabel, hpair]
  label := by simp [hlabel]
  text := fun h => absurd h htext

/-- A heading with a level in range. -/
theorem wellFormed_of_heading {least : ℤ} {level : ℕ} {b : ParsedBlock} (hkind : b.kind = .heading)
    (hlevel : b.metadata.headingLevel = some (Int.ofNat level)) (hlabel : b.metadata.qaLabel = none)
    (hleast : least ≤ level) (hmost : level ≤ 6) : WellFormed least b where
  heading := by simp [hlevel, hkind]
  level := by
    intro found hfound
    rw [hlevel] at hfound
    cases hfound
    exact ⟨hleast, Int.ofNat_le.mpr hmost⟩
  pair := by simp [hlabel, hkind]
  label := by simp [hlabel]
  text := fun _ => hkind

/-! ## Lines -/

section Lines

variable {lu : LineUnicode} {text : Text}

theorem level_of_matchMarkdownHeading {n : ℕ} {body : Text}
    (h : matchMarkdownHeading text = some (n, body)) : 1 ≤ n ∧ n ≤ 6 := by
  unfold matchMarkdownHeading at h
  simp only at h
  split_ifs at h with hlength
  obtain ⟨found, -, heq⟩ := Option.map_eq_some_iff.mp h
  cases heq
  exact hlength

theorem label_of_matchQa {label : Char} {body : Text} (h : matchQa text = some (label, body)) :
    label = 'Q' ∨ label = 'A' := by
  have hlabel {rest : Text} (h : qaLabelOf text = some (label, rest)) : label = 'Q' ∨ label = 'A' := by
    unfold qaLabelOf at h
    split at h
    · cases h
    · split_ifs at h
      · cases h
        exact Or.inl rfl
      · cases h
        exact Or.inr rfl
  unfold matchQa at h
  obtain ⟨⟨found, rest⟩, hfound, h⟩ := Option.bind_eq_some_iff.mp h
  simp only at h
  split at h
  · split_ifs at h
    obtain ⟨_, -, heq⟩ := Option.map_eq_some_iff.mp h
    cases heq
    exact hlabel hfound
  · cases h

theorem inferNumberedHeadingLevel_bounds (lu : LineUnicode) (numbering : Text) :
    1 ≤ inferNumberedHeadingLevel lu numbering ∧ inferNumberedHeadingLevel lu numbering ≤ 6 := by
  unfold inferNumberedHeadingLevel
  simp only
  split_ifs <;> omega

theorem ne_nil_of_splitTableCells (h : 2 ≤ (splitTableCells text).length) :
    join " | ".toList (splitTableCells text) ≠ [] := by
  intro hnil
  match hcells : splitTableCells text with
  | [] => simp [hcells] at h
  | [cell] => simp [hcells] at h
  | a :: b :: cells =>
    rw [hcells, join_cons_cons] at hnil
    simp at hnil

theorem wellFormed_classifyLine {structured : StructuredLine}
    (h : classifyLine lu (stripText text) = some structured) : WellFormed 1 structured.parsed := by
  obtain ⟨-, hcase⟩ := classifyLine_cases h
  cases hcase with
  | markdown found =>
    obtain ⟨hleast, hmost⟩ := level_of_matchMarkdownHeading found
    exact wellFormed_of_heading rfl rfl rfl (by exact_mod_cast hleast) hmost
  | @qa label body plain found =>
    have hlabel := label_of_matchQa found
    refine ⟨by simp [StructuredLine.parsed], by simp [StructuredLine.parsed],
      by simp [StructuredLine.parsed], fun label' heq => ?_, nofun⟩
    cases heq
    refine ⟨?_, stripText body, rfl⟩
    rcases hlabel with rfl | rfl
    · exact Or.inl rfl
    · exact Or.inr rfl
  | @numbered numbering plain noQa =>
    obtain ⟨hleast, hmost⟩ := inferNumberedHeadingLevel_bounds lu (stripText numbering)
    exact wellFormed_of_heading rfl rfl rfl (by exact_mod_cast hleast) hmost
  | listItem plain noQa found =>
    exact wellFormed_of_plain rfl rfl nofun nofun (by simp [StructuredLine.parsed])
  | tableRow plain noQa cells =>
    exact wellFormed_of_plain rfl rfl nofun nofun (ne_nil_of_splitTableCells cells)
  | heuristic plain noQa heading =>
    exact wellFormed_of_heading rfl rfl rfl (by decide) (by decide)

/-! ## Blocks of lines -/

variable {β : Type} {pageNumber : Option ℤ} {baseMetadata : β}

theorem wellFormed_flushParagraph {s : LinesState β} {P : LineBlock β → Prop}
    (hblocks : ∀ b ∈ s.blocks, P b)
    (hparagraph : ∀ b : LineBlock β, b.kind = .paragraph → b.metadata = {} → b.text ≠ [] →
      b.pageNumber = pageNumber → P b) :
    ∀ b ∈ (flushParagraph pageNumber baseMetadata s).blocks, P b := by
  unfold flushParagraph
  split_ifs with hnil
  · exact hblocks
  · simp only
    split_ifs with hempty
    · exact hblocks
    · intro b hb
      rcases List.mem_append.mp hb with hb | hb
      · exact hblocks b hb
      · rw [List.mem_singleton.mp hb]
        exact hparagraph _ rfl rfl hempty rfl

/-- The blocks of lines are paragraphs and the blocks of structured lines, with the number of
    the page. -/
theorem forall_buildBlocksFromLines {P : LineBlock β → Prop}
    (hparagraph : ∀ b : LineBlock β, b.kind = .paragraph → b.metadata = {} → b.text ≠ [] →
      b.pageNumber = pageNumber → P b)
    (hline : ∀ (line : Text) (structured : StructuredLine) (b : LineBlock β),
      classifyLine lu (stripText line) = some structured → b.kind = structured.kind →
      b.metadata = structured.metadata → b.text = structured.text → b.pageNumber = pageNumber → P b)
    (lines : List Text) : ∀ b ∈ buildBlocksFromLines lu pageNumber baseMetadata lines, P b := by
  refine wellFormed_flushParagraph ?_ hparagraph
  induction lines using List.reverseRecOn with
  | nil => exact fun b hb => absurd hb List.not_mem_nil
  | append_singleton lines line ih =>
    rw [List.foldl_append, List.foldl_cons, List.foldl_nil]
    generalize lines.foldl (readLine lu pageNumber baseMetadata) {} = s at ih
    rcases readLine_cases lu pageNumber baseMetadata s line with
      ⟨-, hread⟩ | ⟨-, structured, hclass, flushed, hflushed, hread⟩ | ⟨-, hread⟩
    · rw [hread]
      exact wellFormed_flushParagraph ih hparagraph
    · rw [hread]
      intro b hb
      rcases List.mem_append.mp hb with hb | hb
      · rw [hflushed] at hb
        exact wellFormed_flushParagraph (s := { s with sourceLineNo := s.sourceLineNo + 1 }) ih
          hparagraph b hb
      · rw [List.mem_singleton.mp hb]
        exact hline line structured _ hclass rfl rfl rfl rfl
    · rw [hread]
      exact ih

theorem wellFormed_buildBlocksFromLines (lines : List Text) :
    ∀ b ∈ buildBlocksFromLines lu pageNumber baseMetadata lines,
      WellFormed 1 b.parsed ∧ b.pageNumber = pageNumber := by
  refine forall_buildBlocksFromLines ?_ ?_ lines
  · intro b hkind hmetadata htext hpage
    refine ⟨wellFormed_of_plain ?_ ?_ ?_ ?_ htext, hpage⟩
    · simp [LineBlock.parsed, hmetadata]
    · simp [LineBlock.parsed, hmetadata]
    · simp [LineBlock.parsed, hkind]
    · simp [LineBlock.parsed, hkind]
  · intro line structured b hclass hkind hmetadata htext hpage
    have hline := wellFormed_classifyLine hclass
    have hparsed : b.parsed = { structured.parsed with pageNumber := b.pageNumber } := by
      simp [LineBlock.parsed, StructuredLine.parsed, hkind, hmetadata, htext]
    rw [hparsed]
    exact ⟨⟨hline.heading, hline.level, hline.pair, hline.label, hline.text⟩, hpage⟩

end Lines

/-! ## Files -/

/-- Every block has the number of one of `count` pages, and the numbers do not decrease. -/
def PagesInOrder (count : ℕ) (blocks : List ParsedBlock) : Prop :=
  ∃ numbers : List ℤ, blocks.map ParsedBlock.pageNumber = numbers.map some ∧
    numbers.Pairwise (· ≤ ·) ∧ ∀ n ∈ numbers, 1 ≤ n ∧ n ≤ count

section Files

variable {pu : ParserUnicode}

theorem WellFormed.of_le {least least' : ℤ} {b : ParsedBlock} (hle : least' ≤ least)
    (h : WellFormed least b) : WellFormed least' b :=
  ⟨h.heading, fun level hlevel => ⟨hle.trans (h.level level hlevel).1, (h.level level hlevel).2⟩,
    h.pair, h.label, h.text⟩

/-- The blocks of the pages, the first of which has the number `start`. -/
theorem pages_pdfBlocks (lu : LineUnicode) (trimmed : List (List Text)) :
    ∀ start : ℕ, ∃ numbers : List ℤ,
      ((trimmed.zipIdx start).flatMap fun page =>
        buildBlocksFromLines lu (some (page.2 : ℤ)) "pypdf" page.1).map LineBlock.pageNumber =
          numbers.map some ∧
      numbers.Pairwise (· ≤ ·) ∧ ∀ n ∈ numbers, start ≤ n ∧ n < start + trimmed.length := by
  induction trimmed with
  | nil => exact fun start => ⟨[], rfl, List.Pairwise.nil, fun n hn => absurd hn List.not_mem_nil⟩
  | cons lines trimmed ih =>
    intro start
    obtain ⟨numbers, hnumbers, hsorted, hbounds⟩ := ih (start + 1)
    set blocks := buildBlocksFromLines lu (some (start : ℤ)) "pypdf" lines with hblocks
    have hpage : blocks.map LineBlock.pageNumber =
        (List.replicate blocks.length (start : ℤ)).map some := by
      rw [List.map_replicate, List.eq_replicate_iff]
      refine ⟨by simp, fun page hmem => ?_⟩
      obtain ⟨b, hb, rfl⟩ := List.mem_map.mp hmem
      exact (wellFormed_buildBlocksFromLines lines b hb).2
    refine ⟨List.replicate blocks.length (start : ℤ) ++ numbers, ?_, ?_, fun n hn => ?_⟩
    · rw [List.zipIdx_cons, List.flatMap_cons, List.map_append, hnumbers, List.map_append, ← hpage]
    · rw [List.pairwise_append]
      refine ⟨List.pairwise_replicate.mpr (Or.inr le_rfl), hsorted, fun a ha b hb => ?_⟩
      have hstart := List.eq_of_mem_replicate ha
      have hnext := (hbounds b hb).1
      omega
    · rw [List.length_cons]
      rcases List.mem_append.mp hn with hn | hn
      · have hstart := List.eq_of_mem_replicate hn
        omega
      · have hnext := hbounds n hn
        omega

theorem length_trimmedPages (lu : LineUnicode) (pageLines : List (List Text)) :
    (trimmedPages lu pageLines).1.length = pageLines.length := by
  simp [trimmedPages]

theorem wellFormed_parsePlainParagraph {text : Text} (htext : stripText text ≠ []) :
    WellFormed 0 (parsePlainParagraph pu.toLineUnicode (stripText text)).parsed := by
  unfold parsePlainParagraph
  split
  · rename_i structured hstructured
    exact (wellFormed_classifyLine (Option.filter_eq_some_iff.mp hstructured).1).of_le (by decide)
  · split_ifs
    · exact wellFormed_of_heading rfl rfl rfl (by decide) (by decide)
    · exact wellFormed_of_plain rfl rfl nofun nofun htext

theorem wellFormed_parseParagraph {p : DocxParagraph} {structured : StructuredLine}
    (htext : stripText p.text ≠ []) (h : parseParagraph pu p = some structured) :
    WellFormed 0 structured.parsed := by
  unfold parseParagraph at h
  simp only at h
  split_ifs at h
  · obtain ⟨level, hlevel, rfl⟩ := Option.map_eq_some_iff.mp h
    have hmost : level ≤ 6 := by
      unfold headingLevelFromStyle at hlevel
      split at hlevel
      · obtain ⟨found, -, rfl⟩ := Option.map_eq_some_iff.mp hlevel
        exact Nat.min_le_right _ _
      · cases hlevel
        decide
    exact wellFormed_of_heading rfl rfl rfl (Int.natCast_nonneg level) hmost
  · cases h
    exact wellFormed_of_plain rfl rfl nofun nofun nofun
  · cases h
    exact wellFormed_parsePlainParagraph htext

theorem wellFormed_docxItemBlocks {item : DocxItem} {blocks : List ParsedBlock}
    (h : docxItemBlocks pu item = some blocks) :
    ∀ b ∈ blocks, WellFormed 0 b ∧ b.pageNumber = none := by
  cases item with
  | paragraph p =>
    simp only [docxItemBlocks] at h
    split_ifs at h with hblank
    · cases h
      exact fun b hb => absurd hb List.not_mem_nil
    · obtain ⟨structured, hparse, rfl⟩ := Option.map_eq_some_iff.mp h
      intro b hb
      rw [List.mem_singleton.mp hb]
      exact ⟨wellFormed_parseParagraph hblank hparse, rfl⟩
  | table rows =>
    cases h
    intro b hb
    obtain ⟨block, hblock, rfl⟩ := List.mem_map.mp hb
    obtain ⟨row, -, hrow⟩ := List.mem_filterMap.mp hblock
    split_ifs at hrow with hempty
    cases hrow
    exact ⟨wellFormed_of_plain rfl rfl (by simp) (by simp) hempty, rfl⟩

/-- A file that is parsed has a block; its blocks are well formed; and those of a PDF file have
    the numbers of their pages, in order. -/
theorem wellFormed_parse {readers : FileReaders} {type : FileType} {data : Bytes}
    {sourceTitle : String} {document : ParsedDocument}
    (h : readers.parse pu type data sourceTitle = .ok document) :
    document.blocks ≠ [] ∧
      (∀ b ∈ document.blocks, WellFormed (if type = .docx then 0 else 1) b) ∧
      if type = .pdf then
        ∃ pages, readers.pdfPages data = some pages ∧ PagesInOrder pages.length document.blocks
      else ∀ b ∈ document.blocks, b.pageNumber = none := by
  cases type with
  | txt =>
    simp only [FileReaders.parse, FileReaders.parseTxt] at h
    split at h
    · cases h
    · obtain ⟨hne, rfl⟩ := ensureBlocks_eq_ok h
      refine ⟨hne, fun b hb => ?_, fun b hb => ?_⟩
      · obtain ⟨line, hline, rfl⟩ := List.mem_map.mp hb
        exact (wellFormed_buildBlocksFromLines _ line hline).1
      · obtain ⟨line, hline, rfl⟩ := List.mem_map.mp hb
        exact (wellFormed_buildBlocksFromLines _ line hline).2
  | pdf =>
    simp only [FileReaders.parse, FileReaders.parsePdf] at h
    split at h
    · cases h
    · rename_i pages hpages
      obtain ⟨hne, rfl⟩ := ensureBlocks_eq_ok h
      refine ⟨hne, fun b hb => ?_, pages, hpages, ?_⟩
      · obtain ⟨line, hline, rfl⟩ := List.mem_map.mp hb
        obtain ⟨page, -, hpage⟩ := List.mem_flatMap.mp hline
        exact (wellFormed_buildBlocksFromLines _ line hpage).1
      · obtain ⟨numbers, hnumbers, hsorted, hbounds⟩ := pages_pdfBlocks pu.toLineUnicode
          (trimmedPages pu.toLineUnicode (pages.map extractPageLines)).1 1
        rw [length_trimmedPages, List.length_map] at hbounds
        refine ⟨numbers, ?_, hsorted, fun n hn => ?_⟩
        · rw [← hnumbers, List.map_map]
          rfl
        · have hn := hbounds n hn
          omega
  | docx =>
    simp only [FileReaders.parse, FileReaders.parseDocx] at h
    split at h
    · cases h
    · rename_i blocks hblocks
      obtain ⟨hne, rfl⟩ := ensureBlocks_eq_ok h
      obtain ⟨items, -, hitems⟩ := Option.bind_eq_some_iff.mp hblocks
      have hblock : ∀ b ∈ blocks.flatten, WellFormed 0 b ∧ b.pageNumber = none := by
        clear h hblocks hne
        have hall := forall₂_of_mapM hitems
        clear hitems
        induction hall with
        | nil => exact fun b hb => absurd hb List.not_mem_nil
        | cons hitem _ ih =>
          intro b hb
          rcases List.mem_append.mp hb with hb | hb
          · exact wellFormed_docxItemBlocks hitem b hb
          · exact ih b hb
      exact ⟨hne, fun b hb => (hblock b hb).1, fun b hb => (hblock b hb).2⟩

end Files

/-- Two pages, with a numbered heading on the second. -/
def stepsReaders : FileReaders :=
  readersOf [] ["reset the worker".toList, "1.2 Retry Limits\nthree attempts".toList]

theorem wellFormed_parse_steps :
    ∃ document, stepsReaders.parse .ascii .pdf [] "Steps" = .ok document ∧
      document.blocks ≠ [] ∧ (∀ b ∈ document.blocks, WellFormed 1 b) ∧
      ∃ pages, stepsReaders.pdfPages [] = some pages ∧
        PagesInOrder pages.length document.blocks := by
  have hok : (stepsReaders.parse .ascii .pdf [] "Steps").isOk = true := by decide +kernel
  cases hparse : stepsReaders.parse .ascii .pdf [] "Steps" with
  | error e =>
    rw [hparse] at hok
    cases hok
  | ok document => exact ⟨document, rfl, wellFormed_parse hparse⟩

end RagStack.Worker
