import RagStack.Worker.Alphanumerics
import RagStack.Worker.LineBlocks

/-!
# What the blocks keep of the lines

`classify_line` and `build_blocks_from_lines` (`app/services/parsers/base.py`, lines 83–209)
drop hashes, colons, column gaps and blank lines, and write `Q` or `A` for the label of a
question or an answer. The letters and digits of the lines are otherwise kept.

* `alnums_classifyLine`: a structured line has the letters and digits of its line.
* `alnums_buildBlocksFromLines`: so have the blocks, in order, and those of each kind have
  the letters and digits of the lines of that kind.
-/

namespace RagStack.Worker

open RagStack.Common

/-- `AlnumLaws`, and that neither `#` nor `:` is alphanumeric. -/
structure LineAlnumLaws (ud : UnicodeData) : Prop extends AlnumLaws ud where
  hash : ud.isAlnum '#' = false
  colon : ud.isAlnum ':' = false

/-- The kind of the block that a line that is not blank comes into. -/
def lineKind (lu : LineUnicode) (line : Text) : BlockKind :=
  (classifyLine lu (stripText line)).elim .paragraph StructuredLine.kind

/-- The letters and digits of a line, with the letter for the label of a question or an
    answer. -/
def lineContent (lu : LineUnicode) (line : Text) : Text :=
  match matchMarkdownHeading (stripText line), matchQa (stripText line) with
  | none, some (label, body) => alnums lu.toUnicodeData (label :: body)
  | _, _ => alnums lu.toUnicodeData line

/-- The letters and digits of the lines whose kinds satisfy `q`. -/
def linesContent (lu : LineUnicode) (q : BlockKind → Bool) (lines : List Text) : Text :=
  (lines.filter fun line => q (lineKind lu line)).flatMap (lineContent lu)

/-- The letters and digits of the blocks whose kinds satisfy `q`. -/
def blocksContent {β : Type} (ud : UnicodeData) (q : BlockKind → Bool) (blocks : List (LineBlock β)) :
    Text :=
  (blocks.filter fun b => q b.kind).flatMap fun b => alnums ud b.text

/-! ## The cases of the classifier -/

/-- Everything that `classify_line` can make of a stripped text. -/
inductive ClassifyCase (lu : LineUnicode) (text : Text) : StructuredLine → Prop
  | markdown {hashes : ℕ} {body : Text} (found : matchMarkdownHeading text = some (hashes, body)) :
      ClassifyCase lu text
        { kind := .heading, text := stripText body
          metadata := { headingLevel := some hashes, headingSource := some "markdown" } }
  | qa {label : Char} {body : Text} (plain : matchMarkdownHeading text = none)
      (found : matchQa text = some (label, body)) :
      ClassifyCase lu text
        { kind := .qaPair, text := label :: ':' :: ' ' :: stripText body
          metadata := { qaLabel := some [label], structureSource := some "faq_marker" } }
  | numbered {numbering : Text} (plain : matchMarkdownHeading text = none)
      (noQa : matchQa text = none) :
      ClassifyCase lu text
        { kind := .heading, text := rstripColons text
          metadata :=
            { headingLevel := some (inferNumberedHeadingLevel lu (stripText numbering))
              headingSource := some "numbered" } }
  | listItem {marker body : Text} (plain : matchMarkdownHeading text = none)
      (noQa : matchQa text = none) (found : matchListItem lu text = some (marker, body)) :
      ClassifyCase lu text
        { kind := .listItem, text := marker ++ ' ' :: stripText body
          metadata := { listMarker := some marker, structureSource := some "list_marker" } }
  | tableRow (plain : matchMarkdownHeading text = none) (noQa : matchQa text = none)
      (cells : 2 ≤ (splitTableCells text).length) :
      ClassifyCase lu text
        { kind := .tableRow, text := join " | ".toList (splitTableCells text)
          metadata :=
            { columnCount := some (splitTableCells text).length
              structureSource := some "table_delimiter" } }
  | heuristic (plain : matchMarkdownHeading text = none) (noQa : matchQa text = none)
      (heading : looksLikeHeading lu text = true) :
      ClassifyCase lu text
        { kind := .heading, text := rstripColons text
          metadata := { headingLevel := some 1, headingSource := some "heuristic" } }

theorem classifyLine_cases {lu : LineUnicode} {text : Text} {structured : StructuredLine}
    (h : classifyLine lu (stripText text) = some structured) :
    stripText text ≠ [] ∧ ClassifyCase lu (stripText text) structured := by
  have hstrip : stripText (stripText text) = stripText text := strip_strip isSpace text
  unfold classifyLine at h
  simp only [hstrip] at h
  by_cases hnil : stripText text = []
  · rw [if_pos hnil] at h
    cases h
  rw [if_neg hnil] at h
  refine ⟨hnil, ?_⟩
  cases hmarkdown : matchMarkdownHeading (stripText text) with
  | some found =>
    simp only [hmarkdown] at h
    cases h
    exact .markdown hmarkdown
  | none =>
    cases hqa : matchQa (stripText text) with
    | some found =>
      simp only [hmarkdown, hqa] at h
      cases h
      exact .qa hmarkdown hqa
    | none =>
      simp only [hmarkdown, hqa] at h
      split at h
      · cases h
        exact .numbered hmarkdown hqa
      · split at h
        · rename_i hlist
          cases h
          exact .listItem hmarkdown hqa hlist
        · split_ifs at h with hcells hheading
          · cases h
            exact .tableRow hmarkdown hqa hcells
          · cases h
            exact .heuristic hmarkdown hqa hheading

theorem alnums_append (ud : UnicodeData) (a b : Text) :
    alnums ud (a ++ b) = alnums ud a ++ alnums ud b :=
  List.filter_append a b

/-! ## Structured lines -/

section Lines

variable {lu : LineUnicode} {text body : Text}

theorem spacedBody_eq_some (h : spacedBody text = some body) : body = text.dropWhile isSpace := by
  unfold spacedBody bodyOf at h
  split_ifs at h
  exact (Option.some.inj h).symm

/-- The hashes and the blanks are all that a markdown heading loses. -/
theorem exists_hashes {n : ℕ} (h : matchMarkdownHeading text = some (n, body)) :
    ∃ hashes blanks, text = hashes ++ (blanks ++ body) ∧ (∀ c ∈ hashes, c = '#') ∧
      ∀ c ∈ blanks, isSpace c = true := by
  unfold matchMarkdownHeading at h
  simp only at h
  split_ifs at h
  obtain ⟨found, hfound, heq⟩ := Option.map_eq_some_iff.mp h
  cases heq
  set hashes := text.takeWhile (· == '#') with hhashes
  refine ⟨hashes, (text.drop hashes.length).takeWhile isSpace, ?_, fun c hc => ?_, fun c hc => ?_⟩
  · rw [spacedBody_eq_some hfound, List.takeWhile_append_dropWhile]
    conv_lhs => rw [← List.take_append_drop hashes.length text]
    rw [← List.prefix_iff_eq_take.mp (List.takeWhile_prefix _)]
  · simpa using List.mem_takeWhile_imp hc
  · exact List.mem_takeWhile_imp hc

theorem suffix_afterMarker {rest : Text} (h : afterMarker lu text = some rest) : rest <:+ text := by
  unfold afterMarker at h
  cases text with
  | nil => cases h
  | cons c text =>
    have hbehind {d : Char} (h : d :: rest <:+ text) : rest <:+ c :: text :=
      ((List.suffix_cons d _).trans h).trans (List.suffix_cons c text)
    simp only at h
    split_ifs at h with hbullet hdecimal halpha
    · cases h
      exact List.suffix_cons c _
    · split at h
      · rename_i d found heq
        split_ifs at h
        cases h
        exact hbehind (Option.some.inj heq ▸ List.dropWhile_suffix _)
      · cases h
    · split at h
      · rename_i d found heq
        split_ifs at h
        cases h
        exact hbehind (by rw [← Option.some.inj heq])
      · cases h

/-- The blanks are all that a list item loses. -/
theorem exists_marker {marker : Text} (h : matchListItem lu text = some (marker, body)) :
    ∃ blanks, text = marker ++ (blanks ++ body) ∧ ∀ c ∈ blanks, isSpace c = true := by
  unfold matchListItem at h
  obtain ⟨rest, hrest, h⟩ := Option.bind_eq_some_iff.mp h
  obtain ⟨found, hfound, h⟩ := Option.bind_eq_some_iff.mp h
  cases h
  obtain ⟨before, hbefore⟩ := suffix_afterMarker hrest
  refine ⟨rest.takeWhile isSpace, ?_, fun c hc => List.mem_takeWhile_imp hc⟩
  rw [spacedBody_eq_some hfound, List.takeWhile_append_dropWhile, ← hbefore]
  congr 1
  simp

/-- Only a question or an answer has other letters and digits than its line. -/
theorem lineContent_of_ne_qaPair (h : lineKind lu text ≠ .qaPair) :
    lineContent lu text = alnums lu.toUnicodeData text := by
  have hstrip : stripText (stripText text) = stripText text := strip_strip isSpace text
  unfold lineContent
  split
  · rename_i label body hmarkdown hqa
    have hne : stripText text ≠ [] := by
      intro hnil
      rw [hnil] at hqa
      cases hqa
    unfold lineKind classifyLine at h
    simp only [hstrip, if_neg hne, hmarkdown, hqa] at h
    exact absurd rfl h
  · rfl

end Lines

namespace LineAlnumLaws

variable {lu : LineUnicode} (laws : LineAlnumLaws lu.toUnicodeData) {text body : Text}

include laws

theorem cellSeparator : ∀ c ∈ " | ".toList, lu.isAlnum c = false := by
  intro c hc
  rcases (by simpa using hc : c = ' ' ∨ c = '|' ∨ c = ' ') with rfl | rfl | rfl
  · exact laws.space ' ' (by decide)
  · exact laws.pipe
  · exact laws.space ' ' (by decide)

theorem alnums_colon : alnums lu.toUnicodeData ": ".toList = [] := by
  refine filter_eq_nil_of_forall fun c hc => ?_
  rcases (by simpa using hc : c = ':' ∨ c = ' ') with rfl | rfl
  · exact laws.colon
  · exact laws.space ' ' (by decide)

theorem alnums_blanks_append {blanks : Text} (h : ∀ c ∈ blanks, isSpace c = true) (text : Text) :
    alnums lu.toUnicodeData (blanks ++ text) = alnums lu.toUnicodeData text := by
  have hnil : alnums lu.toUnicodeData blanks = [] :=
    filter_eq_nil_of_forall fun c hc => laws.space c (h c hc)
  rw [alnums_append, hnil, List.nil_append]

theorem alnums_rstripColons (text : Text) :
    alnums lu.toUnicodeData (rstripColons text) = alnums lu.toUnicodeData text := by
  have hcolons : alnums lu.toUnicodeData (text.rtakeWhile (· == ':')) = [] := by
    refine filter_eq_nil_of_forall fun c hc => ?_
    obtain rfl : c = ':' := by simpa using List.mem_rtakeWhile_imp hc
    exact laws.colon
  calc alnums lu.toUnicodeData (rstripColons text)
      = alnums lu.toUnicodeData (rstripColons text ++ text.rtakeWhile (· == ':')) := by
        rw [alnums_append, hcolons, List.append_nil]
    _ = alnums lu.toUnicodeData text := by rw [rstripColons, List.rdropWhile_append_rtakeWhile]

theorem alnums_markdown {n : ℕ} (h : matchMarkdownHeading text = some (n, body)) :
    alnums lu.toUnicodeData body = alnums lu.toUnicodeData text := by
  obtain ⟨hashes, blanks, rfl, hhashes, hblanks⟩ := exists_hashes h
  have hnil : alnums lu.toUnicodeData hashes = [] := by
    refine filter_eq_nil_of_forall fun c hc => ?_
    rw [hhashes c hc]
    exact laws.hash
  rw [alnums_append, hnil, List.nil_append, laws.alnums_blanks_append hblanks]

theorem alnums_listItem {marker : Text} (h : matchListItem lu text = some (marker, body)) :
    alnums lu.toUnicodeData (marker ++ ' ' :: stripText body) = alnums lu.toUnicodeData text := by
  obtain ⟨blanks, rfl, hblanks⟩ := exists_marker h
  have hspace : ∀ c ∈ ([' '] : Text), isSpace c = true := List.forall_mem_singleton.mpr (by decide)
  have hbody : alnums lu.toUnicodeData (' ' :: stripText body) =
      alnums lu.toUnicodeData (blanks ++ body) := by
    rw [laws.alnums_blanks_append hblanks]
    exact (laws.alnums_blanks_append hspace _).trans (laws.alnums_strip body)
  rw [alnums_append, alnums_append, hbody]

/-- The cells of a table row have what the line has between the separators. -/
theorem alnums_splitTableCells (h : 2 ≤ (splitTableCells text).length) :
    alnums lu.toUnicodeData (join " | ".toList (splitTableCells text)) =
      alnums lu.toUnicodeData text := by
  have hcells {m : Matcher Char} (hm : m.Within fun c => !lu.isAlnum c)
      (h : 2 ≤ (cellsAt m text).length) :
      alnums lu.toUnicodeData (join " | ".toList (cellsAt m text)) =
        alnums lu.toUnicodeData text := by
    unfold cellsAt at h ⊢
    simp only at h ⊢
    split_ifs at h ⊢
    · calc alnums lu.toUnicodeData (join " | ".toList (stripParts (splitAtMatches m text)))
          = (stripParts (splitAtMatches m text)).flatMap (alnums lu.toUnicodeData) :=
            filter_join laws.cellSeparator _
        _ = (splitAtMatches m text).flatMap (alnums lu.toUnicodeData) :=
            laws.flatMap_alnums_stripParts _
        _ = alnums lu.toUnicodeData text := filter_splitAtMatches hm text
    · simp at h
  unfold splitTableCells at h ⊢
  split_ifs at h ⊢
  · exact hcells laws.pipeAt_within h
  · refine hcells (runAt_within (fun c hc => ?_) 1) h
    obtain rfl : c = '\t' := by simpa using hc
    simp [laws.space '\t' (by decide)]
  · exact hcells (runAt_within (fun c hc => by simp [laws.space c hc]) 3) h
  · simp at h

theorem alnums_qaPair (label : Char) (body : Text) :
    alnums lu.toUnicodeData (label :: ':' :: ' ' :: stripText body) =
      alnums lu.toUnicodeData (label :: body) := by
  calc alnums lu.toUnicodeData ([label] ++ (": ".toList ++ stripText body))
      = alnums lu.toUnicodeData ([label] ++ body) := by
        rw [alnums_append, alnums_append, laws.alnums_colon, List.nil_append, laws.alnums_strip,
          ← alnums_append]
    _ = alnums lu.toUnicodeData (label :: body) := rfl

/-- A structured line has the letters and digits of its line. -/
theorem alnums_classifyLine {structured : StructuredLine}
    (h : classifyLine lu (stripText text) = some structured) :
    alnums lu.toUnicodeData structured.text = lineContent lu text := by
  obtain ⟨-, hcase⟩ := classifyLine_cases h
  unfold lineContent
  cases hcase with
  | markdown found =>
    rw [found, laws.alnums_strip, laws.alnums_markdown found, laws.alnums_strip]
  | qa plain found =>
    rw [plain, found]
    exact laws.alnums_qaPair _ _
  | numbered plain noQa =>
    rw [plain, noQa, laws.alnums_rstripColons, laws.alnums_strip]
  | listItem plain noQa found =>
    rw [plain, noQa, laws.alnums_listItem found, laws.alnums_strip]
  | tableRow plain noQa cells =>
    rw [plain, noQa, laws.alnums_splitTableCells cells, laws.alnums_strip]
  | heuristic plain noQa heading =>
    rw [plain, noQa, laws.alnums_rstripColons, laws.alnums_strip]

/-! ## Blocks -/

theorem lineContent_of_blank (h : stripText text = []) : lineContent lu text = [] := by
  unfold lineContent
  rw [h, ← laws.alnums_strip text, h]
  rfl

end LineAlnumLaws

section Blocks

variable {β : Type} {lu : LineUnicode} {pageNumber : Option ℤ} {baseMetadata : β}
  {q : BlockKind → Bool}

/-- The letters and digits that the loop has read, in blocks and in pending lines whose kinds
    satisfy `q`. -/
def stateContent (ud : UnicodeData) (q : BlockKind → Bool) (s : LinesState β) : Text :=
  blocksContent ud q s.blocks ++
    if q .paragraph then s.paragraphLines.flatMap (alnums ud) else []

theorem blocksContent_append (ud : UnicodeData) (q : BlockKind → Bool) (a b : List (LineBlock β)) :
    blocksContent ud q (a ++ b) = blocksContent ud q a ++ blocksContent ud q b := by
  simp [blocksContent]

theorem blocksContent_singleton (ud : UnicodeData) (q : BlockKind → Bool) (b : LineBlock β) :
    blocksContent ud q [b] = if q b.kind then alnums ud b.text else [] := by
  unfold blocksContent
  cases hq : q b.kind <;> simp [hq]

theorem linesContent_concat (lines : List Text) (line : Text) :
    linesContent lu q (lines ++ [line]) =
      linesContent lu q lines ++ if q (lineKind lu line) then lineContent lu line else [] := by
  unfold linesContent
  rw [List.filter_append, List.flatMap_append]
  cases hq : q (lineKind lu line) <;> simp [hq]

variable (laws : LineAlnumLaws lu.toUnicodeData)

include laws

/-- Closing the paragraph keeps what was read, and leaves no pending lines. -/
theorem stateContent_flushParagraph (s : LinesState β) :
    blocksContent lu.toUnicodeData q (flushParagraph pageNumber baseMetadata s).blocks =
      stateContent lu.toUnicodeData q s := by
  have hnewline : ∀ c ∈ (['\n'] : Text), lu.isAlnum c = false := by simp [laws.newline]
  have htext : alnums lu.toUnicodeData (stripText (join ['\n'] s.paragraphLines)) =
      s.paragraphLines.flatMap (alnums lu.toUnicodeData) :=
    (laws.alnums_strip _).trans (filter_join hnewline _)
  unfold flushParagraph stateContent
  by_cases hnil : s.paragraphLines = []
  · simp [hnil]
  · rw [if_neg hnil, ← htext]
    simp only
    split_ifs with hempty hq hq
    · rw [hempty]
      simp [alnums]
    · rw [List.append_nil]
    · rw [blocksContent_append, blocksContent_singleton, if_pos hq]
    · rw [blocksContent_append, blocksContent_singleton, if_neg hq]

/-- One line adds its letters and digits, if its kind satisfies `q`. -/
theorem stateContent_readLine (s : LinesState β) (line : Text) :
    stateContent lu.toUnicodeData q (readLine lu pageNumber baseMetadata s line) =
      stateContent lu.toUnicodeData q s ++ if q (lineKind lu line) then lineContent lu line else [] := by
  rcases readLine_cases lu pageNumber baseMetadata s line with
    ⟨hblank, hread⟩ | ⟨-, structured, hclass, flushed, hflushed, hread⟩ | ⟨hparagraph, hread⟩
  · rw [hread, laws.lineContent_of_blank hblank, stateContent, paragraphLines_flushParagraph,
      stateContent_flushParagraph laws]
    simp [stateContent]
  · have hkind : lineKind lu line = structured.kind := by rw [lineKind, hclass]; rfl
    have hnil : flushed.paragraphLines = [] := by
      rw [hflushed, paragraphLines_flushParagraph]
    rw [hread, stateContent, blocksContent_append, blocksContent_singleton, hkind,
      ← laws.alnums_classifyLine hclass, hflushed, stateContent_flushParagraph laws]
    simp only [← hflushed, hnil]
    simp [stateContent]
  · have hkind : lineKind lu line = .paragraph := by rw [lineKind, hparagraph.2]; rfl
    rw [hread, hkind, lineContent_of_ne_qaPair (by rw [hkind]; decide)]
    unfold stateContent
    by_cases hq : q .paragraph = true
    · simp only [if_pos hq]
      rw [List.flatMap_append, List.flatMap_singleton, laws.alnums_strip, List.append_assoc]
    · simp [hq]

/-- The blocks of each kind have the letters and digits of the lines of that kind, in order;
    and so for any set of kinds. -/
theorem alnums_buildBlocksFromLines (q : BlockKind → Bool) (lines : List Text) :
    blocksContent lu.toUnicodeData q (buildBlocksFromLines lu pageNumber baseMetadata lines) =
      linesContent lu q lines := by
  rw [buildBlocksFromLines, stateContent_flushParagraph laws]
  induction lines using List.reverseRecOn with
  | nil => simp [stateContent, blocksContent, linesContent]
  | append_singleton lines line ih =>
    rw [List.foldl_append, List.foldl_cons, List.foldl_nil, stateContent_readLine laws, ih,
      linesContent_concat]

end Blocks

theorem lineAlnumLaws_ascii : LineAlnumLaws UnicodeData.ascii where
  toAlnumLaws := alnumLaws_ascii
  hash := by decide
  colon := by decide

end RagStack.Worker
