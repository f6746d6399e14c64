import RagStack.Common.Lists
import RagStack.Worker.DocxTable
import RagStack.Worker.LineContent
import RagStack.Worker.ParserFactory
import RagStack.Worker.PdfMargins

/-!
# The parsers

`txt_parser.py`, `pdf_parser.py` and `docx_parser.py` in `app/services/parsers`, with
`normalize_lines` and `ensure_blocks` of `base.py`. What `charset_normalizer`, `pypdf` and
`python-docx` read from a file is a `FileReaders`.

* `alnums_parse`: the blocks of each kind have the letters and digits of the parts of the
  file that are of that kind, in order.
-/

namespace RagStack.Worker

open RagStack.Common

/-! ## What the packages read -/

/-- A `Paragraph` of `python-docx`: its text, the name of its style, and whether it has a
    `numPr`. -/
structure DocxParagraph where
  text : Text
  styleName : Text := []
  numbered : Bool := false
deriving DecidableEq, Repr

/-- What `_iter_block_items` yields: a paragraph, or a table as the texts of its cells. -/
inductive DocxItem
  | paragraph (p : DocxParagraph)
  | table (rows : List (List Text))
deriving DecidableEq, Repr

/-- What the packages read from a file; `none` where they raise. `best` is
    `from_bytes(data).best()`, if there is one, with its encoding; `decode` is `bytes.decode`;
    `pdfPages` are the texts of the pages, after `decrypt("")` of an encrypted file. -/
structure FileReaders where
  best : Bytes → Option (Option (Text × Option String))
  decode : String → Bytes → Option Text
  pdfPages : Bytes → Option (List Text)
  docxItems : Bytes → Option (List DocxItem)

/-- `LineUnicode` with `str.isdigit` and `int` of a text of digits, which raises for some of
    them. -/
structure ParserUnicode extends LineUnicode where
  isDigitText : Text → Bool
  intOf : Text → Option ℕ

/-- `str.isdigit` and `int` for ASCII text. -/
def ParserUnicode.ascii : ParserUnicode where
  toLineUnicode := LineUnicode.ascii
  isDigitText text := text ≠ [] ∧ text.all Char.isDigit
  intOf text := (String.ofList text).toNat?

/-- `FILE_PARSE_FAILED`. -/
def parseFailed (message : String) : IngestionError :=
  { code := .fileParseFailed, message := message, retryable := false }

/-- `ensure_blocks` (base.py, lines 250–257). -/
def ensureBlocks (document : ParsedDocument) : Except IngestionError ParsedDocument :=
  if document.blocks = [] then
    .error
      { code := .emptyDocument, message := "Document parser did not return any text"
        retryable := false }
  else .ok document

/-- `normalize_lines` (base.py, lines 79–80). -/
def normalizeLines (text : Text) : List Text :=
  splitNewlines (replaceMatches crAt ['\n'] (replaceMatches crlfAt ['\n'] text))

/-! ## Text files -/

/-- `_decode` (txt_parser.py, lines 42–57): the text and the encoding. -/
def FileReaders.decodeText (readers : FileReaders) (data : Bytes) :
    Except IngestionError (Text × String) :=
  if data = [] then .ok ([], "utf-8")
  else
    match readers.best data with
    | none => .error (parseFailed "Failed to parse text file")
    | some (some (text, encoding)) =>
      .ok (text, (encoding.filter fun name => name ≠ "").getD "unknown")
    | some none =>
      match ["utf-8-sig", "utf-8", "latin-1"].findSome? fun encoding =>
        (readers.decode encoding data).map fun text => (text, encoding) with
      | some decoded => .ok decoded
      | none => .error (parseFailed "Text file encoding could not be decoded")

/-- `base_metadata` of a text file. -/
structure TxtMetadata where
  parser : String
  encoding : String
deriving DecidableEq, Repr

/-- `TxtParser.parse` (lines 11–40). -/
def FileReaders.parseTxt (readers : FileReaders) (lu : LineUnicode) (data : Bytes)
    (sourceTitle : String) : Except IngestionError ParsedDocument :=
  match readers.decodeText data with
  | .error e => .error e
  | .ok (text, encoding) =>
    let blocks := buildBlocksFromLines lu none
      { parser := "text", encoding := encoding : TxtMetadata } (normalizeLines text)
    ensureBlocks
      { fileType := "txt", sourceTitle := sourceTitle, blocks := blocks.map LineBlock.parsed
        metadata := { parser := some "text", pageMappingAvailable := some false
                      extractionWarnings := some [] } }

/-! ## PDF files -/

/-- `_extract_page_lines` (pdf_parser.py, lines 73–75). -/
def extractPageLines (text : Text) : List Text :=
  (normalizeLines text).map fun line => line.rdropWhile isSpace

/-- The lines of the pages without the repeated margins, and how many were removed
    (lines 24–29). -/
def trimmedPages (lu : LineUnicode) (pageLines : List (List Text)) : List (List Text) × ℕ :=
  let repeatedMarginKeys := detectRepeatedMarginKeys lu pageLines
  let trimmed := pageLines.map fun lines => stripRepeatedMarginLines lu lines repeatedMarginKeys
  (trimmed.map Prod.fst, (trimmed.map Prod.snd).sum)

/-- `warnings` (lines 38–45); the quotient of the floats compares with 80 as the fraction
    does. -/
def pdfWarnings (pageLines : List (List Text)) (removedMarginLines : ℕ) : List String :=
  let nonemptyPages := pageLines.countP fun lines => lines.any fun line => stripText line ≠ []
  let extractedChars := (pageLines.map fun lines => (join [' '] lines).length).sum
  (if nonemptyPages < pageLines.length then ["some_pages_empty_after_text_extraction"] else []) ++
    (if extractedChars ≠ 0 ∧ extractedChars < 80 * max pageLines.length 1 then
      ["low_text_density_pdf"] else []) ++
    if removedMarginLines ≠ 0 then ["repeated_page_margins_removed"] else []

/-- The blocks of the pages, which are numbered from one (lines 27–36). -/
def pdfBlocks (lu : LineUnicode) (trimmed : List (List Text)) : List (LineBlock String) :=
  (trimmed.zipIdx 1).flatMap fun page =>
    buildBlocksFromLines lu (some (page.2 : ℤ)) "pypdf" page.1

/-- `PdfParser.parse` (lines 15–71). -/
def FileReaders.parsePdf (readers : FileReaders) (lu : LineUnicode) (data : Bytes)
    (sourceTitle : String) : Except IngestionError ParsedDocument :=
  match readers.pdfPages data with
  | none => .error (parseFailed "Failed to extract text from PDF")
  | some pages =>
    let pageLines := pages.map extractPageLines
    let (trimmed, removedMarginLines) := trimmedPages lu pageLines
    ensureBlocks
      { fileType := "pdf", sourceTitle := sourceTitle
        blocks := (pdfBlocks lu trimmed).map LineBlock.parsed
        metadata := { parser := some "pypdf", pageMappingAvailable := some true
                      extractionWarnings := some (pdfWarnings pageLines removedMarginLines) } }

/-! ## DOCX files -/

/-- A structured line as the normalizer and the chunker read it. -/
def StructuredLine.parsed (line : StructuredLine) : ParsedBlock where
  text := line.text
  kind := line.kind
  metadata :=
    { headingLevel := line.metadata.headingLevel.map Int.ofNat, qaLabel := line.metadata.qaLabel }

/-- `_heading_level_from_style` (docx_parser.py, lines 126–130); `none` where `int` raises. -/
def headingLevelFromStyle (pu : ParserUnicode) (styleName : Text) : Option ℕ :=
  match (splitWords styleName).find? pu.isDigitText with
  | some token => (pu.intOf token).map fun level => min level 6
  | none => some 1

/-- `style_lower.startswith("heading")` (line 73). -/
def DocxParagraph.HasHeadingStyle (pu : ParserUnicode) (p : DocxParagraph) : Prop :=
  "heading".toList <+: pu.lower (stripText p.styleName)

/-- `_is_list_paragraph` (lines 132–136). -/
def DocxParagraph.IsListParagraph (pu : ParserUnicode) (p : DocxParagraph) : Prop :=
  "list".toList <:+: pu.lower (stripText p.styleName) ∨ p.numbered = true

instance (pu : ParserUnicode) (p : DocxParagraph) : Decidable (p.HasHeadingStyle pu) :=
  inferInstanceAs (Decidable (_ <+: _))

instance (pu : ParserUnicode) (p : DocxParagraph) : Decidable (p.IsListParagraph pu) :=
  inferInstanceAs (Decidable (_ ∨ _))

/-- The block of a paragraph by its text (lines 85–94). -/
def parsePlainParagraph (lu : LineUnicode) (text : Text) : StructuredLine :=
  match (classifyLine lu text).filter fun structured => structured.kind ≠ .heading with
  | some structured => structured
  | none =>
    if looksLikeHeading lu text then
      { kind := .heading, text := rstripColons text
        metadata := { headingLevel := some 1, headingSource := some "heuristic" } }
    else { kind := .paragraph, text := text, metadata := {} }

/-- `_parse_paragraph` (lines 64–94) of a text that is not blank; `none` where it raises. -/
def parseParagraph (pu : ParserUnicode) (p : DocxParagraph) : Option StructuredLine :=
  let text := stripText p.text
  if p.HasHeadingStyle pu then
    (headingLevelFromStyle pu (stripText p.styleName)).map fun level =>
      { kind := .heading, text := text
        metadata := { headingLevel := some level, headingSource := some "docx_style" } }
  else if p.IsListParagraph pu then
    some
      { kind := .listItem, text := '-' :: ' ' :: text
        metadata := { listMarker := some ['-'], structureSource := some "docx_list" } }
  else some (parsePlainParagraph pu.toLineUnicode text)

/-- The blocks of an item (lines 23–34). -/
def docxItemBlocks (pu : ParserUnicode) : DocxItem → Option (List ParsedBlock)
  | .paragraph p =>
    if stripText p.text = [] then some []
    else (parseParagraph pu p).map fun structured => [structured.parsed]
  | .table rows =>
    some ((parseTable rows).map fun block => { text := block.text, kind := block.kind })

/-- `DocxParser.parse` (lines 16–55). -/
def FileReaders.parseDocx (readers : FileReaders) (pu : ParserUnicode) (data : Bytes)
    (sourceTitle : String) : Except IngestionError ParsedDocument :=
  match (readers.docxItems data).bind fun items => items.mapM (docxItemBlocks pu) with
  | none => .error (parseFailed "Failed to extract text from DOCX")
  | some blocks =>
    ensureBlocks
      { fileType := "docx", sourceTitle := sourceTitle, blocks := blocks.flatten
        metadata := { parser := some "python-docx", pageMappingAvailable := some false
                      extractionWarnings := some [] } }

/-- `get_parser(file_type).parse(data, source_title)`. -/
def FileReaders.parse (readers : FileReaders) (pu : ParserUnicode) (type : FileType) (data : Bytes)
    (sourceTitle : String) : Except IngestionError ParsedDocument :=
  match type with
  | .txt => readers.parseTxt pu.toLineUnicode data sourceTitle
  | .pdf => readers.parsePdf pu.toLineUnicode data sourceTitle
  | .docx => readers.parseDocx pu data sourceTitle

/-! ## The letters and digits of a file -/

/-- The letters and digits of the blocks whose kinds satisfy `q`. -/
def documentContent (ud : UnicodeData) (q : BlockKind → Bool) (blocks : List ParsedBlock) : Text :=
  (blocks.filter fun b => q b.kind).flatMap fun b => alnums ud b.text

/-- The kind of the block of a paragraph. -/
def DocxParagraph.kind (pu : ParserUnicode) (p : DocxParagraph) : BlockKind :=
  if p.HasHeadingStyle pu then .heading
  else if p.IsListParagraph pu then .listItem
  else (parsePlainParagraph pu.toLineUnicode (stripText p.text)).kind

/-- The letters and digits of a paragraph. Only its text can make it a question or an
    answer. -/
def paragraphContent (pu : ParserUnicode) (p : DocxParagraph) : Text :=
  if p.HasHeadingStyle pu ∨ p.IsListParagraph pu then alnums pu.toUnicodeData p.text
  else lineContent pu.toLineUnicode p.text

/-- The letters and digits of a row of a table, with the headers in front of the cells. -/
def rowContent (ud : UnicodeData) (headers row : List TableCell) : Text :=
  match rowPairs headers row with
  | some pairs => pairs.flatMap fun p => alnums ud p.1.text ++ alnums ud p.2.text
  | none => row.flatMap fun cell => alnums ud cell.text

/-- The letters and digits of an item, if its blocks are of a kind that satisfies `q`. -/
def docxItemContent (pu : ParserUnicode) (q : BlockKind → Bool) : DocxItem → Text
  | .paragraph p => if q (p.kind pu) then paragraphContent pu p else []
  | .table rows =>
    if q .tableRow then
      (dataRows (filledRows rows)).flatMap
        (rowContent pu.toUnicodeData (tableHeaders (filledRows rows)))
    else []

/-- The letters and digits of the lines, the lines between the margins, or the items of a
    file, as far as they are of a kind that satisfies `q`. -/
def FileReaders.fileContent (readers : FileReaders) (pu : ParserUnicode) (q : BlockKind → Bool)
    (type : FileType) (data : Bytes) : Text :=
  match type with
  | .txt =>
    match readers.decodeText data with
    | .ok (text, _) => linesContent pu.toLineUnicode q (normalizeLines text)
    | .error _ => []
  | .pdf =>
    let pages := (readers.pdfPages data).getD []
    (trimmedPages pu.toLineUnicode (pages.map extractPageLines)).1.flatMap
      (linesContent pu.toLineUnicode q)
  | .docx => ((readers.docxItems data).getD []).flatMap (docxItemContent pu q)

section Content

variable {pu : ParserUnicode} (laws : LineAlnumLaws pu.toUnicodeData) (q : BlockKind → Bool)

theorem documentContent_append (ud : UnicodeData) (a b : List ParsedBlock) :
    documentContent ud q (a ++ b) = documentContent ud q a ++ documentContent ud q b := by
  simp [documentContent]

theorem documentContent_singleton (ud : UnicodeData) (b : ParsedBlock) :
    documentContent ud q [b] = if q b.kind then alnums ud b.text else [] := by
  unfold documentContent
  cases hq : q b.kind <;> simp [hq]

theorem documentContent_parsed {β : Type} (ud : UnicodeData) (blocks : List (LineBlock β)) :
    documentContent ud q (blocks.map LineBlock.parsed) = blocksContent ud q blocks := by
  unfold documentContent blocksContent
  rw [List.filter_map, List.flatMap_map]
  rfl

theorem ensureBlocks_eq_ok {document checked : ParsedDocument}
    (h : ensureBlocks document = .ok checked) : document.blocks ≠ [] ∧ checked = document := by
  unfold ensureBlocks at h
  split_ifs at h with hnil
  cases h
  exact ⟨hnil, rfl⟩

include laws

theorem blocksContent_pdfBlocks (trimmed : List (List Text)) :
    blocksContent pu.toUnicodeData q (pdfBlocks pu.toLineUnicode trimmed) =
      trimmed.flatMap (linesContent pu.toLineUnicode q) := by
  have hpages (pages : List (List Text × ℕ)) :
      blocksContent pu.toUnicodeData q (pages.flatMap fun page =>
        buildBlocksFromLines pu.toLineUnicode (some (page.2 : ℤ)) "pypdf" page.1) =
          (pages.map Prod.fst).flatMap (linesContent pu.toLineUnicode q) := by
    induction pages with
    | nil => rfl
    | cons page pages ih =>
      rw [List.flatMap_cons, blocksContent_append, ih, alnums_buildBlocksFromLines laws]
      rfl
  rw [pdfBlocks, hpages, List.zipIdx_map_fst]

theorem alnums_parsePlainParagraph (text : Text) :
    alnums pu.toUnicodeData (parsePlainParagraph pu.toLineUnicode (stripText text)).text =
      lineContent pu.toLineUnicode text := by
  unfold parsePlainParagraph
  split
  · rename_i structured hstructured
    exact laws.alnums_classifyLine (Option.filter_eq_some_iff.mp hstructured).1
  · rename_i hnone
    have hkind : lineKind pu.toLineUnicode text ≠ .qaPair := by
      unfold lineKind
      cases hclass : classifyLine pu.toLineUnicode (stripText text) with
      | none => decide
      | some structured =>
        rw [hclass, Option.filter_eq_none_iff] at hnone
        have hheading : structured.kind = .heading := by simpa using hnone structured rfl
        simp [hheading]
    rw [lineContent_of_ne_qaPair hkind]
    split_ifs
    · rw [laws.alnums_rstripColons, laws.alnums_strip]
    · exact laws.alnums_strip text

theorem alnums_renderRow {headers row : List TableCell} (hrow : ∀ cell ∈ row, cell.text ≠ []) :
    alnums pu.toUnicodeData (renderRow headers row) = rowContent pu.toUnicodeData headers row := by
  unfold renderRow rowContent
  cases hpairs : rowPairs headers row with
  | none =>
    simp only
    exact (filter_join laws.cellSeparator _).trans (by rw [List.flatMap_map]; rfl)
  | some pairs =>
    have hne : ∀ p ∈ pairs, p.2.text ≠ [] := by
      intro p hp
      unfold rowPairs at hpairs
      split_ifs at hpairs
      cases hpairs
      exact hrow _ (List.of_mem_zip hp).2
    have hall : (pairs.filter fun p => p.2.text ≠ []) = pairs :=
      List.filter_eq_self.mpr fun p hp => by simpa using hne p hp
    simp only [hall]
    refine (filter_join laws.cellSeparator _).trans ?_
    rw [List.flatMap_map]
    refine List.flatMap_congr fun p _ => ?_
    show alnums pu.toUnicodeData (renderPair p) = _
    rw [renderPair, alnums_append, alnums_append, laws.alnums_colon, List.append_nil]

/-- The rows of a table have the letters and digits of their cells and of the headers. -/
theorem documentContent_parseTable (rows : List (List Text)) :
    documentContent pu.toUnicodeData q
        ((parseTable rows).map fun block => { text := block.text, kind := block.kind }) =
      docxItemContent pu q (.table rows) := by
  have hrows : ∀ row ∈ dataRows (filledRows rows), ∀ cell ∈ row, cell.text ≠ [] := by
    intro row hrow cell hcell
    exact (mem_filledRows (mem_of_mem_dataRows hrow)).2 cell hcell
  unfold parseTable docxItemContent
  simp only
  generalize tableHeaders (filledRows rows) = headers
  generalize dataRows (filledRows rows) = rows at hrows
  induction rows with
  | nil => simp [documentContent]
  | cons row rest ih =>
    have hrest := ih fun r hr => hrows r (List.mem_cons_of_mem _ hr)
    have hrow : alnums pu.toUnicodeData (renderRow headers row) =
        rowContent pu.toUnicodeData headers row :=
      alnums_renderRow laws (hrows row List.mem_cons_self)
    by_cases hnil : renderRow headers row = []
    · rw [List.filterMap_cons_none (by rw [if_pos hnil]), hrest, List.flatMap_cons, ← hrow, hnil]
      rfl
    · rw [List.filterMap_cons_some (by rw [if_neg hnil]), List.map_cons, ← List.singleton_append,
        documentContent_append, documentContent_singleton, hrest, List.flatMap_cons, hrow]
      simp only
      split_ifs <;> simp

theorem documentContent_docxItemBlocks {item : DocxItem} {blocks : List ParsedBlock}
    (h : docxItemBlocks pu item = some blocks) :
    documentContent pu.toUnicodeData q blocks = docxItemContent pu q item := by
  cases item with
  | table rows =>
    cases h
    exact documentContent_parseTable laws q rows
  | paragraph p =>
    simp only [docxItemBlocks] at h
    rw [docxItemContent]
    split_ifs at h with hblank
    · have hnil : paragraphContent pu p = [] := by
        unfold paragraphContent
        rw [laws.lineContent_of_blank hblank, ← laws.alnums_strip p.text, hblank]
        simp [alnums]
      cases h
      rw [hnil]
      simp [documentContent]
    · obtain ⟨structured, hparse, rfl⟩ := Option.map_eq_some_iff.mp h
      have hparsed : structured.kind = p.kind pu ∧
          alnums pu.toUnicodeData structured.text = paragraphContent pu p := by
        unfold parseParagraph at hparse
        unfold DocxParagraph.kind paragraphContent
        split_ifs at hparse with hheading hlist
        · obtain ⟨level, -, rfl⟩ := Option.map_eq_some_iff.mp hparse
          rw [if_pos hheading, if_pos (Or.inl hheading)]
          exact ⟨rfl, laws.alnums_strip p.text⟩
        · cases hparse
          rw [if_neg hheading, if_pos hlist, if_pos (Or.inr hlist)]
          have hmarker : alnums pu.toUnicodeData "- ".toList = [] := by
            refine filter_eq_nil_of_forall fun c hc => ?_
            rcases (by simpa using hc : c = '-' ∨ c = ' ') with rfl | rfl
            · exact laws.hyphen
            · exact laws.space ' ' (by decide)
          have htext : alnums pu.toUnicodeData ("- ".toList ++ stripText p.text) =
              alnums pu.toUnicodeData p.text := by
            rw [alnums_append, hmarker, List.nil_append, laws.alnums_strip]
          exact ⟨rfl, htext⟩
        · cases hparse
          rw [if_neg hheading, if_neg hlist, if_neg (not_or.mpr ⟨hheading, hlist⟩)]
          exact ⟨rfl, alnums_parsePlainParagraph laws p.text⟩
      rw [documentContent_singleton, ← hparsed.2, ← hparsed.1]
      rfl

/-- The blocks of each kind, and of any set of kinds, have the letters and digits of the parts
    of the file that are of that kind, in order. -/
theorem alnums_parse {readers : FileReaders} {type : FileType} {data : Bytes} {sourceTitle : String}
    {document : ParsedDocument} (h : readers.parse pu type data sourceTitle = .ok document) :
    documentContent pu.toUnicodeData q document.blocks = readers.fileContent pu q type data := by
  cases type with
  | txt =>
    simp only [FileReaders.parse, FileReaders.parseTxt] at h
    rw [FileReaders.fileContent]
    cases hdecoded : readers.decodeText data with
    | error e =>
      rw [hdecoded] at h
      cases h
    | ok decoded =>
      rw [hdecoded] at h
      obtain ⟨-, rfl⟩ := ensureBlocks_eq_ok h
      rw [documentContent_parsed, alnums_buildBlocksFromLines laws]
  | pdf =>
    simp only [FileReaders.parse, FileReaders.parsePdf] at h
    rw [FileReaders.fileContent]
    cases hpages : readers.pdfPages data with
    | none =>
      rw [hpages] at h
      cases h
    | some pages =>
      rw [hpages] at h
      obtain ⟨-, rfl⟩ := ensureBlocks_eq_ok h
      rw [documentContent_parsed, blocksContent_pdfBlocks laws]
      rfl
  | docx =>
    simp only [FileReaders.parse, FileReaders.parseDocx] at h
    rw [FileReaders.fileContent]
    cases hitems : readers.docxItems data with
    | none =>
      rw [hitems] at h
      cases h
    | some items =>
      rw [hitems] at h
      simp only [Option.bind_some] at h
      cases hblocks : items.mapM (docxItemBlocks pu) with
      | none =>
        rw [hblocks] at h
        cases h
      | some blocks =>
        rw [hblocks] at h
        obtain ⟨-, rfl⟩ := ensureBlocks_eq_ok h
        simp only [Option.getD_some]
        have hall := forall₂_of_mapM hblocks
        clear hblocks hitems h
        induction hall with
        | nil => rfl
        | cons hitem _ ih =>
          rw [List.flatten_cons, documentContent_append, ih, List.flatMap_cons,
            documentContent_docxItemBlocks laws q hitem]

end Content

/-- Readers that find the same text in every file: as a text file, and as the pages of a PDF
    file. -/
def readersOf (text : Text) (pages : List Text) : FileReaders where
  best _ := some (some (text, some "ascii"))
  decode _ _ := none
  pdfPages _ := some pages
  docxItems _ := none

/-- A heading, a question and an answer. -/
def faqReaders : FileReaders :=
  readersOf "# Retries\n\nQuestion: who retries?\nAnswer - the worker".toList []

theorem alnums_parse_faq :
    ∃ document, faqReaders.parse .ascii .txt [0x23] "FAQ" = .ok document ∧
      documentContent ParserUnicode.ascii.toUnicodeData (fun kind => kind = .qaPair)
        document.blocks = "QwhoretriesAtheworker".toList := by
  have hok : (faqReaders.parse .ascii .txt [0x23] "FAQ").isOk = true := by decide +kernel
  cases hparse : faqReaders.parse .ascii .txt [0x23] "FAQ" with
  | error e =>
    rw [hparse] at hok
    cases hok
  | ok document =>
    refine ⟨document, rfl, ?_⟩
    rw [alnums_parse lineAlnumLaws_ascii _ hparse]
    decide +kernel

end RagStack.Worker
