import RagStack.Worker.Normalizer

/-!
# The line classifier of the parsers

`app/services/parsers/base.py`, lines 18–63 and 151–251. The expressions are
anchored at both ends and are matched with stripped texts, in one way only: what
follows a run of whitespace, of digits or of letters does not continue it, so that
a shorter run does not match either. A match is found by taking the longest runs.
-/

namespace RagStack.Worker

open RagStack.Common

/-- The Unicode data with what the classifier uses besides: `\d`, `str.isupper` and
    `str.title`. -/
structure LineUnicode extends UnicodeData where
  isDecimal : Char → Bool
  isUpperText : Text → Bool
  title : Text → Text

/-- `str.isupper` and `str.title` for ASCII text. -/
def LineUnicode.ascii : LineUnicode where
  toUnicodeData := UnicodeData.ascii
  isDecimal := Char.isDigit
  isUpperText text := text.any Char.isUpper && !text.any Char.isLower
  title text := (text.foldl (fun (s : Text × Bool) c =>
    if c.isAlpha then (s.1 ++ [if s.2 then c.toLower else c.toUpper], true)
    else (s.1 ++ [c], false)) ([], false)).1

/-- `StructuredLine.metadata`: the keys that some line has. -/
structure LineMetadata where
  headingLevel : Option ℕ := none
  headingSource : Option String := none
  qaLabel : Option Text := none
  structureSource : Option String := none
  listMarker : Option Text := none
  columnCount : Option ℕ := none
deriving DecidableEq, Repr

/-- `StructuredLine` (lines 31–35). -/
structure StructuredLine where
  kind : BlockKind
  text : Text
  metadata : LineMetadata
deriving DecidableEq, Repr

/-! ## Regular expressions -/

/-- The text behind a literal that is matched at the head, with `re.IGNORECASE` where the
    letters are those of `sameLetter`. -/
def afterLiteral (same : Char → Char → Bool) : Text → Text → Option Text
  | [], text => some text
  | _ :: _, [] => none
  | l :: literal, c :: text => if same l c then afterLiteral same literal text else none

/-- A lower-case letter of a pattern and a character match under `re.IGNORECASE`; `ı`, `İ`,
    `ſ` and the Kelvin sign match as `i`, `s` and `k`. -/
def sameLetter (letter c : Char) : Bool :=
  c.toLower == letter || (letter == 'i' && (c == 'ı' || c == 'İ')) ||
    (letter == 's' && c == 'ſ') || (letter == 'k' && c == '\u212A')

/-- `[A-Z]` under `re.IGNORECASE`. -/
def isLetter (c : Char) : Bool := c.isAlpha || c == 'ı' || c == 'İ' || c == 'ſ' || c == '\u212A'

/-- `[IVXLC]` under `re.IGNORECASE`. -/
def isRoman (c : Char) : Bool :=
  ['i', 'v', 'x', 'l', 'c'].any fun letter => sameLetter letter c

/-- `(?P<body>.+)$`: something without a line break. -/
def bodyOf (text : Text) : Option Text :=
  if text = [] ∨ '\n' ∈ text then none else some text

/-- `\s+(?P<body>.+)$`. -/
def spacedBody (text : Text) : Option Text :=
  if text.takeWhile isSpace = [] then none else bodyOf (text.dropWhile isSpace)

/-- `_MARKDOWN_HEADING_RE`: the number of hashes and the body. -/
def matchMarkdownHeading (text : Text) : Option (ℕ × Text) :=
  let hashes := text.takeWhile (· == '#')
  if 1 ≤ hashes.length ∧ hashes.length ≤ 6 then
    (spacedBody (text.drop hashes.length)).map fun body => (hashes.length, body)
  else none

/-- `q(?:uestion)?|a(?:nswer)?`: the letter, and the text behind the label. -/
def qaLabelOf (text : Text) : Option (Char × Text) :=
  match text with
  | [] => none
  | c :: rest =>
    if sameLetter 'q' c then some ('Q', (afterLiteral sameLetter "uestion".toList rest).getD rest)
    else if sameLetter 'a' c then some ('A', (afterLiteral sameLetter "nswer".toList rest).getD rest)
    else none

/-- `_QA_RE`: the first letter of the label in upper case, and the body. -/
def matchQa (text : Text) : Option (Char × Text) := do
  let (label, rest) ← qaLabelOf text
  match rest.dropWhile isSpace with
  | c :: rest =>
    if c = ':' ∨ c = '.' ∨ c = '-' then
      (bodyOf (rest.dropWhile isSpace)).map fun body => (label, body)
    else none
  | [] => none

/-- `(?:\.\d+){0,n}`: the text behind it. -/
def afterDotted (lu : LineUnicode) : ℕ → Text → Text
  | n + 1, '.' :: c :: rest =>
    if lu.isDecimal c then afterDotted lu n (rest.dropWhile lu.isDecimal) else '.' :: c :: rest
  | _, text => text

/-- `\d+(?:\.\d+){0,4}|[A-Z]|[IVXLC]+`: the texts behind it, in the order of the
    alternatives. -/
def afterNumber (lu : LineUnicode) (text : Text) : List Text :=
  match text with
  | [] => []
  | c :: rest =>
    if lu.isDecimal c then [afterDotted lu 4 (rest.dropWhile lu.isDecimal)]
    else if isLetter c then
      if isRoman c then [rest, rest.dropWhile isRoman] else [rest]
    else []

/-- `[\).:]?\s+(?P<body>.+)$`. -/
def punctuatedBody (text : Text) : Option Text :=
  match text with
  | c :: rest => if c = ')' ∨ c = '.' ∨ c = ':' then spacedBody rest else spacedBody text
  | [] => none

/-- `section\s+`: the text behind it. -/
def afterSection (text : Text) : Option Text :=
  match afterLiteral sameLetter "section".toList text with
  | some rest => if rest.takeWhile isSpace = [] then none else some (rest.dropWhile isSpace)
  | none => none

/-- `_NUMBERED_HEADING_RE`: the prefix and the body. -/
def matchNumberedHeading (lu : LineUnicode) (text : Text) : Option (Text × Text) :=
  let starts := (afterSection text).toList ++ [text]
  (starts.flatMap (afterNumber lu)).findSome? fun rest =>
    (punctuatedBody rest).map fun body =>
      ((text.take (text.length - body.length)).rdropWhile isSpace, body)

/-- The markers of `_LIST_ITEM_RE`: the text behind one. -/
def afterMarker (lu : LineUnicode) (text : Text) : Option Text :=
  match text with
  | [] => none
  | c :: rest =>
    if ['-', '*', '+', '•', '◦', '▪'].contains c then some rest
    else
      let behind :=
        if lu.isDecimal c then some (rest.dropWhile lu.isDecimal)
        else if c.isAlpha then some rest
        else none
      match behind with
      | some (d :: rest) => if d = '.' ∨ d = ')' then some rest else none
      | _ => none

/-- `_LIST_ITEM_RE`: the marker and the body. -/
def matchListItem (lu : LineUnicode) (text : Text) : Option (Text × Text) := do
  let rest ← afterMarker lu text
  let body ← spacedBody rest
  return (text.take (text.length - rest.length), body)

/-! ## Tables and headings -/

/-- `[cell.strip() for cell in … if cell.strip()]`, if there are two. -/
def cellsAt (m : Matcher Char) (text : Text) : List Text :=
  let cells := stripParts (splitAtMatches m text)
  if 2 ≤ cells.length then cells else []

/-- `_split_table_cells` (lines 238–251); a stripped text has the gap `\S\s{3,}\S` if it has
    three blanks in a row. -/
def splitTableCells (text : Text) : List Text :=
  if '|' ∈ text then cellsAt pipeAt text
  else if '\t' ∈ text then cellsAt (runAt (· == '\t') 1) text
  else if 0 < countMatches (runAt isSpace 3) (stripText text) then cellsAt (runAt isSpace 3) text
  else []

/-- `text.rstrip(":")`. -/
def rstripColons (text : Text) : Text := text.rdropWhile (· == ':')

/-- `[A-Za-z0-9/&()' -]`. -/
def isHeadingChar (c : Char) : Bool :=
  c.isAlphanum || ['/', '&', '(', ')', '\'', ' ', '-'].contains c

/-- `_looks_like_heading_body` (lines 212–224). -/
def looksLikeHeadingBody (lu : LineUnicode) (text : Text) : Bool :=
  let body := rstripColons (stripText text)
  if body = [] ∨ 12 < (splitWords body).length then false
  else if 120 < body.length then false
  else if ['.', '?', '!', ';'].any fun c => body.getLast? = some c then false
  else if lu.isUpperText body then true
  else if body = lu.title body then true
  else
    match body with
    | c :: rest => c.isUpper && 2 ≤ rest.length && rest.all isHeadingChar
    | [] => false

/-- `looks_like_heading` (lines 38–63). -/
def looksLikeHeading (lu : LineUnicode) (text : Text) : Bool :=
  let stripped := stripText text
  if stripped = [] then false
  else if (matchMarkdownHeading stripped).isSome then true
  else if (matchQa stripped).isSome then false
  else
    match matchListItem lu stripped with
    | some (_, body) => looksLikeHeadingBody lu body
    | none =>
      if (matchNumberedHeading lu stripped).any fun m => looksLikeHeadingBody lu m.2 then true
      else if 140 < stripped.length then false
      else if lu.isUpperText stripped && (splitWords stripped).length ≤ 10 then true
      else if stripped.getLast? = some ':' ∧ (splitWords stripped).length ≤ 12 then true
      else stripped = lu.title stripped && (splitWords stripped).length ≤ 12

/-- The matches of `literal`, for `str.replace`. -/
def literalAt (literal : Text) : Matcher Char := fun _ l =>
  if literal.isPrefixOf l then literal.length else 0

/-- `_infer_numbered_heading_level` (lines 227–235). -/
def inferNumberedHeadingLevel (lu : LineUnicode) (numbering : Text) : ℕ :=
  let cleaned := stripText (replaceMatches (literalAt "section".toList) [] (lu.lower numbering))
  let digits := countMatches (runAt lu.isDecimal 1) cleaned
  if 0 < digits then min digits 6
  else if '.' ∈ cleaned then min (cleaned.count '.' + 1) 6
  else 1

/-- `classify_line` (lines 151–209). -/
def classifyLine (lu : LineUnicode) (text : Text) : Option StructuredLine :=
  let stripped := stripText text
  if stripped = [] then none
  else
    match matchMarkdownHeading stripped with
    | some (hashes, body) =>
      some { kind := .heading, text := stripText body,
             metadata := { headingLevel := some hashes, headingSource := some "markdown" } }
    | none =>
    match matchQa stripped with
    | some (label, body) =>
      some { kind := .qaPair, text := label :: ':' :: ' ' :: stripText body,
             metadata := { qaLabel := some [label], structureSource := some "faq_marker" } }
    | none =>
    match (matchNumberedHeading lu stripped).filter fun m => looksLikeHeadingBody lu m.2 with
    | some (numbering, _) =>
      some { kind := .heading, text := rstripColons stripped,
             metadata := { headingLevel := some (inferNumberedHeadingLevel lu (stripText numbering)),
                           headingSource := some "numbered" } }
    | none =>
    match matchListItem lu stripped with
    | some (marker, body) =>
      some { kind := .listItem, text := marker ++ ' ' :: stripText body,
             metadata := { listMarker := some marker, structureSource := some "list_marker" } }
    | none =>
      let tableCells := splitTableCells stripped
      if 2 ≤ tableCells.length then
        some { kind := .tableRow, text := join " | ".toList tableCells,
               metadata := { columnCount := some tableCells.length,
                             structureSource := some "table_delimiter" } }
      else if looksLikeHeading lu stripped then
        some { kind := .heading, text := rstripColons stripped,
               metadata := { headingLevel := some 1, headingSource := some "heuristic" } }
      else none

end RagStack.Worker
