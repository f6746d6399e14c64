import RagStack.Api.Numbers
import RagStack.Chat.ScoringUtils

/-!
# Snippets

`buildSnippet` of `services/api/src/chat/citation-assembler.service.ts` with the
functions it calls. Positions in a text are counted in UTF-16 units, as in the
source. A position inside a code point is taken for the one before it; both ends
of an excerpt are moved to the next blank anyway.

* `trimExcerpt_spec`: an excerpt is a part of the text, with dots where something
  is left out.
-/

namespace RagStack.Chat

open RagStack.Common RagStack.Api
open RagStack.Worker (Text)

def MAX_CITATION_SNIPPET_LENGTH : ℕ := 280

/-! ## Positions -/

/-- The UTF-16 units of a character. -/
def charUnits (c : Char) : ℕ := if 0x10000 ≤ c.toNat then 2 else 1

/-- The characters of the text before a position. -/
def unitsBefore : ℕ → Text → Text
  | _, [] => []
  | position, c :: rest =>
    if charUnits c ≤ position then c :: unitsBefore (position - charUnits c) rest else []

/-- `text.slice(start, end)`. -/
def sliceUnits (text : Text) (start stop : ℕ) : Text :=
  (unitsBefore stop text).drop (unitsBefore start text).length

/-- `text.indexOf(term)`; `none` is -1. -/
def indexOf (term : Text) : Text → Option ℕ
  | [] => if term = [] then some 0 else none
  | c :: rest =>
    if term <+: c :: rest then some 0 else (indexOf term rest).map fun k => charUnits c + k

/-! ## Windows -/

/-- `TextWindow` (lines 33–37). -/
structure TextWindow where
  text : Text
  start : ℕ
  stop : ℕ
deriving DecidableEq, Repr

/-- The length of the match of `/[^.!?\n]+(?:[.!?]+|$)/` at a position. -/
def sentenceLength (text : Text) : ℕ :=
  let body := text.takeWhile fun c => !".!?\n".toList.contains c
  let rest := text.drop body.length
  let marks := rest.takeWhile ".!?".toList.contains
  if body ≠ [] ∧ (marks ≠ [] ∨ rest = []) then body.length + marks.length else 0

/-- The loop over `sentencePattern.exec(text)`; `skip` is what is left of a match. -/
def sentencesGo (position skip : ℕ) : Text → List TextWindow
  | [] => []
  | c :: rest =>
    match skip with
    | k + 1 => sentencesGo (position + charUnits c) k rest
    | 0 =>
      match sentenceLength (c :: rest) with
      | 0 => sentencesGo (position + charUnits c) 0 rest
      | k + 1 =>
        let raw := (c :: rest).take (k + 1)
        let trimmed := trim raw
        let start := position + utf16Length (raw.takeWhile isSpace)
        (if trimmed = [] then []
          else [{ text := trimmed, start := start, stop := start + utf16Length trimmed }]) ++
          sentencesGo (position + charUnits c) k rest

/-- Two neighbouring sentences together, if they are not too long. -/
def combineSentences (text : Text) (first second : TextWindow) : Option TextWindow :=
  let combined := trim (sliceUnits text first.start second.stop)
  if combined = [] ∨ 3 * MAX_CITATION_SNIPPET_LENGTH < 2 * utf16Length combined then none
  else some { text := combined, start := first.start, stop := second.stop }

/-- `buildCandidateWindows` (lines 354–390). -/
def buildCandidateWindows (text : Text) : List TextWindow :=
  let sentences := sentencesGo 0 0 text
  if sentences = [] then [{ text := text, start := 0, stop := utf16Length text }]
  else
    sentences ++ (sentences.zip sentences.tail).filterMap fun pair =>
      combineSentences text pair.1 pair.2

/-- `compareWindows` (lines 392–400); windows of a text with the same start and
    length have the same text. -/
def compareWindows (left right : TextWindow) : Ordering :=
  (compare left.start right.start).then (compare (utf16Length left.text) (utf16Length right.text))

/-- `findBestAnchorIndex` (lines 402–421). -/
def findBestAnchorIndex (uni : EcmaUnicode) (text : Text)
    (answerTokens queryTokens queryPhrases : List Text) : ℕ :=
  let lower := uni.toLowerCase text
  let anchorCandidates := (queryPhrases ++ answerTokens ++ queryTokens).filterMap fun term =>
    indexOf (uni.toLowerCase term) lower
  anchorCandidates.min?.getD 0

/-! ## Excerpts -/

/-- `trimExcerpt` (lines 423–441) with `alignStartToWord` and `alignEndToWord`
    (lines 443–465): `before` and `after` are what the excerpt leaves out. -/
def trimExcerpt (text : Text) (start stop : ℕ) : Option Text :=
  let boundedStart := min start (utf16Length text)
  let boundedEnd := max boundedStart (min stop (utf16Length text))
  let before := (unitsBefore boundedStart text).rdropWhile fun c => !isSpace c
  let after := (text.drop (unitsBefore boundedEnd text).length).dropWhile fun c => !isSpace c
  let core := trim ((text.take (text.length - after.length)).drop before.length)
  if core = [] then none
  else some ((if before = [] then [] else "... ".toList) ++ core ++
    if after = [] then [] else " ...".toList)

/-- An excerpt is a part of the text that is not empty, between the dots. -/
theorem trimExcerpt_spec {text snippet : Text} {start stop : ℕ}
    (h : trimExcerpt text start stop = some snippet) :
    ∃ before core after, snippet = before ++ core ++ after ∧ core ≠ [] ∧ core <:+: text ∧
      (before = [] ∨ before = "... ".toList) ∧ (after = [] ∨ after = " ...".toList) := by
  unfold trimExcerpt at h
  simp only at h
  split_ifs at h with hcore hbefore hafter hafter
  all_goals
    cases h
    refine ⟨_, _, _, rfl, hcore, ?_, by simp, by simp⟩
    refine (isInfix_strip isSpace _).trans ((List.drop_suffix _ _).isInfix.trans ?_)
    exact (List.take_prefix _ _).isInfix

/-- The best window so far and its score. -/
structure BestWindow where
  window : Option TextWindow := none
  score : ℚ := -1

/-- The score of a window (lines 169–173): products and sums of doubles, from the left. -/
def windowScore (uni : EcmaUnicode) (answerTokens queryTokens queryPhrases : List Text)
    (window : TextWindow) : ℚ :=
  let answerCoverage := double (computeTokenCoverage uni (some window.text) answerTokens)
  let queryCoverage := double (computeTokenCoverage uni (some window.text) queryTokens)
  let phraseCoverage := double (computePhraseCoverage uni (some window.text) queryPhrases)
  double (double (double (double (5 / 10) * answerCoverage) +
    double (double (3 / 10) * queryCoverage)) + double (double (2 / 10) * phraseCoverage))

/-- One window of the loop in `buildSnippet`. -/
def chooseWindow (uni : EcmaUnicode) (answerTokens queryTokens queryPhrases : List Text)
    (best : BestWindow) (window : TextWindow) : BestWindow :=
  let score := windowScore uni answerTokens queryTokens queryPhrases window
  if best.score < score ∨
      score = best.score ∧ best.window.any (fun found => compareWindows window found = .lt)
  then { window := some window, score := score }
  else best

/-- `buildSnippet` (lines 150–222). -/
def buildSnippet (uni : EcmaUnicode) (content normalizedQuery answerText : Text) : Option Text :=
  let text := normalizeWhitespace uni content
  if text = [] then none
  else
    let answerTokens := extractMatchingTerms uni answerText
    let queryTokens := extractMatchingTerms uni normalizedQuery
    let queryPhrases := extractQuotedPhrases uni normalizedQuery
    let best := (buildCandidateWindows text).foldl
      (chooseWindow uni answerTokens queryTokens queryPhrases) {}
    match best.window with
    | none => trimExcerpt text 0 (min (utf16Length text) MAX_CITATION_SNIPPET_LENGTH)
    | some bestWindow =>
      if best.score ≤ 0 then
        trimExcerpt text 0 (min (utf16Length text) MAX_CITATION_SNIPPET_LENGTH)
      else if utf16Length bestWindow.text ≤ MAX_CITATION_SNIPPET_LENGTH then
        trimExcerpt text bestWindow.start bestWindow.stop
      else
        let anchorStart := bestWindow.start +
          findBestAnchorIndex uni bestWindow.text answerTokens queryTokens queryPhrases
        let excerptStart := max bestWindow.start (anchorStart - MAX_CITATION_SNIPPET_LENGTH / 3)
        let excerptEnd := min bestWindow.stop (excerptStart + MAX_CITATION_SNIPPET_LENGTH)
        trimExcerpt text excerptStart excerptEnd

end RagStack.Chat
