import RagStack.Common.Scan

/-!
# Text as the worker sees it

A Python `str` is a list of code points. The predicates below are those of the
`str` methods and of the `re` module for `str` patterns; the two agree on
whitespace (`\s` is `str.isspace`). What depends on the Unicode character
database (normal forms, categories, case) is a parameter, `UnicodeData`.
-/

namespace RagStack.Worker

open RagStack.Common

/-- A Python string. -/
abbrev Text := List Char

/-- `str.isspace` of one character, and `\s` in a regular expression. -/
def isSpace (c : Char) : Bool :=
  let n := c.toNat
  (9 ≤ n && n ≤ 13) || (28 ≤ n && n ≤ 32) || n == 0x85 || n == 0xA0 || n == 0x1680 ||
    (0x2000 ≤ n && n ≤ 0x200A) || n == 0x2028 || n == 0x2029 || n == 0x202F || n == 0x205F ||
    n == 0x3000

/-- The line boundaries of `str.splitlines`, apart from the pair `\r\n`. -/
def isLineBreak (c : Char) : Bool :=
  let n := c.toNat
  (10 ≤ n && n ≤ 13) || (28 ≤ n && n ≤ 30) || n == 0x85 || n == 0x2028 || n == 0x2029

/-- `text.split()`. -/
def splitWords (text : Text) : List Text := words isSpace text

/-- `text.strip()`. -/
def stripText (text : Text) : Text := strip isSpace text

/-- A newline at a position, for `splitNewlines`. -/
def newlineAt : Matcher Char := fun _ l =>
  match l with
  | '\n' :: _ => 1
  | _ => 0

/-- `text.split("\n")`. -/
def splitNewlines (text : Text) : List Text := splitAtMatches newlineAt text

/-- The line break that starts at a position, for `splitLines`. -/
def lineBreakAt : Matcher Char := fun _ l =>
  match l with
  | '\r' :: '\n' :: _ => 2
  | c :: _ => if isLineBreak c then 1 else 0
  | [] => 0

/-- `text.splitlines()`: no empty last line. -/
def splitLines (text : Text) : List Text :=
  let parts := splitAtMatches lineBreakAt text
  if parts.getLast? = some [] then parts.dropLast else parts

/-- `[part.strip() for part in parts if part.strip()]`. -/
def stripParts (parts : List Text) : List Text :=
  (parts.map stripText).filter fun part => part ≠ []

/-- The parts of the Unicode character database and of `str` that the worker
    uses and that are not spelled out here: `unicodedata.normalize("NFKC", ·)`,
    `unicodedata.category(·)[0] == "C"`, `str.isalnum` of one character and
    `str.lower`. -/
structure UnicodeData where
  nfkc : Text → Text
  isOther : Char → Bool
  isAlnum : Char → Bool
  lower : Text → Text

/-- The data for ASCII text. -/
def UnicodeData.ascii : UnicodeData where
  nfkc := id
  isOther c := c.toNat < 32 || c.toNat == 127
  isAlnum := Char.isAlphanum
  lower := List.map Char.toLower

/-- `\w` in a regular expression. -/
def UnicodeData.isWord (ud : UnicodeData) (c : Char) : Bool := ud.isAlnum c || c == '_'

/-! ## Words of split text -/

theorem isSpace_of_isLineBreak {c : Char} (h : isLineBreak c = true) : isSpace c = true := by
  simp only [isLineBreak, isSpace, Bool.or_eq_true, Bool.and_eq_true, decide_eq_true_eq,
    beq_iff_eq] at h ⊢
  omega

theorem splitWords_stripText (text : Text) : splitWords (stripText text) = splitWords text :=
  words_strip isSpace text

theorem lineBreakAt_within : lineBreakAt.Within isSpace := by
  intro prev l c hc
  unfold lineBreakAt at hc
  split at hc
  · rcases (by simpa using hc : c = '\r' ∨ c = '\n') with rfl | rfl <;> decide
  · rename_i d _ _
    split_ifs at hc with hb
    · rw [show c = d by simpa using hc]
      exact isSpace_of_isLineBreak hb
    · simp at hc
  · simp at hc

/-- Stripping the parts and dropping the empty ones keeps the words. -/
theorem flatMap_splitWords_stripParts (parts : List Text) :
    (stripParts parts).flatMap splitWords = parts.flatMap splitWords := by
  induction parts with
  | nil => rfl
  | cons p parts ih =>
    have hcons : stripParts (p :: parts) =
        if stripText p = [] then stripParts parts else stripText p :: stripParts parts := by
      by_cases h : stripText p = [] <;> simp [stripParts, h]
    rw [hcons, List.flatMap_cons]
    split_ifs with h
    · rw [ih, ← splitWords_stripText p, h]
      rfl
    · rw [List.flatMap_cons, ih, splitWords_stripText]

theorem flatMap_splitWords_splitNewlines (text : Text) :
    (splitNewlines text).flatMap splitWords = splitWords text := by
  apply words_splitAtMatches
  intro prev l c hc
  unfold newlineAt at hc
  split at hc
  · rw [show c = '\n' by simpa using hc]
    decide
  · simp at hc

theorem flatMap_splitWords_splitLines (text : Text) :
    (splitLines text).flatMap splitWords = splitWords text := by
  have h := words_splitAtMatches lineBreakAt_within text
  unfold splitLines
  simp only
  split_ifs with hl
  · rw [show splitWords text = words isSpace text from rfl, ← h]
    conv_rhs => rw [← List.dropLast_append_getLast? [] hl]
    rw [List.flatMap_append, List.flatMap_singleton, words_nil, List.append_nil]
    rfl
  · exact h

end RagStack.Worker
