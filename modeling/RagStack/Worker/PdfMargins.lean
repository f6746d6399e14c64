import RagStack.Common.Margins
import RagStack.Common.Tally
import RagStack.Worker.LineGrammar

/-!
# Repeated page margins of a PDF

`app/services/parsers/pdf_parser.py`, lines 77–121: the keys that recur at the ends
of most pages, and the lines with such a key that are taken off a page.

* `mem_detectRepeatedMarginKeys_iff`: the keys are those that enough pages have
  among their first two and last two lines.
* `stripRepeatedMargins_iff`: only margins are taken off a page if and only if it has
  at most four lines, or the repeated keys do not reach a third line.
-/

namespace RagStack.Worker

open RagStack.Common

/-- `not line.strip()`. -/
def isBlankLine (line : Text) : Bool := stripText line = []

/-- `_normalize_margin_candidate` (lines 113–121): runs of digits become `#`, and lines that
    are short, long or of numbers only have no key. -/
def normalizeMarginCandidate (lu : LineUnicode) (line : Text) : Text :=
  let candidate := replaceMatches (runAt lu.isDecimal 1) ['#'] (lu.lower (stripText line))
  let candidate := replaceMatches (runAt isSpace 1) [' '] candidate
  if candidate.length < 4 ∨ 120 < candidate.length then []
  else if candidate.count '#' = (candidate.filter fun c => c ≠ ' ').length then []
  else candidate

/-- `nonempty[:2] + nonempty[-2:]` for the stripped lines of a page. -/
def marginCandidates (lines : List Text) : List Text :=
  let nonempty := stripParts lines
  nonempty.take 2 ++ nonempty.drop (nonempty.length - 2)

/-- The body of the loop over the candidates, on `(counts, seen_for_page)` (lines 89–92). -/
def countCandidate (lu : LineUnicode) (s : List (Text × ℕ) × List Text) (candidate : Text) :
    List (Text × ℕ) × List Text :=
  let key := normalizeMarginCandidate lu candidate
  if key ≠ [] && !s.2.contains key then
    (updateEntry key (fun count => count.getD 0 + 1) s.1, s.2 ++ [key])
  else s

/-- The body of the loop over the pages (lines 83–92). -/
def countPage (lu : LineUnicode) (counts : List (Text × ℕ)) (lines : List Text) :
    List (Text × ℕ) :=
  ((marginCandidates lines).foldl (countCandidate lu) (counts, [])).1

/-- `max(2, math.ceil(len(pages) * 0.7))`; the float is off by less than a tenth, and never
    above a whole number. -/
def marginThreshold (pages : ℕ) : ℕ := max 2 ((7 * pages + 9) / 10)

/-- `_detect_repeated_margin_keys` (lines 77–93). -/
def detectRepeatedMarginKeys (lu : LineUnicode) (pages : List (List Text)) : List Text :=
  if pages.length < 2 then []
  else
    ((pages.foldl (countPage lu) []).filter fun entry =>
      marginThreshold pages.length ≤ entry.2).map Prod.fst

/-- `_strip_repeated_margin_lines` (lines 95–111): the lines that are left, and the number of
    margin lines that were removed. A loop that pops while a test holds of the end is
    `dropWhile` or `rdropWhile`. -/
def stripRepeatedMarginLines (lu : LineUnicode) (lines : List Text) (repeatedKeys : List Text) :
    List Text × ℕ :=
  if repeatedKeys = [] then (lines, 0)
  else
    let isMargin (line : Text) : Bool :=
      !isBlankLine line && repeatedKeys.contains (normalizeMarginCandidate lu line)
    let trimmed := (lines.dropWhile isBlankLine).rdropWhile isBlankLine
    let withoutTop := trimmed.dropWhile isMargin
    let withoutBottom := withoutTop.rdropWhile isMargin
    (withoutBottom,
      (trimmed.length - withoutTop.length) + (withoutTop.length - withoutBottom.length))

/-! ## The repeated keys -/

/-- The keys of the candidates of a page. -/
def marginKeys (lu : LineUnicode) (lines : List Text) : List Text :=
  (marginCandidates lines).map (normalizeMarginCandidate lu)

/-- The number of pages that have the key among those of their candidates. -/
def pagesWithKey (lu : LineUnicode) (pages : List (List Text)) (key : Text) : ℕ :=
  pages.countP fun lines => (marginKeys lu lines).contains key

variable {lu : LineUnicode}

theorem countCandidate_eq (s : List (Text × ℕ) × List Text) (candidate : Text) :
    countCandidate lu s candidate =
      if normalizeMarginCandidate lu candidate ≠ [] ∧ normalizeMarginCandidate lu candidate ∉ s.2
      then (updateEntry (normalizeMarginCandidate lu candidate) (fun count => count.getD 0 + 1) s.1,
        s.2 ++ [normalizeMarginCandidate lu candidate])
      else s := by
  simp [countCandidate]

theorem lookup_countCandidates (key : Text) (candidates : List Text) :
    ∀ s : List (Text × ℕ) × List Text,
      ((candidates.foldl (countCandidate lu) s).1.lookup key).getD 0 =
        (s.1.lookup key).getD 0 +
          if key ≠ [] ∧ key ∉ s.2 ∧ key ∈ candidates.map (normalizeMarginCandidate lu) then 1
          else 0 := by
  induction candidates with
  | nil => intro s; simp
  | cons candidate candidates ih =>
    intro s
    rw [List.foldl_cons, ih, countCandidate_eq]
    by_cases hnew : normalizeMarginCandidate lu candidate ≠ [] ∧
        normalizeMarginCandidate lu candidate ∉ s.2
    · simp only [if_pos hnew]
      by_cases hkey : key = normalizeMarginCandidate lu candidate
      · subst hkey
        rw [lookup_updateEntry_self]
        simp [hnew]
      · rw [lookup_updateEntry_of_ne hkey]
        simp [hkey]
    · simp only [if_neg hnew]
      congr 1
      by_cases hkey : key = normalizeMarginCandidate lu candidate
      · subst hkey
        have hnot (h : normalizeMarginCandidate lu candidate ≠ []) :
            normalizeMarginCandidate lu candidate ∈ s.2 := by
          by_contra hmem
          exact hnew ⟨h, hmem⟩
        rw [if_neg fun h => h.2.1 (hnot h.1), if_neg fun h => h.2.1 (hnot h.1)]
      · simp [hkey]

variable (lu) in
/-- Each page counts a key once. -/
theorem lookup_countPages {key : Text} (hkey : key ≠ []) (pages : List (List Text)) :
    ∀ counts : List (Text × ℕ), ((pages.foldl (countPage lu) counts).lookup key).getD 0 =
      (counts.lookup key).getD 0 + pagesWithKey lu pages key := by
  induction pages with
  | nil => intro counts; rfl
  | cons lines pages ih =>
    intro counts
    rw [List.foldl_cons, ih, countPage, lookup_countCandidates]
    by_cases hmem : key ∈ marginKeys lu lines
    · have hpage : pagesWithKey lu (lines :: pages) key = pagesWithKey lu pages key + 1 := by
        simp [pagesWithKey, hmem]
      rw [if_pos ⟨hkey, List.not_mem_nil, hmem⟩, hpage]
      exact Nat.add_right_comm _ _ _
    · have hpage : pagesWithKey lu (lines :: pages) key = pagesWithKey lu pages key := by
        simp [pagesWithKey, hmem]
      rw [if_neg fun h => hmem h.2.2, hpage]
      rfl

variable (lu) in
theorem lookup_nil_countPages (pages : List (List Text)) :
    ∀ counts : List (Text × ℕ), ((pages.foldl (countPage lu) counts).lookup []).getD 0 =
      (counts.lookup []).getD 0 := by
  induction pages with
  | nil => intro counts; rfl
  | cons lines pages ih =>
    intro counts
    rw [List.foldl_cons, ih, countPage, lookup_countCandidates]
    simp

theorem nodup_countPages (pages : List (List Text)) :
    ∀ {counts : List (Text × ℕ)}, (counts.map Prod.fst).Nodup →
      ((pages.foldl (countPage lu) counts).map Prod.fst).Nodup := by
  have hcandidates (candidates : List Text) : ∀ {s : List (Text × ℕ) × List Text},
      (s.1.map Prod.fst).Nodup →
        ((candidates.foldl (countCandidate lu) s).1.map Prod.fst).Nodup := by
    induction candidates with
    | nil => intro s h; exact h
    | cons candidate candidates ih =>
      intro s h
      apply ih
      unfold countCandidate
      simp only
      split_ifs
      · exact nodup_updateEntry h
      · exact h
  induction pages with
  | nil => intro counts h; exact h
  | cons lines pages ih =>
    intro counts h
    exact ih (hcandidates (marginCandidates lines) h)

/-- The keys are those that enough pages have among the keys of their candidates. -/
theorem mem_detectRepeatedMarginKeys_iff {pages : List (List Text)} {key : Text} :
    key ∈ detectRepeatedMarginKeys lu pages ↔ 2 ≤ pages.length ∧ key ≠ [] ∧
      marginThreshold pages.length ≤ pagesWithKey lu pages key := by
  unfold detectRepeatedMarginKeys
  split_ifs with hfew
  · simp
    omega
  · have hnodup : ((pages.foldl (countPage lu) []).map Prod.fst).Nodup :=
      nodup_countPages pages List.nodup_nil
    have htwo : 2 ≤ marginThreshold pages.length := Nat.le_max_left _ _
    simp only [List.mem_map, List.mem_filter, decide_eq_true_eq, Prod.exists, exists_and_right,
      exists_eq_right]
    constructor
    · rintro ⟨count, hmem, hcount⟩
      have hlookup := (mem_iff_lookup hnodup).mp hmem
      have hne : key ≠ [] := by
        rintro rfl
        have hzero := lookup_nil_countPages lu pages []
        simp [hlookup] at hzero
        omega
      have hpages := lookup_countPages lu hne pages []
      simp [hlookup] at hpages
      exact ⟨by omega, hne, by omega⟩
    · rintro ⟨-, hne, hcount⟩
      have hpages := lookup_countPages lu hne pages []
      simp only [List.lookup_nil, Option.getD_none, Nat.zero_add] at hpages
      cases hlookup : (pages.foldl (countPage lu) []).lookup key with
      | none => simp [hlookup] at hpages; omega
      | some count =>
        simp [hlookup] at hpages
        exact ⟨count, (mem_iff_lookup hnodup).mpr hlookup, by omega⟩

/-! ## What is taken off a page -/

/-- A line whose key recurs at the ends of enough pages. -/
def RepeatedMargin (lu : LineUnicode) (pages : List (List Text)) (line : Text) : Prop :=
  isBlankLine line = false ∧ 2 ≤ pages.length ∧ normalizeMarginCandidate lu line ≠ [] ∧
    marginThreshold pages.length ≤ pagesWithKey lu pages (normalizeMarginCandidate lu line)

/-- The page without the blank lines at its ends. -/
def withoutBlankEnds (lines : List Text) : List Text :=
  (lines.dropWhile isBlankLine).rdropWhile isBlankLine

/-- Stripping a page takes off nothing but blank lines at its ends and some of its first two
    and last two other lines if and only if it has at most four lines that are not blank, or
    neither its first three lines nor its last three are all repeated margins. -/
theorem stripRepeatedMargins_iff (lu : LineUnicode) (pages : List (List Text))
    (page : List Text) :
    OnlyMargins isBlankLine 2 page
        (stripRepeatedMarginLines lu page (detectRepeatedMarginKeys lu pages)).1 ↔
      (page.filter fun line => !isBlankLine line).length ≤ 4 ∨
        (∃ line ∈ (withoutBlankEnds page).take 3, ¬ RepeatedMargin lu pages line) ∧
          ∃ line ∈ (withoutBlankEnds page).drop ((withoutBlankEnds page).length - 3),
            ¬ RepeatedMargin lu pages line := by
  let isMargin (line : Text) : Bool := !isBlankLine line &&
    (detectRepeatedMarginKeys lu pages).contains (normalizeMarginCandidate lu line)
  have hmargin (line : Text) : isMargin line = false ↔ ¬ RepeatedMargin lu pages line := by
    rw [← Bool.not_eq_true, not_iff_not]
    simp [isMargin, RepeatedMargin, mem_detectRepeatedMarginKeys_iff]
  have hcount : (page.filter fun line => !isBlankLine line).length = lineCount isBlankLine page :=
    List.countP_eq_length_filter.symm
  rw [hcount]
  simp only [← hmargin]
  by_cases hnil : detectRepeatedMarginKeys lu pages = []
  · -- without repeated keys the page stays as it is
    have hnone (line : Text) : isMargin line = false := by simp [isMargin, hnil]
    rw [stripRepeatedMarginLines, if_pos hnil]
    refine iff_of_true (onlyMargins_self isBlankLine 2 page) ?_
    rcases Nat.lt_or_ge 4 (lineCount isBlankLine page) with hmany | hfew
    · right
      have hlong : 0 < (withoutBlankEnds page).length :=
        List.length_pos_of_ne_nil (strip_ne_nil_of_lineCount (by omega))
      obtain ⟨top, htop⟩ : ∃ line, line ∈ (withoutBlankEnds page).take 3 :=
        List.exists_mem_of_length_pos (by rw [List.length_take]; omega)
      obtain ⟨bottom, hbottom⟩ : ∃ line,
          line ∈ (withoutBlankEnds page).drop ((withoutBlankEnds page).length - 3) :=
        List.exists_mem_of_length_pos (by rw [List.length_drop]; omega)
      exact ⟨⟨top, htop, hnone top⟩, bottom, hbottom, hnone bottom⟩
    · exact Or.inl hfew
  · have hstrip : (stripRepeatedMarginLines lu page (detectRepeatedMarginKeys lu pages)).1 =
        trimMargins isBlankLine isMargin page := by
      rw [stripRepeatedMarginLines, if_neg hnil]
      rfl
    rw [hstrip]
    exact onlyMargins_trim_iff (k := 2) (fun line h => by simpa using (Bool.and_eq_true_iff.mp h).1)
      page

/-- A page of numbered steps, which share a key. -/
def stepsPage : List Text :=
  ["Step 1 stop the worker".toList, "Step 2 stop the worker".toList,
    "Step 3 stop the worker".toList, "Step 4 stop the worker".toList,
    "Step 5 stop the worker".toList]

/-- Two pages of five steps: no line of them is left. -/
theorem stripRepeatedMargins_steps :
    ¬ ∀ (lu : LineUnicode) (pages : List (List Text)), ∀ page ∈ pages,
      OnlyMargins isBlankLine 2 page
        (stripRepeatedMarginLines lu page (detectRepeatedMarginKeys lu pages)).1 := by
  intro hall
  obtain ⟨removed, hremoved, hout⟩ :=
    hall LineUnicode.ascii [stepsPage, stepsPage] stepsPage List.mem_cons_self
  have hstripped : (stripRepeatedMarginLines LineUnicode.ascii stepsPage
      (detectRepeatedMarginKeys LineUnicode.ascii [stepsPage, stepsPage])).1 = [] := by
    decide +kernel
  -- the third of the five lines has to stay
  have hstays : removed 2 = false := by
    by_contra hne
    have hmargin := hremoved 2 (by simpa using hne) "Step 3 stop the worker".toList rfl
    revert hmargin
    decide +kernel
  obtain ⟨m, -, line, -, hfirst⟩ := head?_removeAt (i := 0) (j := 2) stepsPage (by decide) hstays
  rw [← hout, hstripped] at hfirst
  cases hfirst

end RagStack.Worker
