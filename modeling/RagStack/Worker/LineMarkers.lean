import RagStack.Worker.LineGrammar

/-!
# Lettered lines

`classify_line` of `app/services/parsers/base.py` for lines `x. body` with a letter `x`.
The letters `a` and `q` are labels of answers and questions as well as markers of a list,
and the expression for the labels is tried first.

* `classifyLine_of_body`, `classifyLine_of_no_body`: what a lettered line is.
* `classifiedAlike_iff`: two letters of one case are classified alike, if and only if
  both or neither of them is a label, or the line has no body that the expressions match.
-/

namespace RagStack.Worker

open RagStack.Common

/-! ## Lines -/

/-- The letters of `[a-zA-Z]` of one case. -/
def SameCase (x y : Char) : Prop :=
  (x.isUpper = true ∧ y.isUpper = true) ∨ (x.isLower = true ∧ y.isLower = true)

/-- `x. body`. -/
def letteredLine (x : Char) (body : Text) : Text := x :: '.' :: ' ' :: body

/-- A label of `_QA_RE` of one letter. -/
def isLabel (x : Char) : Bool := sameLetter 'q' x || sameLetter 'a' x

/-- The texts are the same but for the marker letter that they begin with, in both as it
    stands or in both in upper case. -/
def SameButMarker (x y : Char) (text text' : Text) : Prop :=
  ∃ rest, (text = x :: rest ∧ text' = y :: rest) ∨
    (text = x.toUpper :: rest ∧ text' = y.toUpper :: rest)

/-- The lines `x. body` and `y. body` are of one kind, and the texts of two list items or of
    two parts of a question and an answer differ in the letter only. -/
structure ClassifiedAlike (lu : LineUnicode) (x y : Char) (body : Text) : Prop where
  kind : (classifyLine lu (letteredLine x body)).map StructuredLine.kind =
    (classifyLine lu (letteredLine y body)).map StructuredLine.kind
  text : ∀ line line', classifyLine lu (letteredLine x body) = some line →
    classifyLine lu (letteredLine y body) = some line' →
    line.kind = .listItem ∨ line.kind = .qaPair → SameButMarker x y line.text line'.text

/-- What the classifier relies on for ASCII letters: no letter is a digit; `str.isupper` sees
    only the case of the first letter; `str.title` writes a letter in front of a full stop in
    upper case, whatever it does behind the full stop. -/
structure LetterLaws (lu : LineUnicode) : Prop where
  decimal : ∀ x, x.isAlpha = true → lu.isDecimal x = false
  upper : ∀ x y rest, x.isUpper = true → y.isUpper = true →
    lu.isUpperText (x :: rest) = lu.isUpperText (y :: rest)
  lower : ∀ x rest, x.isLower = true → lu.isUpperText (x :: rest) = false
  title : ∀ rest, ∃ tail, ∀ x, x.isAlpha = true →
    lu.title (x :: '.' :: rest) = x.toUpper :: '.' :: tail

/-! ## Letters -/

/-- What the expressions see of a letter, its label and its case apart. -/
structure IsMarker (x : Char) : Prop where
  alpha : x.isAlpha = true
  space : isSpace x = false
  hash : x ≠ '#'
  pipe : x ≠ '|'
  tab : x ≠ '\t'
  bullet : ['-', '*', '+', '•', '◦', '▪'].contains x = false

theorem not_isLower_of_isUpper {x : Char} (h : x.isUpper = true) : ¬ x.isLower = true := by
  intro hlower
  delta Char.isUpper at h
  delta Char.isLower at hlower
  simp [UInt32.le_iff_toNat_le] at h hlower
  omega

/-- Only small letters are changed. -/
theorem eq_toUpper_iff {x : Char} : x = x.toUpper ↔ ¬ x.isLower = true := by
  delta Char.toUpper Char.isLower
  simp only [Bool.and_eq_true, decide_eq_true_eq, ge_iff_le]
  split_ifs with hsmall
  · refine iff_of_false (fun heq => ?_) (not_not.mpr hsmall)
    have hval := congrArg Char.val heq
    simp at hval
  · exact iff_of_true rfl hsmall

/-- A letter in upper case by what it is in lower case. -/
theorem toUpper_of_toLower_eq {x small large : Char} (h : x.toLower = small)
    (hcode : large.toNat + 32 = small.toNat) (hsmall : small.toUpper = large)
    (hlarge : large.toUpper = large) : x.toUpper = large := by
  unfold Char.toLower at h
  split_ifs at h with hrange
  · have hhigh : x.toNat ≤ 90 := UInt32.le_iff_toNat_le.mp hrange.2
    have hsum : small.toNat = (x.toNat + 32) % 2 ^ 32 := by
      rw [← h]
      rfl
    have hx : x = large := Char.toNat_inj.mp (by omega)
    rw [hx, hlarge]
  · rw [h, hsmall]

theorem toNat_of_isAlpha {x : Char} (h : x.isAlpha = true) :
    (65 ≤ x.toNat ∧ x.toNat ≤ 90) ∨ (97 ≤ x.toNat ∧ x.toNat ≤ 122) := by
  delta Char.isAlpha Char.isUpper Char.isLower at h
  simp only [Bool.or_eq_true, Bool.and_eq_true, decide_eq_true_eq, ge_iff_le,
    UInt32.le_iff_toNat_le] at h
  exact h

theorem isMarker_of_isAlpha {x : Char} (h : x.isAlpha = true) : IsMarker x := by
  have hrange := toNat_of_isAlpha h
  have hne (c : Char) (hc : c.toNat < 65 ∨ 122 < c.toNat) : x ≠ c := by
    rintro rfl
    omega
  refine ⟨h, ?_, hne _ (by decide), hne _ (by decide), hne _ (by decide), ?_⟩
  · by_contra hspace
    simp only [isSpace, Bool.not_eq_false, Bool.or_eq_true, Bool.and_eq_true, decide_eq_true_eq,
      beq_iff_eq] at hspace
    omega
  · have hcode (c : Char) (hc : c.toNat < 65 ∨ 122 < c.toNat) : (x == c) = false :=
      beq_eq_false_iff_ne.mpr (hne c hc)
    simp only [List.contains_cons, List.contains_nil, hcode '-' (by decide), hcode '*' (by decide),
      hcode '+' (by decide), hcode '•' (by decide), hcode '◦' (by decide), hcode '▪' (by decide),
      Bool.or_false]

theorem SameCase.alpha {x y : Char} (h : SameCase x y) :
    x.isAlpha = true ∧ y.isAlpha = true := by
  delta Char.isAlpha
  rcases h with ⟨hx, hy⟩ | ⟨hx, hy⟩
  · rw [hx, hy]
    exact ⟨rfl, rfl⟩
  · rw [hx, hy, Bool.or_true, Bool.or_true]
    exact ⟨rfl, rfl⟩

/-- The laws hold of ASCII text. -/
theorem letterLaws_ascii : LetterLaws LineUnicode.ascii where
  decimal x hx := by
    have hrange := toNat_of_isAlpha hx
    show x.isDigit = false
    rw [Bool.eq_false_iff]
    intro hdigit
    delta Char.isDigit at hdigit
    simp only [Bool.and_eq_true, decide_eq_true_eq, ge_iff_le, UInt32.le_iff_toNat_le] at hdigit
    have hcode : 48 ≤ x.toNat ∧ x.toNat ≤ 57 := hdigit
    omega
  upper x y rest hx hy := by
    simp [LineUnicode.ascii, hx, hy, not_isLower_of_isUpper hx, not_isLower_of_isUpper hy]
  lower x rest hx := by
    simp [LineUnicode.ascii, hx]
  title rest := by
    have hfold (x : Char) (f : Text × Bool → Char → Text × Bool)
        (hf : ∀ s c, f (x.toUpper :: '.' :: s.1, s.2) c =
          (x.toUpper :: '.' :: (f s c).1, (f s c).2)) :
        (rest.foldl f ([x.toUpper, '.'], false)).1 =
          x.toUpper :: '.' :: (rest.foldl f ([], false)).1 :=
      congrArg Prod.fst (@List.foldl_hom _ _ _
        (fun s : Text × Bool => (x.toUpper :: '.' :: s.1, s.2)) f f rest ([], false) hf)
    refine ⟨LineUnicode.ascii.title rest, fun x hx => ?_⟩
    have hdot : '.'.isAlpha = false := rfl
    simp only [LineUnicode.ascii, List.foldl_cons, hx, hdot, if_true, Bool.false_eq_true, if_false,
      List.nil_append, List.singleton_append]
    exact hfold x _ fun s c => by split_ifs <;> rfl

/-! ## The matches -/

section Matches

variable {lu : LineUnicode} {x : Char} {rest : Text}

theorem matchMarkdownHeading_lettered (hx : IsMarker x) :
    matchMarkdownHeading (x :: rest) = none := by
  have hnone : (x :: rest).takeWhile (· == '#') = [] :=
    List.takeWhile_cons_of_neg (by simpa using hx.hash)
  rw [matchMarkdownHeading, hnone]
  rfl

/-- The label and the full stop are read as the beginning of a question or an answer. -/
theorem matchQa_lettered (rest : Text) : matchQa (x :: '.' :: rest) =
    if isLabel x then
      (bodyOf (rest.dropWhile isSpace)).map fun body =>
        (if sameLetter 'q' x then 'Q' else 'A', body)
    else none := by
  have hquestion : afterLiteral sameLetter "uestion".toList ('.' :: rest) = none := rfl
  have hanswer : afterLiteral sameLetter "nswer".toList ('.' :: rest) = none := rfl
  have hdot : ('.' :: rest).dropWhile isSpace = '.' :: rest :=
    List.dropWhile_cons_of_neg (by decide)
  rw [matchQa, qaLabelOf, hquestion, hanswer, isLabel]
  cases hq : sameLetter 'q' x with
  | true => simp [hdot]
  | false =>
    cases ha : sameLetter 'a' x with
    | true => simp [hdot]
    | false => simp

/-- A letter is the number of a heading, and the only one that the line begins with. -/
theorem matchNumberedHeading_lettered (laws : LetterLaws lu) (hx : IsMarker x) (rest : Text) :
    (matchNumberedHeading lu (x :: '.' :: rest)).map Prod.snd = spacedBody rest := by
  have hsection : afterSection (x :: '.' :: rest) = none := by
    have hliteral : afterLiteral sameLetter "section".toList (x :: '.' :: rest) = none := by
      show (if sameLetter 's' x then none else none) = none
      rw [ite_self]
    rw [afterSection, hliteral]
  have hroman : ('.' :: rest).dropWhile isRoman = '.' :: rest :=
    List.dropWhile_cons_of_neg (by decide)
  have hletter : isLetter x = true := by
    simp [isLetter, hx.alpha]
  have hbody : punctuatedBody ('.' :: rest) = spacedBody rest := rfl
  have hnumber : afterNumber lu (x :: '.' :: rest) =
      if isRoman x then ['.' :: rest, '.' :: rest] else ['.' :: rest] := by
    simp only [afterNumber, laws.decimal x hx.alpha, hletter, hroman, if_true, Bool.false_eq_true,
      if_false]
  rw [matchNumberedHeading, hsection]
  simp only [Option.toList_none, List.nil_append, List.flatMap_singleton, hnumber]
  split_ifs
  · simp only [List.findSome?_cons, List.findSome?_nil, hbody]
    cases spacedBody rest <;> rfl
  · simp only [List.findSome?_cons, List.findSome?_nil, hbody]
    cases spacedBody rest <;> rfl

theorem matchListItem_lettered (laws : LetterLaws lu) (hx : IsMarker x) (rest : Text) :
    matchListItem lu (x :: '.' :: rest) = (spacedBody rest).map fun body => ([x, '.'], body) := by
  have hmarker : afterMarker lu (x :: '.' :: rest) = some rest := by
    simp only [afterMarker, hx.bullet, laws.decimal x hx.alpha, hx.alpha, Bool.false_eq_true,
      if_false, if_true, true_or]
  have htake : (x :: '.' :: rest).take ((x :: '.' :: rest).length - rest.length) = [x, '.'] := by
    have hlength : (x :: '.' :: rest).length - rest.length = 2 := by
      simp only [List.length_cons]
      omega
    rw [hlength]
    rfl
  rw [matchListItem, hmarker]
  simp only [Option.bind_eq_bind, Option.bind_some, htake]
  cases spacedBody rest <;> rfl

end Matches

/-! ## Lines with a body -/

/-- What `(?P<body>.+)$` matches: something on one line. -/
def HasBody (body : Text) : Prop := stripText body ≠ [] ∧ '\n' ∉ stripText body

/-- Lettered lines are stripped alike: of the body its end is cut off. -/
theorem exists_stripText_letteredLine (body : Text) :
    ∃ rest, (∀ x, isSpace x = false → stripText (letteredLine x body) = x :: '.' :: rest) ∧
      rest.dropWhile isSpace = stripText body ∧
      (rest.takeWhile isSpace = [] → stripText body = []) := by
  obtain ⟨pre, post, hbody, hpre, hpost⟩ := strip_spec isSpace body
  have hhead := head?_strip isSpace body
  have hlast := getLast?_strip isSpace body
  unfold stripText
  generalize strip isSpace body = core at *
  subst hbody
  have hblank : isSpace ' ' = true := rfl
  by_cases hcore : core = []
  · -- nothing but blanks behind the full stop
    subst hcore
    refine ⟨[], fun x hx => ?_, rfl, fun _ => rfl⟩
    have hafter : ∀ c ∈ ' ' :: (pre ++ [] ++ post), isSpace c = true := by
      simpa [hblank] using fun c hc => hc.elim (hpre c) (hpost c)
    have hstrip : strip isSpace (letteredLine x (pre ++ [] ++ post)) = strip isSpace [x, '.'] :=
      strip_append_seps isSpace (List.forall_mem_nil _) hafter [x, '.']
    rw [hstrip]
    exact strip_eq_self isSpace (by simpa using hx) fun c hc => by cases hc; rfl
  · refine ⟨' ' :: (pre ++ core), fun x hx => ?_, ?_, fun h => ?_⟩
    · have hstrip : strip isSpace (letteredLine x (pre ++ core ++ post)) =
          strip isSpace (x :: '.' :: ' ' :: (pre ++ core)) :=
        strip_append_seps isSpace (List.forall_mem_nil _) hpost (x :: '.' :: ' ' :: (pre ++ core))
      have hend : (x :: '.' :: ' ' :: (pre ++ core)).getLast? = core.getLast? :=
        List.getLast?_append_of_ne_nil (x :: '.' :: ' ' :: pre) hcore
      rw [hstrip]
      exact strip_eq_self isSpace (by simpa using hx) (by rwa [hend])
    · have hseps : ∀ c ∈ ' ' :: pre, isSpace c = true := List.forall_mem_cons.mpr ⟨hblank, hpre⟩
      exact (dropWhile_seps_append isSpace hseps core).trans (dropWhile_eq_self isSpace hhead)
    · rw [List.takeWhile_cons_of_pos hblank] at h
      cases h

theorem spacedBody_of_stripped {body rest : Text} (hdrop : rest.dropWhile isSpace = stripText body)
    (htake : rest.takeWhile isSpace = [] → stripText body = []) :
    spacedBody rest = bodyOf (stripText body) := by
  rw [spacedBody, hdrop]
  split_ifs with h
  · rw [bodyOf, if_pos (Or.inl (htake h))]
  · rfl

section Classify

variable {lu : LineUnicode} {x y : Char} {body : Text}

/-- The line that `x. body` is read as: a label is read first, then the body decides. -/
structure ReadAs (lu : LineUnicode) (x : Char) (body : Text) (line : StructuredLine) : Prop where
  qa : isLabel x = true → line.kind = .qaPair ∧
    line.text = (if sameLetter 'q' x then 'Q' else 'A') :: ':' :: ' ' :: stripText body
  heading : isLabel x = false → looksLikeHeadingBody lu (stripText body) = true →
    line.kind = .heading
  item : isLabel x = false → looksLikeHeadingBody lu (stripText body) = false →
    line.kind = .listItem ∧ line.text = x :: '.' :: ' ' :: stripText body

theorem classifyLine_of_body (laws : LetterLaws lu) (hx : IsMarker x) (hbody : HasBody body) :
    ∃ line, classifyLine lu (letteredLine x body) = some line ∧ ReadAs lu x body line := by
  obtain ⟨rest, hstrip, hdrop, htake⟩ := exists_stripText_letteredLine body
  have hsome : bodyOf (stripText body) = some (stripText body) := by
    rw [bodyOf, if_neg (by rw [not_or]; exact hbody)]
  have hspaced := (spacedBody_of_stripped hdrop htake).trans hsome
  have hqa := matchQa_lettered (x := x) rest
  rw [hdrop, hsome] at hqa
  have hnumbered := matchNumberedHeading_lettered laws hx rest
  have hitem := matchListItem_lettered laws hx rest
  rw [hspaced] at hnumbered hitem
  obtain ⟨⟨numbering, -⟩, hmatch, rfl⟩ := Option.map_eq_some_iff.mp hnumbered
  have htwice : stripText (stripText body) = stripText body := strip_strip isSpace body
  rw [classifyLine, hstrip x hx.space]
  simp only [matchMarkdownHeading_lettered hx, hqa, hmatch, hitem]
  cases hlabel : isLabel x with
  | true => exact ⟨_, rfl, fun _ => ⟨rfl, by rw [htwice]⟩, by simp [hlabel], by simp [hlabel]⟩
  | false =>
    cases hheading : looksLikeHeadingBody lu (stripText body) with
    | true =>
      simp only [Option.filter_some, hheading, if_true]
      exact ⟨_, rfl, by simp [hlabel], fun _ _ => rfl, by simp [hheading]⟩
    | false =>
      simp only [Option.filter_some, hheading, Bool.false_eq_true, if_false]
      exact ⟨_, rfl, by simp [hlabel], by simp [hheading], fun _ _ => ⟨rfl, by rw [htwice]; rfl⟩⟩

theorem ReadAs.kind_eq_qaPair_iff {line : StructuredLine} (h : ReadAs lu x body line) :
    line.kind = .qaPair ↔ isLabel x = true := by
  refine ⟨fun hkind => ?_, fun hlabel => (h.qa hlabel).1⟩
  by_contra hlabel
  rw [Bool.not_eq_true] at hlabel
  cases hheading : looksLikeHeadingBody lu (stripText body) with
  | true => simp [h.heading hlabel hheading] at hkind
  | false => simp [(h.item hlabel hheading).1] at hkind

end Classify

/-! ## Lines without a body -/

/-- What is not a separator stays when the ends are cut off. -/
theorem stripText_cons_ne_nil {c : Char} (hc : isSpace c = false) (text : Text) :
    stripText (c :: text) ≠ [] := by
  have hword : strip isSpace [c] <:+: strip isSpace (c :: text) :=
    strip_infix_strip isSpace ⟨[], text, rfl⟩
  rw [strip_eq_self isSpace (by simpa using hc) (by simpa using hc)] at hword
  intro hnil
  rw [stripText] at hnil
  rw [hnil] at hword
  exact absurd (List.infix_nil.mp hword) (List.cons_ne_nil c [])

section Cells

variable {x y : Char} {rest : Text}

theorem noLookbehind_pipeAt : pipeAt.NoLookbehind := fun _ _ _ => rfl

theorem noLookbehind_runAt (p : Char → Bool) (n : ℕ) : (runAt p n).NoLookbehind := fun _ _ _ => rfl

theorem pipeAt_marker (hx : IsMarker x) : pipeAt none (x :: rest) = 0 := by
  have hrun : (x :: rest).takeWhile isSpace = [] :=
    List.takeWhile_cons_of_neg (by simp [hx.space])
  simp only [pipeAt, hrun, List.length_nil, List.drop_zero]
  split
  · next heq =>
    cases heq
    exact absurd rfl hx.pipe
  · rfl

theorem runAt_marker {p : Char → Bool} {n : ℕ} (hn : 0 < n) (hx : p x = false) :
    runAt p n none (x :: rest) = 0 := by
  have hrun : (x :: rest).takeWhile p = [] := List.takeWhile_cons_of_neg (by simp [hx])
  rw [runAt, hrun]
  exact if_neg (by simpa using hn.ne')

/-- The marker is in the first cell, which is not empty with it. -/
theorem length_cellsAt {m : Matcher Char} (hm : m.NoLookbehind) (hx : isSpace x = false)
    (hy : isSpace y = false) (hmx : m none (x :: rest) = 0) (hmy : m none (y :: rest) = 0) :
    (cellsAt m (x :: rest)).length = (cellsAt m (y :: rest)).length := by
  obtain ⟨part, parts, hsplit⟩ := splitAtMatches_cons hm rest
  have hcells {c : Char} (hc : isSpace c = false) :
      stripParts ((c :: part) :: parts) = stripText (c :: part) :: stripParts parts := by
    rw [stripParts, List.map_cons,
      List.filter_cons_of_pos (by simpa using stripText_cons_ne_nil hc part)]
    rfl
  rw [cellsAt, cellsAt, hsplit x hmx, hsplit y hmy, hcells hx, hcells hy]
  simp only [List.length_cons]
  split_ifs <;> rfl

/-- How many cells there are does not depend on the marker. -/
theorem length_splitTableCells (hx : IsMarker x) (hy : IsMarker y)
    (hsx : stripText (x :: rest) = x :: rest) (hsy : stripText (y :: rest) = y :: rest) :
    (splitTableCells (x :: rest)).length = (splitTableCells (y :: rest)).length := by
  have htab {c : Char} (hc : IsMarker c) : (c == '\t') = false := beq_eq_false_iff_ne.mpr hc.tab
  have hpipes {c : Char} (hc : IsMarker c) : '|' ∈ c :: rest ↔ '|' ∈ rest := by
    rw [List.mem_cons, or_iff_right (Ne.symm hc.pipe)]
  have htabs {c : Char} (hc : IsMarker c) : '\t' ∈ c :: rest ↔ '\t' ∈ rest := by
    rw [List.mem_cons, or_iff_right (Ne.symm hc.tab)]
  have hgaps {c : Char} (hc : IsMarker c) :
      countMatches (runAt isSpace 3) (c :: rest) = countMatches (runAt isSpace 3) rest :=
    countMatches_cons (noLookbehind_runAt isSpace 3) (runAt_marker (by decide) hc.space)
  simp only [splitTableCells, hsx, hsy, hpipes hx, hpipes hy, htabs hx, htabs hy, hgaps hx,
    hgaps hy]
  split_ifs
  · exact length_cellsAt noLookbehind_pipeAt hx.space hy.space (pipeAt_marker hx) (pipeAt_marker hy)
  · exact length_cellsAt (noLookbehind_runAt _ 1) hx.space hy.space
      (runAt_marker one_pos (htab hx)) (runAt_marker one_pos (htab hy))
  · exact length_cellsAt (noLookbehind_runAt _ 3) hx.space hy.space
      (runAt_marker (by decide) hx.space) (runAt_marker (by decide) hy.space)
  · rfl

end Cells

section Unclassified

variable {lu : LineUnicode} {x y : Char} {rest : Text}

/-- No expression matches a lettered line without a body. -/
theorem matches_of_no_body (laws : LetterLaws lu) (hx : IsMarker x)
    (hbody : bodyOf (rest.dropWhile isSpace) = none) :
    matchQa (x :: '.' :: rest) = none ∧ matchNumberedHeading lu (x :: '.' :: rest) = none ∧
      matchListItem lu (x :: '.' :: rest) = none := by
  have hspaced : spacedBody rest = none := by
    rw [spacedBody, hbody, ite_self]
  refine ⟨?_, ?_, ?_⟩
  · rw [matchQa_lettered, hbody]
    exact ite_self none
  · have hnumbered := matchNumberedHeading_lettered laws hx rest
    rw [hspaced] at hnumbered
    exact Option.map_eq_none_iff.mp hnumbered
  · rw [matchListItem_lettered laws hx, hspaced]
    rfl

/-- `str.title` changes a marker alone, and only its case. -/
theorem title_lettered_iff (laws : LetterLaws lu) (h : SameCase x y) :
    x :: '.' :: rest = lu.title (x :: '.' :: rest) ↔
      y :: '.' :: rest = lu.title (y :: '.' :: rest) := by
  obtain ⟨tail, htitle⟩ := laws.title rest
  rw [htitle x h.alpha.1, htitle y h.alpha.2]
  have hcase : x.isLower = true ↔ y.isLower = true := by
    rcases h with ⟨hx, hy⟩ | ⟨hx, hy⟩
    · exact iff_of_false (not_isLower_of_isUpper hx) (not_isLower_of_isUpper hy)
    · exact iff_of_true hx hy
  simp only [List.cons.injEq, true_and, eq_toUpper_iff, hcase]

theorem looksLikeHeading_lettered (laws : LetterLaws lu) (h : SameCase x y)
    (hsx : stripText (x :: '.' :: rest) = x :: '.' :: rest)
    (hsy : stripText (y :: '.' :: rest) = y :: '.' :: rest)
    (hbody : bodyOf (rest.dropWhile isSpace) = none) :
    looksLikeHeading lu (x :: '.' :: rest) = looksLikeHeading lu (y :: '.' :: rest) := by
  have hx := isMarker_of_isAlpha h.alpha.1
  have hy := isMarker_of_isAlpha h.alpha.2
  obtain ⟨hqx, hnx, hlx⟩ := matches_of_no_body laws hx hbody
  obtain ⟨hqy, hny, hly⟩ := matches_of_no_body laws hy hbody
  have hupper : lu.isUpperText (x :: '.' :: rest) = lu.isUpperText (y :: '.' :: rest) := by
    rcases h with ⟨hx, hy⟩ | ⟨hx, hy⟩
    · exact laws.upper x y _ hx hy
    · rw [laws.lower x _ hx, laws.lower y _ hy]
  have hwords : (splitWords (x :: '.' :: rest)).length = (splitWords (y :: '.' :: rest)).length :=
    length_words_cons hx.space hy.space _
  have htitle : x :: '.' :: rest = lu.title (x :: '.' :: rest) ↔
      y :: '.' :: rest = lu.title (y :: '.' :: rest) := title_lettered_iff laws h
  simp only [looksLikeHeading, hsx, hsy, matchMarkdownHeading_lettered hx,
    matchMarkdownHeading_lettered hy, hqx, hqy, hnx, hny, hlx, hly, hupper, hwords,
    List.length_cons, List.getLast?_cons_cons, reduceCtorEq, if_false, Option.isSome_none,
    Bool.false_eq_true, Option.any_none, htitle]

/-- Without a body a lettered line is a row of a table or a heading, if anything. -/
theorem classifyLine_of_no_body (laws : LetterLaws lu) (hx : IsMarker x)
    (hsx : stripText (x :: '.' :: rest) = x :: '.' :: rest)
    (hbody : bodyOf (rest.dropWhile isSpace) = none) :
    (classifyLine lu (x :: '.' :: rest)).map StructuredLine.kind =
      if 2 ≤ (splitTableCells (x :: '.' :: rest)).length then some .tableRow
      else if looksLikeHeading lu (x :: '.' :: rest) then some .heading
      else none := by
  obtain ⟨hqa, hnumbered, hitem⟩ := matches_of_no_body laws hx hbody
  simp only [classifyLine, hsx, matchMarkdownHeading_lettered hx, hqa, hnumbered, hitem,
    reduceCtorEq, if_false, Option.filter_none]
  split_ifs <;> rfl

end Unclassified

/-! ## Two letters -/

section TwoLetters

variable {lu : LineUnicode} {x y : Char} {body : Text}

/-- Stripped first, a line is classified as before. -/
theorem classifyLine_stripText (text : Text) :
    classifyLine lu (stripText text) = classifyLine lu text := by
  have htwice : stripText (stripText text) = stripText text := strip_strip isSpace text
  rw [classifyLine, classifyLine, htwice]

theorem classifiedAlike_of_no_body (laws : LetterLaws lu) (h : SameCase x y)
    (hbody : ¬ HasBody body) : ClassifiedAlike lu x y body := by
  have hx := isMarker_of_isAlpha h.alpha.1
  have hy := isMarker_of_isAlpha h.alpha.2
  obtain ⟨rest, hstrip, hdrop, -⟩ := exists_stripText_letteredLine body
  have hnone : bodyOf (rest.dropWhile isSpace) = none := by
    rw [hdrop, bodyOf, if_pos (by rwa [HasBody, not_and_or, not_not, not_not] at hbody)]
  have hself {c : Char} (hc : IsMarker c) : stripText (c :: '.' :: rest) = c :: '.' :: rest := by
    rw [← hstrip c hc.space]
    exact strip_strip isSpace _
  have hline {c : Char} (hc : IsMarker c) :
      classifyLine lu (letteredLine c body) = classifyLine lu (c :: '.' :: rest) := by
    rw [← classifyLine_stripText, hstrip c hc.space]
  have hkind := classifyLine_of_no_body laws hx (hself hx) hnone
  refine ⟨?_, fun line line' hsome _ hmarked => ?_⟩
  · rw [hline hx, hline hy, hkind, classifyLine_of_no_body laws hy (hself hy) hnone,
      length_splitTableCells hx hy (hself hx) (hself hy),
      looksLikeHeading_lettered laws h (hself hx) (hself hy) hnone]
  · -- neither a list item nor a part of a question and an answer
    rw [← hline hx, hsome, Option.map_some] at hkind
    have hplain : line.kind = .tableRow ∨ line.kind = .heading := by
      split_ifs at hkind
      · exact Or.inl (Option.some.inj hkind)
      · exact Or.inr (Option.some.inj hkind)
    rcases hplain with heq | heq
    · simp [heq] at hmarked
    · simp [heq] at hmarked

/-- The label that is written for a letter is that letter in upper case. -/
theorem label_eq_toUpper (hx : isLabel x = true) :
    (if sameLetter 'q' x then 'Q' else 'A') = x.toUpper := by
  rw [isLabel, Bool.or_eq_true] at hx
  split_ifs with hq
  · have hlower : x.toLower = 'q' := by simpa [sameLetter] using hq
    exact (toUpper_of_toLower_eq hlower rfl rfl rfl).symm
  · have hlower : x.toLower = 'a' := by simpa [sameLetter] using hx.resolve_left hq
    exact (toUpper_of_toLower_eq hlower rfl rfl rfl).symm

/-- Two lines that are read as something are compared as what they are read as. -/
theorem classifiedAlike_of_lines {line line' : StructuredLine}
    (hsome : classifyLine lu (letteredLine x body) = some line)
    (hsome' : classifyLine lu (letteredLine y body) = some line') (hkind : line.kind = line'.kind)
    (htext : line.kind = .listItem ∨ line.kind = .qaPair →
      SameButMarker x y line.text line'.text) : ClassifiedAlike lu x y body := by
  refine ⟨by rw [hsome, hsome', Option.map_some, Option.map_some, hkind], ?_⟩
  intro found found' hfound hfound' hmarked
  obtain rfl := Option.some.inj (hsome.symm.trans hfound)
  obtain rfl := Option.some.inj (hsome'.symm.trans hfound')
  exact htext hmarked

theorem classifiedAlike_of_body (laws : LetterLaws lu) (h : SameCase x y) (hbody : HasBody body) :
    ClassifiedAlike lu x y body ↔ isLabel x = isLabel y := by
  obtain ⟨line, hsome, hline⟩ :=
    classifyLine_of_body laws (isMarker_of_isAlpha h.alpha.1) hbody
  obtain ⟨line', hsome', hline'⟩ :=
    classifyLine_of_body laws (isMarker_of_isAlpha h.alpha.2) hbody
  constructor
  · intro halike
    have hkind : line.kind = line'.kind := by
      have hkinds := halike.kind
      rw [hsome, hsome'] at hkinds
      exact Option.some.inj hkinds
    rw [Bool.eq_iff_iff, ← hline.kind_eq_qaPair_iff, ← hline'.kind_eq_qaPair_iff, hkind]
  · intro hlabels
    cases hx : isLabel x with
    | true =>
      have hy : isLabel y = true := hlabels.symm.trans hx
      obtain ⟨hkind, htext⟩ := hline.qa hx
      obtain ⟨hkind', htext'⟩ := hline'.qa hy
      exact classifiedAlike_of_lines hsome hsome' (hkind.trans hkind'.symm) fun _ =>
        ⟨_, Or.inr ⟨by rw [htext, label_eq_toUpper hx], by rw [htext', label_eq_toUpper hy]⟩⟩
    | false =>
      have hy : isLabel y = false := hlabels.symm.trans hx
      cases hheading : looksLikeHeadingBody lu (stripText body) with
      | true =>
        have hkind := hline.heading hx hheading
        refine classifiedAlike_of_lines hsome hsome'
          (hkind.trans (hline'.heading hy hheading).symm) fun hmarked => ?_
        simp [hkind] at hmarked
      | false =>
        obtain ⟨hkind, htext⟩ := hline.item hx hheading
        obtain ⟨hkind', htext'⟩ := hline'.item hy hheading
        exact classifiedAlike_of_lines hsome hsome' (hkind.trans hkind'.symm) fun _ =>
          ⟨_, Or.inl ⟨htext, htext'⟩⟩

/-- Lettered lines are classified independently of the letter, if and only if both letters or
    neither is a label, or there is no body. -/
theorem classifiedAlike_iff (laws : LetterLaws lu) (h : SameCase x y) (body : Text) :
    ClassifiedAlike lu x y body ↔ isLabel x = isLabel y ∨ ¬ HasBody body := by
  by_cases hbody : HasBody body
  · rw [classifiedAlike_of_body laws h hbody]
    exact (or_iff_left (not_not.mpr hbody)).symm
  · exact iff_of_true (classifiedAlike_of_no_body laws h hbody) (Or.inr hbody)

theorem classifiedAlike_install :
    ClassifiedAlike LineUnicode.ascii 'b' 'c' "install it".toList ∧
      ¬ ClassifiedAlike LineUnicode.ascii 'a' 'b' "install it".toList := by
  constructor
  · exact (classifiedAlike_iff letterLaws_ascii (Or.inr ⟨rfl, rfl⟩) _).mpr (Or.inl rfl)
  · rw [classifiedAlike_iff letterLaws_ascii (Or.inr ⟨rfl, rfl⟩)]
    rw [HasBody]
    decide +kernel

/-- A label is no marker: of two items of one list the first is read as an answer. -/
theorem not_classifiedAlike :
    ¬ ∀ lu : LineUnicode, LetterLaws lu → ∀ x y : Char, SameCase x y →
      ∀ body, ClassifiedAlike lu x y body := by
  intro hall
  have hkind := (hall LineUnicode.ascii letterLaws_ascii 'a' 'b' (Or.inr ⟨rfl, rfl⟩)
    "install it".toList).kind
  revert hkind
  decide +kernel

end TwoLetters

end RagStack.Worker
