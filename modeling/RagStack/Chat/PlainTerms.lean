import RagStack.Chat.QuotedPhrases
import RagStack.Common.Cores

/-!
# The terms of plain texts

`extractMatchingTerms` of `services/api/src/chat/retrieval-scoring.utils.ts` for texts
that NFKC leaves as they are and that are set in lower case character by character.

* `PlainLaws` — the Unicode tables on an alphabet of such characters.
* `IsPlain` — a text over the alphabet with normalized words.
* `mem_extractMatchingTerms_plain`: the terms of a plain text are made of the cores of
  its words.
* `mem_extractMatchingTerms_searchText`: so are those of the search text of a content.
-/

namespace RagStack.Chat

open RagStack.Common RagStack.Api
open RagStack.Worker (Text)

/-! ## Characters -/

/-- What `normalizeQuotedQuery` writes for a character. -/
def cleanQueryChar (uni : EcmaUnicode) (c : Char) : Char :=
  if isQueryChar uni (straightenQuote c) then straightenQuote c else ' '

/-- What separates the words of a text, before its normal form is made. -/
def isQueryBreak (uni : EcmaUnicode) (c : Char) : Bool := isTermBreak (cleanQueryChar uni c)

/-- What NFKC works on both sides of: blanks, quotes and dots. -/
def isStop (c : Char) : Bool := isTermBreak c || c == '.'

def isQueryStop (uni : EcmaUnicode) (c : Char) : Bool := isStop (cleanQueryChar uni c)

/-- The Unicode tables on the characters of an alphabet. Lower case maps them one by one,
    letters to letters, and changes nothing else. NFKC of any text stops at blanks, quotes
    and dots; it keeps the parts of a normalized text, and the lower case of its words. -/
structure PlainLaws (uni : EcmaUnicode) (plain : Char → Prop) (lowerChar : Char → Char) : Prop where
  plain_stop : ∀ c ∈ " \".".toList, plain c
  plain_lowerChar : ∀ c, plain c → plain (lowerChar c)
  toLowerCase_eq : ∀ text, (∀ c ∈ text, plain c) → uni.toLowerCase text = text.map lowerChar
  letter : ∀ c, plain c → uni.isLetter c = true → uni.isLetter (lowerChar c) = true
  other : ∀ c, plain c → uni.isLetter c = false → lowerChar c = c
  lower_lower : ∀ c, plain c → lowerChar (lowerChar c) = lowerChar c
  alnum : ∀ c, uni.isAlnum c = true → isSpace c = false ∧ c ∉ "\"'“”‘’.".toList
  nfkc_nil : uni.nfkc [] = []
  nfkc_stop : ∀ c ∈ " \".".toList, ∀ a b, uni.nfkc (a ++ c :: b) = uni.nfkc a ++ c :: uni.nfkc b
  nfkc_part : ∀ text part, uni.nfkc text = text → part <:+: text → uni.nfkc part = part
  nfkc_lower : ∀ word, (∀ c ∈ word, plain c ∧ isQueryChar uni c = true) → uni.nfkc word = word →
    uni.nfkc (word.map lowerChar) = word.map lowerChar

/-- A text over the alphabet, with no blanks but spaces, whose words are normalized. -/
structure IsPlain (uni : EcmaUnicode) (plain : Char → Prop) (text : Text) : Prop where
  plain : ∀ c ∈ text, plain c
  blank : ∀ c ∈ text, isSpace c = true → c = ' '
  stable : ∀ w ∈ words (isQueryStop uni) text, uni.nfkc w = w

section Plain

variable {uni : EcmaUnicode} {plain : Char → Prop} {lowerChar : Char → Char}

theorem isTermBreak_of_isSpace {c : Char} (h : isSpace c = true) : isTermBreak c = true :=
  Bool.or_eq_true_iff.mpr (Or.inl h)

theorem straightenQuote_of_not_mem {c : Char} (h : c ∉ "“”‘’".toList) : straightenQuote c = c := by
  have hne : c ≠ '“' ∧ c ≠ '”' ∧ c ≠ '‘' ∧ c ≠ '’' := by simpa using h
  simp [straightenQuote, hne]

theorem cleanQueryChar_of_isSpace {c : Char} (h : isSpace c = true) : cleanQueryChar uni c = c := by
  have hquotes : ∀ d ∈ "“”‘’".toList, isSpace d = false := forall_mem_of_all (by decide)
  have hself : straightenQuote c = c := straightenQuote_of_not_mem fun hmem => by
    rw [hquotes c hmem] at h
    cases h
  rw [cleanQueryChar, hself, if_pos (by simp [isQueryChar, h])]

theorem isQueryBreak_of_isSpace {c : Char} (h : isSpace c = true) : isQueryBreak uni c = true := by
  rw [isQueryBreak, cleanQueryChar_of_isSpace h, isTermBreak_of_isSpace h]

theorem isQueryStop_of_isSpace {c : Char} (h : isSpace c = true) : isQueryStop uni c = true :=
  Bool.or_eq_true_iff.mpr (Or.inl (isQueryBreak_of_isSpace h))

theorem isQueryStop_dot : isQueryStop uni '.' = true := by
  have hquery : isQueryChar uni '.' = true := by
    rw [isQueryChar, show "-_/.:\"".toList.contains '.' = true by decide, Bool.or_true]
  rw [isQueryStop, cleanQueryChar, show straightenQuote '.' = '.' by decide, if_pos hquery]
  rfl

section Laws

variable (laws : PlainLaws uni plain lowerChar)
include laws

theorem not_alnum_of_mem {c : Char} (h : isSpace c = true ∨ c ∈ "\"'“”‘’.".toList) :
    uni.isAlnum c = false := by
  by_contra halnum
  obtain ⟨hspace, hmem⟩ := laws.alnum c (by simpa using halnum)
  rcases h with h | h
  · rw [hspace] at h
    cases h
  · exact hmem h

/-- A character that is no break stays as it is, and the others become breaks. -/
theorem cleanQueryChar_cases (c : Char) :
    cleanQueryChar uni c = c ∧ isQueryChar uni c = true ∨
      cleanQueryChar uni c = ' ' ∨ cleanQueryChar uni c = '"' := by
  have happly : ∀ d, straightenQuote c = d → isQueryChar uni d = false →
      cleanQueryChar uni c = ' ' := by
    rintro _ rfl hquery
    rw [cleanQueryChar, if_neg (by simp [hquery])]
  by_cases hcurly : c ∈ "“”‘’".toList
  · right
    have hquotes : ∀ d ∈ "“”‘’".toList, straightenQuote d = '"' ∨ straightenQuote d = '\'' :=
      forall_mem_of_all (by decide)
    rcases hquotes c hcurly with hdouble | hsingle
    · rw [cleanQueryChar, hdouble]
      split_ifs
      · exact Or.inr rfl
      · exact Or.inl rfl
    · have halnum : uni.isAlnum '\'' = false := not_alnum_of_mem laws (Or.inr (by decide))
      refine Or.inl (happly '\'' hsingle ?_)
      rw [isQueryChar, halnum]
      decide
  · have hself : straightenQuote c = c := straightenQuote_of_not_mem hcurly
    cases hquery : isQueryChar uni c with
    | true => exact Or.inl ⟨by rw [cleanQueryChar, hself, if_pos hquery], rfl⟩
    | false => exact Or.inr (Or.inl (happly c hself hquery))

theorem cleanQueryChar_of_not_break {c : Char} (h : isQueryBreak uni c = false) :
    cleanQueryChar uni c = c ∧ isQueryChar uni c = true := by
  rcases cleanQueryChar_cases laws c with hself | hblank | hquote
  · exact hself
  · rw [isQueryBreak, hblank] at h
    cases h
  · rw [isQueryBreak, hquote] at h
    cases h

theorem cleanQueryChar_of_not_stop {c : Char} (h : isQueryStop uni c = false) :
    cleanQueryChar uni c = c ∧ isQueryChar uni c = true :=
  cleanQueryChar_of_not_break laws (Bool.or_eq_false_iff.mp h).1

theorem not_break_of_alnum {c : Char} (h : uni.isAlnum c = true) : isTermBreak c = false := by
  obtain ⟨hspace, hmem⟩ := laws.alnum c h
  have hquote : c ≠ '"' := by
    rintro rfl
    exact hmem (by decide)
  simp [isTermBreak, hspace, hquote]

theorem not_stop_of_alnum {c : Char} (h : uni.isAlnum c = true) : isQueryStop uni c = false := by
  have hmem := (laws.alnum c h).2
  have hcurly : c ∉ "“”‘’".toList := fun hc =>
    hmem ((by decide : "“”‘’".toList ⊆ "\"'“”‘’.".toList) hc)
  have hdot : c ≠ '.' := by
    rintro rfl
    exact hmem (by decide)
  have hclean : cleanQueryChar uni c = c := by
    rw [cleanQueryChar, straightenQuote_of_not_mem hcurly, if_pos (by simp [isQueryChar, h])]
  rw [isQueryStop, isStop, hclean, not_break_of_alnum laws h]
  simp [hdot]

/-- Lower case changes nothing but letters and numbers, into such. -/
theorem lowerChar_cases {c : Char} (hc : plain c) :
    lowerChar c = c ∨ uni.isAlnum c = true ∧ uni.isAlnum (lowerChar c) = true := by
  cases hletter : uni.isLetter c with
  | true =>
    right
    exact ⟨Bool.or_eq_true_iff.mpr (Or.inl hletter),
      Bool.or_eq_true_iff.mpr (Or.inl (laws.letter c hc hletter))⟩
  | false => exact Or.inl (laws.other c hc hletter)

theorem isTermBreak_lowerChar {c : Char} (hc : plain c) :
    isTermBreak (lowerChar c) = isTermBreak c := by
  rcases lowerChar_cases laws hc with hself | ⟨hbefore, hafter⟩
  · rw [hself]
  · rw [not_break_of_alnum laws hbefore, not_break_of_alnum laws hafter]

theorem isQueryStop_lowerChar {c : Char} (hc : plain c) :
    isQueryStop uni (lowerChar c) = isQueryStop uni c := by
  rcases lowerChar_cases laws hc with hself | ⟨hbefore, hafter⟩
  · rw [hself]
  · rw [not_stop_of_alnum laws hbefore, not_stop_of_alnum laws hafter]

theorem isQueryBreak_lowerChar {c : Char} (hc : plain c) :
    isQueryBreak uni (lowerChar c) = isQueryBreak uni c := by
  rcases lowerChar_cases laws hc with hself | ⟨hbefore, hafter⟩
  · rw [hself]
  · have hleft := (Bool.or_eq_false_iff.mp (not_stop_of_alnum laws hbefore)).1
    have hright := (Bool.or_eq_false_iff.mp (not_stop_of_alnum laws hafter)).1
    exact hright.trans hleft.symm

theorem isTermEdge_lowerChar {c : Char} (hc : plain c) :
    isTermEdge uni (lowerChar c) = isTermEdge uni c := by
  rcases lowerChar_cases laws hc with hself | ⟨hbefore, hafter⟩
  · rw [hself]
  · rw [isTermEdge, isTermEdge, hbefore, hafter]

/-! ## The normal form -/

/-- NFKC changes nothing in a plain text without the characters that are not searched. -/
theorem nfkc_clean {text : Text} (h : IsPlain uni plain text) :
    uni.nfkc (text.map (cleanQueryChar uni)) = text.map (cleanQueryChar uni) := by
  have hwords : words isStop (text.map (cleanQueryChar uni)) = words (isQueryStop uni) text := by
    refine words_map (fun c => ?_) (fun c hc => ?_) text
    · rfl
    · exact (cleanQueryChar_of_not_stop laws hc).1
  -- the blanks of a plain text are spaces
  have hstops : ∀ s ∈ text.map (cleanQueryChar uni), isStop s = true → s ∈ " \".".toList := by
    intro s hs hstop
    obtain ⟨c, hc, rfl⟩ := List.mem_map.mp hs
    rcases cleanQueryChar_cases laws c with ⟨hself, -⟩ | hblank | hquote
    · rw [hself] at hstop ⊢
      rw [isStop, isTermBreak, Bool.or_assoc, Bool.or_eq_true_iff] at hstop
      rcases hstop with hspace | hmark
      · rw [h.blank c hc hspace]
        decide
      · have hmarks : c = '"' ∨ c = '.' := by simpa using hmark
        rcases hmarks with rfl | rfl <;> decide
    · rw [hblank]
      decide
    · rw [hquote]
      decide
  have hstable : ∀ w ∈ words isStop (text.map (cleanQueryChar uni)), uni.nfkc w = w := by
    rw [hwords]
    exact h.stable
  exact eq_self_of_words laws.nfkc_nil (fun s hs hstop => laws.nfkc_stop s (hstops s hs hstop))
    hstable

theorem normalizeQuotedQuery_cases {text : Text} (h : IsPlain uni plain text) :
    normalizeQuotedQuery uni text = collapseSpaces (text.map (cleanQueryChar uni)) ∨
      normalizeQuotedQuery uni text =
        collapseSpaces ((collapseSpaces (text.map (cleanQueryChar uni))).map unquote) := by
  have hclean : (text.map straightenQuote).map (fun c => if isQueryChar uni c then c else ' ') =
      text.map (cleanQueryChar uni) := List.map_map
  unfold normalizeQuotedQuery normalizeWhitespace
  simp only [hclean, nfkc_clean laws h]
  split_ifs
  · exact Or.inr rfl
  · exact Or.inl rfl

theorem words_normalizeQuotedQuery {text : Text} (h : IsPlain uni plain text) :
    words isTermBreak (normalizeQuotedQuery uni text) = words (isQueryBreak uni) text := by
  have hclean : words isTermBreak (text.map (cleanQueryChar uni)) =
      words (isQueryBreak uni) text := by
    refine words_map (fun c => ?_) (fun c hc => ?_) text
    · rfl
    · exact (cleanQueryChar_of_not_break laws hc).1
  have hcollapse : ∀ text, words isTermBreak (collapseSpaces text) = words isTermBreak text :=
    words_collapseSpaces fun _ => isTermBreak_of_isSpace
  rcases normalizeQuotedQuery_cases laws h with heven | hodd
  · rw [heven, hcollapse, hclean]
  · rw [hodd, hcollapse, words_map_unquote isTermBreak_unquote, hcollapse, hclean]

theorem plain_normalizeQuotedQuery {text : Text} (h : IsPlain uni plain text) :
    ∀ c ∈ normalizeQuotedQuery uni text, plain c := by
  have hblank : plain ' ' := laws.plain_stop _ (by decide)
  have hcollapse : ∀ text : Text, (∀ c ∈ text, plain c) → ∀ c ∈ collapseSpaces text, plain c := by
    intro text htext c hc
    rcases mem_collapseSpaces hc with hc | rfl
    · exact htext c hc
    · exact hblank
  have hclean : ∀ c ∈ collapseSpaces (text.map (cleanQueryChar uni)), plain c := by
    refine hcollapse _ fun d hd => ?_
    obtain ⟨c, hc, rfl⟩ := List.mem_map.mp hd
    rcases cleanQueryChar_cases laws c with ⟨hself, -⟩ | hspace | hquote
    · rw [hself]
      exact h.plain c hc
    · rw [hspace]
      exact hblank
    · rw [hquote]
      exact laws.plain_stop _ (by decide)
  rcases normalizeQuotedQuery_cases laws h with heven | hodd
  · rw [heven]
    exact hclean
  · rw [hodd]
    refine hcollapse _ fun d hd => ?_
    obtain ⟨c, hc, rfl⟩ := List.mem_map.mp hd
    unfold unquote
    split_ifs
    · exact hblank
    · exact hclean c hc

/-- The normal form has the cores of the text, in lower case. -/
theorem cores_matchText {text : Text} (h : IsPlain uni plain text) :
    cores isTermBreak (isTermEdge uni) (matchText uni text) =
      (cores (isQueryBreak uni) (isTermEdge uni) text).map (List.map lowerChar) := by
  have hplain := plain_normalizeQuotedQuery laws h
  rw [matchText, laws.toLowerCase_eq _ hplain,
    cores_map (fun c hc => isTermBreak_lowerChar laws (hplain c hc))
      fun c hc => isTermEdge_lowerChar laws (hplain c hc),
    cores, words_normalizeQuotedQuery laws h]
  rfl

/-! ## The terms -/

/-- A core is long enough for a term, and no stop word. -/
def IsTerm (token : Text) : Prop :=
  2 ≤ utf16Length token ∧ String.ofList token ∉ MATCH_STOP_WORDS

/-- The terms of a plain text are the cores of its words, in lower case, that are long
    enough and no stop words. -/
theorem mem_extractMatchingTerms_plain {text token : Text} (h : IsPlain uni plain text) :
    token ∈ extractMatchingTerms uni text ↔
      (∃ core ∈ cores (isQueryBreak uni) (isTermEdge uni) text, core.map lowerChar = token) ∧
        IsTerm token := by
  have hcore : token ∈ cores isTermBreak (isTermEdge uni) (matchText uni text) ↔
      ∃ core ∈ cores (isQueryBreak uni) (isTermEdge uni) text, core.map lowerChar = token := by
    rw [cores_matchText laws h, List.mem_map]
  rw [mem_extractMatchingTerms, ← hcore, mem_cores]
  constructor
  · rintro ⟨hword, hterm⟩
    refine ⟨⟨hword, ?_⟩, hterm⟩
    rintro rfl
    exact absurd hterm.1 (by decide)
  · rintro ⟨⟨hword, -⟩, hterm⟩
    exact ⟨hword, hterm⟩

section SearchText

variable {content : Text} (hplain : ∀ c ∈ content, plain c) (hnormal : uni.nfkc content = content)

include hplain

theorem plain_collapseSpaces : ∀ c ∈ collapseSpaces content, plain c := by
  intro c hc
  rcases mem_collapseSpaces hc with hc | rfl
  · exact hplain c hc
  · exact laws.plain_stop _ (by decide)

theorem searchText_eq :
    uni.toLowerCase (collapseSpaces content) = (collapseSpaces content).map lowerChar :=
  laws.toLowerCase_eq _ (plain_collapseSpaces laws hplain)

include hnormal

/-- The search text of a normalized content is plain. -/
theorem isPlain_searchText : IsPlain uni plain (uni.toLowerCase (collapseSpaces content)) := by
  have hcollapsed := plain_collapseSpaces laws hplain
  rw [searchText_eq laws hplain]
  refine ⟨fun d hd => ?_, fun d hd hspace => ?_, fun w hw => ?_⟩
  · obtain ⟨c, hc, rfl⟩ := List.mem_map.mp hd
    exact laws.plain_lowerChar c (hcollapsed c hc)
  · obtain ⟨c, hc, rfl⟩ := List.mem_map.mp hd
    rcases lowerChar_cases laws (hcollapsed c hc) with hself | ⟨-, hafter⟩
    · rw [hself] at hspace ⊢
      exact (isCollapsed_collapseSpaces content).1 c hc hspace
    · rw [(laws.alnum _ hafter).1] at hspace
      cases hspace
  · -- a word of the search text is a word of the content in lower case
    rw [words_map_of_sep fun c hc => isQueryStop_lowerChar laws (hcollapsed c hc),
      words_collapseSpaces fun _ => isQueryStop_of_isSpace] at hw
    obtain ⟨v, hv, rfl⟩ := List.mem_map.mp hw
    have hpart : v <:+: content := infix_of_mem_words hv
    refine laws.nfkc_lower v (fun c hc => ⟨hplain c (hpart.subset hc), ?_⟩)
      (laws.nfkc_part content v hnormal hpart)
    exact (cleanQueryChar_of_not_stop laws ((mem_words hv).2 c hc)).2

/-- The terms of the search text are made of the cores of the words of the content. -/
theorem mem_extractMatchingTerms_searchText {token : Text} :
    token ∈ extractMatchingTerms uni (uni.toLowerCase (collapseSpaces content)) ↔
      (∃ core ∈ cores (isQueryBreak uni) (isTermEdge uni) content, core.map lowerChar = token) ∧
        IsTerm token := by
  have hcollapsed := plain_collapseSpaces laws hplain
  have hcores : cores (isQueryBreak uni) (isTermEdge uni)
      (uni.toLowerCase (collapseSpaces content)) =
        (cores (isQueryBreak uni) (isTermEdge uni) content).map (List.map lowerChar) := by
    rw [searchText_eq laws hplain,
      cores_map (fun c hc => isQueryBreak_lowerChar laws (hcollapsed c hc))
        fun c hc => isTermEdge_lowerChar laws (hcollapsed c hc),
      cores, words_collapseSpaces fun _ => isQueryBreak_of_isSpace]
    rfl
  -- lower case twice is lower case once
  have htwice : ∀ core ∈ cores (isQueryBreak uni) (isTermEdge uni) content,
      (core.map lowerChar).map lowerChar = core.map lowerChar := by
    intro core hcore
    obtain ⟨⟨w, hw, rfl⟩, -⟩ := mem_cores.mp hcore
    have hpart := (isInfix_strip (isTermEdge uni) w).trans (infix_of_mem_words hw)
    rw [List.map_map]
    exact List.map_congr_left fun c hc => laws.lower_lower c (hplain c (hpart.subset hc))
  rw [mem_extractMatchingTerms_plain laws (isPlain_searchText laws hplain hnormal), hcores]
  refine and_congr_left fun _ => ?_
  constructor
  · rintro ⟨_, hmapped, rfl⟩
    obtain ⟨core, hcore, rfl⟩ := List.mem_map.mp hmapped
    exact ⟨core, hcore, (htwice core hcore).symm⟩
  · rintro ⟨core, hcore, rfl⟩
    exact ⟨_, List.mem_map_of_mem hcore, htwice core hcore⟩

end SearchText

end Laws

end Plain

/-! ## ASCII texts -/

theorem isAlpha_iff {c : Char} : c.isAlpha = true ↔
    65 ≤ c.toNat ∧ c.toNat ≤ 90 ∨ 97 ≤ c.toNat ∧ c.toNat ≤ 122 := by
  have halpha : c.isAlpha = (decide ('A'.val ≤ c.val ∧ c.val ≤ 'Z'.val) ||
      (decide ('a'.val ≤ c.val) && decide (c.val ≤ 'z'.val))) := rfl
  rw [halpha, Bool.or_eq_true, Bool.and_eq_true, decide_eq_true_eq, decide_eq_true_eq,
    decide_eq_true_eq]
  simp only [UInt32.le_iff_toNat_le]
  rfl

theorem isAlpha_toLower {c : Char} (h : c.isAlpha = true) : c.toLower.isAlpha = true := by
  by_cases hupper : c.val ≥ 'A'.val ∧ c.val ≤ 'Z'.val
  · obtain ⟨hrange, hval⟩ := toNat_toLower hupper
    have hlower : 97 ≤ c.toLower.toNat ∧ c.toLower.toNat ≤ 122 := by omega
    rw [isAlpha_iff]
    exact Or.inr hlower
  · rw [show c.toLower = c from dif_neg hupper]
    exact h

theorem toLower_of_not_alpha {c : Char} (h : c.isAlpha = false) : c.toLower = c := by
  refine dif_neg fun hupper => ?_
  have halpha : c.isAlpha = true := by
    exact isAlpha_iff.mpr (Or.inl (toNat_toLower hupper).1)
  rw [h] at halpha
  cases halpha

theorem plainLaws_ascii : PlainLaws .ascii (fun _ => True) Char.toLower where
  plain_stop _ _ := trivial
  plain_lowerChar _ _ := trivial
  toLowerCase_eq _ _ := rfl
  letter _ _ := isAlpha_toLower
  other _ _ := toLower_of_not_alpha
  lower_lower c _ := toLower_toLower c
  alnum c hc := by
    have hrange : 48 ≤ c.toNat ∧ c.toNat ≤ 57 ∨ 65 ≤ c.toNat ∧ c.toNat ≤ 90 ∨
        97 ≤ c.toNat ∧ c.toNat ≤ 122 := by
      rcases Bool.or_eq_true_iff.mp hc with hletter | hdigit
      · exact Or.inr (isAlpha_iff.mp hletter)
      · left
        have hdigit : c.isDigit = true := hdigit
        simpa [Char.isDigit, UInt32.le_iff_toNat_le] using hdigit
    constructor
    · simp [isSpace]
      omega
    · intro hmem
      have hmarks : ∀ d ∈ "\"'“”‘’.".toList, d.toNat < 48 ∨ 122 < d.toNat :=
        forall_mem_of_all (by decide)
      have hmark := hmarks c hmem
      omega
  nfkc_nil := rfl
  nfkc_stop _ _ _ _ := rfl
  nfkc_part _ _ _ _ := rfl
  nfkc_lower _ _ _ := rfl

end RagStack.Chat
