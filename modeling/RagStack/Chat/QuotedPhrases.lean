import Mathlib.Data.List.Chain
import RagStack.Chat.ScoringUtils

/-!
# Quoted phrases

`extractQuotedPhrases` of `services/api/src/chat/retrieval-scoring.utils.ts` against
the phrases in the pairs of quotes. The regular expression wants a body that is not
empty, so that a pair without a body puts it out of step with the pairs.

* `quotedGo_eq`: what the loop of `matchAll` reads, along the pieces of the text.
* `IsCollapsed` — single blanks only, in which a text keeps them.
* `extractQuotedPhrases_eq_iff`: the texts that are read pair by pair.
-/

namespace RagStack.Chat

open RagStack.Common RagStack.Api
open RagStack.Worker (Text)

/-! ## The pieces of a text -/

/-- The pieces `1, 3, 5, …` of a list that is counted from 0. -/
def oddIndexed : List Text → List Text
  | _ :: piece :: pieces => piece :: oddIndexed pieces
  | _ => []

/-- The pieces, trimmed, that are not shorter than two units. -/
def trimmedPieces (pieces : List Text) : List Text :=
  (pieces.map trim).filter fun phrase => 2 ≤ utf16Length phrase

/-- The phrases of the pieces, each of them once. -/
def phrasesOf (pieces : List Text) : List Text := (trimmedPieces pieces).eraseDups

/-- The phrases in the pairs of quotes: between the first and the second one, the third
    and the fourth one, and so on. -/
def pairedPhrases (uni : EcmaUnicode) (input : Text) : List Text :=
  phrasesOf (oddIndexed ((matchText uni input).splitOn '"'))

/-- What the regular expression matches: the pieces come one by one behind the quote at
    which a match is tried. -/
def scanPieces : List Text → List Text
  | [] :: next :: pieces => scanPieces (next :: pieces)
  | (c :: piece) :: _ :: pieces => (c :: piece) :: scanPieces pieces
  | _ => []

/-- The pairs before the first one that is empty. -/
def leadingPairs : List Text → List Text
  | (c :: piece) :: _ :: pieces => (c :: piece) :: leadingPairs pieces
  | _ => []

/-- The pieces behind the first pair that is empty. -/
def behindEmptyPair : List Text → List Text
  | [] :: next :: pieces => next :: pieces
  | (_ :: _) :: _ :: pieces => behindEmptyPair pieces
  | _ => []

/-- The phrases of the pieces that do not occur in `seen`. -/
def newPhrases (seen pieces : List Text) : List Text :=
  ((trimmedPieces pieces).removeAll (trimmedPieces seen)).eraseDups

theorem trimmedPieces_append (pieces pieces' : List Text) :
    trimmedPieces (pieces ++ pieces') = trimmedPieces pieces ++ trimmedPieces pieces' := by
  rw [trimmedPieces, List.map_append, List.filter_append]
  rfl

theorem phrasesOf_append (seen pieces : List Text) :
    phrasesOf (seen ++ pieces) = phrasesOf seen ++ newPhrases seen pieces := by
  rw [phrasesOf, trimmedPieces_append, List.eraseDups_append]
  rfl

theorem scanPieces_eq (pieces : List Text) :
    scanPieces pieces = leadingPairs pieces ++ scanPieces (behindEmptyPair pieces) := by
  fun_induction leadingPairs pieces with
  | case1 c piece next pieces ih =>
    rw [scanPieces, behindEmptyPair, ih]
    rfl
  | case2 pieces h =>
    match pieces with
    | [] => rfl
    | [piece] => cases piece <;> rfl
    | [] :: next :: pieces =>
      rw [behindEmptyPair, scanPieces]
      rfl
    | (c :: piece) :: next :: pieces => exact absurd rfl (h c piece next pieces)

/-- In an even number of pieces behind the first quote each pair is closed. -/
theorem trimmedPieces_oddIndexed {first : Text} {pieces : List Text}
    (h : pieces.length % 2 = 0) :
    trimmedPieces (oddIndexed (first :: pieces)) =
      trimmedPieces (leadingPairs pieces ++ oddIndexed (behindEmptyPair pieces)) := by
  fun_induction leadingPairs pieces generalizing first with
  | case1 c piece next pieces ih =>
    have ih : trimmedPieces (oddIndexed (next :: pieces)) =
        trimmedPieces (leadingPairs pieces ++ oddIndexed (behindEmptyPair pieces)) :=
      ih (by simpa [Nat.add_assoc] using h)
    have hcons : ∀ rest, trimmedPieces ((c :: piece) :: rest) =
        trimmedPieces [c :: piece] ++ trimmedPieces rest := trimmedPieces_append [c :: piece]
    rw [oddIndexed, behindEmptyPair, List.cons_append, hcons (oddIndexed _),
      hcons (leadingPairs _ ++ _), ih]
  | case2 pieces hcons =>
    match pieces with
    | [] => rfl
    | [piece] => cases h
    | [] :: next :: pieces => rfl
    | (c :: piece) :: next :: pieces => exact absurd rfl (hcons c piece next pieces)

/-! ## The loop of `matchAll` -/

theorem quotedGo_skip (body rest : Text) (k : ℕ) :
    quotedGo (body.length + k) (body ++ rest) = quotedGo k rest := by
  induction body with
  | nil => rw [List.length_nil, Nat.zero_add, List.nil_append]
  | cons c body ih =>
    rw [List.length_cons, Nat.add_right_comm, List.cons_append, quotedGo]
    exact ih

/-- No match begins before the first quote. -/
theorem quotedGo_append {first : Text} (h : '"' ∉ first) (rest : Text) :
    quotedGo 0 (first ++ rest) = quotedGo 0 rest := by
  induction first with
  | nil => rfl
  | cons c first ih =>
    rw [List.mem_cons, not_or] at h
    obtain ⟨hc, hfirst⟩ := h
    have hnone : quotedAt (c :: (first ++ rest)) = none := by
      unfold quotedAt
      split
      · rename_i heq
        exact absurd (List.cons.inj heq).1.symm hc
      · rfl
    rw [List.cons_append, quotedGo]
    simp only [hnone]
    exact ih hfirst

theorem takeWhile_quote {body : Text} (h : '"' ∉ body) (rest : Text) :
    (body ++ '"' :: rest).takeWhile (fun c => c != '"') = body := by
  rw [List.takeWhile_append_of_pos fun c hc => bne_iff_ne.mpr (ne_of_mem_of_not_mem hc h)]
  simp

theorem quotedAt_closed {body : Text} (h : '"' ∉ body) (hne : body ≠ []) (rest : Text) :
    quotedAt ('"' :: (body ++ '"' :: rest)) = some body := by
  rw [quotedAt, takeWhile_quote h]
  exact if_pos ⟨hne, by simp⟩

theorem quotedAt_empty (rest : Text) : quotedAt ('"' :: '"' :: rest) = none := rfl

theorem quotedAt_open {body : Text} (h : '"' ∉ body) : quotedAt ('"' :: body) = none := by
  have htake : body.takeWhile (fun c => c != '"') = body :=
    List.takeWhile_eq_self_iff.mpr fun c hc => bne_iff_ne.mpr (ne_of_mem_of_not_mem hc h)
  rw [quotedAt, htake]
  exact if_neg fun hlt => lt_irrefl _ hlt.2

/-- A text without quotes, or the part before the first quote and the rest. -/
theorem quote_cases (text : Text) :
    '"' ∉ text ∨ ∃ first rest, '"' ∉ first ∧ text = first ++ '"' :: rest := by
  by_cases h : '"' ∈ text
  · obtain ⟨first, rest, heq, hfirst⟩ := List.eq_append_cons_of_mem h
    exact Or.inr ⟨first, rest, hfirst, heq⟩
  · exact Or.inl h

theorem quotedGo_of_not_mem {text : Text} (h : '"' ∉ text) : quotedGo 0 text = [] := by
  have hnil := quotedGo_append h []
  rw [List.append_nil] at hnil
  rw [hnil]
  rfl

/-- The matches of a text are those behind its first quote. -/
theorem quotedGo_of_tail {text : Text}
    (h : ∀ rest : Text, rest.length < text.length →
      quotedGo 0 ('"' :: rest) = scanPieces (rest.splitOn '"')) :
    quotedGo 0 text = scanPieces (text.splitOn '"').tail := by
  rcases quote_cases text with hopen | ⟨first, rest, hfirst, rfl⟩
  · rw [List.splitOn_eq_singleton hopen, quotedGo_of_not_mem hopen]
    rfl
  · have hlt : rest.length < (first ++ '"' :: rest).length := by
      rw [List.length_append, List.length_cons]
      omega
    rw [List.splitOn_append_cons_self_of_not_mem hfirst, quotedGo_append hfirst, h rest hlt,
      List.tail_cons]

/-- Behind a quote. The induction is on the length of what is left. -/
theorem quotedGo_quote (text : Text) :
    quotedGo 0 ('"' :: text) = scanPieces (text.splitOn '"') := by
  induction hn : text.length using Nat.strong_induction_on generalizing text with
  | h n ih =>
    rcases quote_cases text with hopen | ⟨body, rest, hbody, rfl⟩
    · rw [List.splitOn_eq_singleton hopen, quotedGo]
      simp only [quotedAt_open hopen]
      rw [quotedGo_of_not_mem hopen]
      cases text <;> rfl
    · have hlt : rest.length < n := by
        rw [← hn, List.length_append, List.length_cons]
        omega
      obtain ⟨next, pieces, hpieces⟩ := List.exists_cons_of_ne_nil (List.splitOn_ne_nil '"' rest)
      rw [List.splitOn_append_cons_self_of_not_mem hbody, hpieces]
      cases body with
      | nil =>
        rw [List.nil_append, quotedGo]
        simp only [quotedAt_empty]
        rw [ih rest.length hlt rest rfl, hpieces, scanPieces]
      | cons c body =>
        have hskip : quotedGo ((c :: body).length + 1) (c :: body ++ '"' :: rest) =
            quotedGo 0 rest := quotedGo_skip (c :: body) ('"' :: rest) 1
        have htail : quotedGo 0 rest = scanPieces (rest.splitOn '"').tail :=
          quotedGo_of_tail fun rest' hrest' => ih rest'.length (hrest'.trans hlt) rest' rfl
        rw [quotedGo]
        simp only [quotedAt_closed hbody (List.cons_ne_nil c body) rest]
        rw [hskip, htail, hpieces, List.tail_cons, scanPieces]

/-- What the loop reads, along the pieces behind the first quote. -/
theorem quotedGo_eq (text : Text) : quotedGo 0 text = scanPieces (text.splitOn '"').tail :=
  quotedGo_of_tail fun rest _ => quotedGo_quote rest

theorem length_splitOn_quote (text : Text) :
    (text.splitOn '"').length = text.count '"' + 1 := by
  induction text with
  | nil => rfl
  | cons c text ih =>
    rw [List.splitOn_cons_eq_if_modifyHead, List.count_cons]
    split_ifs with hc
    · rw [List.length_cons, ih]
    · rw [List.length_modifyHead, ih, Nat.add_zero]

/-! ## Collapsed texts -/

/-- The blanks of the text are single spaces. -/
def IsCollapsed (text : Text) : Prop :=
  (∀ c ∈ text, isSpace c = true → c = ' ') ∧
    text.IsChain fun a b => isSpace a = true → isSpace b = false

theorem isCollapsed_nil : IsCollapsed [] := ⟨fun _ h => absurd h List.not_mem_nil, .nil⟩

theorem isCollapsed_cons {c : Char} {text : Text} :
    IsCollapsed (c :: text) ↔ (isSpace c = true → c = ' ' ∧ ∀ d ∈ text.head?, isSpace d = false) ∧
      IsCollapsed text := by
  simp only [IsCollapsed, List.forall_mem_cons, List.isChain_cons]
  constructor
  · rintro ⟨⟨hc, htext⟩, hhead, hchain⟩
    exact ⟨fun h => ⟨hc h, fun d hd => hhead d hd h⟩, htext, hchain⟩
  · rintro ⟨hc, htext, hchain⟩
    exact ⟨⟨fun h => (hc h).1, htext⟩, fun d hd h => (hc h).2 d hd, hchain⟩

theorem IsCollapsed.part {part text : Text} (h : IsCollapsed text) (hpart : part <:+: text) :
    IsCollapsed part := by
  refine ⟨fun c hc => h.1 c (hpart.subset hc), ?_⟩
  exact List.IsChain.infix h.2 hpart

/-- There is nothing to replace in a collapsed text. -/
theorem IsCollapsed.replaceGo_eq {text : Text} (h : IsCollapsed text) :
    ∀ prev, replaceGo (runOf isSpace) [' '] prev 0 text = text := by
  induction text with
  | nil => exact fun _ => rfl
  | cons c text ih =>
    intro prev
    obtain ⟨hc, htext⟩ := isCollapsed_cons.mp h
    rw [replaceGo]
    by_cases hspace : isSpace c = true
    · obtain ⟨rfl, hhead⟩ := hc hspace
      have hrun : text.takeWhile isSpace = [] := by
        cases text with
        | nil => rfl
        | cons d text => rw [List.takeWhile_cons_of_neg (by simp [hhead d rfl])]
      have hone : runOf isSpace prev (' ' :: text) = 1 := by
        rw [runOf, List.takeWhile_cons_of_pos hspace, hrun]
        rfl
      simp only [hone]
      rw [ih htext]
      rfl
    · have hnone : runOf isSpace prev (c :: text) = 0 := by
        rw [runOf, List.takeWhile_cons_of_neg hspace]
        rfl
      simp only [hnone]
      rw [ih htext]

theorem IsCollapsed.collapseSpaces_eq {text : Text} (h : IsCollapsed text) :
    collapseSpaces text = trim text := by
  rw [collapseSpaces, replaceMatches, h.replaceGo_eq]

/-- The text with its runs of blanks replaced, from the beginning of a run or in the
    midst of one, of which nothing but the rest is skipped. -/
theorem isCollapsed_replaceGo (text : Text) :
    (∀ prev, IsCollapsed (replaceGo (runOf isSpace) [' '] prev 0 text)) ∧
      ∀ prev, IsCollapsed
          (replaceGo (runOf isSpace) [' '] prev (text.takeWhile isSpace).length text) ∧
        ∀ d ∈ (replaceGo (runOf isSpace) [' '] prev (text.takeWhile isSpace).length text).head?,
          isSpace d = false := by
  induction text with
  | nil => exact ⟨fun _ => isCollapsed_nil, fun _ => ⟨isCollapsed_nil, fun _ hd => by cases hd⟩⟩
  | cons c text ih =>
    by_cases hspace : isSpace c = true
    · rw [List.takeWhile_cons_of_pos hspace, List.length_cons]
      constructor
      · intro prev
        have hrun : runOf isSpace prev (c :: text) = (text.takeWhile isSpace).length + 1 := by
          rw [runOf, List.takeWhile_cons_of_pos hspace, List.length_cons]
        rw [replaceGo]
        simp only [hrun]
        exact isCollapsed_cons.mpr ⟨fun _ => ⟨rfl, (ih.2 (some c)).2⟩, (ih.2 (some c)).1⟩
      · intro prev
        rw [replaceGo]
        exact ih.2 (some c)
    · have hkeep : ∀ prev, replaceGo (runOf isSpace) [' '] prev 0 (c :: text) =
          c :: replaceGo (runOf isSpace) [' '] (some c) 0 text := by
        intro prev
        have hnone : runOf isSpace prev (c :: text) = 0 := by
          rw [runOf, List.takeWhile_cons_of_neg hspace]
          rfl
        rw [replaceGo]
        simp only [hnone]
      have hcollapsed : IsCollapsed (c :: replaceGo (runOf isSpace) [' '] (some c) 0 text) :=
        isCollapsed_cons.mpr ⟨fun h => absurd h hspace, ih.1 (some c)⟩
      rw [List.takeWhile_cons_of_neg hspace, List.length_nil]
      refine ⟨fun prev => ?_, fun prev => ⟨?_, ?_⟩⟩
      · rw [hkeep]
        exact hcollapsed
      · rw [hkeep]
        exact hcollapsed
      · rw [hkeep]
        rintro d hd
        cases hd
        simpa using hspace

theorem isCollapsed_collapseSpaces (text : Text) : IsCollapsed (collapseSpaces text) :=
  ((isCollapsed_replaceGo text).1 none).part (isInfix_strip isSpace _)

/-! ## Reading pair by pair -/

/-- Facts about lower case: it makes no blanks, and keeps the quotes. -/
structure CaseLaws (uni : EcmaUnicode) : Prop where
  collapsed : ∀ text, IsCollapsed text → IsCollapsed (uni.toLowerCase text)
  quotes : ∀ text, (uni.toLowerCase text).count '"' = text.count '"'

section Reading

variable {uni : EcmaUnicode}

theorem isCollapsed_matchText (laws : CaseLaws uni) (input : Text) :
    IsCollapsed (matchText uni input) := by
  refine laws.collapsed _ ?_
  unfold normalizeQuotedQuery
  simp only
  split_ifs
  · exact isCollapsed_collapseSpaces _
  · exact isCollapsed_collapseSpaces _

theorem count_collapseSpaces_unquote (text : Text) :
    (collapseSpaces (text.map unquote)).count '"' = 0 := by
  rw [List.count_eq_zero]
  intro hmem
  rcases mem_collapseSpaces hmem with htext | hblank
  · obtain ⟨c, -, hc⟩ := List.mem_map.mp htext
    unfold unquote at hc
    split_ifs at hc with hquote
    · exact absurd hc (by decide)
    · exact hquote (by simp [hc])
  · exact absurd hblank (by decide)

theorem count_matchText (laws : CaseLaws uni) (input : Text) :
    (matchText uni input).count '"' % 2 = 0 := by
  rw [matchText, laws.quotes]
  unfold normalizeQuotedQuery
  simp only
  split_ifs with hodd
  · rw [count_collapseSpaces_unquote]
  · omega

/-- The bodies of the matches are trimmed; there is nothing else to clean. -/
theorem extractQuotedPhrases_eq (laws : CaseLaws uni) (input : Text) :
    extractQuotedPhrases uni input = phrasesOf (quotedGo 0 (matchText uni input)) := by
  have htrim : (quotedGo 0 (matchText uni input)).map collapseSpaces =
      (quotedGo 0 (matchText uni input)).map trim := by
    refine List.map_congr_left fun body hbody => ?_
    exact ((isCollapsed_matchText laws input).part (mem_quotedGo hbody).1).collapseSpaces_eq
  have hfilter : ∀ phrase : Text, decide (phrase ≠ [] ∧ 2 ≤ utf16Length phrase) =
      decide (2 ≤ utf16Length phrase) := by
    intro phrase
    refine decide_eq_decide.mpr (and_iff_right_of_imp fun hlen => ?_)
    rintro rfl
    exact absurd hlen (by decide)
  rw [extractQuotedPhrases, htrim, phrasesOf, trimmedPieces]
  simp only [hfilter]

/-- Out of step with the pairs, from the second quote of the first empty pair on, the
    loop reads the phrases of the pairs all the same. -/
def ReadsPairs (pieces : List Text) : Prop :=
  newPhrases (leadingPairs pieces) (scanPieces (behindEmptyPair pieces)) =
    newPhrases (leadingPairs pieces) (oddIndexed (behindEmptyPair pieces))

/-- Without an empty pair it is in step to the end. -/
theorem readsPairs_of_filled {pieces : List Text} (h : behindEmptyPair pieces = []) :
    ReadsPairs pieces := by
  rw [ReadsPairs, h]
  rfl

/-- The phrases are those in the pairs of quotes exactly if there is no empty pair, or
    nothing else is read behind the first empty pair. -/
theorem extractQuotedPhrases_eq_iff (laws : CaseLaws uni) (input : Text) :
    extractQuotedPhrases uni input = pairedPhrases uni input ↔
      ReadsPairs ((matchText uni input).splitOn '"').tail := by
  obtain ⟨first, pieces, hpieces⟩ :=
    List.exists_cons_of_ne_nil (List.splitOn_ne_nil '"' (matchText uni input))
  have heven : pieces.length % 2 = 0 := by
    have hlength := length_splitOn_quote (matchText uni input)
    rw [hpieces, List.length_cons, Nat.add_right_cancel_iff] at hlength
    rw [hlength, count_matchText laws]
  have hpairs : phrasesOf (oddIndexed (first :: pieces)) =
      phrasesOf (leadingPairs pieces ++ oddIndexed (behindEmptyPair pieces)) :=
    congrArg List.eraseDups (trimmedPieces_oddIndexed heven)
  rw [extractQuotedPhrases_eq laws, quotedGo_eq, pairedPhrases, hpieces, List.tail_cons, hpairs,
    scanPieces_eq, phrasesOf_append, phrasesOf_append, List.append_cancel_left_eq, ReadsPairs]

end Reading

/-! ## ASCII texts -/

theorem isSpace_toLower (c : Char) : isSpace c.toLower = isSpace c := by
  by_cases hupper : c.val ≥ 'A'.val ∧ c.val ≤ 'Z'.val
  · obtain ⟨hrange, hval⟩ := toNat_toLower hupper
    rw [isSpace, isSpace, Bool.eq_iff_iff]
    simp
    omega
  · rw [show c.toLower = c from dif_neg hupper]

theorem toLower_eq_quote_iff (c : Char) : c.toLower = '"' ↔ c = '"' := by
  by_cases hupper : c.val ≥ 'A'.val ∧ c.val ≤ 'Z'.val
  · obtain ⟨hrange, hval⟩ := toNat_toLower hupper
    constructor
    · intro h
      rw [h] at hval
      have hquote : '"'.toNat = 34 := rfl
      omega
    · rintro rfl
      exact absurd hrange.1 (by decide)
  · rw [show c.toLower = c from dif_neg hupper]

theorem isCollapsed_map_toLower {text : Text} (h : IsCollapsed text) :
    IsCollapsed (text.map Char.toLower) := by
  induction text with
  | nil => exact isCollapsed_nil
  | cons c text ih =>
    obtain ⟨hc, htext⟩ := isCollapsed_cons.mp h
    refine isCollapsed_cons.mpr ⟨fun hspace => ?_, ih htext⟩
    rw [isSpace_toLower] at hspace
    obtain ⟨rfl, hhead⟩ := hc hspace
    refine ⟨rfl, fun d hd => ?_⟩
    cases text with
    | nil => cases hd
    | cons e text =>
      cases hd
      rw [isSpace_toLower]
      exact hhead e rfl

theorem caseLaws_ascii : CaseLaws .ascii where
  collapsed _ := isCollapsed_map_toLower
  quotes text := by
    show (text.map Char.toLower).count '"' = text.count '"'
    rw [List.count_eq_countP, List.count_eq_countP, List.countP_map]
    refine List.countP_congr fun c _ => ?_
    simp [toLower_eq_quote_iff]

/-- A question with two pairs that are not empty. -/
theorem extractQuotedPhrases_eq_iff_requestId :
    extractQuotedPhrases .ascii "\"Request ID\" of the \"red lamp\"".toList =
        pairedPhrases .ascii "\"Request ID\" of the \"red lamp\"".toList ↔
      ReadsPairs ((matchText .ascii "\"Request ID\" of the \"red lamp\"".toList).splitOn '"').tail :=
  extractQuotedPhrases_eq_iff caseLaws_ascii _

/-- Behind an empty pair the text between the pairs is read, and the phrase is lost. -/
theorem extractQuotedPhrases_ne_lamp :
    extractQuotedPhrases .ascii "\"\" of the \"red lamp\"".toList ≠
      pairedPhrases .ascii "\"\" of the \"red lamp\"".toList := by
  decide +kernel

end RagStack.Chat
