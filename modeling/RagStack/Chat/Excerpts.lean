import RagStack.Chat.GroundedAnswer
import RagStack.Chat.PlainTerms

/-!
# The words of an excerpt

`trimExcerpt` of `services/api/src/chat/citation-assembler.service.ts` cuts a text at
blanks, and `cleanSnippet` and `ensureSentence` of `local-grounded-answer.service.ts`
change the dots and blanks at the ends, so that each core of a word of the answer is one
of a word of the text.

* `IsExcerpt` — a part of a text between blanks, or up to an end.
* `trimExcerpt_ne_none`: an excerpt of a collapsed text is not empty.
* `cores_cleanSnippet`, `mem_cores_trimExcerpt`: cleaning keeps the cores, and an excerpt
  has none but those of the text.
-/

namespace RagStack.Chat

open RagStack.Common RagStack.Api
open RagStack.Worker (Text)

/-! ## Excerpts -/

/-- A part of a text from a blank, or the beginning, to a blank, or the end. -/
structure IsExcerpt (text before middle after : Text) : Prop where
  parts : text = before ++ middle ++ after
  start : ∀ c ∈ before.getLast?, isSpace c = true
  stop : ∀ c ∈ after.head?, isSpace c = true

/-- The dots for what an excerpt leaves out. -/
def dotted (before middle after : Text) : Text :=
  (if before = [] then [] else "... ".toList) ++ middle ++ if after = [] then [] else " ...".toList

theorem prefix_unitsBefore (position : ℕ) (text : Text) : unitsBefore position text <+: text := by
  induction text generalizing position with
  | nil => exact List.nil_prefix
  | cons c text ih =>
    rw [unitsBefore]
    split_ifs
    · exact (List.prefix_cons_inj c).mpr (ih _)
    · exact List.nil_prefix

theorem unitsBefore_mono {start stop : ℕ} (h : start ≤ stop) (text : Text) :
    unitsBefore start text <+: unitsBefore stop text := by
  induction text generalizing start stop with
  | nil => exact List.nil_prefix
  | cons c text ih =>
    rw [unitsBefore, unitsBefore]
    split_ifs with hstart hstop
    · exact (List.prefix_cons_inj c).mpr (ih (Nat.sub_le_sub_right h _))
    · exact absurd (hstart.trans h) hstop
    · exact List.nil_prefix
    · exact List.nil_prefix

/-- What `alignStartToWord` leaves before a position. -/
def beforeWord (text : Text) (start : ℕ) : Text :=
  (unitsBefore start text).rdropWhile fun c => !isSpace c

/-- What `alignEndToWord` leaves behind a position. -/
def behindWord (text : Text) (stop : ℕ) : Text :=
  (text.drop (unitsBefore stop text).length).dropWhile fun c => !isSpace c

/-- Words are left out before an excerpt up to a blank, and behind it from a blank. -/
theorem isExcerpt_words {text : Text} {start stop : ℕ} (hle : start ≤ stop) :
    IsExcerpt text (beforeWord text start)
      ((text.take (text.length - (behindWord text stop).length)).drop
        (beforeWord text start).length) (behindWord text stop) := by
  -- what is left out before and behind do not overlap
  have hbefore : beforeWord text start <+: unitsBefore stop text :=
    (List.rdropWhile_prefix _ _).trans (unitsBefore_mono hle text)
  have hbehind : behindWord text stop <:+ text.drop (unitsBefore stop text).length :=
    List.dropWhile_suffix _
  have hlength : (beforeWord text start).length ≤ text.length - (behindWord text stop).length := by
    have hleft := hbefore.length_le
    have hright := hbehind.length_le
    rw [List.length_drop] at hright
    have hend := (prefix_unitsBefore stop text).length_le
    omega
  have hback : text.take (text.length - (behindWord text stop).length) ++ behindWord text stop =
      text := by
    have hsuffix : behindWord text stop <:+ text := hbehind.trans (List.drop_suffix _ _)
    conv_lhs => rw [List.suffix_iff_eq_drop.mp hsuffix]
    rw [List.length_drop, Nat.sub_sub_self (Nat.sub_le _ _)]
    exact List.take_append_drop _ _
  have hfront : beforeWord text start <+: text.take (text.length - (behindWord text stop).length) :=
    List.prefix_take_iff.mpr ⟨hbefore.trans (prefix_unitsBefore stop text), hlength⟩
  refine ⟨?_, ?_, ?_⟩
  · rw [List.prefix_iff_eq_append.mp hfront, hback]
  · intro c hc
    rw [beforeWord] at hc
    have hne : (unitsBefore start text).rdropWhile (fun c => !isSpace c) ≠ [] := by
      intro hnil
      rw [hnil] at hc
      cases hc
    have hlast := List.rdropWhile_last_not _ _ hne
    rw [List.getLast?_eq_some_getLast hne] at hc
    cases hc
    simpa using hlast
  · intro c hc
    have hhead := List.head?_dropWhile_not (fun c => !isSpace c)
      (text.drop (unitsBefore stop text).length)
    rw [behindWord] at hc
    rw [Option.mem_def.mp hc] at hhead
    simpa using hhead

/-- The ends of an excerpt are moved to blanks. -/
theorem trimExcerpt_parts {text : Text} {start stop : ℕ} (hle : start ≤ stop)
    (hstop : stop ≤ utf16Length text) :
    ∃ middle, IsExcerpt text (beforeWord text start) middle (behindWord text stop) ∧
      trimExcerpt text start stop =
        if trim middle = [] then none
        else some (dotted (beforeWord text start) (trim middle) (behindWord text stop)) := by
  have hboundedStart : min start (utf16Length text) = start := min_eq_left (hle.trans hstop)
  have hboundedEnd : max start (min stop (utf16Length text)) = stop := by
    rw [min_eq_left hstop, max_eq_right hle]
  refine ⟨_, isExcerpt_words hle, ?_⟩
  unfold trimExcerpt
  simp only [hboundedStart, hboundedEnd]
  rfl

/-- The positions of an excerpt are moved into the text first. -/
theorem trimExcerpt_bounded (text : Text) (start stop : ℕ) :
    min start (utf16Length text) ≤
        max (min start (utf16Length text)) (min stop (utf16Length text)) ∧
      max (min start (utf16Length text)) (min stop (utf16Length text)) ≤ utf16Length text ∧
      trimExcerpt text start stop =
        trimExcerpt text (min start (utf16Length text))
          (max (min start (utf16Length text)) (min stop (utf16Length text))) := by
  have hstart : min start (utf16Length text) ≤ utf16Length text := min_le_right _ _
  have hstop : max (min start (utf16Length text)) (min stop (utf16Length text)) ≤
      utf16Length text := max_le hstart (min_le_right _ _)
  refine ⟨le_max_left _ _, hstop, ?_⟩
  unfold trimExcerpt
  simp only [min_eq_left hstart, min_eq_left hstop, max_eq_right (le_max_left _ _)]

/-- An excerpt is a part of the text between blanks, whatever the positions are. -/
theorem trimExcerpt_eq (text : Text) (start stop : ℕ) :
    ∃ before middle after, IsExcerpt text before middle after ∧
      trimExcerpt text start stop =
        if trim middle = [] then none else some (dotted before (trim middle) after) := by
  obtain ⟨hle, hstop, heq⟩ := trimExcerpt_bounded text start stop
  obtain ⟨middle, hexcerpt, hparts⟩ := trimExcerpt_parts hle hstop
  exact ⟨_, middle, _, hexcerpt, heq.trans hparts⟩

theorem isSpace_of_collapseSpaces_eq_nil {text : Text} (h : collapseSpaces text = []) :
    ∀ c ∈ text, isSpace c = true := by
  refine sep_of_words_eq_nil ?_
  rw [← words_collapseSpaces fun _ h => h, h, words_nil]

theorem head?_of_trim_eq {text : Text} (h : trim text = text) :
    ∀ c ∈ text.head?, isSpace c = false := by
  have hhead := head?_strip isSpace text
  rwa [show strip isSpace text = text from h] at hhead

theorem getLast?_of_trim_eq {text : Text} (h : trim text = text) :
    ∀ c ∈ text.getLast?, isSpace c = false := by
  have hlast := getLast?_strip isSpace text
  rwa [show strip isSpace text = text from h] at hlast

section Excerpt

variable {text before middle after : Text}

/-- The blank at which an excerpt of a collapsed text begins is the last one before it. -/
theorem IsExcerpt.head?_rest (h : IsExcerpt text before middle after)
    (hcollapsed : IsCollapsed text) (htrimmed : trim text = text) :
    ∀ c ∈ (middle ++ after).head?, isSpace c = false := by
  intro c hc
  have hparts := h.parts
  rw [List.append_assoc] at hparts
  cases hbefore : before.getLast? with
  | none =>
    rw [List.getLast?_eq_none_iff.mp hbefore, List.nil_append] at hparts
    exact head?_of_trim_eq htrimmed c (hparts ▸ hc)
  | some d =>
    have hchain := hcollapsed.2
    rw [hparts] at hchain
    exact (List.isChain_append.mp hchain).2.2 d hbefore c hc (h.start d hbefore)

/-- The blank behind an excerpt of a collapsed text is the first one behind it. -/
theorem IsExcerpt.getLast?_front (h : IsExcerpt text before middle after)
    (hcollapsed : IsCollapsed text) (htrimmed : trim text = text) :
    ∀ c ∈ (before ++ middle).getLast?, isSpace c = false := by
  intro c hc
  have hparts := h.parts
  cases hafter : after with
  | nil =>
    rw [hafter, List.append_nil] at hparts
    exact getLast?_of_trim_eq htrimmed c (hparts ▸ hc)
  | cons d rest =>
    have hchain := hcollapsed.2
    rw [hparts, hafter] at hchain
    have hjoint := (List.isChain_append.mp hchain).2.2 c hc d rfl
    have hblank : isSpace d = true := h.stop d (by rw [hafter]; rfl)
    by_contra hspace
    rw [hjoint (by simpa using hspace)] at hblank
    cases hblank

/-- In a collapsed text that is trimmed, an excerpt has no blanks at its ends. -/
theorem IsExcerpt.trim_middle (h : IsExcerpt text before middle after)
    (hcollapsed : IsCollapsed text) (htrimmed : trim text = text) : trim middle = middle := by
  refine strip_eq_self isSpace (fun c hc => ?_) fun c hc => ?_
  · exact h.head?_rest hcollapsed htrimmed c (List.mem_head?_append_of_mem_head? hc)
  · exact h.getLast?_front hcollapsed htrimmed c (List.mem_getLast?_append_of_mem_getLast? hc)

/-- There are no two blanks to cut between. -/
theorem IsExcerpt.middle_ne_nil (h : IsExcerpt text before middle after)
    (hcollapsed : IsCollapsed text) (htrimmed : trim text = text) (hne : text ≠ []) :
    middle ≠ [] := by
  rintro rfl
  have hrest := h.head?_rest hcollapsed htrimmed
  have hfront := h.getLast?_front hcollapsed htrimmed
  rw [List.append_nil] at hfront
  have hafter : after = [] := by
    refine List.head?_eq_none_iff.mp (Option.eq_none_iff_forall_not_mem.mpr fun c hc => ?_)
    have hblank := h.stop c hc
    rw [hrest c hc] at hblank
    cases hblank
  have hbefore : before = [] := by
    refine List.getLast?_eq_none_iff.mp (Option.eq_none_iff_forall_not_mem.mpr fun c hc => ?_)
    have hblank := h.start c hc
    rw [hfront c hc] at hblank
    cases hblank
  exact hne (by rw [h.parts, hbefore, hafter]; rfl)

end Excerpt

/-- An excerpt of a collapsed text is not empty. -/
theorem trimExcerpt_ne_none {text : Text} (hcollapsed : IsCollapsed text)
    (htrimmed : trim text = text) (hne : text ≠ []) (start stop : ℕ) :
    trimExcerpt text start stop ≠ none := by
  obtain ⟨before, middle, after, hexcerpt, heq⟩ := trimExcerpt_eq text start stop
  rw [heq, hexcerpt.trim_middle hcollapsed htrimmed,
    if_neg (hexcerpt.middle_ne_nil hcollapsed htrimmed hne)]
  exact Option.some_ne_none _

/-- A snippet is an excerpt of the content with its runs of blanks collapsed. -/
theorem buildSnippet_eq {uni : EcmaUnicode} {content : Text} (normalizedQuery answerText : Text)
    (h : normalizeWhitespace uni content ≠ []) :
    ∃ start stop, buildSnippet uni content normalizedQuery answerText =
      trimExcerpt (normalizeWhitespace uni content) start stop := by
  unfold buildSnippet
  simp only [if_neg h]
  split
  · exact ⟨_, _, rfl⟩
  · split_ifs
    · exact ⟨_, _, rfl⟩
    · exact ⟨_, _, rfl⟩
    · exact ⟨_, _, rfl⟩

theorem buildSnippet_ne_none {uni : EcmaUnicode} {content : Text}
    (normalizedQuery answerText : Text) (h : normalizeWhitespace uni content ≠ []) :
    buildSnippet uni content normalizedQuery answerText ≠ none := by
  obtain ⟨start, stop, heq⟩ := buildSnippet_eq normalizedQuery answerText h
  rw [heq]
  exact trimExcerpt_ne_none (isCollapsed_collapseSpaces _) (trim_trim _) h start stop

/-! ## Characters -/

theorem mem_trimExcerpt {text snippet : Text} {start stop : ℕ}
    (h : trimExcerpt text start stop = some snippet) {c : Char} (hc : c ∈ snippet) :
    c ∈ text ∨ c = ' ' ∨ c = '.' := by
  obtain ⟨before, core, after, rfl, -, hcore, hbefore, hafter⟩ := trimExcerpt_spec h
  have hfront : ∀ d ∈ before, d = ' ' ∨ d = '.' := by
    rcases hbefore with rfl | rfl
    · exact List.forall_mem_nil _
    · exact forall_mem_of_all (by decide)
  have hback : ∀ d ∈ after, d = ' ' ∨ d = '.' := by
    rcases hafter with rfl | rfl
    · exact List.forall_mem_nil _
    · exact forall_mem_of_all (by decide)
  rw [List.mem_append, List.mem_append] at hc
  rcases hc with (hc | hc) | hc
  · exact Or.inr (hfront c hc)
  · exact Or.inl (hcore.subset hc)
  · exact Or.inr (hback c hc)

theorem mem_cleanSnippet {value : Text} {c : Char} (h : c ∈ cleanSnippet value) :
    c ∈ value ∨ c = ' ' := by
  rcases mem_collapseSpaces h with h | rfl
  · left
    have hbody : ∀ start : Text, c ∈ (if "...".toList <:+ start then
        (start.take (start.length - 3)).rdropWhile isSpace else start) → c ∈ start := by
      intro start hc
      split_ifs at hc
      · exact List.mem_of_mem_take ((List.rdropWhile_prefix _ _).subset hc)
      · exact hc
    have hstart := hbody _ h
    split_ifs at hstart
    · exact List.mem_of_mem_drop ((List.dropWhile_suffix _).subset hstart)
    · exact hstart
  · exact Or.inr rfl

theorem mem_ensureSentence {value : Text} {c : Char} (h : c ∈ ensureSentence value) :
    c ∈ value ∨ c = '.' := by
  unfold ensureSentence at h
  split_ifs at h
  · exact Or.inl h
  · exact Or.inl h
  · simpa using h

/-! ## The cut -/

theorem utf16Length_cons (c : Char) (text : Text) :
    utf16Length (c :: text) = charUnits c + utf16Length text := rfl

/-- Nothing is cut off a text that is shorter than the cut. -/
theorem sliceStart_eq_self {position : ℕ} {text : Text}
    (h : utf16Length (sliceStart position text) < position) : sliceStart position text = text := by
  induction text generalizing position with
  | nil => exact sliceStart.eq_1 position
  | cons c text ih =>
    rw [sliceStart] at h ⊢
    have hunits : 1 ≤ charUnits c ∧ charUnits c ≤ 2 := by
      unfold charUnits
      split_ifs <;> decide
    split_ifs at h ⊢ with hroom hzero
    · rw [utf16Length_cons] at h
      rw [ih (by omega)]
    · omega
    · -- half of a pair is as long as what is left before the cut
      have hhalf : utf16Length ['\uFFFD'] = 1 := by decide
      omega

/-! ## Cores -/

/-- Blanks separate words, and neither they nor dots stand at the end of a core. -/
structure Splits (sp edge : Char → Bool) : Prop where
  blank_sep : ∀ c, isSpace c = true → sp c = true
  blank_edge : ∀ c, isSpace c = true → edge c = true
  dot_edge : edge '.' = true

section Cores

variable {sp edge : Char → Bool} (splits : Splits sp edge)
include splits

theorem Splits.edge_of_mem_dots {dots : Text} (h : dots = [] ∨ dots = "... ".toList ∨
    dots = " ...".toList ∨ dots = "...".toList) : ∀ c ∈ dots, edge c = true := by
  have hchars : ∀ c ∈ dots, c = ' ' ∨ c = '.' := by
    rcases h with rfl | rfl | rfl | rfl
    · exact List.forall_mem_nil _
    · exact forall_mem_of_all (by decide)
    · exact forall_mem_of_all (by decide)
    · exact forall_mem_of_all (by decide)
  intro c hc
  rcases hchars c hc with rfl | rfl
  · exact splits.blank_edge ' ' (by decide)
  · exact splits.dot_edge

theorem Splits.cores_collapseSpaces (text : Text) :
    cores sp edge (collapseSpaces text) = cores sp edge text := by
  rw [cores, words_collapseSpaces splits.blank_sep]
  rfl

theorem Splits.cores_ensureSentence (text : Text) :
    cores sp edge (ensureSentence text) = cores sp edge text := by
  unfold ensureSentence
  split_ifs
  · rfl
  · rfl
  · exact cores_append_edges (fun c hc => by rw [List.mem_singleton.mp hc, splits.dot_edge]) text

/-- `cleanSnippet` takes nothing but dots and blanks from the ends of a text. -/
theorem Splits.cores_cleanSnippet (value : Text) :
    cores sp edge (cleanSnippet value) = cores sp edge value := by
  have hdots : ∀ c ∈ "...".toList, edge c = true :=
    splits.edge_of_mem_dots (Or.inr (Or.inr (Or.inr rfl)))
  have hstart : cores sp edge (if "...".toList <+: value then (value.drop 3).dropWhile isSpace
      else value) = cores sp edge value := by
    split_ifs with hprefix
    · obtain ⟨rest, rfl⟩ := hprefix
      have hblanks : ∀ c ∈ rest.takeWhile isSpace, edge c = true := fun c hc =>
        splits.blank_edge c (List.mem_takeWhile_imp hc)
      rw [cores_edges_append hdots]
      conv_rhs => rw [← List.takeWhile_append_dropWhile (p := isSpace) (l := rest)]
      rw [cores_edges_append hblanks]
      rfl
    · rfl
  have hbody : ∀ start : Text, cores sp edge (if "...".toList <:+ start then
      (start.take (start.length - 3)).rdropWhile isSpace else start) = cores sp edge start := by
    intro start
    split_ifs with hsuffix
    · obtain ⟨rest, rfl⟩ := hsuffix
      have hblanks : ∀ c ∈ rest.rtakeWhile isSpace, edge c = true := fun c hc =>
        splits.blank_edge c (List.mem_rtakeWhile_imp hc)
      have htake : (rest ++ "...".toList).take ((rest ++ "...".toList).length - 3) = rest := by
        rw [List.length_append]
        exact List.take_left
      rw [htake, cores_append_edges hdots]
      conv_rhs => rw [← List.rdropWhile_append_rtakeWhile (p := isSpace) (l := rest)]
      rw [cores_append_edges hblanks]
    · rfl
  rw [cleanSnippet, splits.cores_collapseSpaces, hbody, hstart]

/-- A core of an excerpt is one of the text. -/
theorem Splits.mem_cores_trimExcerpt {text snippet core : Text} {start stop : ℕ}
    (h : trimExcerpt text start stop = some snippet) (hcore : core ∈ cores sp edge snippet) :
    core ∈ cores sp edge text := by
  obtain ⟨before, middle, after, hexcerpt, heq⟩ := trimExcerpt_eq text start stop
  rw [heq] at h
  split_ifs at h
  cases h
  have hfront : ∀ c ∈ if before = [] then [] else "... ".toList, edge c = true := by
    refine splits.edge_of_mem_dots ?_
    split_ifs <;> simp
  have hback : ∀ c ∈ if after = [] then [] else " ...".toList, edge c = true := by
    refine splits.edge_of_mem_dots ?_
    split_ifs <;> simp
  have htrim : cores sp edge (trim middle) = cores sp edge middle := by
    rw [trim, cores, words_strip_within splits.blank_sep]
    rfl
  rw [dotted, cores_append_edges hback, cores_edges_append hfront, htrim] at hcore
  -- the words of the middle are words of the text, since blanks stand around it
  have hright : core ∈ cores sp edge (middle ++ after) := by
    cases after with
    | nil => rwa [List.append_nil]
    | cons c after =>
      rw [cores_append_sep (splits.blank_sep c (hexcerpt.stop c rfl))]
      exact List.mem_append_left _ hcore
  rw [hexcerpt.parts, List.append_assoc]
  cases hlast : before.getLast? with
  | none => rwa [List.getLast?_eq_none_iff.mp hlast, List.nil_append]
  | some c =>
    obtain ⟨front, rfl⟩ := List.getLast?_eq_some_iff.mp hlast
    rw [List.append_assoc, List.singleton_append,
      cores_append_sep (splits.blank_sep c (hexcerpt.start c hlast))]
    exact List.mem_append_right _ hright

end Cores

end RagStack.Chat
