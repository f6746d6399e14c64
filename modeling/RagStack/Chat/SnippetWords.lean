import RagStack.Chat.Excerpts

/-!
# The words of a snippet

`buildSnippet` of `services/api/src/chat/citation-assembler.service.ts`: whatever window
it chooses, and wherever the anchor is, the ends of the excerpt are moved to blanks.

* `join_words_of_isCollapsed`: a collapsed text is its words with single spaces between
  them.
* `IsExcerpt.words_eq`: an excerpt is a run of the words of the text.
* `buildSnippet_words`: a snippet is a run of the words of the content, with dots exactly
  where words are left out.
-/

namespace RagStack.Chat

open RagStack.Common RagStack.Api
open RagStack.Worker (Text)

/-! ## Collapsed texts -/

/-- `cur` is the word being read. There is none where a word begins. -/
theorem join_wordsFrom {text : Text} (hcollapsed : IsCollapsed text)
    (hlast : ∀ c ∈ text.getLast?, isSpace c = false) :
    ∀ cur : Text, (cur ≠ [] ∨ ∀ c ∈ text.head?, isSpace c = false) →
      join [' '] (wordsFrom isSpace cur text) = cur ++ text := by
  induction text with
  | nil =>
    intro cur _
    cases cur <;> rfl
  | cons c rest ih =>
    intro cur hcur
    obtain ⟨hblank, hrest⟩ := isCollapsed_cons.mp hcollapsed
    have hlastRest : ∀ d ∈ rest.getLast?, isSpace d = false := by
      intro d hd
      cases rest with
      | nil => cases hd
      | cons e rest => exact hlast d (by rwa [List.getLast?_cons_cons])
    rw [wordsFrom]
    by_cases hc : isSpace c = true
    · obtain ⟨rfl, hhead⟩ := hblank hc
      have hne : cur ≠ [] := hcur.resolve_right fun h => by simpa [hc] using h ' ' rfl
      have hword := ih hrest hlastRest [] (Or.inr hhead)
      -- a blank is not the last character, so another word follows
      cases hwords : wordsFrom isSpace [] rest with
      | nil =>
        rw [hwords, join_nil, List.nil_append] at hword
        rw [← hword] at hlast
        simpa [hc] using hlast ' ' rfl
      | cons w ws =>
        rw [hwords, List.nil_append] at hword
        rw [if_pos hc, flushWord, if_neg (by simpa using hne), List.singleton_append,
          join_cons_cons, hword, List.append_assoc, List.singleton_append]
    · rw [if_neg hc, ih hrest hlastRest (cur ++ [c]) (Or.inl (by simp)), List.append_assoc,
        List.singleton_append]

/-- A collapsed text is its words with single spaces between them. -/
theorem join_words_of_isCollapsed {text : Text} (h : IsCollapsed text) :
    join [' '] (words isSpace text) = trim text := by
  have htrim : words isSpace (trim text) = words isSpace text := words_strip isSpace text
  rw [← htrim]
  exact join_wordsFrom (h.part (isInfix_strip isSpace text)) (getLast?_strip isSpace text) []
    (Or.inr (head?_strip isSpace text))

theorem words_eq_nil_iff_of_head? {text : Text} (h : ∀ c ∈ text.head?, isSpace c = false) :
    words isSpace text = [] ↔ text = [] := by
  refine ⟨fun hwords => ?_, fun hnil => by rw [hnil, words_nil]⟩
  cases text with
  | nil => rfl
  | cons c text =>
    have hspace := sep_of_words_eq_nil hwords c List.mem_cons_self
    rw [h c rfl] at hspace
    cases hspace

theorem words_eq_nil_iff_of_getLast? {text : Text} (h : ∀ c ∈ text.getLast?, isSpace c = false) :
    words isSpace text = [] ↔ text = [] := by
  refine ⟨fun hwords => ?_, fun hnil => by rw [hnil, words_nil]⟩
  by_contra hne
  have hspace := sep_of_words_eq_nil hwords _ (List.getLast_mem hne)
  rw [h _ (List.getLast?_eq_some_getLast hne)] at hspace
  cases hspace

/-! ## Excerpts -/

section Excerpt

variable {text before middle after : Text}

/-- The words of a text are those before an excerpt, in it, and behind it. -/
theorem IsExcerpt.words_eq (h : IsExcerpt text before middle after) :
    words isSpace text = words isSpace before ++ words isSpace middle ++ words isSpace after := by
  rw [h.parts, words_append_of_head? h.stop, words_append_of_getLast? h.start]

/-- Something is left out before an excerpt exactly if words are. -/
theorem IsExcerpt.words_before_eq_nil_iff (h : IsExcerpt text before middle after)
    (hhead : ∀ c ∈ text.head?, isSpace c = false) : words isSpace before = [] ↔ before = [] := by
  refine words_eq_nil_iff_of_head? fun c hc => hhead c ?_
  rw [h.parts, List.append_assoc]
  exact List.mem_head?_append_of_mem_head? hc

/-- Something is left out behind an excerpt exactly if words are. -/
theorem IsExcerpt.words_after_eq_nil_iff (h : IsExcerpt text before middle after)
    (hlast : ∀ c ∈ text.getLast?, isSpace c = false) : words isSpace after = [] ↔ after = [] := by
  refine words_eq_nil_iff_of_getLast? fun c hc => hlast c ?_
  rw [h.parts]
  exact List.mem_getLast?_append_of_mem_getLast? hc

end Excerpt

/-- The snippet of a run of words, with dots where words are left out. -/
def snippetOfWords (before run after : List Text) : Text :=
  (if before = [] then [] else "... ".toList) ++ join [' '] run ++
    if after = [] then [] else " ...".toList

/-- A snippet is a run of whole words of the normalized content, with dots before it
    exactly if it does not begin with the first word, and behind it exactly if it does not
    end with the last one. -/
theorem buildSnippet_words (uni : EcmaUnicode) (content normalizedQuery answerText : Text)
    (h : normalizeWhitespace uni content ≠ []) :
    ∃ before run after : List Text,
      words isSpace (normalizeWhitespace uni content) = before ++ run ++ after ∧
      normalizeWhitespace uni content = join [' '] (before ++ run ++ after) ∧
      run ≠ [] ∧ join [' '] run <:+: normalizeWhitespace uni content ∧
      buildSnippet uni content normalizedQuery answerText =
        some (snippetOfWords before run after) := by
  have hcollapsed : IsCollapsed (normalizeWhitespace uni content) := isCollapsed_collapseSpaces _
  have htrimmed : trim (normalizeWhitespace uni content) = normalizeWhitespace uni content :=
    trim_trim _
  have hhead := head?_of_trim_eq htrimmed
  have hlast := getLast?_of_trim_eq htrimmed
  obtain ⟨start, stop, hsnippet⟩ := buildSnippet_eq normalizedQuery answerText h
  have hsome := trimExcerpt_ne_none hcollapsed htrimmed h start stop
  obtain ⟨before, middle, after, hexcerpt, heq⟩ :=
    trimExcerpt_eq (normalizeWhitespace uni content) start stop
  have hmiddle : middle <:+: normalizeWhitespace uni content :=
    ⟨before, after, hexcerpt.parts.symm⟩
  have hcore : join [' '] (words isSpace middle) = trim middle :=
    join_words_of_isCollapsed (hcollapsed.part hmiddle)
  rw [heq] at hsome
  rw [hsnippet, heq]
  split_ifs at hsome ⊢ with hempty
  · exact absurd rfl hsome
  · refine ⟨words isSpace before, words isSpace middle, words isSpace after, hexcerpt.words_eq,
      ?_, ?_, ?_, ?_⟩
    · rw [← hexcerpt.words_eq, join_words_of_isCollapsed hcollapsed, htrimmed]
    · intro hnil
      rw [hnil, join_nil] at hcore
      exact hempty hcore.symm
    · rw [hcore]
      exact (isInfix_strip isSpace middle).trans hmiddle
    · simp only [dotted, snippetOfWords, hcore, hexcerpt.words_before_eq_nil_iff hhead,
        hexcerpt.words_after_eq_nil_iff hlast]

theorem buildSnippet_words_worker :
    ∃ before run after : List Text,
      words isSpace (normalizeWhitespace .ascii "Reset the  worker.".toList) =
        before ++ run ++ after ∧
      normalizeWhitespace .ascii "Reset the  worker.".toList =
        join [' '] (before ++ run ++ after) ∧
      run ≠ [] ∧ join [' '] run <:+: normalizeWhitespace .ascii "Reset the  worker.".toList ∧
      buildSnippet .ascii "Reset the  worker.".toList "worker".toList "Reset it.".toList =
        some (snippetOfWords before run after) :=
  buildSnippet_words .ascii "Reset the  worker.".toList "worker".toList "Reset it.".toList
    (by decide)

end RagStack.Chat
