import RagStack.Common.Kept
import RagStack.Worker.Normalizer

/-!
# Normalization keeps the letters and digits

What `TextNormalizer` removes, inserts or moves has no alphanumeric character.

* `alnums_normalizeBlock`: the alphanumeric characters of a normalized text are
  those of the NFKC form of the input, in order.
* `normalizeDocument_alnums`: so for the blocks of an accepted document; the blocks
  that are dropped have none.
-/

namespace RagStack.Worker

open RagStack.Common

/-- What the normalizer relies on: no alphanumeric character is whitespace, in one of the
    categories `C`, or one of the characters that the substitutions remove or insert. -/
structure AlnumLaws (ud : UnicodeData) : Prop where
  other : ∀ c, ud.isAlnum c = true → ud.isOther c = false
  space : ∀ c, isSpace c = true → ud.isAlnum c = false
  hyphen : ud.isAlnum '-' = false
  pipe : ud.isAlnum '|' = false
  nul : ud.isAlnum '\x00' = false

/-- The alphanumeric characters of a text, in order. -/
def alnums (ud : UnicodeData) (text : Text) : Text := text.filter ud.isAlnum

/-- Elements of a list before a position: those of its leading run, and those after. -/
theorem mem_take_run {q : Char → Bool} {l : Text} {n : ℕ} {c : Char}
    (h : c ∈ l.take ((l.takeWhile q).length + n)) :
    q c = true ∨ c ∈ (l.drop (l.takeWhile q).length).take n := by
  rw [List.take_add, List.mem_append] at h
  refine h.imp (fun h => ?_) id
  rw [← List.prefix_iff_eq_take.mp (List.takeWhile_prefix q)] at h
  exact List.mem_takeWhile_imp h

variable {ud : UnicodeData} (laws : AlnumLaws ud)

namespace AlnumLaws

include laws

theorem blank {c : Char} (h : isBlank c = true) : ud.isAlnum c = false := by
  apply laws.space
  unfold isBlank at h
  rcases (by simpa using h : c = ' ' ∨ c = '\t') with rfl | rfl <;> decide

theorem newline : ud.isAlnum '\n' = false := laws.space '\n' (by decide)

/-! ## The matches have no alphanumeric character -/

theorem crlfAt_within : crlfAt.Within fun c => !ud.isAlnum c := by
  intro prev l c hc
  unfold crlfAt at hc
  split at hc
  · rcases (by simpa using hc : c = '\r' ∨ c = '\n') with rfl | rfl
    · simp [laws.space '\r' (by decide)]
    · simp [laws.newline]
  · simp at hc

theorem crAt_within : crAt.Within fun c => !ud.isAlnum c := by
  intro prev l c hc
  unfold crAt at hc
  split at hc
  · obtain rfl : c = '\r' := by simpa using hc
    simp [laws.space '\r' (by decide)]
  · simp at hc

theorem newlineAt_within : newlineAt.Within fun c => !ud.isAlnum c := by
  intro prev l c hc
  unfold newlineAt at hc
  split at hc
  · obtain rfl : c = '\n' := by simpa using hc
    simp [laws.newline]
  · simp at hc

theorem hyphenBreakAt_within : (hyphenBreakAt ud).Within fun c => !ud.isAlnum c := by
  intro prev l c hc
  unfold hyphenBreakAt at hc
  split at hc
  · split_ifs at hc
    · rcases (by simpa using hc : c = '-' ∨ c = '\n') with rfl | rfl
      · simp [laws.hyphen]
      · simp [laws.newline]
    · simp at hc
  · simp at hc

theorem trailingBlanksAt_within : trailingBlanksAt.Within fun c => !ud.isAlnum c := by
  intro prev l c hc
  unfold trailingBlanksAt at hc
  simp only at hc
  split at hc
  · rename_i k rest hk hrest
    rcases mem_take_run hc with hblank | hafter
    · simp [laws.blank hblank]
    · rw [hrest] at hafter
      obtain rfl : c = '\n' := by simpa using hafter
      simp [laws.newline]
  · simp at hc

theorem pipeAt_within : pipeAt.Within fun c => !ud.isAlnum c := by
  intro prev l c hc
  unfold pipeAt at hc
  simp only at hc
  split at hc
  · rename_i rest hrest
    rw [Nat.add_assoc] at hc
    rcases mem_take_run hc with hspace | hafter
    · simp [laws.space c hspace]
    · rw [hrest, Nat.add_comm 1, List.take_succ_cons, List.mem_cons] at hafter
      rcases hafter with rfl | hafter
      · simp [laws.pipe]
      · rw [← List.prefix_iff_eq_take.mp (List.takeWhile_prefix isSpace)] at hafter
        simp [laws.space c (List.mem_takeWhile_imp hafter)]
  · simp at hc

/-! ## Lines -/

theorem alnums_expandTabsGo (text : Text) :
    ∀ col, alnums ud (expandTabsGo col text) = alnums ud text := by
  induction text with
  | nil => intro col; rfl
  | cons c text ih =>
    intro col
    by_cases hc : c = '\t'
    · subst hc
      have hspaces : ∀ d ∈ List.replicate (4 - col % 4) ' ', ud.isAlnum d = false := by
        intro d hd
        rw [List.eq_of_mem_replicate hd]
        exact laws.space ' ' (by decide)
      have htab : alnums ud ('\t' :: text) = alnums ud text :=
        List.filter_cons_of_neg (by simp [laws.space '\t' (by decide)])
      rw [expandTabsGo, alnums, List.filter_append, filter_eq_nil_of_forall hspaces,
        List.nil_append, htab]
      exact ih _
    · rw [expandTabsGo]
      · simp only [alnums, List.filter_cons] at ih ⊢
        rw [ih]
      · exact hc

theorem alnums_strip (text : Text) : alnums ud (stripText text) = alnums ud text :=
  filter_strip laws.space text

theorem flatMap_alnums_stripParts (parts : List Text) :
    (stripParts parts).flatMap (alnums ud) = parts.flatMap (alnums ud) := by
  unfold stripParts
  refine (flatMap_filter_filter fun part _ hpart => ?_).trans
    (flatMap_filter_map laws.alnums_strip parts)
  rw [show part = [] by simpa using hpart]
  rfl

theorem alnums_normalizeLine (line : Text) (kind : BlockKind) :
    alnums ud (normalizeLine line kind) = alnums ud line := by
  have hblank : ∀ c ∈ ([' '] : Text), ud.isAlnum c = false := by
    simp [laws.space ' ' (by decide)]
  unfold normalizeLine
  simp only
  split_ifs
  · have hsep : ∀ c ∈ " | ".toList, ud.isAlnum c = false := by
      intro c hc
      rcases (by simpa using hc : c = ' ' ∨ c = '|' ∨ c = ' ') with rfl | rfl | rfl
      · exact laws.space ' ' (by decide)
      · exact laws.pipe
      · exact laws.space ' ' (by decide)
    calc alnums ud (join " | ".toList (stripParts (splitAtMatches pipeAt (expandTabs line))))
        = (stripParts (splitAtMatches pipeAt (expandTabs line))).flatMap (alnums ud) :=
          filter_join hsep _
      _ = (splitAtMatches pipeAt (expandTabs line)).flatMap (alnums ud) :=
          laws.flatMap_alnums_stripParts _
      _ = alnums ud (expandTabs line) := filter_splitAtMatches laws.pipeAt_within _
      _ = alnums ud line := laws.alnums_expandTabsGo line 0
  · calc alnums ud (stripText (replaceMatches (runAt isBlank 2) [' '] (expandTabs line)))
        = alnums ud (replaceMatches (runAt isBlank 2) [' '] (expandTabs line)) :=
          laws.alnums_strip _
      _ = alnums ud (expandTabs line) :=
          filter_replaceMatches (runAt_within (fun c hc => by simp [laws.blank hc]) 2) hblank _
      _ = alnums ud line := laws.alnums_expandTabsGo line 0

/-- A noise line has no alphanumeric character. -/
theorem alnums_of_noise {line : Text} (h : isObviousNoiseLine ud line = true) :
    alnums ud line = [] := by
  unfold isObviousNoiseLine at h
  simp only at h
  split_ifs at h with hempty hany
  rw [← laws.alnums_strip]
  apply filter_eq_nil_of_forall
  simpa using hany

/-! ## Rendering -/

theorem alnums_join {sep : Text} (hsep : sep.all isSpace = true) (parts : List Text) :
    alnums ud (join sep parts) = parts.flatMap (alnums ud) :=
  filter_join (fun c hc => laws.space c (List.all_eq_true.mp hsep c hc)) parts

omit laws in
/-- Empty parts can be left out. -/
theorem flatMap_alnums_filter {q : Text → Bool} (hq : ∀ part, q part = false → part = [])
    (parts : List Text) : (parts.filter q).flatMap (alnums ud) = parts.flatMap (alnums ud) := by
  apply flatMap_filter_filter
  intro part _ hpart
  rw [hq part hpart]
  rfl

omit laws in
theorem flatMap_alnums_rdropWhile (segments : List Text) :
    (segments.rdropWhile fun segment => segment.isEmpty).flatMap (alnums ud) =
      segments.flatMap (alnums ud) := by
  induction segments using List.reverseRecOn with
  | nil => rfl
  | append_singleton segments segment ih =>
    rw [List.rdropWhile_concat]
    split_ifs with hempty
    · rw [ih, List.isEmpty_iff.mp hempty]
      simp [alnums]
    · rfl

/-- The alphanumeric characters that the paragraph loop has read. -/
def content (ud : UnicodeData) (s : RenderState) : Text :=
  s.segments.flatMap (alnums ud) ++ s.current.flatMap (alnums ud)

theorem content_closeParagraph (s : RenderState) :
    s.closeParagraph.current = [] ∧
      s.closeParagraph.segments.flatMap (alnums ud) = content ud s := by
  unfold RenderState.closeParagraph content
  split_ifs with hcurrent
  · simp [hcurrent]
  · refine ⟨rfl, ?_⟩
    simp only [List.flatMap_append, List.flatMap_singleton]
    rw [laws.alnums_join (by decide)]

theorem content_renderLine (s : RenderState) (line : Text) :
    content ud (renderLine s line) = content ud s ++ alnums ud line := by
  unfold renderLine
  by_cases hline : line = []
  · rw [if_pos hline]
    obtain ⟨hcurrent, hsegments⟩ := laws.content_closeParagraph s
    subst hline
    simp only
    split
    · simp [content, hcurrent, hsegments, alnums]
    · simp [content, hcurrent, hsegments, alnums]
  · rw [if_neg hline]
    simp [content]

theorem content_foldl_renderLine (lines : List Text) :
    ∀ s : RenderState,
      content ud (lines.foldl renderLine s) = content ud s ++ lines.flatMap (alnums ud) := by
  induction lines with
  | nil => intro s; simp
  | cons line lines ih =>
    intro s
    rw [List.foldl_cons, ih, laws.content_renderLine, List.append_assoc, List.flatMap_cons]

/-- Every kind of block keeps what its lines have. -/
theorem alnums_renderLines (lines : List Text) (kind : BlockKind) :
    alnums ud (renderLines lines kind).1 = lines.flatMap (alnums ud) := by
  have hnonempty : (lines.filter fun line => line ≠ []).flatMap (alnums ud) =
      lines.flatMap (alnums ud) := flatMap_alnums_filter (by simp) lines
  cases kind with
  | heading | qaPair | tableRow =>
    exact (laws.alnums_join (by decide) _).trans hnonempty
  | listItem =>
    rw [renderLines]
    by_cases hnil : (lines.filter fun line => line ≠ []) = []
    · rw [if_pos hnil, ← hnonempty, hnil]
      rfl
    · rw [if_neg hnil]
      exact (laws.alnums_join (by decide) _).trans hnonempty
  | paragraph =>
    rw [renderLines, laws.alnums_join (by decide), flatMap_alnums_rdropWhile,
      (laws.content_closeParagraph _).2, laws.content_foldl_renderLine]
    rfl

/-! ## Blocks and documents -/

omit laws in
theorem alnums_filter {q : Char → Bool} (hq : ∀ c, ud.isAlnum c = true → q c = true)
    (text : Text) : alnums ud (text.filter q) = alnums ud text := by
  rw [alnums, List.filter_filter]
  apply List.filter_congr
  intro c _
  cases hc : ud.isAlnum c with
  | true => simp [hq c hc]
  | false => rfl

theorem alnums_normalizeCharacters (text : Text) :
    alnums ud (normalizeCharacters ud text).1 = alnums ud (ud.nfkc text) := by
  have hnewline : ∀ c ∈ (['\n'] : Text), ud.isAlnum c = false := by simp [laws.newline]
  unfold normalizeCharacters alnums
  simp only
  rw [filter_replaceMatches laws.hyphenBreakAt_within (by simp),
    filter_replaceMatches laws.trailingBlanksAt_within hnewline]
  rw [← alnums, alnums_filter, alnums_filter, alnums,
    filter_replaceMatches laws.crAt_within hnewline,
    filter_replaceMatches laws.crlfAt_within hnewline]
  · intro c hc
    have hne : c ≠ '\x00' := by
      rintro rfl
      simp [laws.nul] at hc
    simpa using hne
  · intro c hc
    simp [laws.other c hc]

/-- The letters and digits of a normalized text are those of the NFKC form, in order. -/
theorem alnums_normalizeBlock (text : Text) (kind : BlockKind) :
    alnums ud (normalizeBlock ud text kind).1 = alnums ud (ud.nfkc text) := by
  have hnewlines : ∀ c ∈ "\n\n".toList, ud.isAlnum c = false := by
    intro c hc
    obtain rfl : c = '\n' := by simpa using hc
    exact laws.newline
  have hblank : ∀ c ∈ ([' '] : Text), ud.isAlnum c = false := by
    simp [laws.space ' ' (by decide)]
  have hnewline (c : Char) (hc : (c == '\n') = true) : ud.isAlnum c = false := by
    rw [beq_iff_eq.mp hc]
    exact laws.newline
  unfold normalizeBlock
  simp only
  generalize hlines : (splitNewlines (normalizeCharacters ud text).1).map
    (fun line => normalizeLine line kind) = lines
  rw [laws.alnums_strip]
  calc alnums ud (replaceMatches (runAt isBlank 2) [' ']
          (replaceMatches (runAt (· == '\n') 3) "\n\n".toList
            (renderLines (lines.filter fun line => !isObviousNoiseLine ud line) kind).1))
      = alnums ud (renderLines (lines.filter fun line => !isObviousNoiseLine ud line) kind).1 := by
        rw [alnums, filter_replaceMatches (runAt_within (fun c hc => by simp [laws.blank hc]) 2) hblank,
          filter_replaceMatches (runAt_within (fun c hc => by simp [hnewline c hc]) 3) hnewlines]
        rfl
    _ = (lines.filter fun line => !isObviousNoiseLine ud line).flatMap (alnums ud) :=
        laws.alnums_renderLines _ kind
    _ = lines.flatMap (alnums ud) :=
        flatMap_filter_filter fun line _ hnoise => laws.alnums_of_noise (by simpa using hnoise)
    _ = (splitNewlines (normalizeCharacters ud text).1).flatMap (alnums ud) := by
        rw [← hlines]
        exact flatMap_filter_map (fun line => laws.alnums_normalizeLine line kind) _
    _ = alnums ud (normalizeCharacters ud text).1 :=
        filter_splitAtMatches laws.newlineAt_within _
    _ = alnums ud (ud.nfkc text) := laws.alnums_normalizeCharacters text

/-- The block that is appended has the characters of its input, and a block that is dropped
    has none. -/
theorem alnums_normalizedBlock (block : ParsedBlock) :
    (normalizedBlock ud block).elim [] (fun b => alnums ud b.text) =
      alnums ud (ud.nfkc block.text) := by
  rw [← laws.alnums_normalizeBlock block.text block.kind]
  unfold normalizedBlock
  simp only
  by_cases hnil : (normalizeBlock ud block.text block.kind).1 = []
  · rw [if_pos hnil, hnil]
    rfl
  · rw [if_neg hnil]
    rfl

end AlnumLaws

/-- Normalization keeps the letters and digits of every block and of every accepted document,
    and drops a block only if it has none. -/
theorem normalizeDocument_alnums {ud : UnicodeData} (laws : AlnumLaws ud) :
    (∀ text kind, alnums ud (normalizeBlock ud text kind).1 = alnums ud (ud.nfkc text)) ∧
      ∀ document normalized, normalizeDocument ud document = .ok normalized →
        normalized.blocks.flatMap (fun block => alnums ud block.text) =
            document.blocks.flatMap (fun block => alnums ud (ud.nfkc block.text)) ∧
          ∀ block ∈ document.blocks, normalizedBlock ud block = none →
            alnums ud (ud.nfkc block.text) = [] := by
  refine ⟨laws.alnums_normalizeBlock, fun document normalized h => ⟨?_, ?_⟩⟩
  · rw [normalizeDocument_blocks h]
    induction document.blocks with
    | nil => rfl
    | cons block blocks ih =>
      rw [List.flatMap_cons, ← ih, ← laws.alnums_normalizedBlock block]
      cases hblock : normalizedBlock ud block with
      | none => rw [List.filterMap_cons_none hblock]; rfl
      | some b => rw [List.filterMap_cons_some hblock]; rfl
  · intro block _ hblock
    rw [← laws.alnums_normalizedBlock block, hblock]
    rfl

/-- An ASCII letter or digit is between `0` and `z`. -/
theorem toNat_of_isAlphanum {c : Char} (h : c.isAlphanum = true) :
    48 ≤ c.toNat ∧ c.toNat ≤ 122 := by
  have hranges : (((65 ≤ c.val.toNat ∧ c.val.toNat ≤ 90) ∨ 97 ≤ c.val.toNat ∧ c.val.toNat ≤ 122) ∨
      48 ≤ c.val.toNat ∧ c.val.toNat ≤ 57) := by
    delta Char.isAlphanum Char.isAlpha Char.isUpper Char.isLower Char.isDigit at h
    simp only [Bool.or_eq_true, Bool.and_eq_true, decide_eq_true_eq, ge_iff_le,
      UInt32.le_iff_toNat_le] at h
    exact h
  have hval : c.toNat = c.val.toNat := rfl
  omega

theorem alnumLaws_ascii : AlnumLaws UnicodeData.ascii := by
  refine ⟨fun c hc => ?_, fun c hspace => ?_, by decide, by decide, by decide⟩
  · obtain ⟨hlow, hhigh⟩ := toNat_of_isAlphanum hc
    simp [UnicodeData.ascii]
    omega
  · by_contra hc
    obtain ⟨hlow, hhigh⟩ := toNat_of_isAlphanum (by simpa [UnicodeData.ascii] using hc)
    simp only [isSpace, Bool.or_eq_true, Bool.and_eq_true, decide_eq_true_eq, beq_iff_eq] at hspace
    omega

/-- A document with a line-break hyphen, a soft wrap and a block of symbols. -/
def sampleDocument : ParsedDocument where
  fileType := "txt"
  sourceTitle := "Guide"
  blocks := [{ text := "Reset the worker be-\nfore  re\ntrying".toList }, { text := "****".toList }]

theorem normalizeDocument_alnums_ascii :
    alnums UnicodeData.ascii
      (normalizeBlock UnicodeData.ascii "Trouble-\nshooting\n----\nstep  1".toList .paragraph).1 =
        "Troubleshootingstep1".toList ∧
    ∃ normalized, normalizeDocument UnicodeData.ascii sampleDocument = .ok normalized ∧
      normalized.blocks.flatMap (fun block => alnums UnicodeData.ascii block.text) =
        "Resettheworkerbeforeretrying".toList := by
  refine ⟨?_, ?_⟩
  · rw [(normalizeDocument_alnums alnumLaws_ascii).1]
    decide +kernel
  · have haccepted : (normalizeDocument UnicodeData.ascii sampleDocument).isOk = true := by
      decide +kernel
    cases hrun : normalizeDocument UnicodeData.ascii sampleDocument with
    | error e => rw [hrun] at haccepted; cases haccepted
    | ok normalized =>
      refine ⟨normalized, rfl, ?_⟩
      rw [((normalizeDocument_alnums alnumLaws_ascii).2 _ _ hrun).1]
      decide +kernel

end RagStack.Worker
