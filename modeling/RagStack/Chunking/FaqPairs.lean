import RagStack.Chunking.Document

/-!
# `Chunker`: questions and their answers

`app/services/chunker.py`, lines 176–302: consecutive question and answer blocks are merged
into one run before the run is measured. A run over the budget of the section goes through
the fallback splitters, of which only the first knows a question; the parts are then joined
by spaces.

* `exists_run_of_pair`: an answer is in the run of the question before it.
* `infix_part_of_faqBoundaries`: a question without a boundary before its answer stays with
  it when the run is cut at FAQ boundaries.
* `pair_kept`: a question and its answer are together in a chunk when their run is within
  the budget, or when they are in one part of it.
-/

namespace RagStack.Chunking

open RagStack.Common RagStack.Worker

/-- A question block and an answer block, with texts that are not blank. -/
structure IsFaqPair (question answer : ParsedBlock) : Prop where
  question_kind : question.kind = .qaPair
  question_label : qaLabel question = ['Q']
  question_text : stripText question.text ≠ []
  answer_kind : answer.kind = .qaPair
  answer_label : qaLabel answer = ['A']
  answer_text : stripText answer.text ≠ []

/-- The question and the answer on lines of their own. -/
def pairText (question answer : ParsedBlock) : Text :=
  stripText question.text ++ ['\n'] ++ stripText answer.text

/-! ## Runs -/

/-- A run ends before a block of another kind, or before a question. -/
theorem head_snd_collectQa (blocks : List (ℕ × ParsedBlock)) :
    ∀ labels, ∀ b ∈ (collectQa labels blocks).2.head?,
      b.2.kind ≠ .qaPair ∨ qaLabel b.2 = ['Q'] := by
  induction blocks with
  | nil => intro labels b hb; cases hb
  | cons next rest ih =>
    intro labels b hb
    unfold collectQa at hb
    split_ifs at hb with hkind hlabel
    · cases hb
      exact Or.inl hkind
    · cases hb
      exact Or.inr hlabel.1
    · exact ih _ b hb

/-- The first run does not end between a question and its answer. -/
theorem fst_nextRun_ne {b qb ab : ℕ × ParsedBlock} {rest before after : List (ℕ × ParsedBlock)}
    (hpair : IsFaqPair qb.2 ab.2) (hrest : (nextRun b rest).2 = ab :: after) :
    (nextRun b rest).1 ≠ before ++ [qb] := by
  intro hrun
  unfold nextRun at hrun hrest
  split_ifs at hrun hrest with hkind
  · have hhead := head_snd_collectQa rest [qaLabel b.2] ab (by rw [hrest]; rfl)
    rcases hhead with hne | hquestion
    · exact hne hpair.answer_kind
    · rw [hpair.answer_label] at hquestion
      exact absurd hquestion (by decide)
  · have hb : [] ++ [b] = before ++ [qb] := hrun
    obtain ⟨-, hb⟩ := List.append_inj' hb rfl
    cases hb
    exact hkind hpair.question_kind

/-- An answer is in the run of the question before it. -/
theorem exists_run_of_pair {qb ab : ℕ × ParsedBlock} (hpair : IsFaqPair qb.2 ab.2)
    (blocks : List (ℕ × ParsedBlock)) :
    ∀ before after, blocks = before ++ qb :: ab :: after →
      ∃ earlier run later l r, sectionRuns blocks = earlier ++ run :: later ∧
        run = l ++ qb :: ab :: r ∧ before = earlier.flatten ++ l := by
  induction blocks using sectionRuns.induct with
  | case1 => intro before after h; simp at h
  | case2 b rest ih =>
    intro before after h
    rw [← nextRun_append] at h
    have hlater : ∀ x, before = (nextRun b rest).1 ++ x →
        (nextRun b rest).2 = x ++ qb :: ab :: after →
        ∃ earlier run later l r, sectionRuns (b :: rest) = earlier ++ run :: later ∧
          run = l ++ qb :: ab :: r ∧ before = earlier.flatten ++ l := by
      intro x hbefore hrest
      obtain ⟨earlier, run, later, l, r, hruns, hrun, hx⟩ := ih x after hrest
      refine ⟨(nextRun b rest).1 :: earlier, run, later, l, r, ?_, hrun, ?_⟩
      · rw [sectionRuns, hruns, List.cons_append]
      · rw [List.flatten_cons, List.append_assoc, ← hx, hbefore]
    rcases List.append_eq_append_iff.mp h with ⟨x, hbefore, hrest⟩ | ⟨x, hrun, hrest⟩
    · exact hlater x hbefore hrest
    · rcases x with _ | ⟨first, _ | ⟨second, r⟩⟩
      · exact hlater [] (by rw [hrun, List.append_nil, List.append_nil]) hrest.symm
      · -- the run would end with the question
        simp only [List.cons_append, List.nil_append, List.cons.injEq] at hrest
        obtain ⟨rfl, hafter⟩ := hrest
        exact absurd hrun (fst_nextRun_ne hpair hafter.symm)
      · simp only [List.cons_append, List.cons.injEq] at hrest
        obtain ⟨rfl, rfl, -⟩ := hrest
        refine ⟨[], (nextRun b rest).1, sectionRuns (nextRun b rest).2, before, r, ?_, hrun, rfl⟩
        rw [sectionRuns, List.nil_append]

/-- A run of two blocks or more begins with a question or an answer. -/
theorem kind_of_mem_sectionRuns {blocks run : List (ℕ × ParsedBlock)}
    (hrun : run ∈ sectionRuns blocks) {b c : ℕ × ParsedBlock} {rest : List (ℕ × ParsedBlock)}
    (h : run = b :: c :: rest) : b.2.kind = .qaPair := by
  induction blocks using sectionRuns.induct with
  | case1 => simp [sectionRuns] at hrun
  | case2 first blocks ih =>
    rw [sectionRuns] at hrun
    rcases List.mem_cons.mp hrun with hfirst | hrun
    · rw [h, nextRun] at hfirst
      split_ifs at hfirst with hkind
      · rw [(List.cons.inj hfirst).1]
        exact hkind
      · simp at hfirst
    · exact ih hrun

/-! ## Pairs in the text of a run -/

theorem strip_pairText {question answer : ParsedBlock} (hpair : IsFaqPair question answer) :
    stripText (pairText question answer) = pairText question answer := by
  refine strip_eq_self isSpace (fun c hc => ?_) fun c hc => ?_
  · refine head?_strip isSpace question.text c ?_
    rw [pairText, List.append_assoc, List.head?_append_of_ne_nil _ hpair.question_text] at hc
    exact hc
  · refine getLast?_strip isSpace answer.text c ?_
    rw [pairText, List.getLast?_append_of_ne_nil _ hpair.answer_text] at hc
    exact hc

theorem ne_nil_of_infix_pairText {question answer : ParsedBlock} {text : Text}
    (h : pairText question answer <:+: text) : text ≠ [] := by
  rintro rfl
  simp [pairText] at h

/-- In the text of a run the pair stands between lines of other blocks. -/
theorem combineTexts_pair {qb ab : ℕ × ParsedBlock} (hpair : IsFaqPair qb.2 ab.2)
    (l r : List (ℕ × ParsedBlock)) :
    ∃ pre post, combineTexts (l ++ qb :: ab :: r) = pre ++ (pairText qb.2 ab.2 ++ post) ∧
      (post = [] ∨ ['\n'] <+: post) := by
  have hparts : stripParts ((l ++ qb :: ab :: r).map fun b => b.2.text) =
      stripParts (l.map fun b => b.2.text) ++ stripText qb.2.text :: stripText ab.2.text ::
        stripParts (r.map fun b => b.2.text) := by
    simp [stripParts, hpair.question_text, hpair.answer_text]
  rw [combineTexts, hparts]
  exact join_append_pair ['\n'] _ _ _ _

theorem faqBoundaryAt_le_one (prev : Option Char) (text : Text) : faqBoundaryAt prev text ≤ 1 := by
  unfold faqBoundaryAt
  split <;> decide

theorem faqBoundaryAt_eq_zero {text : Text} (h : ¬ ['\n', 'Q', ':'] <+: text)
    (prev : Option Char) : faqBoundaryAt prev text = 0 := by
  unfold faqBoundaryAt
  split
  · exact absurd (List.prefix_append _ _) h
  · rfl

/-- No FAQ boundary begins in a pair that has none of its own: the pair does not end with
    whitespace, and behind it there is nothing or a newline. -/
theorem misses_pairText {question answer : ParsedBlock} (hpair : IsFaqPair question answer)
    (hnone : ¬ ['\n', 'Q', ':'] <:+: pairText question answer) {post : Text}
    (hpost : post = [] ∨ ['\n'] <+: post) :
    faqBoundaryAt.Misses (pairText question answer) post := by
  intro prev before rest heq hne
  refine faqBoundaryAt_eq_zero (fun hprefix => ?_) prev
  have hsuffix : rest <:+ pairText question answer := ⟨before, heq.symm⟩
  rcases rest with _ | ⟨c, _ | ⟨d, _ | ⟨e, rest⟩⟩⟩
  · exact hne rfl
  · -- the newline would end the pair
    have hc : c = '\n' := by simpa using (List.cons_prefix_cons.mp hprefix).1.symm
    have hlast : (pairText question answer).getLast? = some '\n' := by
      rw [heq, hc]
      simp
    rw [← strip_pairText hpair] at hlast
    exact absurd (getLast?_strip isSpace _ _ hlast) (by decide)
  · -- a colon would stand behind the pair
    have hcolon : [':'] <+: post := by
      obtain ⟨tail, htail⟩ := hprefix
      simp only [List.cons_append, List.nil_append] at htail
      exact ⟨tail, by simpa using (List.cons.inj (List.cons.inj htail).2).2⟩
    rcases hpost with rfl | ⟨tail, rfl⟩
    · exact absurd hcolon (by decide)
    · exact absurd (List.cons_prefix_cons.mp hcolon).1 (by decide)
  · refine hnone (List.IsInfix.trans ?_ hsuffix.isInfix)
    obtain ⟨hc, hd, he⟩ : '\n' = c ∧ 'Q' = d ∧ ':' = e := by
      simpa [List.cons_prefix_cons] using hprefix
    rw [← hc, ← hd, ← he]
    exact (List.prefix_append ['\n', 'Q', ':'] rest).isInfix

/-- The parts of a run between its FAQ boundaries. -/
def faqParts (run : List (ℕ × ParsedBlock)) : List Text :=
  stripParts (splitAtMatches faqBoundaryAt (combineTexts run))

/-- A pair without an FAQ boundary is in one part. -/
theorem infix_part_of_faqBoundaries {qb ab : ℕ × ParsedBlock} (hpair : IsFaqPair qb.2 ab.2)
    (hnone : ¬ ['\n', 'Q', ':'] <:+: pairText qb.2 ab.2) (l r : List (ℕ × ParsedBlock)) :
    ∃ part ∈ faqParts (l ++ qb :: ab :: r), pairText qb.2 ab.2 <:+: part := by
  obtain ⟨pre, post, htext, hpost⟩ := combineTexts_pair hpair l r
  have hsplit : ∃ part ∈ splitAtMatches faqBoundaryAt (pre ++ (pairText qb.2 ab.2 ++ post)),
      pairText qb.2 ab.2 <:+: part :=
    exists_infix_splitAtMatches faqBoundaryAt_le_one (misses_pairText hpair hnone hpost)
  obtain ⟨raw, hraw, hinfix⟩ := hsplit
  have hstripped : pairText qb.2 ab.2 <:+: stripText raw := by
    rw [← strip_pairText hpair]
    exact strip_infix_strip isSpace hinfix
  have hne : stripText raw ≠ [] := ne_nil_of_infix_pairText hstripped
  refine ⟨stripText raw, ?_, hstripped⟩
  rw [faqParts, htext]
  exact List.mem_filter.mpr ⟨List.mem_map_of_mem hraw, by simpa using hne⟩

/-- Two FAQ parts or more are the parts that no splitter cuts further. -/
theorem unsplitPartsOfRun_of_faqParts {b : ℕ × ParsedBlock} {run : List (ℕ × ParsedBlock)}
    (hkind : b.2.kind = .qaPair) (hparts : 1 < (faqParts (b :: run)).length) :
    unsplitPartsOfRun (b :: run) = faqParts (b :: run) := by
  have hlong : ¬ (faqParts (b :: run)).length ≤ 1 := Nat.not_le_of_lt hparts
  have hfaq : stripParts (splitAtMatches faqBoundaryAt (combineTexts (b :: run))) =
      faqParts (b :: run) := rfl
  simp only [unsplitPartsOfRun, hkind, unsplitParts, fallbackParts, hfaq, if_neg hlong]

/-! ## Pairs in chunks -/

section Chunks

variable {ck : Chunker} {document : ParsedDocument} {chunks : List ChunkRecord} {sec : Section}

/-- A part that no splitter cuts further is in one text of `_split_large_text`. -/
theorem exists_infix_splitLargeText {text part : Text} {blockKind : BlockKind}
    (ck : Chunker) (maxTokens : ℕ) (h : part ∈ unsplitParts text blockKind) :
    ∃ large ∈ ck.splitLargeText text blockKind maxTokens, part <:+: large := by
  have hgroup : ∃ group ∈ greedyPack ck.tokenCounter.count maxTokens (unsplitParts text blockKind),
      part ∈ group := by
    rw [← greedyPack_flatten ck.tokenCounter.count maxTokens (unsplitParts text blockKind)] at h
    exact List.mem_flatten.mp h
  obtain ⟨group, hgroup, hpart⟩ := hgroup
  have hstrip : stripText part = part := (strip_of_mem_unsplitParts h).2
  unfold Chunker.splitLargeText
  unfold unsplitParts at hgroup
  simp only
  split_ifs at hgroup ⊢
  · exact ⟨_, List.mem_map_of_mem hgroup, infix_of_mem_group (Or.inl rfl) hpart hstrip⟩
  · exact ⟨_, List.mem_map_of_mem hgroup, infix_of_mem_group (Or.inr rfl) hpart hstrip⟩

/-- The text of a run within the budget is one unit. -/
theorem exists_unit_of_fits {run : List (ℕ × ParsedBlock)} (hne : combineTexts run ≠ [])
    (hfits : ck.tokenCounter.count (combineTexts run) ≤ ck.sectionBudget sec) :
    ∃ u ∈ ck.unitsOfRun sec run, u.text = combineTexts run := by
  cases run with
  | nil => exact absurd rfl hne
  | cons b run =>
    rw [Chunker.unitsOfRun, Chunker.splitUnitText]
    simp only
    rw [if_neg hne, if_pos hfits]
    exact ⟨_, List.mem_singleton.mpr rfl, rfl⟩

theorem unsplitParts_nil (blockKind : BlockKind) : unsplitParts [] blockKind = [] := by
  cases blockKind <;> decide

/-- A part of a run over the budget is in one unit. -/
theorem exists_unit_of_part {run : List (ℕ × ParsedBlock)} {part : Text}
    (hlarge : ck.sectionBudget sec < ck.tokenCounter.count (combineTexts run))
    (hpart : part ∈ unsplitPartsOfRun run) :
    ∃ u ∈ ck.unitsOfRun sec run, part <:+: u.text := by
  cases run with
  | nil => cases hpart
  | cons b run =>
    have hpart' : part ∈ unsplitParts (combineTexts (b :: run)) b.2.kind := hpart
    obtain ⟨large, hmem, hinfix⟩ := exists_infix_splitLargeText ck (ck.sectionBudget sec) hpart'
    have hne : large ≠ [] := fun hnil => by
      rw [hnil, List.infix_nil] at hinfix
      exact (strip_of_mem_unsplitParts hpart').1 hinfix
    have htext : combineTexts (b :: run) ≠ [] := fun hnil => by
      rw [hnil, unsplitParts_nil] at hpart'
      cases hpart'
    rw [Chunker.unitsOfRun, Chunker.splitUnitText]
    simp only
    rw [if_neg htext, if_neg (Nat.not_le_of_lt hlarge)]
    exact ⟨_, List.mem_map_of_mem (List.mem_filter.mpr ⟨hmem, by simpa using hne⟩), hinfix⟩

/-- The text of a unit of a section is in a chunk. -/
theorem exists_chunk_of_unit (h : ck.chunkDocument document = .ok chunks)
    (hsec : sec ∈ buildSections document.blocks) {u : TextUnit} (hu : u ∈ ck.buildUnits sec) :
    ∃ c ∈ chunks, stripText u.text <:+: c.content := by
  obtain ⟨splits, hgroups, hfresh, -, -, -⟩ := exists_splits ck document
  obtain ⟨group, hgroup, hmem⟩ : ∃ group ∈ ck.mergeSmallSections (buildSections document.blocks),
      sec ∈ group := by
    rw [← flatten_mergeSmallSections ck (buildSections document.blocks)] at hsec
    exact List.mem_flatten.mp hsec
  have hsource : u ∈ ck.groupSource group := by
    unfold Chunker.groupSource
    split
    · rw [List.mem_singleton.mp hmem] at hu
      exact hu
    · exact List.mem_flatMap.mpr ⟨sec, hmem, List.mem_append_right _ hu⟩
  have hread : u ∈ splits.flatMap Split.fresh := by
    rw [hfresh]
    exact List.mem_flatMap.mpr ⟨group, hgroup, hsource⟩
  obtain ⟨sp, hsp, hfresh⟩ := List.mem_flatMap.mp hread
  have hunits : sp.units ∈ ck.documentGroups document := by
    rw [hgroups]
    exact List.mem_map_of_mem hsp
  obtain ⟨c, hc, hcontent⟩ := exists_chunk_of_units h hunits
  exact ⟨c, hc, hcontent ▸ infix_contentOf (List.mem_append_right _ hfresh)⟩

/-- A run that keeps a pair together: it is within the budget of its section; or FAQ
    boundaries cut it, and none of them is in the pair; or the pair is in one of the parts
    that the other splitters leave. -/
def KeepsPair (ck : Chunker) (sec : Section) (run : List (ℕ × ParsedBlock))
    (question answer : ParsedBlock) : Prop :=
  ck.tokenCounter.count (combineTexts run) ≤ ck.sectionBudget sec ∨
    1 < (faqParts run).length ∧ ¬ ['\n', 'Q', ':'] <:+: pairText question answer ∨
    ∃ part ∈ unsplitPartsOfRun run, pairText question answer <:+: part

/-- A run that keeps a pair has a unit with the pair. -/
theorem exists_unit_of_keepsPair {run l r : List (ℕ × ParsedBlock)} {qb ab : ℕ × ParsedBlock}
    (hpair : IsFaqPair qb.2 ab.2) (hruns : run ∈ sectionRuns sec.blocks)
    (hrun : run = l ++ qb :: ab :: r) (hkeeps : KeepsPair ck sec run qb.2 ab.2) :
    ∃ u ∈ ck.unitsOfRun sec run, pairText qb.2 ab.2 <:+: u.text := by
  have hcombined : pairText qb.2 ab.2 <:+: combineTexts run := by
    obtain ⟨pre, post, htext, -⟩ := combineTexts_pair hpair l r
    rw [hrun, htext]
    exact ⟨pre, post, List.append_assoc _ _ _⟩
  have hne : combineTexts run ≠ [] := ne_nil_of_infix_pairText hcombined
  by_cases hfits : ck.tokenCounter.count (combineTexts run) ≤ ck.sectionBudget sec
  · obtain ⟨u, hu, htext⟩ := exists_unit_of_fits hne hfits
    exact ⟨u, hu, htext ▸ hcombined⟩
  · have hpart : ∃ part ∈ unsplitPartsOfRun run, pairText qb.2 ab.2 <:+: part := by
      rcases hkeeps with hle | ⟨hcut, hnone⟩ | hpart
      · exact absurd hle hfits
      · obtain ⟨part, hmem, hinfix⟩ := infix_part_of_faqBoundaries hpair hnone l r
        obtain ⟨b, c, rest, hlong⟩ : ∃ b c rest, run = b :: c :: rest := by
          rcases l with _ | ⟨b, _ | ⟨c, l⟩⟩
          · exact ⟨_, _, _, hrun⟩
          · exact ⟨_, _, _, hrun⟩
          · exact ⟨_, _, _, hrun⟩
        have hkind := kind_of_mem_sectionRuns hruns hlong
        rw [hlong] at hcut
        refine ⟨part, ?_, hinfix⟩
        rw [hlong, unsplitPartsOfRun_of_faqParts hkind hcut, ← hlong, hrun]
        exact hmem
      · exact hpart
    obtain ⟨part, hmem, hinfix⟩ := hpart
    obtain ⟨u, hu, htext⟩ := exists_unit_of_part (Nat.lt_of_not_le hfits) hmem
    exact ⟨u, hu, hinfix.trans htext⟩

/-- A question and the answer directly behind it are in one run, and if that run keeps them
    together, then so does a chunk. -/
theorem pair_kept (h : ck.chunkDocument document = .ok chunks)
    (hsec : sec ∈ buildSections document.blocks) {before after : List (ℕ × ParsedBlock)}
    {qb ab : ℕ × ParsedBlock} (hblocks : sec.blocks = before ++ qb :: ab :: after)
    (hpair : IsFaqPair qb.2 ab.2) :
    ∃ earlier run later l r, sectionRuns sec.blocks = earlier ++ run :: later ∧
      run = l ++ qb :: ab :: r ∧ before = earlier.flatten ++ l ∧
      (KeepsPair ck sec run qb.2 ab.2 →
        ∃ c ∈ chunks, pairText qb.2 ab.2 <:+: c.content) := by
  obtain ⟨earlier, run, later, l, r, hruns, hrun, hbefore⟩ :=
    exists_run_of_pair hpair sec.blocks before after hblocks
  refine ⟨earlier, run, later, l, r, hruns, hrun, hbefore, fun hkeeps => ?_⟩
  have hmem : run ∈ sectionRuns sec.blocks := by
    rw [hruns]
    exact List.mem_append_right _ List.mem_cons_self
  obtain ⟨u, hu, htext⟩ := exists_unit_of_keepsPair hpair hmem hrun hkeeps
  have hunit : u ∈ ck.buildUnits sec := by
    rw [buildUnits_eq]
    exact List.mem_flatMap.mpr ⟨run, hmem, hu⟩
  obtain ⟨c, hc, hcontent⟩ := exists_chunk_of_unit h hsec hunit
  refine ⟨c, hc, List.IsInfix.trans ?_ hcontent⟩
  rw [← strip_pairText hpair]
  exact strip_infix_strip isSpace htext

end Chunks

/-! ## A run over the budget -/

/-- A block of a FAQ. -/
def faqBlock (label : Char) (text : String) : ParsedBlock where
  text := text.toList
  kind := .qaPair
  metadata := { qaLabel := some [label] }

/-- A question with a short answer, and a second answer. -/
def faqDocument (second : String) : ParsedDocument where
  fileType := "txt"
  sourceTitle := "faq.txt"
  blocks := [faqBlock 'Q' "Q: When do I escalate?", faqBlock 'A' "A: After two retries.",
    faqBlock 'A' second]

theorem isFaqPair_faqDocument : IsFaqPair (faqBlock 'Q' "Q: When do I escalate?")
    (faqBlock 'A' "A: After two retries.") := by
  constructor <;> decide

theorem pair_kept_faqDocument :
    ∃ chunks, (sampleChunker "7e699aad0e21ab898c6a82bcb46cadad217e70c939cc745ddc16bda2bcffb65e").chunkDocument
        (faqDocument "A: Or three.") = .ok chunks ∧
      ∃ sec ∈ buildSections (faqDocument "A: Or three.").blocks,
        ∃ qb ab after, sec.blocks = [] ++ qb :: ab :: after ∧ IsFaqPair qb.2 ab.2 ∧
          ∃ earlier run later l r, sectionRuns sec.blocks = earlier ++ run :: later ∧
            run = l ++ qb :: ab :: r ∧ [] = earlier.flatten ++ l ∧
            (KeepsPair (sampleChunker
              "7e699aad0e21ab898c6a82bcb46cadad217e70c939cc745ddc16bda2bcffb65e") sec run qb.2 ab.2 →
              ∃ c ∈ chunks, pairText qb.2 ab.2 <:+: c.content) := by
  obtain ⟨chunks, h⟩ := chunkDocument_ok_iff.mpr (by decide +kernel : (sampleChunker
    "7e699aad0e21ab898c6a82bcb46cadad217e70c939cc745ddc16bda2bcffb65e").documentGroups
      (faqDocument "A: Or three.") ≠ [])
  have hsec : ∃ sec ∈ buildSections (faqDocument "A: Or three.").blocks,
      sec.blocks = [] ++ (0, faqBlock 'Q' "Q: When do I escalate?") ::
        (1, faqBlock 'A' "A: After two retries.") :: [(2, faqBlock 'A' "A: Or three.")] := by
    decide +kernel
  obtain ⟨sec, hmem, hblocks⟩ := hsec
  exact ⟨chunks, h, sec, hmem, _, _, _, hblocks, isFaqPair_faqDocument,
    pair_kept h hmem hblocks isFaqPair_faqDocument⟩

/-- What the second answer of the failing document says. -/
def longAnswer : String :=
  "A: A lead may wait for a third retry while the queue is being drained by hand."

/-- The pair is within the budget of 20 tokens, but its run is not: the sentences of the
    question and the answer are joined by a space, and no chunk has the pair. -/
theorem pair_torn :
    ∃ sec ∈ buildSections (faqDocument longAnswer).blocks,
      (∃ qb ab after, sec.blocks = qb :: ab :: after ∧ IsFaqPair qb.2 ab.2 ∧
        (sampleChunker "").tokenCounter.count (pairText qb.2 ab.2) ≤
          (sampleChunker "").sectionBudget sec ∧
        ∃ chunks, (sampleChunker "").chunkDocument (faqDocument longAnswer) = .ok chunks ∧
          ∀ c ∈ chunks, ¬ pairText qb.2 ab.2 <:+: c.content) := by
  have hsec : ∃ sec ∈ buildSections (faqDocument longAnswer).blocks,
      sec.blocks = (0, faqBlock 'Q' "Q: When do I escalate?") ::
        (1, faqBlock 'A' "A: After two retries.") :: [(2, faqBlock 'A' longAnswer)] ∧
      (sampleChunker "").tokenCounter.count
        (pairText (faqBlock 'Q' "Q: When do I escalate?")
          (faqBlock 'A' "A: After two retries.")) ≤ (sampleChunker "").sectionBudget sec := by
    decide +kernel
  have hnone : ∀ units ∈ (sampleChunker "").documentGroups (faqDocument longAnswer),
      ¬ pairText (faqBlock 'Q' "Q: When do I escalate?")
        (faqBlock 'A' "A: After two retries.") <:+: contentOf units := by
    decide +kernel
  obtain ⟨sec, hmem, hblocks, hfits⟩ := hsec
  obtain ⟨chunks, h⟩ := chunkDocument_ok_iff.mpr (by decide +kernel :
    (sampleChunker "").documentGroups (faqDocument longAnswer) ≠ [])
  refine ⟨sec, hmem, _, _, _, hblocks, isFaqPair_faqDocument, hfits, chunks, h, fun c hc => ?_⟩
  obtain ⟨units, hunits, hcontent⟩ := exists_units_of_chunk h hc
  exact hcontent ▸ hnone units hunits

end RagStack.Chunking
