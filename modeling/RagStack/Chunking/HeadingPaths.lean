import RagStack.Common.Outline
import RagStack.Chunking.Sections

/-!
# `Chunker`: heading paths

`app/services/chunker.py`, lines 79–123: the path of a section is the stack of the texts of
the headings before it. The stack is cut by its length (line 101), as if a heading of level
three were always the third of its path.

* `closeHeadings_eq_take`: a heading of level `n` leaves `n - 1` headings open.
* `scanInv_scan`: the stack is that of the headings read.
* `paths_in_outline_iff`: the paths are the chains of the enclosing headings exactly if
  before no block a heading is open whose level is that of a later heading, or deeper.
-/

namespace RagStack.Chunking

open RagStack.Common RagStack.Worker

/-! ## Headings before a block -/

/-- The headings of a part of a document, the last one first. -/
def headingsOf (blocks : List ParsedBlock) : List ParsedBlock :=
  (blocks.filter fun b => b.kind = .heading).reverse

/-- The headings before the blocks of a section, the last one first. -/
def headingsBefore (blocks : List ParsedBlock) (sec : Section) : List ParsedBlock :=
  headingsOf (blocks.take (sec.blocks.head?.elim 0 Prod.fst))

/-- The path that the outline gives to a section: its own heading, behind the nearest heading
    before it of a smaller level, behind the nearest one before that, and so on. -/
def outlinePath : List ParsedBlock → List Text
  | [] => []
  | own :: before =>
    (enclosing headingLevel (headingLevel own) before ++ [own]).map ParsedBlock.text

/-- The stack after the headings. -/
def stackPath (headings : List ParsedBlock) : List Text :=
  (cutStack headingLevel headings).map ParsedBlock.text

theorem one_le_headingLevel (block : ParsedBlock) : 1 ≤ headingLevel block := by
  unfold headingLevel
  split
  · split_ifs <;> omega
  · exact Nat.le_refl 1

theorem headingsOf_append_heading {blocks : List ParsedBlock} {b : ParsedBlock}
    (h : b.kind = .heading) : headingsOf (blocks ++ [b]) = b :: headingsOf blocks := by
  simp [headingsOf, h]

theorem headingsOf_append_body {blocks : List ParsedBlock} {b : ParsedBlock}
    (h : b.kind ≠ .heading) : headingsOf (blocks ++ [b]) = headingsOf blocks := by
  simp [headingsOf, h]

/-! ## The stack -/

theorem closeHeadings_eq_take {level : ℕ} (hlevel : 1 ≤ level) (stack : List Text) :
    closeHeadings level stack = stack.take (level - 1) := by
  obtain ⟨hinv, hend⟩ := @whileLoop_rule (List Text) List.length
    (fun stack => decide (stack ≠ [] ∧ level ≤ stack.length)) List.dropLast
    (fun s => s.take (level - 1) = stack.take (level - 1))
    (by
      intro s hs hc
      obtain ⟨hne, hle⟩ := of_decide_eq_true hc
      have hpos := List.length_pos_iff.mpr hne
      refine ⟨?_, by rw [List.length_dropLast]; omega⟩
      rw [← hs, List.dropLast_eq_take, List.take_take, min_eq_left (by omega)])
    stack rfl
  unfold closeHeadings
  rw [← hinv]
  symm
  refine List.take_of_length_le ?_
  by_contra hlong
  refine absurd (of_decide_eq_false hend) (not_not.mpr ⟨?_, by omega⟩)
  intro hnil
  rw [hnil] at hlong
  exact hlong (Nat.zero_le _)

/-- The variables of the scan after the first `n` blocks. -/
structure ScanInv (blocks : List ParsedBlock) (n : ℕ) (s : ScanState) : Prop where
  stack : s.headingStack = stackPath (headingsOf (blocks.take n))
  path : s.path = stackPath (headingsOf (blocks.take n))
  opened : ∀ b ∈ s.blocks, headingsOf (blocks.take b.1) = headingsOf (blocks.take n)
  closed : ∀ sec ∈ s.sections, sec.blocks ≠ [] ∧ ∃ headings, sec.path = stackPath headings ∧
    ∀ b ∈ sec.blocks, headingsOf (blocks.take b.1) = headings

theorem ScanInv.flush {blocks : List ParsedBlock} {n : ℕ} {s : ScanState}
    (h : ScanInv blocks n s) :
    ∀ sec ∈ s.flush, sec.blocks ≠ [] ∧ ∃ headings, sec.path = stackPath headings ∧
      ∀ b ∈ sec.blocks, headingsOf (blocks.take b.1) = headings := by
  unfold ScanState.flush
  split_ifs with hne
  · exact h.closed
  · intro sec hsec
    rcases List.mem_append.mp hsec with hsec | hsec
    · exact h.closed sec hsec
    · rw [List.mem_singleton.mp hsec]
      exact ⟨hne, _, h.path, h.opened⟩

/-- One block: a heading closes the section, and the others join it. -/
theorem ScanInv.step {blocks : List ParsedBlock} {n : ℕ} {s : ScanState} {b : ParsedBlock}
    (h : ScanInv blocks n s) (hb : blocks.take (n + 1) = blocks.take n ++ [b]) :
    ScanInv blocks (n + 1) (scanBlock s (n, b)) := by
  by_cases hk : b.kind = .heading
  · have hstack : closeHeadings (headingLevel b) s.headingStack ++ [b.text] =
        stackPath (headingsOf (blocks.take (n + 1))) := by
      rw [hb, headingsOf_append_heading hk, closeHeadings_eq_take (one_le_headingLevel b),
        h.stack, stackPath, stackPath, cutStack, List.map_append, List.map_take]
      rfl
    have hscan : scanBlock s (n, b) =
        { sections := s.flush
          headingStack := stackPath (headingsOf (blocks.take (n + 1)))
          title := some b.text
          path := stackPath (headingsOf (blocks.take (n + 1)))
          level := some (headingLevel b)
          blocks := [] } := by
      rw [← hstack]
      exact if_pos hk
    rw [hscan]
    exact ⟨rfl, rfl, List.forall_mem_nil _, h.flush⟩
  · have hsame : headingsOf (blocks.take (n + 1)) = headingsOf (blocks.take n) := by
      rw [hb, headingsOf_append_body hk]
    have hscan : scanBlock s (n, b) = { s with blocks := s.blocks ++ [(n, b)] } := if_neg hk
    rw [hscan]
    refine ⟨hsame ▸ h.stack, hsame ▸ h.path, fun c hc => ?_, h.closed⟩
    rw [hsame]
    rcases List.mem_append.mp hc with hc | hc
    · exact h.opened c hc
    · rw [List.mem_singleton.mp hc]

theorem scanInv_scan {blocks : List ParsedBlock} (rest : List ParsedBlock) :
    ∀ {n : ℕ} {s : ScanState}, blocks.drop n = rest → ScanInv blocks n s →
      ScanInv blocks (n + rest.length)
        (((List.range' n rest.length).zip rest).foldl scanBlock s) := by
  induction rest with
  | nil => exact fun _ h => h
  | cons b rest ih =>
    intro n s hdrop h
    have hnext : blocks.take (n + 1) = blocks.take n ++ [b] := by
      have hget : blocks[n]? = some b := by
        rw [← List.head?_drop, hdrop]
        rfl
      rw [List.take_add_one, hget]
      rfl
    have hrest : blocks.drop (n + 1) = rest := by
      rw [← List.tail_drop, hdrop]
      rfl
    have hscan := ih hrest (h.step hnext)
    rw [Nat.add_right_comm] at hscan
    exact hscan

/-- A section that is not empty has the path of its headings. -/
theorem path_of_mem_buildSections {blocks : List ParsedBlock} {sec : Section}
    (hsec : sec ∈ buildSections blocks) :
    sec.path = stackPath (headingsBefore blocks sec) ∧
      ∀ b ∈ sec.blocks, headingsOf (blocks.take b.1) = headingsBefore blocks sec := by
  have hinv : ScanInv blocks (0 + blocks.length) ((enumerate blocks).foldl scanBlock {}) := by
    rw [enumerate, List.range_eq_range']
    exact scanInv_scan blocks rfl
      ⟨rfl, rfl, List.forall_mem_nil _, List.forall_mem_nil _⟩
  unfold buildSections at hsec
  simp only at hsec
  split_ifs at hsec
  · rw [List.mem_singleton.mp hsec]
    exact ⟨rfl, List.forall_mem_nil _⟩
  · obtain ⟨hne, headings, hpath, hsame⟩ := hinv.flush sec hsec
    obtain ⟨b, rest, hblocks⟩ := List.exists_cons_of_ne_nil hne
    have hbefore : headingsBefore blocks sec = headings := by
      rw [← hsame b (by rw [hblocks]; exact List.mem_cons_self), headingsBefore, hblocks]
      rfl
    rw [hbefore]
    exact ⟨hpath, hsame⟩

/-! ## Paths and outlines -/

/-- The path of the stack is that of the outline exactly if the levels are in outline. -/
theorem stackPath_eq_outlinePath_iff (headings : List ParsedBlock) :
    stackPath headings = outlinePath headings ↔
      ∀ own before, headings = own :: before →
        Outlined headingLevel (headingLevel own) before := by
  cases headings with
  | nil => exact iff_of_true rfl fun own before h => by cases h
  | cons own before =>
    rw [stackPath, outlinePath, cutStack, List.map_append, List.map_append,
      List.append_left_inj, take_cutStack_eq_enclosing_iff one_le_headingLevel]
    constructor
    · rintro h _ _ ⟨⟩
      exact h
    · exact fun h => h own before rfl

/-- Before no block of the text a heading is open whose level is that of a later heading
    before the block, or deeper. -/
def InOutline (blocks : List ParsedBlock) : Prop :=
  ∀ pre b post own before, blocks = pre ++ b :: post → b.kind ≠ .heading →
    headingsOf pre = own :: before → Outlined headingLevel (headingLevel own) before

/-- The paths are the chains of the enclosing headings exactly if the levels before each
    block are in outline. -/
theorem paths_in_outline_iff (blocks : List ParsedBlock) :
    (∀ sec ∈ buildSections blocks, sec.path = outlinePath (headingsBefore blocks sec)) ↔
      InOutline blocks := by
  constructor
  · intro h pre b post own before hblocks hk hpre
    -- the block is in a section, and the headings before it are those of the section
    have hget : (pre.length, b) ∈ enumerate blocks := by
      rw [enumerate, List.mem_iff_getElem?]
      refine ⟨pre.length, ?_⟩
      rw [List.getElem?_zip_eq_some]
      simp [hblocks]
    have hmem : (pre.length, b) ∈ (buildSections blocks).flatMap Section.blocks := by
      rw [blocks_buildSections]
      exact List.mem_filter.mpr ⟨hget, by simpa using hk⟩
    obtain ⟨sec, hsec, hb⟩ := List.mem_flatMap.mp hmem
    obtain ⟨hpath, hsame⟩ := path_of_mem_buildSections hsec
    have hheadings : headingsBefore blocks sec = own :: before := by
      rw [← hsame _ hb, ← hpre, hblocks, List.take_left]
    have houtline := h sec hsec
    rw [hpath, stackPath_eq_outlinePath_iff] at houtline
    exact houtline own before hheadings
  · intro h sec hsec
    obtain ⟨hpath, hsame⟩ := path_of_mem_buildSections hsec
    rw [hpath, stackPath_eq_outlinePath_iff]
    intro own before hheadings
    cases hblocks : sec.blocks with
    | nil =>
      rw [headingsBefore, hblocks] at hheadings
      cases hheadings
    | cons first rest =>
      have hfirst : first ∈ sec.blocks := by
        rw [hblocks]
        exact List.mem_cons_self
      have hbody : first ∈ (enumerate blocks).filter fun b => b.2.kind ≠ .heading := by
        rw [← blocks_buildSections]
        exact List.mem_flatMap.mpr ⟨sec, hsec, hfirst⟩
      obtain ⟨hmem, hk⟩ := List.mem_filter.mp hbody
      obtain ⟨n, hn⟩ := List.mem_iff_getElem?.mp hmem
      rw [enumerate, List.getElem?_zip_eq_some] at hn
      obtain ⟨hindex, hblock⟩ := hn
      have hfst : first.1 = n := by
        obtain ⟨_, hrange⟩ := List.getElem?_eq_some_iff.mp hindex
        simpa using hrange.symm
      refine h (blocks.take n) first.2 (blocks.drop (n + 1)) own before ?_ (by simpa using hk) ?_
      · obtain ⟨hlt, hget⟩ := List.getElem?_eq_some_iff.mp hblock
        rw [← hget, ← List.drop_eq_getElem_cons hlt, List.take_append_drop]
      · rw [← hheadings, ← hsame first hfirst, hfst]

/-- A guide that goes from level one to level three. -/
def skippedLevels : List ParsedBlock :=
  [{ text := "Guide".toList, kind := .heading, metadata := { headingLevel := some 1 } },
    { text := "Install".toList, kind := .heading, metadata := { headingLevel := some 3 } },
    { text := "Run the installer.".toList },
    { text := "Upgrade".toList, kind := .heading, metadata := { headingLevel := some 3 } },
    { text := "Stop the worker.".toList }]

/-- The second heading of level three is put under the first one. -/
theorem skippedLevels_path :
    ¬ ∀ sec ∈ buildSections skippedLevels,
      sec.path = outlinePath (headingsBefore skippedLevels sec) := by
  decide

end RagStack.Chunking
