import RagStack.Chunking.Document

/-!
# Sizes of chunks

With the fallback counter (a quarter of the length) the token counts that the
chunker adds up do not include what the parts are joined with: a blank line
between units, a space between packed parts or words. A chunk may therefore
exceed the target, by half of it at most.

* `chunkDocument_size`: the bound, unless the content has a title that exceeds the
  target, or a part that no splitter cut to the budget of its section.
* `target_exceeded`: two units that fill the target exactly exceed it together.
-/

namespace RagStack.Chunking

open RagStack.Common RagStack.Worker

variable {ck : Chunker} {document : ParsedDocument}

/-- The unit texts and token counts of a group, as the chunker made them. -/
theorem unit_of_groupSource {group : List Section} {u : TextUnit} (hu : u ∈ ck.groupSource group) :
    u.text ≠ [] ∧ u.tokenCount = ck.tokenCounter.count u.text := by
  rcases mem_groupSource hu with ⟨sec, -, hu, -⟩ | ⟨sec, -, t, ht, rfl, -⟩
  · obtain ⟨b, -, hof⟩ := exists_kind_of_mem_buildUnits hu
    exact ⟨hof.text_ne_nil, hof.tokenCount⟩
  · exact ⟨by simpa [Chunker.titleUnit] using (Option.filter_eq_some_iff.mp ht).2, rfl⟩

theorem unit_of_split {title : Option Text} {limit : ℕ} {group : List Section} {sp : Split}
    (hsplit : SplitOk ck title limit (ck.groupSource group) sp) {u : TextUnit} (hu : u ∈ sp.units) :
    u.text ≠ [] ∧ u.tokenCount = ck.tokenCounter.count u.text := by
  rw [Split.units, List.append_assoc, List.mem_append] at hu
  rcases hu with hu | hu
  · rcases hsplit.heading with hnil | ⟨h, hh, -, htitle, hcount⟩
    · rw [hnil] at hu
      cases hu
    · rw [hh, List.mem_singleton] at hu
      subst hu
      exact ⟨by simpa using (Option.filter_eq_some_iff.mp htitle).2, hcount⟩
  · exact unit_of_groupSource (hsplit.subset hu)

/-- The content is at most as long as its units joined by blank lines. -/
theorem length_contentOf_le {units : List TextUnit} (hne : ∀ u ∈ units, u.text ≠ []) :
    (contentOf units).length ≤ (join "\n\n".toList (units.map TextUnit.text)).length := by
  have hfilter : ((units.map TextUnit.text).filter fun t => t ≠ []) = units.map TextUnit.text := by
    apply List.filter_eq_self.mpr
    intro t ht
    obtain ⟨u, hu, rfl⟩ := List.mem_map.mp ht
    simpa using hne u hu
  rw [contentOf, hfilter]
  exact (isInfix_strip isSpace _).length_le

/-- Joined by blank lines, units whose token counts are within the limit have less than six
    characters for each token of it. -/
theorem length_join_of_tokens (hck : ck.tokenCounter = .charApprox) {units : List TextUnit}
    (hunits : ∀ u ∈ units, u.text ≠ [] ∧ u.tokenCount = ck.tokenCounter.count u.text) {limit : ℕ}
    (hpos : 1 ≤ limit) (hsum : unitTokens units ≤ limit) :
    (join "\n\n".toList (units.map TextUnit.text)).length + 2 ≤ 6 * limit := by
  cases units with
  | nil =>
    simp only [List.map_nil, join_nil, List.length_nil]
    omega
  | cons u units =>
    have hcount : ((u :: units).map TextUnit.text).map TokenCounter.charApprox.count =
        (u :: units).map TextUnit.tokenCount := by
      rw [List.map_map]
      exact List.map_congr_left fun v hv => by rw [(hunits v hv).2, hck]; rfl
    have htexts : ∀ t ∈ (u :: units).map TextUnit.text, t ≠ [] := by
      intro t ht
      obtain ⟨v, hv, rfl⟩ := List.mem_map.mp ht
      exact (hunits v hv).1
    have hsum' : (((u :: units).map TextUnit.text).map TokenCounter.charApprox.count).sum ≤ limit := by
      rw [hcount]
      exact hsum
    have hlen := length_join_le (by simp) htexts "\n\n".toList hsum'
    rw [show "\n\n".toList.length = 2 by decide] at hlen
    omega

/-- A chunk that repeats a title. -/
theorem length_contentOf_cons {h : TextUnit} {units : List TextUnit} (hh : h.text ≠ [])
    (hunits : ∀ u ∈ units, u.text ≠ []) :
    (contentOf (h :: units)).length ≤
      h.text.length + 2 + (join "\n\n".toList (units.map TextUnit.text)).length := by
  apply (length_contentOf_le (List.forall_mem_cons.mpr ⟨hh, hunits⟩)).trans
  cases units with
  | nil => simp
  | cons u units =>
    have hsep : "\n\n".toList.length = 2 := by decide
    simp only [List.map_cons, join_cons_cons, List.length_append, hsep]
    exact le_rfl

/-! ## Budgets -/

/-- The limit of a section on its own is the budget of its units; merged
    sections share the whole target. -/
theorem chunkLimit_of_none {title : Option Text} (h : truthy title = none) :
    ck.chunkLimit title = ck.settings.chunkTargetTokens := by
  have := ck.settings.target_ge
  simp only [Chunker.chunkLimit, h, Option.elim_none]
  omega

theorem sectionBudget_eq_chunkLimit (ck : Chunker) (sec : Section) :
    ck.sectionBudget sec = ck.chunkLimit sec.title := by
  unfold Chunker.sectionBudget
  cases h : truthy sec.title with
  | none => exact (chunkLimit_of_none h).symm
  | some t => simp [Chunker.chunkLimit, h]

theorem chunkLimit_le_target (ck : Chunker) (title : Option Text) :
    ck.chunkLimit title ≤ ck.settings.chunkTargetTokens := by
  have := ck.settings.target_ge
  unfold Chunker.chunkLimit
  omega

/-- The content has a section title that alone exceeds the target. -/
def TitleOverTarget (ck : Chunker) (document : ParsedDocument) (content : Text) : Prop :=
  ∃ b ∈ document.blocks, b.kind = .heading ∧
    ck.settings.chunkTargetTokens < ck.tokenCounter.count b.text ∧ stripText b.text <:+: content

/-- The content has a part that the splitters left whole although it exceeds the
    budget of its section. -/
def PartOverBudget (ck : Chunker) (document : ParsedDocument) (content : Text) : Prop :=
  ∃ sec ∈ buildSections document.blocks, ∃ run ∈ sectionRuns sec.blocks,
    ∃ part ∈ unsplitPartsOfRun run,
      ck.sectionBudget sec < ck.tokenCounter.count part ∧ part <:+: content

/-- The group of a section that is one unit of the section is within five
    characters for each token, unless a part is over budget. -/
theorem length_of_section_unit (hck : ck.tokenCounter = .charApprox) {sec : Section}
    (hsec : sec ∈ buildSections document.blocks) {u : TextUnit} (hu : u ∈ ck.buildUnits sec)
    {units : List TextUnit} (hmem : u ∈ units) :
    u.text.length + 1 ≤ 5 * ck.sectionBudget sec ∨ PartOverBudget ck document (contentOf units) := by
  rcases length_of_mem_buildUnits hck hu with h | ⟨run, hrun, part, hpart, hinfix, hlt⟩
  · exact Or.inl h
  · refine Or.inr ⟨sec, hsec, run, hrun, part, hpart, hlt, ?_⟩
    rw [← strip_of_mem_unsplitPartsOfRun hpart]
    exact (strip_infix_strip isSpace hinfix).trans (infix_contentOf hmem)

section Split

variable {group : List Section} {sp : Split}

/-- A title that a chunk repeats is within the target, unless it alone exceeds it. -/
theorem title_le_target_or_over
    (hg : group ∈ ck.mergeSmallSections (buildSections document.blocks)) {u : TextUnit}
    (ht : truthy (groupTitle group) = some u.text) (hu : u ∈ sp.units) :
    ck.tokenCounter.count u.text ≤ ck.settings.chunkTargetTokens ∨
      TitleOverTarget ck document (contentOf sp.units) := by
  rcases Nat.lt_or_ge ck.settings.chunkTargetTokens (ck.tokenCounter.count u.text) with hlt | hle
  · obtain ⟨-, b, hb, hk, hb'⟩ := exists_heading_of_groupTitle hg ht
    refine Or.inr ⟨b, carriedBlocks_subset _ hb, hk, by rwa [hb'], ?_⟩
    rw [hb']
    exact infix_contentOf hu
  · exact Or.inl hle

theorem chunkLimit_of_title {title : Option Text} {t : Text} (ht : truthy title = some t) :
    ck.chunkLimit title = max 1 (ck.settings.chunkTargetTokens - ck.tokenCounter.count t) := by
  simp only [Chunker.chunkLimit, ht, Option.elim_some]

theorem units_eq_heading_append (sp : Split) : sp.units = sp.heading ++ (sp.overlap ++ sp.fresh) := by
  rw [Split.units, List.append_assoc]

/-- A chunk whose units are within the limit of its group. -/
theorem length_within_limit (hck : ck.tokenCounter = .charApprox)
    (hg : group ∈ ck.mergeSmallSections (buildSections document.blocks))
    (hsplit : SplitOk ck (groupTitle group) (ck.chunkLimit (groupTitle group))
      (ck.groupSource group) sp)
    (hsum : unitTokens (sp.overlap ++ sp.fresh) ≤ ck.chunkLimit (groupTitle group)) :
    (contentOf sp.units).length + 2 ≤ 6 * ck.settings.chunkTargetTokens ∨
      TitleOverTarget ck document (contentOf sp.units) := by
  have hT := ck.settings.target_ge
  have hunits : ∀ u ∈ sp.overlap ++ sp.fresh,
      u.text ≠ [] ∧ u.tokenCount = ck.tokenCounter.count u.text :=
    fun u hu => unit_of_groupSource (hsplit.subset hu)
  have hjoin := length_join_of_tokens hck hunits (by simp [Chunker.chunkLimit]) hsum
  rcases hsplit.heading with hnil | ⟨h, hh, -, ht, -⟩
  · left
    have hcontent := length_contentOf_le fun u hu => (hunits u hu).1
    have hlimit := chunkLimit_le_target ck (groupTitle group)
    rw [units_eq_heading_append, hnil, List.nil_append]
    omega
  · have hmem : h ∈ sp.units := by simp [units_eq_heading_append, hh]
    have hne := (unit_of_split hsplit hmem).1
    rcases title_le_target_or_over hg ht hmem with hle | hover
    · left
      have hcontent := length_contentOf_cons hne fun u hu => (hunits u hu).1
      have hhlen := TokenCounter.length_le_four_mul_count h.text
      have hpos := TokenCounter.count_pos_of_ne_nil hne
      rw [chunkLimit_of_title ht] at hjoin
      rw [hck] at hle hjoin
      rw [units_eq_heading_append, hh, List.singleton_append]
      omega
    · exact Or.inr hover

/-- A chunk with one unit of a section, and its title if it is repeated. -/
theorem length_single_unit (hck : ck.tokenCounter = .charApprox)
    (hg : group ∈ ck.mergeSmallSections (buildSections document.blocks))
    (hsplit : SplitOk ck (groupTitle group) (ck.chunkLimit (groupTitle group))
      (ck.groupSource group) sp)
    {u : TextUnit} (hu : sp.overlap ++ sp.fresh = [u]) {sec : Section}
    (hgt : groupTitle group = sec.title ∨ groupTitle group = none)
    (hlen : u.text.length + 1 ≤ 5 * ck.sectionBudget sec) :
    (contentOf sp.units).length + 2 ≤ 6 * ck.settings.chunkTargetTokens ∨
      TitleOverTarget ck document (contentOf sp.units) := by
  have hT := ck.settings.target_ge
  have hunits {v : TextUnit} (hv : v ∈ sp.units) := unit_of_split hsplit hv
  have hmem : u ∈ sp.units := by simp [units_eq_heading_append, hu]
  rcases hsplit.heading with hnil | ⟨h, hh, -, ht, -⟩
  · left
    have hbudget := chunkLimit_le_target ck sec.title
    rw [← sectionBudget_eq_chunkLimit] at hbudget
    have hcontent : (contentOf sp.units).length ≤ u.text.length := by
      apply (length_contentOf_le fun v hv => (hunits hv).1).trans
      simp [units_eq_heading_append, hnil, hu]
    omega
  · have hmemh : h ∈ sp.units := by simp [units_eq_heading_append, hh]
    rcases title_le_target_or_over hg ht hmemh with hle | hover
    · left
      have hgt' : groupTitle group = sec.title := by
        rcases hgt with hgt | hgt
        · exact hgt
        · rw [hgt] at ht
          cases ht
      have hbudget := sectionBudget_eq_chunkLimit ck sec
      rw [← hgt', chunkLimit_of_title ht] at hbudget
      have hcontent : (contentOf sp.units).length ≤ h.text.length + 2 + u.text.length := by
        have hcons := length_contentOf_cons (hunits hmemh).1
          (List.forall_mem_singleton.mpr (hunits hmem).1)
        rw [units_eq_heading_append, hh, hu]
        simpa using hcons
      have hhlen := TokenCounter.length_le_four_mul_count h.text
      rw [hck] at hle hbudget
      omega
    · exact Or.inr hover

/-- The length of the content of a chunk. -/
theorem length_contentOf_split (hck : ck.tokenCounter = .charApprox)
    (hg : group ∈ ck.mergeSmallSections (buildSections document.blocks))
    (hsplit : SplitOk ck (groupTitle group) (ck.chunkLimit (groupTitle group))
      (ck.groupSource group) sp) :
    (contentOf sp.units).length + 2 ≤ 6 * ck.settings.chunkTargetTokens ∨
      TitleOverTarget ck document (contentOf sp.units) ∨
      PartOverBudget ck document (contentOf sp.units) := by
  have hT := ck.settings.target_ge
  by_cases hsum : unitTokens (sp.overlap ++ sp.fresh) ≤ ck.chunkLimit (groupTitle group)
  · exact (length_within_limit hck hg hsplit hsum).imp_right Or.inl
  -- a single unit over the limit
  obtain ⟨u, hu⟩ := hsplit.fits.resolve_left hsum
  have hmem : u ∈ sp.units := by simp [units_eq_heading_append, hu]
  have hsource : u ∈ ck.groupSource group := hsplit.subset (by simp [hu])
  rcases mem_groupSource hsource with ⟨sec, hsec, hus, hgt⟩ | ⟨sec, hsec, t, ht, rfl, hnone⟩
  · rcases length_of_section_unit hck (mem_buildSections_of_mem_group hg hsec) hus hmem with hlen | hpart
    · rcases length_single_unit hck hg hsplit hu hgt hlen with h | h
      · exact Or.inl h
      · exact Or.inr (Or.inl h)
    · exact Or.inr (Or.inr hpart)
  · -- the title of a merged section
    right
    left
    obtain ⟨b, hb, hk, hb'⟩ := title_of_mem_buildSections
      (mem_buildSections_of_mem_group hg hsec) (Option.filter_eq_some_iff.mp ht).1
    refine ⟨b, carriedBlocks_subset _ hb, hk, ?_, ?_⟩
    · rw [hu, hnone, chunkLimit_of_none rfl] at hsum
      simp only [unitTokens, Chunker.titleUnit, List.map_cons, List.map_nil, List.sum_cons,
        List.sum_nil] at hsum
      rw [hb']
      omega
    · rw [hb']
      exact infix_contentOf hmem

end Split

/-- With the fallback counter a chunk has at most one and a half times the
    target's tokens, unless its content has a title over the target or a
    part that was left over the budget of its section. -/
theorem chunkDocument_size (hck : ck.tokenCounter = .charApprox) {chunks : List ChunkRecord}
    (h : ck.chunkDocument document = .ok chunks) :
    ∀ c ∈ chunks, 2 * c.tokenCount ≤ 3 * ck.settings.chunkTargetTokens ∨
      TitleOverTarget ck document c.content ∨ PartOverBudget ck document c.content := by
  intro c hc
  obtain ⟨units, hu, hcontent⟩ := exists_units_of_chunk h hc
  obtain ⟨sp, rfl, group, hg, hsplit⟩ := exists_split_of_mem hu
  rw [hcontent]
  rcases length_contentOf_split hck hg hsplit with hlen | hexception
  · left
    have htokens : c.tokenCount = TokenCounter.charApprox.count (contentOf sp.units) := by
      rw [← hck, ← hcontent]
      exact tokenCount_of_mem_chunkDocument h hc
    rw [htokens, TokenCounter.count_charApprox, TokenCounter.ceilQuarter]
    omega
  · exact Or.inr hexception

/-- Two paragraphs of forty characters: ten tokens each, and the target is twenty. -/
def fullDocument : ParsedDocument where
  fileType := "txt"
  sourceTitle := "runbook.txt"
  blocks := [{ text := "Restart the ingest worker after updates.".toList },
    { text := "Check the queue before closing an alert.".toList }]

/-- The content of its one chunk. -/
def fullContent : Text :=
  "Restart the ingest worker after updates.\n\nCheck the queue before closing an alert.".toList

/-- The checksum of this chunk. -/
def fullDigest : String := "97532c48cd16c177aeb3945ad594a2c0060bbc449d07f7e9a11703edb4071456"

theorem chunkDocument_size_full :
    ∃ chunks, (sampleChunker fullDigest).chunkDocument fullDocument = .ok chunks ∧
      ∀ c ∈ chunks, 2 * c.tokenCount ≤ 3 * 20 ∨
        TitleOverTarget (sampleChunker fullDigest) fullDocument c.content ∨
        PartOverBudget (sampleChunker fullDigest) fullDocument c.content := by
  obtain ⟨chunks, h⟩ := chunkDocument_ok_iff.mpr
    (by decide +kernel : (sampleChunker fullDigest).documentGroups fullDocument ≠ [])
  exact ⟨chunks, h, chunkDocument_size rfl h⟩

/-- The two paragraphs make one chunk of twenty-one tokens: the blank line
    between them is not counted. -/
theorem target_exceeded :
    ¬ ∀ (ck : Chunker) (document : ParsedDocument) (chunks : List ChunkRecord),
      ck.tokenCounter = .charApprox → ck.chunkDocument document = .ok chunks →
      ∀ c ∈ chunks, c.tokenCount ≤ ck.settings.chunkTargetTokens ∨
        (∃ w ∈ splitWords c.content, ck.settings.chunkTargetTokens < ck.tokenCounter.count w) ∨
        ∃ b ∈ document.blocks, b.kind = .heading ∧
          ck.settings.chunkTargetTokens < ck.tokenCounter.count b.text ∧
          stripText b.text <:+: c.content := by
  intro hall
  obtain ⟨chunks, h⟩ := chunkDocument_ok_iff.mpr
    (by decide +kernel : (sampleChunker fullDigest).documentGroups fullDocument ≠ [])
  have hcontent := content_chunkDocument h
  have hsize : ((sampleChunker fullDigest).documentGroups fullDocument).map contentOf =
      [fullContent] := by decide +kernel
  rw [hsize] at hcontent
  obtain ⟨c, rfl, hc⟩ := List.map_eq_singleton_iff.mp hcontent
  have htokens := tokenCount_of_mem_chunkDocument h List.mem_cons_self
  rw [hc] at htokens
  have hcount : (sampleChunker fullDigest).tokenCounter.count fullContent = 21 := by decide +kernel
  rcases hall _ _ _ rfl h c List.mem_cons_self with hle | ⟨w, hw, hlt⟩ | ⟨b, hb, hk, -⟩
  · rw [htokens, hcount] at hle
    exact absurd hle (by decide)
  · have hwords : ∀ w ∈ splitWords fullContent,
        ¬ 20 < (sampleChunker fullDigest).tokenCounter.count w := by decide +kernel
    rw [hc] at hw
    exact hwords w hw hlt
  · have hnone : ∀ b ∈ fullDocument.blocks, b.kind ≠ .heading := by decide
    exact hnone b hb hk

end RagStack.Chunking
