import Mathlib.Data.List.Dedup
import Mathlib.Data.List.Sort
import Mathlib.Order.Bounds.Basic
import RagStack.Chunking.Checksums
import RagStack.Chunking.FaqPairs

/-!
# `Chunker`: pages and block indexes of a chunk

`app/services/chunker.py`, lines 156–269 and 365–433: a unit has the pages and the indexes
of the run of blocks that it was cut from, or, if it is the title of a merged section, those
of the section; a title that is put in front copies from the first unit.

* `Source`: the blocks that a unit takes its pages and indexes from.
* `mem_pageNumbers_iff`, `blockIndexes_iff`: a unit has those of its sources.
* `provenance_chunkDocument`: so has a chunk.
-/

namespace RagStack.Chunking

open RagStack.Common RagStack.Worker

/-! ## Sorted indexes -/

theorem mem_uniquePageNumbers {pages : List (Option ℤ)} {page : ℤ} :
    page ∈ uniquePageNumbers pages ↔ some page ∈ pages := by
  rw [uniquePageNumbers, List.mem_insertionSort, List.mem_dedup, List.mem_filterMap]
  exact exists_eq_right

theorem mem_sortedIndexes {indexes : List ℕ} {i : ℕ} : i ∈ sortedIndexes indexes ↔ i ∈ indexes := by
  rw [sortedIndexes, List.mem_insertionSort, List.mem_dedup]

theorem pairwise_sortedIndexes (indexes : List ℕ) :
    (sortedIndexes indexes).Pairwise (· ≤ ·) :=
  List.pairwise_insertionSort _ _

/-- The first of the sorted indexes is the least. -/
theorem head?_sortedIndexes {indexes : List ℕ} {i : ℕ} :
    (sortedIndexes indexes).head? = some i ↔ IsLeast {j | j ∈ indexes} i := by
  have hsorted := pairwise_sortedIndexes indexes
  have hmem : {j | j ∈ indexes} = {j | j ∈ sortedIndexes indexes} :=
    Set.ext fun j => mem_sortedIndexes.symm
  rw [hmem]
  cases hlist : sortedIndexes indexes with
  | nil => exact iff_of_false (by simp) fun h => List.not_mem_nil h.1
  | cons first rest =>
    rw [hlist] at hsorted
    have hleast : IsLeast {j | j ∈ first :: rest} first := by
      refine ⟨List.mem_cons_self, fun j hj => ?_⟩
      rcases List.mem_cons.mp hj with rfl | hj
      · exact le_rfl
      · exact List.rel_of_pairwise_cons hsorted hj
    constructor
    · rintro ⟨⟩
      exact hleast
    · intro h
      rw [h.unique hleast]
      rfl

/-- The last of the sorted indexes is the greatest. -/
theorem getLast?_sortedIndexes {indexes : List ℕ} {i : ℕ} :
    (sortedIndexes indexes).getLast? = some i ↔ IsGreatest {j | j ∈ indexes} i := by
  have hsorted := pairwise_sortedIndexes indexes
  have hmem : {j | j ∈ indexes} = {j | j ∈ sortedIndexes indexes} :=
    Set.ext fun j => mem_sortedIndexes.symm
  rw [hmem]
  rcases List.eq_nil_or_concat' (sortedIndexes indexes) with hlist | ⟨front, last, hlist⟩
  · rw [hlist]
    exact iff_of_false (by simp) fun h => List.not_mem_nil h.1
  · rw [hlist] at hsorted ⊢
    have hgreatest : IsGreatest {j | j ∈ front ++ [last]} last := by
      refine ⟨List.mem_append_right _ (List.mem_singleton.mpr rfl), fun j hj => ?_⟩
      rcases List.mem_append.mp hj with hj | hj
      · exact (List.pairwise_append.mp hsorted).2.2 j hj last (List.mem_singleton.mpr rfl)
      · exact (List.mem_singleton.mp hj).le
    rw [List.getLast?_concat]
    constructor
    · rintro ⟨⟩
      exact hgreatest
    · intro h
      rw [h.unique hgreatest]

/-! ## Sources -/

/-- A block that a unit takes its pages and its indexes from. -/
inductive Source (ck : Chunker) (document : ParsedDocument) (u : TextUnit)
    (b : ℕ × ParsedBlock) : Prop
  /-- The unit has text of a run of blocks, and the block is in the run. -/
  | ofRun (sec : Section) (run : List (ℕ × ParsedBlock))
      (hsec : sec ∈ buildSections document.blocks) (hrun : run ∈ sectionRuns sec.blocks)
      (hu : u ∈ ck.unitsOfRun sec run) (hb : b ∈ run)
  /-- The unit is the title of a section that was merged with others, and the block is in the
      section. -/
  | ofTitle (group : List Section) (sec : Section) (title : Text)
      (hgroup : group ∈ ck.mergeSmallSections (buildSections document.blocks))
      (hsec : sec ∈ group) (hmerged : group ≠ [sec]) (htitle : truthy sec.title = some title)
      (hu : u = ck.titleUnit sec title) (hb : b ∈ sec.blocks)

section Sources

variable {ck : Chunker} {document : ParsedDocument} {sec : Section} {u : TextUnit}
  {run : List (ℕ × ParsedBlock)}

/-- The units of a text have the pages and the indexes that they were given. -/
theorem fields_of_mem_splitUnitText {text : Text} {maxTokens : ℕ} {pageNumbers : List ℤ}
    {blockKind : BlockKind} {blockIndexes : List ℕ}
    (h : u ∈ ck.splitUnitText sec text maxTokens pageNumbers blockKind blockIndexes) :
    u.pageNumbers = pageNumbers ∧ u.blockIndexes = blockIndexes := by
  unfold Chunker.splitUnitText at h
  simp only at h
  split_ifs at h
  · cases h
  · rw [List.mem_singleton.mp h]
    exact ⟨rfl, rfl⟩
  · obtain ⟨part, -, rfl⟩ := List.mem_map.mp h
    exact ⟨rfl, rfl⟩

theorem mem_fields_of_mem_unitsOfRun (h : u ∈ ck.unitsOfRun sec run) :
    (∀ page, page ∈ u.pageNumbers ↔ ∃ b ∈ run, b.2.pageNumber = some page) ∧
      ∀ i, i ∈ u.blockIndexes ↔ ∃ b ∈ run, b.1 = i := by
  cases run with
  | nil => cases h
  | cons b run =>
    obtain ⟨hpages, hindexes⟩ := fields_of_mem_splitUnitText h
    constructor
    · intro page
      rw [hpages, mem_uniquePageNumbers, List.mem_map]
      simp [List.mem_flatMap, mem_uniquePageNumbers, eq_comm]
    · intro i
      rw [hindexes, List.mem_map]

theorem mem_fields_titleUnit (ck : Chunker) (sec : Section) (title : Text) :
    (∀ page, page ∈ (ck.titleUnit sec title).pageNumbers ↔
        ∃ b ∈ sec.blocks, b.2.pageNumber = some page) ∧
      ∀ i, i ∈ (ck.titleUnit sec title).blockIndexes ↔ ∃ b ∈ sec.blocks, b.1 = i := by
  constructor
  · intro page
    show page ∈ sectionPageNumbers sec ↔ _
    rw [sectionPageNumbers, mem_uniquePageNumbers, List.mem_map]
  · intro i
    exact List.mem_map

/-- What a source gives to its unit. -/
theorem mem_fields_of_source {b : ℕ × ParsedBlock} (h : Source ck document u b) :
    (∀ page, b.2.pageNumber = some page → page ∈ u.pageNumbers) ∧ b.1 ∈ u.blockIndexes := by
  cases h with
  | ofRun sec run hsec hrun hu hb =>
    obtain ⟨hpages, hindexes⟩ := mem_fields_of_mem_unitsOfRun hu
    exact ⟨fun page hpage => (hpages page).mpr ⟨b, hb, hpage⟩, (hindexes _).mpr ⟨b, hb, rfl⟩⟩
  | ofTitle group sec title hgroup hsec hmerged htitle hu hb =>
    obtain ⟨hpages, hindexes⟩ := mem_fields_titleUnit ck sec title
    rw [hu]
    exact ⟨fun page hpage => (hpages page).mpr ⟨b, hb, hpage⟩, (hindexes _).mpr ⟨b, hb, rfl⟩⟩

/-- A unit that is grouped has the pages and the indexes of its sources. -/
theorem mem_fields_iff_source {group : List Section}
    (hgroup : group ∈ ck.mergeSmallSections (buildSections document.blocks))
    (hu : u ∈ ck.groupSource group) :
    (∀ page, page ∈ u.pageNumbers ↔
        ∃ b, Source ck document u b ∧ b.2.pageNumber = some page) ∧
      ∀ i, i ∈ u.blockIndexes ↔ ∃ b, Source ck document u b ∧ b.1 = i := by
  have hback : (∀ page b, Source ck document u b → b.2.pageNumber = some page →
      page ∈ u.pageNumbers) ∧ ∀ b, Source ck document u b → b.1 ∈ u.blockIndexes :=
    ⟨fun page b hb => (mem_fields_of_source hb).1 page, fun b hb => (mem_fields_of_source hb).2⟩
  have hforward : ∃ blocks : List (ℕ × ParsedBlock), (∀ b ∈ blocks, Source ck document u b) ∧
      (∀ page, page ∈ u.pageNumbers ↔ ∃ b ∈ blocks, b.2.pageNumber = some page) ∧
      ∀ i, i ∈ u.blockIndexes ↔ ∃ b ∈ blocks, b.1 = i := by
    rcases mem_groupSource hu with ⟨sec, hsec, hmem, -⟩ | ⟨sec, hsec, title, htitle, rfl, hmerged⟩
    · obtain ⟨run, hrun, hunit⟩ := exists_run_of_mem_buildUnits hmem
      exact ⟨run, fun b hb => .ofRun sec run (mem_buildSections_of_mem_group hgroup hsec) hrun
        hunit hb, mem_fields_of_mem_unitsOfRun hunit⟩
    · refine ⟨sec.blocks, fun b hb => .ofTitle group sec title hgroup hsec ?_ htitle rfl hb,
        mem_fields_titleUnit ck sec title⟩
      rintro rfl
      rw [show groupTitle [sec] = sec.title from rfl] at hmerged
      rw [hmerged] at htitle
      cases htitle
  obtain ⟨blocks, hblocks, hpages, hindexes⟩ := hforward
  refine ⟨fun page => ⟨fun h => ?_, fun ⟨b, hb, hpage⟩ => hback.1 page b hb hpage⟩,
    fun i => ⟨fun h => ?_, ?_⟩⟩
  · obtain ⟨b, hb, hpage⟩ := (hpages page).mp h
    exact ⟨b, hblocks b hb, hpage⟩
  · obtain ⟨b, hb, hindex⟩ := (hindexes i).mp h
    exact ⟨b, hblocks b hb, hindex⟩
  · rintro ⟨b, hb, rfl⟩
    exact hback.2 b hb

/-- A source is a block of the document that is not a heading, with its index. -/
theorem mem_of_source {b : ℕ × ParsedBlock} (h : Source ck document u b) :
    b ∈ enumerate document.blocks ∧ b.2.kind ≠ .heading := by
  have hmem : ∃ sec ∈ buildSections document.blocks, b ∈ sec.blocks := by
    cases h with
    | ofRun sec run hsec hrun hu hb => exact ⟨sec, hsec, mem_of_mem_sectionRuns hrun hb⟩
    | ofTitle group sec title hgroup hsec hmerged htitle hu hb =>
      exact ⟨sec, mem_buildSections_of_mem_group hgroup hsec, hb⟩
  obtain ⟨sec, hsec, hb⟩ := hmem
  have hbody : b ∈ (enumerate document.blocks).filter fun b => b.2.kind ≠ .heading := by
    rw [← blocks_buildSections]
    exact List.mem_flatMap.mpr ⟨sec, hsec, hb⟩
  obtain ⟨hmem, hkind⟩ := List.mem_filter.mp hbody
  exact ⟨hmem, by simpa using hkind⟩

/-! ## Text of units -/

/-- The words of a unit are consecutive words of its run. -/
theorem infix_words_of_mem_unitsOfRun (h : u ∈ ck.unitsOfRun sec run) :
    splitWords u.text <:+: run.flatMap fun b => splitWords b.2.text := by
  rw [← words_unitsOfRun ck sec run]
  obtain ⟨before, after, hunits⟩ := List.append_of_mem h
  rw [hunits, unitWords_append]
  exact ⟨unitWords before, unitWords after, by simp [unitWords]⟩

theorem strip_ne_nil_of_infix {part text : Text} (hpart : part ≠ [] ∧ stripText part = part)
    (h : part <:+: text) : stripText text ≠ [] := by
  intro hnil
  have hinfix := strip_infix_strip isSpace h
  rw [show strip isSpace part = part from hpart.2, show strip isSpace text = [] from hnil,
    List.infix_nil] at hinfix
  exact hpart.1 hinfix

/-- A unit of a run has text. -/
theorem strip_ne_nil_of_mem_unitsOfRun (h : u ∈ ck.unitsOfRun sec run) :
    stripText u.text ≠ [] := by
  cases run with
  | nil => cases h
  | cons b run =>
    rw [Chunker.unitsOfRun, Chunker.splitUnitText] at h
    simp only at h
    split_ifs at h with hnil
    · cases h
    · rw [List.mem_singleton.mp h]
      obtain ⟨part, hpart⟩ : ∃ part, part ∈ stripParts ((b :: run).map fun b => b.2.text) := by
        refine List.exists_mem_of_ne_nil _ fun hparts => hnil ?_
        rw [combineTexts, hparts]
        rfl
      exact strip_ne_nil_of_infix (strip_of_mem_stripParts hpart) (infix_join hpart)
    · obtain ⟨large, hlarge, rfl⟩ := List.mem_map.mp h
      obtain ⟨group, hgroup, htext⟩ :=
        exists_group_of_mem_splitLargeText (List.mem_filter.mp hlarge).1
      obtain ⟨part, hpart⟩ := List.exists_mem_of_ne_nil _ (ne_nil_of_mem_greedyPack hgroup)
      have hstrip := strip_of_mem_unsplitParts (mem_of_mem_greedyPack hgroup hpart)
      exact strip_ne_nil_of_infix hstrip (infix_of_mem_group htext hpart hstrip.2)

end Sources

/-! ## Chunks -/

/-- Where the pages and the indexes of a chunk come from, for its units behind the title that
    is put in front of them. -/
structure Provenance (ck : Chunker) (document : ParsedDocument) (c : ChunkRecord)
    (heading units : List TextUnit) : Prop where
  content : c.content = contentOf (heading ++ units)
  /-- Nothing is put in front but the text of a heading. -/
  heading : heading = [] ∨ ∃ h, heading = [h] ∧
    ∃ b ∈ document.blocks, b.kind = .heading ∧ b.text = h.text
  units_ne_nil : units ≠ []
  text : ∀ u ∈ units, stripText u.text <:+: c.content
  /-- A unit that is no title has words of a run of blocks, in their order. -/
  body : ∀ u ∈ units, u.isHeading = false →
    stripText u.text ≠ [] ∧
      ∃ sec ∈ buildSections document.blocks, ∃ run ∈ sectionRuns sec.blocks,
        u ∈ ck.unitsOfRun sec run ∧
          splitWords u.text <:+: run.flatMap fun b => splitWords b.2.text
  blocks : ∀ u ∈ units, ∀ b, Source ck document u b →
    b ∈ enumerate document.blocks ∧ b.2.kind ≠ .heading
  pages : ∀ page, page ∈ c.metadataJson.pageNumbers ↔
    ∃ u ∈ units, ∃ b, Source ck document u b ∧ b.2.pageNumber = some page
  pageStart : ∀ page, c.metadataJson.pageStart = some page ↔
    IsLeast {p | p ∈ c.metadataJson.pageNumbers} page
  pageEnd : ∀ page, c.metadataJson.pageEnd = some page ↔
    IsGreatest {p | p ∈ c.metadataJson.pageNumbers} page
  blockStart : ∀ i, c.metadataJson.sourceBlockStart = some i ↔
    IsLeast {j | ∃ u ∈ units, ∃ b, Source ck document u b ∧ b.1 = j} i
  blockEnd : ∀ i, c.metadataJson.sourceBlockEnd = some i ↔
    IsGreatest {j | ∃ u ∈ units, ∃ b, Source ck document u b ∧ b.1 = j} i

section Chunks

variable {ck : Chunker} {document : ParsedDocument} {chunks : List ChunkRecord} {c : ChunkRecord}

/-- A title that is put in front has the pages of a unit, and one of its indexes. -/
theorem fields_of_mem_applyStickyHeading {units : List TextUnit} {title : Option Text}
    {level : Option ℕ} (hne : units ≠ []) {u : TextUnit}
    (h : u ∈ ck.applyStickyHeading units title level) :
    ∃ v ∈ units, u.pageNumbers ⊆ v.pageNumbers ∧ u.blockIndexes ⊆ v.blockIndexes := by
  obtain ⟨first, rest, rfl⟩ := List.exists_cons_of_ne_nil hne
  unfold Chunker.applyStickyHeading at h
  split at h
  · exact ⟨u, h, List.Subset.refl _, List.Subset.refl _⟩
  · split_ifs at h
    · exact ⟨u, h, List.Subset.refl _, List.Subset.refl _⟩
    · rcases List.mem_cons.mp h with rfl | h
      · exact ⟨first, List.mem_cons_self, List.Subset.refl _, List.take_subset 1 _⟩
      · exact ⟨u, h, List.Subset.refl _, List.Subset.refl _⟩

theorem subset_units (sp : Split) : sp.overlap ++ sp.fresh ⊆ sp.units := by
  rw [Split.units, List.append_assoc]
  exact List.subset_append_right _ _

/-- What the units of a closed group list, those behind the title list already. -/
theorem mem_flatMap_units_iff {β : Type} {field : TextUnit → List β} {sp : Split}
    (hfield : ∀ u ∈ sp.units, ∃ v ∈ sp.overlap ++ sp.fresh, field u ⊆ field v) {x : β} :
    x ∈ sp.units.flatMap field ↔ ∃ u ∈ sp.overlap ++ sp.fresh, x ∈ field u := by
  rw [List.mem_flatMap]
  constructor
  · rintro ⟨u, hu, hx⟩
    obtain ⟨v, hv, hsub⟩ := hfield u hu
    exact ⟨v, hv, hsub hx⟩
  · rintro ⟨u, hu, hx⟩
    exact ⟨u, subset_units sp hu, hx⟩

/-- The units of a closed group with their pages and indexes. -/
theorem mem_fields_iff_of_splitOk {group : List Section} {limit : ℕ} {sp : Split}
    (hsplit : SplitOk ck (groupTitle group) limit (ck.groupSource group) sp) :
    (∀ page, page ∈ sp.units.flatMap TextUnit.pageNumbers ↔
        ∃ u ∈ sp.overlap ++ sp.fresh, page ∈ u.pageNumbers) ∧
      ∀ i, i ∈ sp.units.flatMap TextUnit.blockIndexes ↔
        ∃ u ∈ sp.overlap ++ sp.fresh, i ∈ u.blockIndexes := by
  obtain ⟨level, heq⟩ := hsplit.units_eq
  have hne : sp.overlap ++ sp.fresh ≠ [] := fun hnil =>
    hsplit.fresh_ne_nil (List.append_eq_nil_iff.mp hnil).2
  have hback : ∀ u ∈ sp.units, ∃ v ∈ sp.overlap ++ sp.fresh,
      u.pageNumbers ⊆ v.pageNumbers ∧ u.blockIndexes ⊆ v.blockIndexes := by
    intro u hu
    rw [heq] at hu
    exact fields_of_mem_applyStickyHeading hne hu
  constructor
  · refine fun page => mem_flatMap_units_iff fun u hu => ?_
    obtain ⟨v, hv, hpages, -⟩ := hback u hu
    exact ⟨v, hv, hpages⟩
  · refine fun i => mem_flatMap_units_iff fun u hu => ?_
    obtain ⟨v, hv, -, hindexes⟩ := hback u hu
    exact ⟨v, hv, hindexes⟩

/-- The pages and the indexes of a closed group, by the blocks they come from. -/
theorem mem_fields_iff_source_of_splitOk {group : List Section} {limit : ℕ} {sp : Split}
    (hgroup : group ∈ ck.mergeSmallSections (buildSections document.blocks))
    (hsplit : SplitOk ck (groupTitle group) limit (ck.groupSource group) sp) :
    (∀ page, page ∈ sp.units.flatMap TextUnit.pageNumbers ↔
        ∃ u ∈ sp.overlap ++ sp.fresh, ∃ b, Source ck document u b ∧ b.2.pageNumber = some page) ∧
      ∀ i, i ∈ sp.units.flatMap TextUnit.blockIndexes ↔
        ∃ u ∈ sp.overlap ++ sp.fresh, ∃ b, Source ck document u b ∧ b.1 = i := by
  obtain ⟨hpages, hindexes⟩ := mem_fields_iff_of_splitOk hsplit
  have hsource : ∀ u ∈ sp.overlap ++ sp.fresh, u ∈ ck.groupSource group := fun u hu =>
    hsplit.subset hu
  constructor
  · refine fun page => (hpages page).trans (exists_congr fun u => and_congr_right fun hu => ?_)
    exact (mem_fields_iff_source hgroup (hsource u hu)).1 page
  · refine fun i => (hindexes i).trans (exists_congr fun u => and_congr_right fun hu => ?_)
    exact (mem_fields_iff_source hgroup (hsource u hu)).2 i

theorem mem_pageNumbers_makeChunk {units : List TextUnit} {chunkNo : ℕ} {page : ℤ} :
    page ∈ (ck.makeChunk document units chunkNo).metadataJson.pageNumbers ↔
      page ∈ units.flatMap TextUnit.pageNumbers := by
  show page ∈ uniquePageNumbers _ ↔ _
  rw [mem_uniquePageNumbers, List.mem_map]
  simp

/-- A unit of a group that is no title is a unit of a run. -/
theorem exists_run_of_mem_groupSource {group : List Section}
    (hgroup : group ∈ ck.mergeSmallSections (buildSections document.blocks)) {u : TextUnit}
    (hu : u ∈ ck.groupSource group) (hbody : u.isHeading = false) :
    ∃ sec ∈ buildSections document.blocks, ∃ run ∈ sectionRuns sec.blocks,
      u ∈ ck.unitsOfRun sec run := by
  rcases mem_groupSource hu with ⟨sec, hsec, hmem, -⟩ | ⟨sec, -, title, -, rfl, -⟩
  · obtain ⟨run, hrun, hunit⟩ := exists_run_of_mem_buildUnits hmem
    exact ⟨sec, mem_buildSections_of_mem_group hgroup hsec, run, hrun, hunit⟩
  · exact absurd hbody (by simp [TextUnit.isHeading, Chunker.titleUnit])

/-- The pages and the indexes of a chunk are those of the runs of blocks of which it has
    text, and of the merged sections whose titles it has. -/
theorem provenance_chunkDocument (h : ck.chunkDocument document = .ok chunks) (hc : c ∈ chunks) :
    ∃ heading units, Provenance ck document c heading units := by
  obtain ⟨group', hgroup', chunkNo, rfl⟩ := exists_makeChunk h hc
  obtain ⟨sp, rfl, group, hgroup, hsplit⟩ := exists_split_of_mem hgroup'
  obtain ⟨hpages, hindexes⟩ := mem_fields_iff_source_of_splitOk hgroup hsplit
  have hindexSet : {j | j ∈ sp.units.flatMap TextUnit.blockIndexes} =
      {j | ∃ u ∈ sp.overlap ++ sp.fresh, ∃ b, Source ck document u b ∧ b.1 = j} :=
    Set.ext hindexes
  refine ⟨sp.heading, sp.overlap ++ sp.fresh, ?_⟩
  exact
    { content := by
        rw [← List.append_assoc]
        rfl
      heading := by
        rcases hsplit.heading with hnil | ⟨u, hu, -, htitle, -⟩
        · exact Or.inl hnil
        · obtain ⟨-, b, hb, hkind, htext⟩ := exists_heading_of_groupTitle hgroup htitle
          exact Or.inr ⟨u, hu, b, carriedBlocks_subset _ hb, hkind, htext⟩
      units_ne_nil := fun hnil => hsplit.fresh_ne_nil (List.append_eq_nil_iff.mp hnil).2
      text := fun u hu => infix_contentOf (subset_units sp hu)
      body := by
        intro u hu hbody
        obtain ⟨sec, hsec, run, hrun, hunit⟩ :=
          exists_run_of_mem_groupSource hgroup (hsplit.subset hu) hbody
        exact ⟨strip_ne_nil_of_mem_unitsOfRun hunit, sec, hsec, run, hrun, hunit,
          infix_words_of_mem_unitsOfRun hunit⟩
      blocks := fun u _ b hb => mem_of_source hb
      pages := fun page => mem_pageNumbers_makeChunk.trans (hpages page)
      pageStart := fun page => List.min?_eq_some_iff
      pageEnd := fun page => List.max?_eq_some_iff
      blockStart := by
        intro i
        rw [← hindexSet]
        exact head?_sortedIndexes
      blockEnd := by
        intro i
        rw [← hindexSet]
        exact getLast?_sortedIndexes }

end Chunks

theorem provenance_sampleDocument :
    ∃ chunks, (sampleChunker
        "b69e35bcada909d9d5b5204d871a3b61458734b2d47acb795dce2173665197eb").chunkDocument
          sampleDocument = .ok chunks ∧
      ∀ c ∈ chunks, ∃ heading units, Provenance (sampleChunker
        "b69e35bcada909d9d5b5204d871a3b61458734b2d47acb795dce2173665197eb") sampleDocument c
          heading units := by
  obtain ⟨chunks, h⟩ := chunkDocument_ok_iff.mpr (by decide +kernel : (sampleChunker
    "b69e35bcada909d9d5b5204d871a3b61458734b2d47acb795dce2173665197eb").documentGroups
      sampleDocument ≠ [])
  exact ⟨chunks, h, fun c hc => provenance_chunkDocument h hc⟩

/-- A question on one page, and its answer on the next. -/
def twoPages : ParsedDocument where
  fileType := "pdf"
  sourceTitle := "faq.pdf"
  blocks := [{ faqBlock 'Q' "Q: Where?" with pageNumber := some 1 },
    { faqBlock 'A' longAnswer with pageNumber := some 2 }]

/-- The run is cut into two chunks: the first one has the page and the index of the answer,
    and no word of it. -/
theorem split_run_pages :
    ∃ chunks, (sampleChunker "").chunkDocument twoPages = .ok chunks ∧
      ∃ c ∈ chunks, 2 ∈ c.metadataJson.pageNumbers ∧ c.metadataJson.sourceBlockEnd = some 1 ∧
        ∀ b ∈ enumerate twoPages.blocks, b.2.pageNumber = some 2 ∨ b.1 = 1 →
          ∀ word ∈ splitWords b.2.text, ¬ word <:+: c.content := by
  obtain ⟨chunks, h⟩ := chunkDocument_ok_iff.mpr (by decide +kernel :
    (sampleChunker "").documentGroups twoPages ≠ [])
  refine ⟨chunks, h, ?_⟩
  rw [chunkDocument_eq_ok h]
  decide +kernel

end RagStack.Chunking
