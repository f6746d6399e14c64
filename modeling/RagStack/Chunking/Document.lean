import RagStack.Chunking.Grouping

/-!
# `Chunker.chunk_document`

`app/services/chunker.py`, lines 40–77 and 399–470: the chunks of a document,
with their content, metadata and checksum.

* `numbered_chunkDocument`: the chunks are numbered `1, …, n`.
* `exists_splits`: every chunk is a title, an overlap and fresh units, and the
  fresh units are the units of the document's sections.
* `splitsInto_chunkDocument`: the content of a chunk is that of its units, word by word.
* `chunkDocument_words`: the words of the non-heading blocks are the words of
  the fresh units, in order.
-/

namespace RagStack.Chunking

open RagStack.Common RagStack.Worker

/-! ## Chunks -/

/-- `_unique_strings` (lines 492–499) and `_unique_paths` (lines 501–509): the
    values that are not empty, each at its first place. -/
def uniqueOrdered {α : Type} [DecidableEq α] (values : List (List α)) : List (List α) :=
  values.foldl (fun ordered v => if v ≠ [] ∧ v ∉ ordered then ordered ++ [v] else ordered) []

/-- `sorted({…})` of numbers. -/
def sortedIndexes (indexes : List ℕ) : List ℕ := indexes.dedup.insertionSort (· ≤ ·)

/-- `"\n\n".join(unit.text for unit in unit_group if unit.text).strip()`. -/
def contentOf (units : List TextUnit) : Text :=
  stripText (join "\n\n".toList ((units.map TextUnit.text).filter fun t => t ≠ []))

/-- The text that is hashed for the checksum (lines 448–457). -/
def checksumInput (content : Text) (sectionTitles : List Text) (pageNumbers : List ℤ)
    (version : String) : Text :=
  join ['|'] [content, join [','] sectionTitles,
    join [','] (pageNumbers.map fun page => (toString page).toList), version.toList]

/-- `_make_chunk` (lines 399–470). -/
def Chunker.makeChunk (ck : Chunker) (document : ParsedDocument) (units : List TextUnit)
    (chunkNo : ℕ) : ChunkRecord :=
  let content := contentOf units
  let pageNumbers := uniquePageNumbers ((units.flatMap TextUnit.pageNumbers).map some)
  let sectionTitles := uniqueOrdered (units.filterMap TextUnit.sectionTitle)
  let sectionPaths := uniqueOrdered (units.map TextUnit.sectionPath)
  let blockIndexes := sortedIndexes (units.flatMap TextUnit.blockIndexes)
  let blockKinds := BlockKind.sorted.filter fun kind => kind ∈ units.flatMap TextUnit.blockKinds
  { chunkNo := chunkNo
    content := content
    searchText := buildSearchText ck.unicode content
    tokenCount := ck.tokenCounter.count content
    sectionTitle := sectionTitles.head?
    pageNumber := pageNumbers.head?
    sourceTitle := document.sourceTitle
    language := document.language
    chunkingStrategy := ck.settings.chunkingStrategy
    chunkingVersion := ck.settings.chunkingVersion
    checksum := ck.sha256
      (checksumInput content sectionTitles pageNumbers ck.settings.chunkingVersion)
    metadataJson :=
      { pageNumbers := pageNumbers
        pageStart := pageNumbers.min?
        pageEnd := pageNumbers.max?
        pageMappingAvailable :=
          document.metadata.pageMappingAvailable.getD (!pageNumbers.isEmpty)
        tokenEstimator := ck.tokenCounter.encodingName
        unitCount := units.length
        blockKinds := blockKinds
        sourceBlockStart := blockIndexes.head?
        sourceBlockEnd := blockIndexes.getLast?
        sectionTitles := sectionTitles
        sectionPath := if sectionPaths.length = 1 then sectionPaths.head? else none
        sectionPaths := sectionPaths
        parser := document.metadata.parser.getD document.fileType
        parserType := document.fileType
        extractionWarnings := document.metadata.extractionWarnings.getD []
        normalization := document.metadata.normalization
        chunking :=
          { strategy := ck.settings.chunkingStrategy
            version := ck.settings.chunkingVersion
            targetTokens := ck.settings.chunkTargetTokens
            overlapTokens := ck.settings.chunkOverlapTokens }
        containsStructuredContent := blockKinds.any fun kind =>
          kind = .listItem ∨ kind = .tableRow ∨ kind = .qaPair } }

/-! ## Documents -/

/-- The unit groups of one group of sections (lines 45–63). A section on its own
    repeats its title in every chunk; merged sections have their titles as units. -/
def Chunker.unitGroups (ck : Chunker) (group : List Section) : List (List TextUnit) :=
  match group with
  | [sec] => ck.groupUnits (ck.buildUnits sec) sec.title sec.headingLevel
  | _ => ck.groupUnits (ck.buildGroupUnits group) none none

/-- `CHUNKING_FAILED` for a document without chunks (lines 71–76). -/
def noChunksError : IngestionError :=
  { code := .chunkingFailed, message := "Chunking produced no chunks", retryable := false }

/-- The unit groups of the document's chunks, in the order of `chunk_no`. -/
def Chunker.documentGroups (ck : Chunker) (document : ParsedDocument) : List (List TextUnit) :=
  (ck.mergeSmallSections (buildSections document.blocks)).flatMap ck.unitGroups

/-- `chunk_document` (lines 40–77). Nothing in the loop raises: the other
    `CHUNKING_FAILED` is for an encoder that does. -/
def Chunker.chunkDocument (ck : Chunker) (document : ParsedDocument) :
    Except IngestionError (List ChunkRecord) :=
  let chunks := ((ck.documentGroups document).zipIdx 1).map fun group =>
    ck.makeChunk document group.1 group.2
  if chunks = [] then .error noChunksError else .ok chunks

variable {ck : Chunker} {document : ParsedDocument} {chunks : List ChunkRecord}

theorem chunkDocument_eq_ok (h : ck.chunkDocument document = .ok chunks) :
    chunks = ((ck.documentGroups document).zipIdx 1).map fun group =>
      ck.makeChunk document group.1 group.2 := by
  unfold Chunker.chunkDocument at h
  simp only at h
  split_ifs at h
  cases h
  rfl

theorem chunkDocument_ok_iff :
    (∃ chunks, ck.chunkDocument document = .ok chunks) ↔ ck.documentGroups document ≠ [] := by
  unfold Chunker.chunkDocument
  simp only
  split_ifs with h
  · rw [List.map_eq_nil_iff, List.zipIdx_eq_nil_iff] at h
    simp [h]
  · rw [List.map_eq_nil_iff, List.zipIdx_eq_nil_iff] at h
    simp [h]

/-- The chunks are numbered from one. -/
theorem numbered_chunkDocument (h : ck.chunkDocument document = .ok chunks) : Numbered chunks := by
  rw [Numbered, chunkDocument_eq_ok h, List.length_map, List.length_zipIdx, List.map_map]
  exact List.zipIdx_map_snd 1 _

theorem content_chunkDocument (h : ck.chunkDocument document = .ok chunks) :
    chunks.map ChunkRecord.content = (ck.documentGroups document).map contentOf := by
  rw [chunkDocument_eq_ok h, List.map_map]
  conv_rhs => rw [← List.zipIdx_map_fst 1 (ck.documentGroups document), List.map_map]
  rfl

/-! ## Chunks and unit groups -/

theorem tokenCount_of_mem_chunkDocument (h : ck.chunkDocument document = .ok chunks)
    {c : ChunkRecord} (hc : c ∈ chunks) : c.tokenCount = ck.tokenCounter.count c.content := by
  rw [chunkDocument_eq_ok h] at hc
  obtain ⟨group, -, rfl⟩ := List.mem_map.mp hc
  rfl

theorem exists_chunk_of_units {chunks : List ChunkRecord} (h : ck.chunkDocument document = .ok chunks)
    {units : List TextUnit} (hu : units ∈ ck.documentGroups document) :
    ∃ c ∈ chunks, c.content = contentOf units := by
  have hmem : contentOf units ∈ chunks.map ChunkRecord.content := by
    rw [content_chunkDocument h]
    exact List.mem_map_of_mem hu
  obtain ⟨c, hc, hcontent⟩ := List.mem_map.mp hmem
  exact ⟨c, hc, hcontent⟩

theorem exists_units_of_chunk {chunks : List ChunkRecord} (h : ck.chunkDocument document = .ok chunks)
    {c : ChunkRecord} (hc : c ∈ chunks) :
    ∃ units ∈ ck.documentGroups document, c.content = contentOf units := by
  have hmem : c.content ∈ (ck.documentGroups document).map contentOf := by
    rw [← content_chunkDocument h]
    exact List.mem_map_of_mem hc
  obtain ⟨units, hu, hcontent⟩ := List.mem_map.mp hmem
  exact ⟨units, hu, hcontent.symm⟩

/-- The text of a unit occurs in the content, up to whitespace at its ends. -/
theorem infix_contentOf {units : List TextUnit} {u : TextUnit} (hu : u ∈ units) :
    stripText u.text <:+: contentOf units := by
  by_cases hne : u.text = []
  · rw [hne]
    exact List.nil_infix
  · refine strip_infix_strip isSpace (infix_join ?_)
    exact List.mem_filter.mpr ⟨List.mem_map_of_mem hu, by simpa using hne⟩

/-! ## Splits of a document -/

/-- The units that `_group_units` gets for a group of sections. -/
def Chunker.groupSource (ck : Chunker) (group : List Section) : List TextUnit :=
  match group with
  | [sec] => ck.buildUnits sec
  | _ => ck.buildGroupUnits group

/-- The title that every chunk of the group repeats. -/
def groupTitle (group : List Section) : Option Text :=
  match group with
  | [sec] => sec.title
  | _ => none

theorem unitGroups_eq (ck : Chunker) (group : List Section) :
    ∃ level, ck.unitGroups group = ck.groupUnits (ck.groupSource group) (groupTitle group) level := by
  unfold Chunker.unitGroups Chunker.groupSource groupTitle
  split
  · exact ⟨_, rfl⟩
  · exact ⟨_, rfl⟩

/-- The chunks of the section groups, one after the other: an overlap never
    reaches over the border of a group. -/
theorem exists_splits_of_groups (ck : Chunker) (groups : List (List Section)) :
    ∃ splits : List Split, groups.flatMap ck.unitGroups = splits.map Split.units ∧
      splits.flatMap Split.fresh = groups.flatMap ck.groupSource ∧ splits.IsChain Follows ∧
      (∀ sp ∈ splits.head?, sp.overlap = []) ∧
      ∀ sp ∈ splits, ∃ group ∈ groups,
        SplitOk ck (groupTitle group) (ck.chunkLimit (groupTitle group)) (ck.groupSource group) sp := by
  induction groups with
  | nil => exact ⟨[], rfl, rfl, List.isChain_nil, by simp, by simp⟩
  | cons group groups ih =>
    obtain ⟨splits, hmap, hfresh, hchain, hstart, hok⟩ := ih
    obtain ⟨level, hlevel⟩ := unitGroups_eq ck group
    obtain ⟨splits', hmap', hfresh', hchain', hstart', hok'⟩ :=
      groupUnits_spec ck (ck.groupSource group) (groupTitle group) level
    refine ⟨splits' ++ splits, ?_, ?_, ?_, ?_, ?_⟩
    · rw [List.flatMap_cons, hlevel, hmap, hmap', List.map_append]
    · rw [List.flatMap_append, List.flatMap_cons, hfresh, hfresh']
    · refine List.isChain_append.mpr ⟨hchain', hchain, ?_⟩
      intro a _ b hb
      rw [Follows, hstart b hb]
      exact List.nil_suffix
    · cases splits' with
      | nil => exact hstart
      | cons sp splits' => exact hstart'
    · intro sp hsp
      rcases List.mem_append.mp hsp with hsp | hsp
      · exact ⟨group, List.mem_cons_self, hok' sp hsp⟩
      · obtain ⟨g, hg, h⟩ := hok sp hsp
        exact ⟨g, List.mem_cons_of_mem _ hg, h⟩

/-- The chunks of a document as titles, overlaps and fresh units. -/
theorem exists_splits (ck : Chunker) (document : ParsedDocument) :
    ∃ splits : List Split, ck.documentGroups document = splits.map Split.units ∧
      splits.flatMap Split.fresh =
        (ck.mergeSmallSections (buildSections document.blocks)).flatMap ck.groupSource ∧
      splits.IsChain Follows ∧ (∀ sp ∈ splits.head?, sp.overlap = []) ∧
      ∀ sp ∈ splits, ∃ group ∈ ck.mergeSmallSections (buildSections document.blocks),
        SplitOk ck (groupTitle group) (ck.chunkLimit (groupTitle group)) (ck.groupSource group) sp :=
  exists_splits_of_groups ck _

/-- The units of one chunk, taken apart. -/
theorem exists_split_of_mem {units : List TextUnit} (h : units ∈ ck.documentGroups document) :
    ∃ sp : Split, units = sp.units ∧
      ∃ group ∈ ck.mergeSmallSections (buildSections document.blocks),
        SplitOk ck (groupTitle group) (ck.chunkLimit (groupTitle group)) (ck.groupSource group)
          sp := by
  obtain ⟨splits, hgroups, -, -, -, hok⟩ := exists_splits ck document
  rw [hgroups] at h
  obtain ⟨sp, hsp, rfl⟩ := List.mem_map.mp h
  exact ⟨sp, rfl, hok sp hsp⟩

theorem mem_buildSections_of_mem_group {group : List Section} {sec : Section}
    (hg : group ∈ ck.mergeSmallSections (buildSections document.blocks)) (hs : sec ∈ group) :
    sec ∈ buildSections document.blocks := by
  rw [← flatten_mergeSmallSections ck (buildSections document.blocks)]
  exact List.mem_flatten.mpr ⟨group, hg, hs⟩

/-- A unit of a group of sections is one of a section, or the title of one. Only
    a section on its own has its title put in front. -/
theorem mem_groupSource {group : List Section} {u : TextUnit} (hu : u ∈ ck.groupSource group) :
    (∃ sec ∈ group, u ∈ ck.buildUnits sec ∧ (groupTitle group = sec.title ∨ groupTitle group = none)) ∨
      ∃ sec ∈ group, ∃ t, truthy sec.title = some t ∧ u = ck.titleUnit sec t ∧
        groupTitle group = none := by
  unfold Chunker.groupSource at hu
  unfold groupTitle
  split at hu
  · exact Or.inl ⟨_, List.mem_cons_self, hu, Or.inl rfl⟩
  · obtain ⟨sec, hsec, hu⟩ := List.mem_flatMap.mp hu
    rcases List.mem_append.mp hu with hu | hu
    · cases ht : truthy sec.title with
      | none =>
        rw [ht] at hu
        cases hu
      | some t =>
        rw [ht] at hu
        exact Or.inr ⟨sec, hsec, t, ht, List.mem_singleton.mp hu, rfl⟩
    · exact Or.inl ⟨sec, hsec, hu, Or.inr rfl⟩

/-- The title that the chunks of a group repeat is a heading with a body. -/
theorem exists_heading_of_groupTitle {group : List Section} {t : Text}
    (hg : group ∈ ck.mergeSmallSections (buildSections document.blocks))
    (ht : truthy (groupTitle group) = some t) :
    t ≠ [] ∧ ∃ b ∈ carriedBlocks document.blocks, b.kind = .heading ∧ b.text = t := by
  obtain ⟨htitle, hne⟩ := Option.filter_eq_some_iff.mp ht
  refine ⟨by simpa using hne, ?_⟩
  unfold groupTitle at htitle
  split at htitle
  · exact title_of_mem_buildSections (mem_buildSections_of_mem_group hg (by simp)) htitle
  · cases htitle

/-! ## Words of a document -/

/-- The blocks of a section are not headings. -/
def BodyOnly (sec : Section) : Prop := ∀ b ∈ sec.blocks, b.2.kind ≠ .heading

theorem bodyOnly_of_mem_buildSections {blocks : List ParsedBlock} {sec : Section}
    (h : sec ∈ buildSections blocks) : BodyOnly sec := by
  intro b hb
  have hmem : b ∈ (buildSections blocks).flatMap Section.blocks := List.mem_flatMap.mpr ⟨sec, h, hb⟩
  rw [blocks_buildSections] at hmem
  simpa using (List.mem_filter.mp hmem).2

theorem isHeading_of_mem_buildUnits {sec : Section} (hsec : BodyOnly sec) {u : TextUnit}
    (hu : u ∈ ck.buildUnits sec) : u.isHeading = false := by
  obtain ⟨b, hb, hof⟩ := exists_kind_of_mem_buildUnits hu
  simpa [TextUnit.isHeading, hof.blockKinds] using hsec b hb

theorem bodyUnits_buildUnits {sec : Section} (hsec : BodyOnly sec) :
    bodyUnits (ck.buildUnits sec) = ck.buildUnits sec :=
  List.filter_eq_self.mpr fun u hu => by simp [isHeading_of_mem_buildUnits hsec hu]

/-- Merged sections have their titles as heading units, next to their own units. -/
theorem bodyUnits_buildGroupUnits {group : List Section} (hgroup : ∀ sec ∈ group, BodyOnly sec) :
    bodyUnits (ck.buildGroupUnits group) = group.flatMap ck.buildUnits := by
  induction group with
  | nil => rfl
  | cons sec group ih =>
    have htitle : bodyUnits ((truthy sec.title).elim [] fun t => [ck.titleUnit sec t]) = [] := by
      cases truthy sec.title <;> simp [bodyUnits, Chunker.titleUnit, TextUnit.isHeading]
    have hbody : bodyUnits (ck.buildUnits sec) = ck.buildUnits sec :=
      bodyUnits_buildUnits (hgroup sec (by simp))
    have htail := ih fun s hs => hgroup s (by simp [hs])
    unfold bodyUnits at htitle hbody htail ⊢
    unfold Chunker.buildGroupUnits at htail ⊢
    rw [List.flatMap_cons, List.flatMap_cons, List.filter_append, List.filter_append, htitle, hbody,
      htail, List.nil_append]

theorem words_groupSource (ck : Chunker) {group : List Section} (hgroup : ∀ sec ∈ group, BodyOnly sec) :
    unitWords (bodyUnits (ck.groupSource group)) =
      (group.flatMap Section.blocks).flatMap fun b => splitWords b.2.text := by
  unfold Chunker.groupSource
  split
  · rename_i sec
    rw [bodyUnits_buildUnits (hgroup sec (by simp)), words_buildUnits]
    simp
  · rw [bodyUnits_buildGroupUnits hgroup, unitWords, List.flatMap_assoc, List.flatMap_assoc]
    exact List.flatMap_congr fun sec _ => words_buildUnits ck sec

/-- The words of a chunk's content are the words of its units. -/
theorem splitWords_contentOf (units : List TextUnit) :
    splitWords (contentOf units) = unitWords units := by
  have hjoin : ∀ parts : List Text, splitWords (join "\n\n".toList parts) = parts.flatMap splitWords :=
    words_join (by decide) (List.all_eq_true.mp (by decide))
  rw [contentOf, splitWords_stripText, hjoin, unitWords]
  induction units with
  | nil => rfl
  | cons u units ih =>
    rw [List.flatMap_cons, ← ih, List.map_cons]
    by_cases hu : u.text = []
    · rw [List.filter_cons_of_neg (by simp [hu]), hu]
      rfl
    · rw [List.filter_cons_of_pos (by simp [hu]), List.flatMap_cons]

theorem unitWords_bodyUnits_flatMap (splits : List Split) :
    (splits.flatMap fun sp => unitWords (bodyUnits sp.fresh)) =
      unitWords (bodyUnits (splits.flatMap Split.fresh)) := by
  induction splits with
  | nil => rfl
  | cons sp splits ih =>
    rw [List.flatMap_cons, ih, List.flatMap_cons, bodyUnits, bodyUnits, bodyUnits, List.filter_append,
      unitWords_append]

/-- The non-heading blocks, as the sections number them. -/
theorem flatMap_words_body (blocks : List ParsedBlock) :
    (((enumerate blocks).filter fun b => b.2.kind ≠ .heading).flatMap fun b => splitWords b.2.text) =
      (blocks.filter fun b => b.kind ≠ .heading).flatMap fun b => splitWords b.text := by
  conv_rhs => rw [← snd_enumerate blocks, List.filter_map, List.flatMap_map]
  rfl

/-- The words of the fresh units are the words of the body, in order. -/
theorem words_of_splits {splits : List Split}
    (hfresh : splits.flatMap Split.fresh =
      (ck.mergeSmallSections (buildSections document.blocks)).flatMap ck.groupSource) :
    (splits.flatMap fun sp => unitWords (bodyUnits sp.fresh)) =
      (document.blocks.filter fun b => b.kind ≠ .heading).flatMap fun b => splitWords b.text := by
  set groups := ck.mergeSmallSections (buildSections document.blocks) with hgroups
  have hbody : ∀ group ∈ groups, ∀ sec ∈ group, BodyOnly sec := fun group hg sec hs =>
    bodyOnly_of_mem_buildSections (mem_buildSections_of_mem_group hg hs)
  calc (splits.flatMap fun sp => unitWords (bodyUnits sp.fresh))
      = unitWords (bodyUnits (groups.flatMap ck.groupSource)) := by
        rw [unitWords_bodyUnits_flatMap, hfresh]
    _ = groups.flatMap fun group => unitWords (bodyUnits (ck.groupSource group)) := by
        simp only [bodyUnits, unitWords, List.filter_flatMap, List.flatMap_assoc]
    _ = groups.flatMap fun group =>
          (group.flatMap Section.blocks).flatMap fun b => splitWords b.2.text :=
        List.flatMap_congr fun group hg => words_groupSource ck (hbody group hg)
    _ = (groups.flatten.flatMap Section.blocks).flatMap fun b => splitWords b.2.text := by
        simp only [← List.flatMap_id', List.flatMap_assoc]
    _ = (document.blocks.filter fun b => b.kind ≠ .heading).flatMap fun b => splitWords b.text := by
        rw [hgroups, flatten_mergeSmallSections, blocks_buildSections, flatMap_words_body]

/-! ## Contents of a document -/

/-- The texts of the heading blocks. -/
def headingTexts (blocks : List ParsedBlock) : List Text :=
  (blocks.filter fun b => b.kind = .heading).map ParsedBlock.text

theorem mem_headingTexts {blocks : List ParsedBlock} {text : Text} :
    text ∈ headingTexts blocks ↔ ∃ b ∈ blocks, b.kind = .heading ∧ b.text = text := by
  simp [headingTexts, and_assoc]

/-- A content is the words of a title, of an overlap and of fresh units, one after the other; the
    title is at most one unit, and the text of a unit that is marked as a heading is one of the
    headings. -/
structure SplitsInto (headings : List Text) (content : Text) (sp : Split) : Prop where
  content_eq : content = contentOf sp.units
  words : splitWords content = unitWords sp.heading ++ unitWords sp.overlap ++ unitWords sp.fresh
  title : sp.heading = [] ∨ ∃ u, sp.heading = [u] ∧ u.isHeading = true
  heading : ∀ u ∈ sp.units, u.isHeading = true → u.text ∈ headings

/-- A unit that is marked as a heading is the title of a section. -/
theorem mem_headingTexts_of_isHeading {group : List Section} {u : TextUnit}
    (hg : group ∈ ck.mergeSmallSections (buildSections document.blocks))
    (hu : u ∈ ck.groupSource group) (hheading : u.isHeading = true) :
    u.text ∈ headingTexts document.blocks := by
  rcases mem_groupSource hu with ⟨sec, hsec, hmem, -⟩ | ⟨sec, hsec, t, ht, rfl, -⟩
  · have hbody := bodyOnly_of_mem_buildSections (mem_buildSections_of_mem_group hg hsec)
    rw [isHeading_of_mem_buildUnits hbody hmem] at hheading
    cases hheading
  · obtain ⟨b, hb, hkind, htext⟩ := title_of_mem_buildSections
      (mem_buildSections_of_mem_group hg hsec) (Option.filter_eq_some_iff.mp ht).1
    exact mem_headingTexts.mpr ⟨b, carriedBlocks_subset _ hb, hkind, htext⟩

theorem splitsInto_contentOf {group : List Section} {sp : Split}
    (hg : group ∈ ck.mergeSmallSections (buildSections document.blocks))
    (hok : SplitOk ck (groupTitle group) (ck.chunkLimit (groupTitle group)) (ck.groupSource group)
      sp) :
    SplitsInto (headingTexts document.blocks) (contentOf sp.units) sp where
  content_eq := rfl
  words := by rw [splitWords_contentOf, Split.units, unitWords_append, unitWords_append]
  title := hok.heading.imp_right fun ⟨u, hu, hheading, _⟩ => ⟨u, hu, hheading⟩
  heading := by
    intro u hu hheading
    rw [Split.units, List.append_assoc] at hu
    rcases List.mem_append.mp hu with hu | hu
    · rcases hok.heading with hnil | ⟨title, htitle, -, htext, -⟩
      · rw [hnil] at hu
        cases hu
      · rw [htitle, List.mem_singleton] at hu
        obtain ⟨-, b, hb, hkind, hb'⟩ := exists_heading_of_groupTitle hg htext
        exact mem_headingTexts.mpr ⟨b, carriedBlocks_subset _ hb, hkind, by rw [hb', hu]⟩
    · exact mem_headingTexts_of_isHeading hg (hok.subset hu) hheading

/-- The content of each chunk, taken apart as its units are. -/
theorem splitsInto_chunkDocument {splits : List Split}
    (h : ck.chunkDocument document = .ok chunks)
    (hgroups : ck.documentGroups document = splits.map Split.units)
    (hok : ∀ sp ∈ splits, ∃ group ∈ ck.mergeSmallSections (buildSections document.blocks),
      SplitOk ck (groupTitle group) (ck.chunkLimit (groupTitle group)) (ck.groupSource group) sp) :
    List.Forall₂ (SplitsInto (headingTexts document.blocks)) (chunks.map ChunkRecord.content)
      splits := by
  rw [content_chunkDocument h, hgroups, List.map_map, List.forall₂_map_left_iff,
    List.forall₂_same]
  intro sp hsp
  obtain ⟨group, hg, hsplit⟩ := hok sp hsp
  exact splitsInto_contentOf hg hsplit

/-- No body text is lost, duplicated or reordered. The content of every chunk is a title, an
    overlap and fresh units, word by word, and these are the units that the chunk was made of; the
    words of the fresh non-heading units are the words of the non-heading blocks in document
    order; the overlap is a suffix of the non-heading units of the chunk before. -/
theorem chunkDocument_words (h : ck.chunkDocument document = .ok chunks) :
    Numbered chunks ∧ ∃ splits : List Split,
      ck.documentGroups document = splits.map Split.units ∧
      List.Forall₂ (SplitsInto (headingTexts document.blocks)) (chunks.map ChunkRecord.content)
        splits ∧
      (splits.flatMap fun sp => unitWords (bodyUnits sp.fresh)) =
        ((document.blocks.filter fun b => b.kind ≠ .heading).flatMap fun b => splitWords b.text) ∧
      splits.IsChain Follows ∧ ∀ sp ∈ splits.head?, sp.overlap = [] := by
  refine ⟨numbered_chunkDocument h, ?_⟩
  obtain ⟨splits, hgroups, hfresh, hchain, hstart, hok⟩ := exists_splits ck document
  exact ⟨splits, hgroups, splitsInto_chunkDocument h hgroups hok, words_of_splits hfresh, hchain,
    hstart⟩

/-- A chunker for ASCII text with the smallest target and the fallback counter;
    `digest` is the checksum of the one chunk it is used on. -/
def sampleChunker (digest : String) : Chunker where
  settings := { chunkTargetTokens := 20, chunkOverlapTokens := 5 }
  tokenCounter := .charApprox
  unicode := .ascii
  sha256 _ := digest

/-- A heading with two paragraphs. -/
def sampleDocument : ParsedDocument where
  fileType := "txt"
  sourceTitle := "manual.txt"
  blocks := [{ text := "Overview".toList, kind := .heading }, { text := "alpha beta".toList },
    { text := "gamma".toList }]

theorem chunkDocument_words_sample :
    ∃ chunks, (sampleChunker "b69e35bcada909d9d5b5204d871a3b61458734b2d47acb795dce2173665197eb").chunkDocument
        sampleDocument = .ok chunks ∧
      Numbered chunks ∧ ∃ splits : List Split,
        (sampleChunker "b69e35bcada909d9d5b5204d871a3b61458734b2d47acb795dce2173665197eb").documentGroups
          sampleDocument = splits.map Split.units ∧
        List.Forall₂ (SplitsInto (headingTexts sampleDocument.blocks))
          (chunks.map ChunkRecord.content) splits ∧
        (splits.flatMap fun sp => unitWords (bodyUnits sp.fresh)) =
          ((sampleDocument.blocks.filter fun b => b.kind ≠ .heading).flatMap fun b =>
            splitWords b.text) ∧
        splits.IsChain Follows ∧ ∀ sp ∈ splits.head?, sp.overlap = [] := by
  obtain ⟨chunks, h⟩ := chunkDocument_ok_iff.mpr (by decide +kernel : (sampleChunker
    "b69e35bcada909d9d5b5204d871a3b61458734b2d47acb795dce2173665197eb").documentGroups
      sampleDocument ≠ [])
  exact ⟨chunks, h, chunkDocument_words h⟩

end RagStack.Chunking
