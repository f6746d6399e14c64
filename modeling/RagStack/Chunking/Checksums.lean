import RagStack.Common.Lines
import RagStack.Chunking.Document

/-!
# `Chunker`: checksums

`app/services/chunker.py`, lines 448–457: the content of a chunk, its section titles, its
pages and the version are joined with `|`, and hashed. Neither the content nor the titles
are free of `|`.

* `sectionTitle_of_mem_documentGroups`: the section title of a unit is the text of a
  heading with a body.
* `checksum_identifies_iff`: with an injective hash, two chunks of different contents have
  the same checksum exactly if one content goes on where the titles of the other begin.
* `checksum_identifies_of_pipeFree`: so it is for no two chunks of documents whose headings
  have no `|`, under versions with equally many.
-/

namespace RagStack.Chunking

open RagStack.Common RagStack.Worker

/-- What is hashed behind the content of a chunk. -/
def checksumRest (c : ChunkRecord) : Text :=
  join ['|'] [join [','] c.metadataJson.sectionTitles,
    join [','] (c.metadataJson.pageNumbers.map fun page => (toString page).toList),
    c.chunkingVersion.toList]

/-- The content of `c'` is that of `c`, then `|`, and then the beginning of what is hashed
    behind the content of `c`, the rest of which is what is hashed behind that of `c'`. -/
def GoesOn (c c' : ChunkRecord) : Prop :=
  ∃ text, c'.content = c.content ++ '|' :: text ∧ checksumRest c = text ++ '|' :: checksumRest c'

/-- No heading with a body has a `|`. -/
def PipeFreeHeadings (document : ParsedDocument) : Prop :=
  ∀ b ∈ carriedBlocks document.blocks, b.kind = .heading → '|' ∉ b.text

/-- The headings of both documents are without `|`, and the versions of the settings have it
    equally often, as equal versions do. -/
structure PipeFree (ck ck' : Chunker) (document document' : ParsedDocument) : Prop where
  headings : PipeFreeHeadings document
  headings' : PipeFreeHeadings document'
  versions : ck.settings.chunkingVersion.toList.count '|' =
    ck'.settings.chunkingVersion.toList.count '|'

/-! ## Titles -/

theorem mem_uniqueOrdered {α : Type} [DecidableEq α] {values : List (List α)} {v : List α}
    (h : v ∈ uniqueOrdered values) : v ≠ [] ∧ v ∈ values := by
  have hgo : ∀ (rest seen : List (List α)),
      v ∈ rest.foldl (fun ordered w => if w ≠ [] ∧ w ∉ ordered then ordered ++ [w] else ordered)
        seen → v ∈ seen ∨ v ≠ [] ∧ v ∈ rest := by
    intro rest
    induction rest with
    | nil => exact fun seen hv => Or.inl hv
    | cons w rest ih =>
      intro seen hv
      rw [List.foldl_cons] at hv
      rcases ih _ hv with hseen | ⟨hne, hrest⟩
      · split_ifs at hseen with hnew
        · rcases List.mem_append.mp hseen with hseen | hseen
          · exact Or.inl hseen
          · rw [List.mem_singleton.mp hseen]
            exact Or.inr ⟨hnew.1, List.mem_cons_self⟩
        · exact Or.inl hseen
      · exact Or.inr ⟨hne, List.mem_cons_of_mem w hrest⟩
  exact (hgo values [] h).resolve_left List.not_mem_nil

section Titles

variable {ck : Chunker} {document : ParsedDocument}

/-- The units of a group are those that were grouped, and the title put in front. -/
theorem mem_applyStickyHeading {units : List TextUnit} {title : Option Text} {level : Option ℕ}
    {u : TextUnit} (h : u ∈ ck.applyStickyHeading units title level) :
    u ∈ units ∨ u.sectionTitle = truthy title ∧ (truthy title).isSome = true := by
  unfold Chunker.applyStickyHeading at h
  cases ht : truthy title with
  | none =>
    rw [ht] at h
    exact Or.inl h
  | some heading =>
    rw [ht] at h
    simp only at h
    split_ifs at h
    · exact Or.inl h
    · rcases List.mem_cons.mp h with rfl | h
      · exact Or.inr ⟨rfl, rfl⟩
      · exact Or.inl h

/-- The section title of a unit is the text of a heading with a body. -/
theorem sectionTitle_of_mem_documentGroups {units : List TextUnit} {u : TextUnit} {t : Text}
    (hunits : units ∈ ck.documentGroups document) (hu : u ∈ units)
    (ht : u.sectionTitle = some t) :
    ∃ b ∈ carriedBlocks document.blocks, b.kind = .heading ∧ b.text = t := by
  obtain ⟨sp, rfl, group, hg, hsplit⟩ := exists_split_of_mem hunits
  obtain ⟨level, heq⟩ := hsplit.units_eq
  rw [heq] at hu
  rcases mem_applyStickyHeading hu with hu | ⟨htitle, -⟩
  · rcases mem_groupSource (hsplit.subset hu) with ⟨sec, hsec, hmem, -⟩ | ⟨sec, hsec, t', ht', rfl, -⟩
    · obtain ⟨_, -, hof⟩ := exists_kind_of_mem_buildUnits hmem
      rw [hof.sectionTitle] at ht
      exact title_of_mem_buildSections (mem_buildSections_of_mem_group hg hsec) ht
    · cases ht
      exact title_of_mem_buildSections (mem_buildSections_of_mem_group hg hsec)
        (Option.filter_eq_some_iff.mp ht').1
  · rw [ht] at htitle
    exact (exists_heading_of_groupTitle hg htitle.symm).2

end Titles

/-! ## What is hashed -/

section Hashed

variable {ck : Chunker} {document : ParsedDocument} {chunks : List ChunkRecord} {c : ChunkRecord}

theorem exists_makeChunk (h : ck.chunkDocument document = .ok chunks) (hc : c ∈ chunks) :
    ∃ units ∈ ck.documentGroups document, ∃ chunkNo, c = ck.makeChunk document units chunkNo := by
  rw [chunkDocument_eq_ok h] at hc
  obtain ⟨⟨units, chunkNo⟩, hmem, rfl⟩ := List.mem_map.mp hc
  obtain ⟨-, -, hget⟩ := List.mem_zipIdx hmem
  exact ⟨units, hget ▸ List.getElem_mem _, chunkNo, rfl⟩

theorem checksum_eq (h : ck.chunkDocument document = .ok chunks) (hc : c ∈ chunks) :
    c.checksum = ck.sha256 (c.content ++ '|' :: checksumRest c) := by
  obtain ⟨units, -, chunkNo, rfl⟩ := exists_makeChunk h hc
  rfl

theorem pipe_notMem_toString (page : ℤ) : '|' ∉ (toString page).toList := by
  have hdigits : ∀ n : ℕ, '|' ∉ (Nat.toDigits 10 n) := by
    intro n hmem
    have hdigit : '|'.isDigit = true := Nat.isDigit_of_mem_toDigits (by decide) (by decide) hmem
    exact absurd hdigit (by decide)
  cases page with
  | ofNat n =>
    show '|' ∉ (Nat.repr n).toList
    rw [Nat.repr, String.toList_ofList]
    exact hdigits n
  | negSucc n =>
    show '|' ∉ ("-" ++ Nat.repr (n + 1)).toList
    rw [Nat.repr, String.toList_append]
    intro hmem
    rcases List.mem_append.mp hmem with hmem | hmem
    · exact absurd hmem (by decide)
    · rw [String.toList_ofList] at hmem
      exact hdigits _ hmem

theorem pipe_notMem_join {parts : List Text} (h : ∀ part ∈ parts, '|' ∉ part) :
    '|' ∉ join [','] parts := by
  intro hmem
  rcases mem_join hmem with hmem | ⟨part, hpart, hmem⟩
  · exact absurd hmem (by decide)
  · exact h part hpart hmem

/-- Titles without `|` leave those of the version, and the two that separate the fields. -/
theorem count_checksumRest (hfree : PipeFreeHeadings document)
    (h : ck.chunkDocument document = .ok chunks) (hc : c ∈ chunks) :
    (checksumRest c).count '|' = ck.settings.chunkingVersion.toList.count '|' + 2 := by
  obtain ⟨units, hunits, chunkNo, rfl⟩ := exists_makeChunk h hc
  have htitles : '|' ∉ join [',']
      (ck.makeChunk document units chunkNo).metadataJson.sectionTitles := by
    refine pipe_notMem_join fun title htitle => ?_
    obtain ⟨-, hmem⟩ := mem_uniqueOrdered htitle
    obtain ⟨u, hu, ht⟩ := List.mem_filterMap.mp hmem
    obtain ⟨b, hb, hk, rfl⟩ := sectionTitle_of_mem_documentGroups hunits hu ht
    exact hfree b hb hk
  have hpages : '|' ∉ join [','] ((ck.makeChunk document units chunkNo).metadataJson.pageNumbers.map
      fun page => (toString page).toList) := by
    refine pipe_notMem_join fun part hpart => ?_
    obtain ⟨page, -, rfl⟩ := List.mem_map.mp hpart
    exact pipe_notMem_toString page
  have hversion : (ck.makeChunk document units chunkNo).chunkingVersion =
      ck.settings.chunkingVersion := rfl
  rw [checksumRest, join_cons_cons, join_cons_cons, join_singleton, List.append_assoc,
    List.singleton_append, List.append_assoc, List.singleton_append, List.count_append,
    List.count_cons_self, List.count_append, List.count_cons_self,
    List.count_eq_zero_of_not_mem htitles, List.count_eq_zero_of_not_mem hpages, hversion]
  omega

end Hashed

/-! ## Equal checksums -/

section Equal

variable {ck ck' : Chunker} {document document' : ParsedDocument} {chunks chunks' : List ChunkRecord}
  {c c' : ChunkRecord}

/-- With an injective hash, equal checksums mean equal contents, exactly if neither content
    goes on where the titles of the other begin. -/
theorem checksum_identifies_iff (hsha : ck'.sha256 = ck.sha256)
    (hinj : Function.Injective ck.sha256) (h : ck.chunkDocument document = .ok chunks)
    (h' : ck'.chunkDocument document' = .ok chunks') (hc : c ∈ chunks) (hc' : c' ∈ chunks') :
    (c.checksum = c'.checksum → c.content = c'.content) ↔ ¬ GoesOn c c' ∧ ¬ GoesOn c' c := by
  rw [checksum_eq h hc, checksum_eq h' hc', hsha, hinj.eq_iff]
  constructor
  · intro hsame
    have hself : ∀ (text rest : Text), text ≠ text ++ '|' :: rest := fun text rest heq => by
      simpa using congrArg List.length heq
    constructor
    · rintro ⟨text, hcontent, hrest⟩
      have heq := hsame (by rw [hcontent, hrest]; simp)
      exact hself _ _ (heq.trans hcontent)
    · rintro ⟨text, hcontent, hrest⟩
      have heq := hsame (by rw [hcontent, hrest]; simp)
      exact hself _ _ (heq.symm.trans hcontent)
  · rintro ⟨hnot, hnot'⟩ heq
    rcases append_cons_cases heq with ⟨hcontent, -⟩ | ⟨text, hcontent, hrest⟩ |
      ⟨text, hcontent, hrest⟩
    · exact hcontent
    · exact absurd ⟨text, hcontent, hrest⟩ hnot
    · exact absurd ⟨text, hcontent, hrest⟩ hnot'

/-- What goes on with the titles of a chunk has a `|` more behind its content. -/
theorem GoesOn.count_lt (h : GoesOn c c') :
    (checksumRest c').count '|' < (checksumRest c).count '|' := by
  obtain ⟨text, -, hrest⟩ := h
  rw [hrest, List.count_append, List.count_cons_self]
  omega

/-- With an injective hash, equal checksums mean equal contents where the headings of the two
    documents are without `|`. -/
theorem checksum_identifies_of_pipeFree (hsha : ck'.sha256 = ck.sha256)
    (hinj : Function.Injective ck.sha256) (hfree : PipeFree ck ck' document document')
    (h : ck.chunkDocument document = .ok chunks) (h' : ck'.chunkDocument document' = .ok chunks')
    (hc : c ∈ chunks) (hc' : c' ∈ chunks') (hchecksum : c.checksum = c'.checksum) :
    c.content = c'.content := by
  have hcount : (checksumRest c).count '|' = (checksumRest c').count '|' := by
    rw [count_checksumRest hfree.headings h hc, count_checksumRest hfree.headings' h' hc',
      hfree.versions]
  exact (checksum_identifies_iff hsha hinj h h' hc hc').mpr
    ⟨fun hon => hon.count_lt.ne hcount.symm, fun hon => hon.count_lt.ne hcount⟩ hchecksum

end Equal

end RagStack.Chunking
