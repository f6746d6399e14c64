import RagStack.Chunking.Document
import RagStack.Worker.Parsers

/-!
# What the chunks keep of a file

Normalization and chunking of a parsed document.

* `covers_chunkDocument`: the chunks, word by word their titles, overlaps and fresh units, have
  the letters and digits of the body of the document once and in order.
* `content_normalizeDocument`: those of the normalized document are those of the NFKC forms
  of the parsed blocks.
-/

namespace RagStack.Chunking

open RagStack.Common RagStack.Worker

/-- A block of the body. -/
def isBody (kind : BlockKind) : Bool := kind ≠ .heading

/-- Each chunk is a title, an overlap and fresh units, word by word, and what is marked as a
    heading there is one of `headings`; the fresh units have the letters and digits of `content`
    once and in order, and an overlap repeats the end of the chunk before. -/
def Covers (ud : UnicodeData) (content : Text) (headings chunks : List Text) : Prop :=
  ∃ splits : List Split, List.Forall₂ (SplitsInto headings) chunks splits ∧
    (splits.flatMap fun sp => (bodyUnits sp.fresh).flatMap fun u => alnums ud u.text) = content ∧
    splits.IsChain Follows ∧ ∀ sp ∈ splits.head?, sp.overlap = []

variable {ud : UnicodeData}

theorem flatMap_alnums_splitWords (laws : AlnumLaws ud) (text : Text) :
    (splitWords text).flatMap (alnums ud) = alnums ud text :=
  flatMap_filter_words laws.space text

theorem flatMap_alnums_unitWords (laws : AlnumLaws ud) (units : List TextUnit) :
    (unitWords units).flatMap (alnums ud) = units.flatMap fun u => alnums ud u.text := by
  rw [unitWords, List.flatMap_assoc]
  exact List.flatMap_congr fun u _ => flatMap_alnums_splitWords laws u.text

/-- The chunks of a document cover its body. -/
theorem covers_chunkDocument {ck : Chunker} {document : ParsedDocument} {chunks : List ChunkRecord}
    (laws : AlnumLaws ck.unicode) (h : ck.chunkDocument document = .ok chunks) :
    Covers ck.unicode (documentContent ck.unicode isBody document.blocks)
      (headingTexts document.blocks) (chunks.map ChunkRecord.content) := by
  obtain ⟨splits, hgroups, hfresh, hchain, hstart, hok⟩ := exists_splits ck document
  refine ⟨splits, splitsInto_chunkDocument h hgroups hok, ?_, hchain, hstart⟩
  have hwords := congrArg (List.flatMap (alnums ck.unicode)) (words_of_splits hfresh)
  rw [List.flatMap_assoc, List.flatMap_assoc] at hwords
  simp only [flatMap_alnums_unitWords laws, flatMap_alnums_splitWords laws] at hwords
  exact hwords

/-- The letters and digits of the NFKC forms of the blocks whose kinds satisfy `q`. -/
def normalizedContent (ud : UnicodeData) (q : BlockKind → Bool) (blocks : List ParsedBlock) : Text :=
  (blocks.filter fun b => q b.kind).flatMap fun b => alnums ud (ud.nfkc b.text)

theorem normalizedContent_append (ud : UnicodeData) (q : BlockKind → Bool) (a b : List ParsedBlock) :
    normalizedContent ud q (a ++ b) = normalizedContent ud q a ++ normalizedContent ud q b := by
  simp [normalizedContent]

theorem normalizedContent_singleton (ud : UnicodeData) (q : BlockKind → Bool) (b : ParsedBlock) :
    normalizedContent ud q [b] = if q b.kind then alnums ud (ud.nfkc b.text) else [] := by
  unfold normalizedContent
  cases hq : q b.kind <;> simp [hq]

theorem kind_normalizedBlock {block b : ParsedBlock} (h : normalizedBlock ud block = some b) :
    b.kind = block.kind := by
  unfold normalizedBlock at h
  simp only at h
  split_ifs at h
  · cases h
    rfl
  · cases h
    rfl

/-- Normalization keeps the letters and digits of the blocks of each kind. -/
theorem content_normalizeDocument (laws : AlnumLaws ud) (q : BlockKind → Bool)
    {document normalized : ParsedDocument} (h : normalizeDocument ud document = .ok normalized) :
    documentContent ud q normalized.blocks = normalizedContent ud q document.blocks := by
  rw [normalizeDocument_blocks h]
  induction document.blocks with
  | nil => rfl
  | cons block blocks ih =>
    have hblock := laws.alnums_normalizedBlock block
    rw [← List.singleton_append, normalizedContent_append, ← ih, normalizedContent_singleton,
      ← hblock]
    cases hnormalized : normalizedBlock ud block with
    | none =>
      rw [List.singleton_append, List.filterMap_cons_none hnormalized]
      simp
    | some b =>
      rw [List.singleton_append, List.filterMap_cons_some hnormalized, ← List.singleton_append,
        documentContent_append, documentContent_singleton, kind_normalizedBlock hnormalized]
      rfl

theorem normalizedContent_of_nfkc {blocks : List ParsedBlock} (q : BlockKind → Bool)
    (h : ∀ block ∈ blocks, ud.nfkc block.text = block.text) :
    normalizedContent ud q blocks = documentContent ud q blocks := by
  unfold normalizedContent documentContent
  exact List.flatMap_congr fun b hb => by rw [h b (List.mem_of_mem_filter hb)]

end RagStack.Chunking
