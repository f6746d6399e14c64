import RagStack.Chat.Retrieval
import RagStack.Chunking.Checksums

/-!
# Exact duplicates

The first rule of `dedupReason` in `services/api/src/chat/retrieval.service.ts` takes two
chunks with one checksum for one text.

* `exactDuplicates_of_pipeFree`: with an injective hash it is right about the chunks of two
  documents whose headings are without `|`; about two chunks it is right exactly if neither
  content goes on where the titles of the other begin.
-/

namespace RagStack.Chat

open RagStack.Common RagStack.Api RagStack.Chunking
open RagStack.Worker (Text ParsedDocument ChunkRecord)

/-- The candidate has the checksum and the content of the chunk. -/
def IsRowOf (c : ChunkRecord) (candidate : RetrievalCandidate) : Prop :=
  candidate.checksum = c.checksum ∧ candidate.content = c.content

/-- Equal checksums mean equal contents, and no candidate is removed as an exact duplicate
    of one with another content. -/
structure ChecksumsTell (uni : EcmaUnicode) (c c' : ChunkRecord) : Prop where
  content : c.checksum = c'.checksum → c.content = c'.content
  dedup : ∀ left right, IsRowOf c left → IsRowOf c' right → left.chunkId ≠ right.chunkId →
    dedupReason uni left right = some ("duplicate of ".toList ++ idText left.chunkId) →
      left.content = right.content

theorem checksum_of_dedupReason {uni : EcmaUnicode} {left right : RetrievalCandidate}
    (hid : left.chunkId ≠ right.chunkId)
    (h : dedupReason uni left right = some ("duplicate of ".toList ++ idText left.chunkId)) :
    left.checksum = right.checksum := by
  by_contra hchecksum
  unfold dedupReason at h
  rw [if_neg (not_or.mpr ⟨hid, hchecksum⟩)] at h
  simp only at h
  split_ifs at h
  simp at h

theorem checksumsTell_iff {uni : EcmaUnicode} {c c' : ChunkRecord} :
    ChecksumsTell uni c c' ↔ (c.checksum = c'.checksum → c.content = c'.content) := by
  constructor
  · exact fun h => h.content
  · intro h
    refine ⟨h, fun left right hleft hright hid hreason => ?_⟩
    rw [hleft.2, hright.2]
    refine h ?_
    rw [← hleft.1, ← hright.1]
    exact checksum_of_dedupReason hid hreason

/-- With an injective hash the checksums tell the chunks of two documents apart where the
    headings that have a body are without `|`, and the versions have it equally often. They tell
    two chunks apart exactly if neither content goes on where the titles of the other begin. -/
theorem exactDuplicates_of_pipeFree {ck ck' : Chunker} {document document' : ParsedDocument}
    {chunks chunks' : List ChunkRecord} (uni : EcmaUnicode)
    (hsha : ck'.sha256 = ck.sha256) (hinj : Function.Injective ck.sha256)
    (h : ck.chunkDocument document = .ok chunks) (h' : ck'.chunkDocument document' = .ok chunks') :
    (PipeFree ck ck' document document' → ∀ c ∈ chunks, ∀ c' ∈ chunks', ChecksumsTell uni c c') ∧
      ∀ c ∈ chunks, ∀ c' ∈ chunks', ChecksumsTell uni c c' ↔ ¬ GoesOn c c' ∧ ¬ GoesOn c' c := by
  constructor
  · intro hfree c hc c' hc'
    exact checksumsTell_iff.mpr (checksum_identifies_of_pipeFree hsha hinj hfree h h' hc hc')
  · intro c hc c' hc'
    rw [checksumsTell_iff]
    exact checksum_identifies_iff hsha hinj h h' hc hc'

/-- What is hashed for the one chunk of either of the two documents below. -/
def hashedTwice : Text := "A|B\n\nB\n\nC|A|B||section_v2".toList

/-- What is hashed for the one chunk of `sampleDocument`. -/
def hashedSample : Text := "Overview\n\nalpha beta\n\ngamma|Overview||section_v2".toList

/-- A hash without collisions, with the digests of these texts. -/
def digestOf (text : Text) : String :=
  if text = hashedTwice then "16ad46e696afe14396099cabc48fd3eb09d470225f70b301fa821b2e4bf5bddc"
  else if text = hashedSample then
    "b69e35bcada909d9d5b5204d871a3b61458734b2d47acb795dce2173665197eb"
  else String.ofList ('#' :: text)

theorem injective_digestOf : Function.Injective digestOf := by
  have hdigest : ∀ (digest : String) (text : Text), digest.toList.head? ≠ some '#' →
      digest ≠ String.ofList ('#' :: text) := by
    intro digest text hhead heq
    rw [heq, String.toList_ofList] at hhead
    exact hhead rfl
  intro text text' h
  unfold digestOf at h
  split_ifs at h with htext htext' hsample' hsample htext' hsample' htext' hsample'
  · rw [htext, htext']
  · exact absurd h (by decide)
  · exact absurd h (hdigest _ text' (by decide))
  · exact absurd h (by decide)
  · rw [hsample, hsample']
  · exact absurd h (hdigest _ text' (by decide))
  · exact absurd h.symm (hdigest _ text (by decide))
  · exact absurd h.symm (hdigest _ text (by decide))
  · exact (List.cons.inj (String.ofList_injective h)).2

def pipeChunker : Chunker := { sampleChunker "" with sha256 := digestOf }

/-- A heading with `|`, and two paragraphs. -/
def pipeHeading : ParsedDocument where
  fileType := "txt"
  sourceTitle := "manual.txt"
  blocks := [{ text := "A|B".toList, kind := .heading }, { text := "B".toList },
    { text := "C".toList }]

/-- The heading is a paragraph here, and the paragraph after it a heading. -/
def pipeParagraphs : ParsedDocument where
  fileType := "txt"
  sourceTitle := "manual.txt"
  blocks := [{ text := "A|B".toList }, { text := "B".toList, kind := .heading },
    { text := "C|A".toList }]

/-- A document with one chunk of the given content, which hashes the given text. -/
theorem exists_chunk_hashed {document : ParsedDocument} {content hashed : Text}
    (h : (match pipeChunker.chunkDocument document with
      | .ok chunks => chunks.any fun c => decide (c.content = content ∧
          c.content ++ '|' :: checksumRest c = hashed)
      | .error _ => false) = true) :
    ∃ chunks, pipeChunker.chunkDocument document = .ok chunks ∧
      ∃ c ∈ chunks, c.content = content ∧ c.content ++ '|' :: checksumRest c = hashed := by
  cases hchunks : pipeChunker.chunkDocument document with
  | error e =>
    rw [hchunks] at h
    cases h
  | ok chunks =>
    rw [hchunks] at h
    obtain ⟨c, hc, hfound⟩ := List.any_eq_true.mp h
    exact ⟨chunks, rfl, c, hc, of_decide_eq_true hfound⟩

theorem exists_pipe_chunks :
    (∃ chunks, pipeChunker.chunkDocument pipeHeading = .ok chunks ∧
      ∃ c ∈ chunks, c.content = "A|B\n\nB\n\nC".toList ∧ c.content ++ '|' :: checksumRest c =
        hashedTwice) ∧
    ∃ chunks, pipeChunker.chunkDocument pipeParagraphs = .ok chunks ∧
      ∃ c ∈ chunks, c.content = "A|B\n\nB\n\nC|A".toList ∧ c.content ++ '|' :: checksumRest c =
        hashedTwice :=
  ⟨exists_chunk_hashed (by decide +kernel), exists_chunk_hashed (by decide +kernel)⟩

theorem exists_sample_chunk :
    ∃ chunks, pipeChunker.chunkDocument sampleDocument = .ok chunks ∧
      ∃ c ∈ chunks, c.content = "Overview\n\nalpha beta\n\ngamma".toList ∧
        c.content ++ '|' :: checksumRest c = hashedSample :=
  exists_chunk_hashed (by decide +kernel)

theorem exactDuplicates_of_pipeFree_sample :
    ∃ chunks chunks', pipeChunker.chunkDocument sampleDocument = .ok chunks ∧
      pipeChunker.chunkDocument pipeParagraphs = .ok chunks' ∧ chunks ≠ [] ∧ chunks' ≠ [] ∧
      ∀ c ∈ chunks, ∀ c' ∈ chunks', ChecksumsTell .ascii c c' := by
  obtain ⟨chunks, h, c, hc, -⟩ := exists_sample_chunk
  obtain ⟨-, chunks', h', c', hc', -⟩ := exists_pipe_chunks
  have hfree : PipeFree pipeChunker pipeChunker sampleDocument pipeParagraphs :=
    ⟨by unfold PipeFreeHeadings; decide, by unfold PipeFreeHeadings; decide, rfl⟩
  exact ⟨chunks, chunks', h, h', List.ne_nil_of_mem hc, List.ne_nil_of_mem hc',
    (exactDuplicates_of_pipeFree .ascii rfl injective_digestOf h h').1 hfree⟩

/-- A candidate for a chunk of either document. -/
def pipeCandidate (chunkId : Ingest.Id) (c : ChunkRecord) : RetrievalCandidate :=
  { guideCandidate chunkId .lexical 0 with content := c.content, checksum := c.checksum }

/-- The two chunks have the same checksum, under a hash without collisions, and different
    contents. One of them is removed. -/
theorem pipe_checksums_collide :
    Function.Injective pipeChunker.sha256 ∧
      ∃ chunks chunks', pipeChunker.chunkDocument pipeHeading = .ok chunks ∧
        pipeChunker.chunkDocument pipeParagraphs = .ok chunks' ∧
        ∃ c ∈ chunks, ∃ c' ∈ chunks', c.checksum = c'.checksum ∧ c.content ≠ c'.content ∧
          dedupReason .ascii (pipeCandidate 1 c) (pipeCandidate 2 c') =
            some ("duplicate of ".toList ++ idText 1) ∧ ¬ ChecksumsTell .ascii c c' := by
  obtain ⟨⟨chunks, h, c, hc, hcontent, hhashed⟩, chunks', h', c', hc', hcontent', hhashed'⟩ :=
    exists_pipe_chunks
  have hsame : c.checksum = c'.checksum := by
    rw [checksum_eq h hc, checksum_eq h' hc', hhashed, hhashed']
  have hne : c.content ≠ c'.content := by
    rw [hcontent, hcontent']
    decide
  refine ⟨injective_digestOf, chunks, chunks', h, h', c, hc, c', hc', hsame, hne, ?_,
    fun htell => hne (htell.content hsame)⟩
  have hrule : (pipeCandidate 1 c).checksum = (pipeCandidate 2 c').checksum := hsame
  unfold dedupReason
  rw [if_pos (Or.inr hrule)]
  rfl

end RagStack.Chat
