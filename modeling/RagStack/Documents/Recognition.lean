import RagStack.Documents.Upload
import RagStack.Worker.Alphanumerics

/-!
# What the API and the worker take a file for

`inspectUploadedDocument` (`document-upload.helpers.ts`) and `detect_file_type`
(`app/services/parsers/factory.py`) each look at the bytes of an upload: the API at masked or raw
headers and at a sample, the worker at the ZIP directory too. The MIME type and the ending of the
storage key go from the one to the other.

* `upload_type_agrees`: when the worker finds the type that the API has recorded; and where it
  finds another one, the file is an archive with the members of a DOCX file.
-/

namespace RagStack.Documents

open RagStack.Common RagStack.Api
open RagStack.Worker (Text Bytes ParserFactory FileType plainFactory)

/-- The MIME type of a file type. -/
def mimeOf : FileType → String
  | .pdf => PDF_MIME_TYPE
  | .docx => DOCX_MIME_TYPE
  | .txt => TEXT_MIME_TYPE

theorem mimeOf_inj {type type' : FileType} : mimeOf type = mimeOf type' ↔ type = type' := by
  constructor
  · intro h
    cases type <;> cases type' <;> first | rfl | exact absurd h (by decide)
  · rintro rfl
    rfl

/-- The text is ASCII. -/
def IsAscii (text : Text) : Prop := ∀ c ∈ text, c.toNat < 128

instance (text : Text) : Decidable (IsAscii text) := List.decidableBAll _ text

/-- `toLowerCase` and `str.lower` of ASCII text. -/
structure LowerLaws (uni : EcmaUnicode) (factory : ParserFactory) : Prop where
  toLowerCase : ∀ text, IsAscii text → uni.toLowerCase text = text.map Char.toLower
  lower : ∀ text, IsAscii text → factory.lower text = text.map Char.toLower

theorem IsAscii.append {text text' : Text} (h : IsAscii text) (h' : IsAscii text') :
    IsAscii (text ++ text') :=
  fun c hc => (List.mem_append.mp hc).elim (h c) (h' c)

theorem IsAscii.of_subset {text text' : Text} (h : IsAscii text') (hsub : text ⊆ text') :
    IsAscii text :=
  fun c hc => h c (hsub hc)

/-! ## The storage name -/

theorem isAscii_of_isAlphanum {c : Char} (h : c.isAlphanum = true) : c.toNat < 128 := by
  obtain ⟨-, hlast⟩ := Worker.toNat_of_isAlphanum h
  omega

/-- A storage name is ASCII. -/
theorem isAscii_sanitizeStorageFilename {uni : EcmaUnicode} {originalName filename : Text}
    (h : sanitizeStorageFilename uni originalName = .ok filename) : IsAscii filename := by
  have hdash : ∀ c ∈ (['-'] : Text), c.toNat < 128 := by
    intro c hc
    rw [List.mem_singleton.mp hc]
    decide
  simp only [sanitizeStorageFilename] at h
  generalize (if originalName = [] then "document".toList else originalName) = name at h
  split_ifs at h
  cases h
  refine IsAscii.append ?_ ?_
  · intro c hc
    have hc := (isInfix_strip _ _).subset (List.mem_of_mem_take hc)
    rcases mem_replaceMatches_runOf hc with ⟨hc, -⟩ | hc
    · rcases mem_replaceMatches_runOf hc with ⟨-, hc⟩ | hc
      · have hstorage : isStorageChar c = true := by simpa using hc
        simp only [isStorageChar, Bool.or_eq_true, beq_iff_eq] at hstorage
        rcases hstorage with ((halnum | rfl) | rfl) | rfl
        · exact isAscii_of_isAlphanum halnum
        · decide
        · decide
        · decide
      · exact hdash c hc
    · exact hdash c hc
  · intro c hc
    have hsafe := (List.mem_filter.mp hc).2
    simp only [Bool.or_eq_true, beq_iff_eq] at hsafe
    have halnum : c.isAlphanum = ((c.isUpper || c.isLower) || c.isDigit) := rfl
    rcases hsafe with (rfl | hlower) | hdigit
    · decide
    · exact isAscii_of_isAlphanum (by simp [halnum, hlower])
    · exact isAscii_of_isAlphanum (by simp [halnum, hdigit])

/-- The ending of a name is behind its last dot. -/
theorem suffix_extname (base : Text) : extname base <:+ base := by
  unfold extname
  simp only
  split_ifs with hnone
  · exact List.nil_suffix
  · have hsplit : (base.rdropWhile fun c => c != '.') ++ base.rtakeWhile (fun c => c != '.') =
        base := List.rdropWhile_append_rtakeWhile
    have hstem : base.rdropWhile (fun c => c != '.') ≠ [] :=
      fun hnil => hnone (Or.inl (by simp [hnil]))
    have hdot : (base.rdropWhile fun c => c != '.').getLast hstem = '.' := by
      simpa using List.rdropWhile_last_not _ _ hstem
    refine ⟨(base.rdropWhile fun c => c != '.').dropLast, ?_⟩
    calc _ = ((base.rdropWhile fun c => c != '.').dropLast ++
            [(base.rdropWhile fun c => c != '.').getLast hstem]) ++
          base.rtakeWhile (fun c => c != '.') := by rw [hdot, List.append_assoc]; rfl
      _ = base := by rw [List.dropLast_append_getLast, hsplit]

/-! ## Agreement -/

section Agreement

variable {uni : EcmaUnicode} {factory : ParserFactory} {file : UploadedFile}
  {upload : InspectedUpload} {kbId contentHash : Text}

/-- The ending of the storage name is that of the MIME type. -/
theorem extension_of_inspect (h : inspectUploadedDocument uni file = .ok upload) :
    IsAscii upload.storageFilename ∧
      extensionToMimeType (uni.toLowerCase (extname upload.storageFilename)) =
        some upload.mimeType := by
  simp only [inspectUploadedDocument, bind, Except.bind] at h
  split at h
  · cases h
  · rename_i filename hfilename
    split at h
    · cases h
    · split at h
      · rename_i extensionMimeType detectedMimeType hext hdet
        split_ifs at h with hdiffers
        cases h
        have hsame : extensionMimeType = detectedMimeType := by simpa using hdiffers
        exact ⟨isAscii_sanitizeStorageFilename hfilename, by rw [← hsame]; exact hext⟩
      · cases h

/-- The endings of the storage key, as the worker reads them. -/
theorem suffix_lower_storageKey (laws : LowerLaws uni factory)
    (haccepted : inspectUploadedDocument uni file = .ok upload)
    (hkey : IsAscii (kbId ++ contentHash)) :
    uni.toLowerCase (extname upload.storageFilename) <:+
      factory.lower (storageKey kbId contentHash upload) := by
  obtain ⟨hfilename, -⟩ := extension_of_inspect haccepted
  have hsuffix := suffix_extname upload.storageFilename
  have hascii : IsAscii (storageKey kbId contentHash upload) := by
    have hkb : IsAscii kbId := hkey.of_subset (List.subset_append_left _ _)
    have hhash : IsAscii contentHash := hkey.of_subset (List.subset_append_right _ _)
    have hslash : IsAscii "/".toList := by decide
    have hdash : IsAscii "-".toList := by decide
    exact (((hkb.append hslash).append hhash).append hdash).append hfilename
  rw [laws.lower _ hascii, laws.toLowerCase _ (hfilename.of_subset hsuffix.subset)]
  exact (hsuffix.trans (List.suffix_append _ _)).map _

/-- The MIME type of an accepted upload is one of three. -/
theorem mimeType_cases (h : inspectUploadedDocument uni file = .ok upload) :
    upload.mimeType = PDF_MIME_TYPE ∧ hasPdfHeader file.buffer = true ∨
      upload.mimeType = DOCX_MIME_TYPE ∧ hasPdfHeader file.buffer = false ∨
      upload.mimeType = TEXT_MIME_TYPE ∧ hasPdfHeader file.buffer = false ∧
        0 ∉ file.buffer.take 4096 := by
  have hdetected := detectMimeType_of_inspect h
  by_cases htext : upload.mimeType = TEXT_MIME_TYPE
  · exact Or.inr (Or.inr ⟨htext, detectMimeType_text (by rw [hdetected, htext])⟩)
  · unfold detectMimeType at hdetected
    split_ifs at hdetected with hpdf hzip
    · exact Or.inl ⟨(Option.some.inj hdetected).symm, hpdf⟩
    · exact Or.inr (Or.inl ⟨(Option.some.inj hdetected).symm, by simpa using hpdf⟩)
    · exact absurd (Option.some.inj hdetected).symm htext

/-- A key that ends in `.pdf` or `.docx` does not end in `.txt`. -/
theorem not_txt_suffix {key extension : Text} (hkey : extension <:+ key)
    (hext : extension = ".pdf".toList ∨ extension = ".docx".toList) : ¬ ".txt".toList <:+ key := by
  intro htxt
  rcases hext with rfl | rfl
  · have hpdf : ".txt".toList <:+ ".pdf".toList :=
      List.suffix_of_suffix_length_le htxt hkey (by decide)
    revert hpdf
    decide
  · have hdocx : ".txt".toList <:+ ".docx".toList :=
      List.suffix_of_suffix_length_le htxt hkey (by decide)
    revert hdocx
    decide

/-- The endings behind which the worker sees no text. -/
theorem extension_of_mimeType {extension : Text} {mimeType : String}
    (h : extensionToMimeType extension = some mimeType)
    (hmime : mimeType = PDF_MIME_TYPE ∨ mimeType = DOCX_MIME_TYPE) :
    extension = ".pdf".toList ∨ extension = ".docx".toList := by
  unfold extensionToMimeType at h
  split_ifs at h with hpdf htxt hdocx
  · exact Or.inl hpdf
  · rw [← Option.some.inj h] at hmime
    exact absurd hmime (by decide)
  · exact Or.inr hdocx

/-- What the worker finds in an accepted upload that is recorded as a PDF or DOCX file. -/
theorem detectFileType_binary (laws : LowerLaws uni factory)
    (haccepted : inspectUploadedDocument uni file = .ok upload)
    (hkey : IsAscii (kbId ++ contentHash))
    (hmime : upload.mimeType = PDF_MIME_TYPE ∨ upload.mimeType = DOCX_MIME_TYPE) (type : FileType) :
    factory.detectFileType file.buffer upload.mimeType (storageKey kbId contentHash upload) =
        .ok type ↔
      type = .pdf ∧ Worker.PDF_MAGIC <+: file.buffer ∨
      type = .docx ∧ ¬ Worker.PDF_MAGIC <+: file.buffer ∧
        factory.parseDocxXmlSignature file.buffer = true := by
  obtain ⟨-, hext⟩ := extension_of_inspect haccepted
  have hsuffix := suffix_lower_storageKey laws haccepted hkey
  have hends := extension_of_mimeType hext hmime
  have htxt := not_txt_suffix hsuffix hends
  have hbinary : upload.mimeType = "application/pdf" ∨ upload.mimeType =
      "application/vnd.openxmlformats-officedocument.wordprocessingml.document" := hmime
  have hnottext : upload.mimeType ≠ "text/plain" := by
    rcases hmime with h | h <;> rw [h] <;> decide
  unfold Worker.ParserFactory.detectFileType
  simp only [hnottext, htxt, or_self, false_or]
  by_cases hpdf : Worker.PDF_MAGIC <+: file.buffer
  · simp [hpdf, @eq_comm _ type]
  · by_cases hdocx : factory.parseDocxXmlSignature file.buffer = true
    · simp [hpdf, hdocx, @eq_comm _ type]
    · rw [if_neg hpdf, if_neg hdocx, if_neg]
      · simp [hpdf, hdocx]
      · rintro ⟨-, hnotpdf, hnotdocx⟩
        exact hbinary.elim (fun h => hnotpdf (Or.inl h)) (fun h => hnotdocx (Or.inl h))

/-- What the worker finds in an accepted upload that is recorded as text. -/
theorem detectFileType_text (factory : ParserFactory) {buffer : Bytes} (s3Key : Text)
    (hheader : hasPdfHeader buffer = false) (hzero : 0 ∉ buffer.take 4096) (type : FileType) :
    factory.detectFileType buffer TEXT_MIME_TYPE s3Key = .ok type ↔
      type = .docx ∧ factory.parseDocxXmlSignature buffer = true ∨
      type = .txt ∧ factory.parseDocxXmlSignature buffer = false ∧
        (Worker.Utf8 (buffer.take 2048) ∨ Worker.MostlyPrintable (buffer.take 2048)) := by
  have hpdf := not_pdf_of_hasPdfHeader hheader
  have hsample : 0 ∉ buffer.take 2048 :=
    fun h => hzero (List.take_subset_take_left _ (by decide) h)
  have htext : TEXT_MIME_TYPE = "text/plain" := rfl
  rw [← Worker.looksLikeText_iff hsample]
  unfold Worker.ParserFactory.detectFileType
  simp only [if_neg hpdf, htext]
  cases factory.parseDocxXmlSignature buffer with
  | true => simp [@eq_comm _ type]
  | false => cases Worker.looksLikeText buffer <;> simp [@eq_comm _ type]

end Agreement

/-- The worker finds the type that the API has recorded exactly if the header is that of a PDF
    file in full, or the archive has the members of a DOCX file, or the file is no such archive
    and its first 2048 bytes are UTF-8 or mostly printable. Where it finds another type, it has
    found a DOCX archive. -/
theorem upload_type_agrees (uni : EcmaUnicode) (factory : ParserFactory) (file : UploadedFile)
    (upload : InspectedUpload) (kbId contentHash : Text) (laws : LowerLaws uni factory)
    (haccepted : inspectUploadedDocument uni file = .ok upload)
    (hkey : IsAscii (kbId ++ contentHash)) :
    ((∃ type, factory.detectFileType file.buffer upload.mimeType
          (storageKey kbId contentHash upload) = .ok type ∧ mimeOf type = upload.mimeType) ↔
      upload.mimeType = PDF_MIME_TYPE ∧ Worker.PDF_MAGIC <+: file.buffer ∨
      upload.mimeType = DOCX_MIME_TYPE ∧ factory.parseDocxXmlSignature file.buffer = true ∨
      upload.mimeType = TEXT_MIME_TYPE ∧ factory.parseDocxXmlSignature file.buffer = false ∧
        (Worker.Utf8 (file.buffer.take 2048) ∨ Worker.MostlyPrintable (file.buffer.take 2048))) ∧
    ∀ type, factory.detectFileType file.buffer upload.mimeType
        (storageKey kbId contentHash upload) = .ok type → mimeOf type ≠ upload.mimeType →
      type = .docx ∧ factory.parseDocxXmlSignature file.buffer = true := by
  have hpdf : PDF_MIME_TYPE = mimeOf .pdf := rfl
  have hdocx : DOCX_MIME_TYPE = mimeOf .docx := rfl
  have htext : TEXT_MIME_TYPE = mimeOf .txt := rfl
  rcases mimeType_cases haccepted with ⟨hmime, -⟩ | ⟨hmime, hheader⟩ | ⟨hmime, hheader, hzero⟩
  · have hfinds := detectFileType_binary laws haccepted hkey (Or.inl hmime)
    rw [hmime] at hfinds ⊢
    simp only [hfinds]
    constructor
    · simp [hpdf, hdocx, htext, mimeOf_inj]
    · rintro type (⟨rfl, -⟩ | ⟨rfl, -, hdocx⟩) hdiffers
      · exact absurd rfl hdiffers
      · exact ⟨rfl, hdocx⟩
  · have hfinds := detectFileType_binary laws haccepted hkey (Or.inr hmime)
    have hmagic := not_pdf_of_hasPdfHeader hheader
    rw [hmime] at hfinds ⊢
    simp only [hfinds]
    constructor
    · simp [hpdf, hdocx, htext, mimeOf_inj, hmagic]
    · rintro type (⟨rfl, hpdf⟩ | ⟨rfl, -, hdocx⟩) hdiffers
      · exact absurd hpdf hmagic
      · exact ⟨rfl, hdocx⟩
  · have hfinds := detectFileType_text factory (storageKey kbId contentHash upload) hheader hzero
    rw [hmime]
    simp only [hfinds]
    constructor
    · simp [hpdf, hdocx, htext, mimeOf_inj]
    · rintro type (⟨rfl, hdocx⟩ | ⟨rfl, -⟩) hdiffers
      · exact ⟨rfl, hdocx⟩
      · exact absurd rfl hdiffers

/-- `"a.pdf"` with the six bytes `%PDF-1`. -/
def pdfFile : UploadedFile where
  originalname := "a.pdf".toList
  mimetype := "application/pdf"
  buffer := [0x25, 0x50, 0x44, 0x46, 0x2D, 0x31]

theorem upload_type_agrees_pdf :
    ∃ type, plainFactory.detectFileType pdfFile.buffer PDF_MIME_TYPE
        (storageKey "kb".toList "hash".toList ⟨PDF_MIME_TYPE, "a.pdf".toList⟩) = .ok type ∧
      mimeOf type = PDF_MIME_TYPE :=
  (upload_type_agrees .ascii plainFactory pdfFile ⟨PDF_MIME_TYPE, "a.pdf".toList⟩ "kb".toList
    "hash".toList ⟨fun _ _ => rfl, fun _ _ => rfl⟩ (by decide +kernel) (by decide)).1.mpr
    (Or.inl ⟨rfl, by decide⟩)

end RagStack.Documents
