import RagStack.Api.Basic
import RagStack.Worker.ParserFactory

/-!
# Uploaded files

`services/api/src/documents/document-upload.helpers.ts`: which uploads the API
accepts, under which MIME type and storage name.

* `upload_text_recognized_iff`: the worker takes a file that the API has
  accepted as text for text, exactly if the first 2048 bytes are UTF-8 or more
  than nine tenths of them are printable.
-/

namespace RagStack.Documents

open RagStack.Common RagStack.Api
open RagStack.Worker (Text Bytes plainFactory)

/-- The fields of `Express.Multer.File` that are read. -/
structure UploadedFile where
  originalname : Text
  mimetype : String
  buffer : Bytes
deriving DecidableEq, Repr

def DOCX_MIME_TYPE : String :=
  "application/vnd.openxmlformats-officedocument.wordprocessingml.document"

def PDF_MIME_TYPE : String := "application/pdf"

def TEXT_MIME_TYPE : String := "text/plain"

def SUPPORTED_MIME_TYPES : List String := [PDF_MIME_TYPE, TEXT_MIME_TYPE, DOCX_MIME_TYPE]

/-! ## Content -/

/-- `byte` counts as suspicious (lines 71–76). -/
def isSuspicious (byte : UInt8) : Bool :=
  let isWhitespace := byte == 9 || byte == 10 || byte == 13
  let isPrintableAscii := 32 ≤ byte && byte ≤ 126
  let isExtendedText := 128 ≤ byte
  !isWhitespace && !isPrintableAscii && !isExtendedText

/-- `isLikelyTextBuffer` (lines 62–80); the quotient of doubles compares with
    0.02 as the fractions do. -/
def isLikelyTextBuffer (buffer : Bytes) : Bool :=
  let sample := buffer.take 4096
  if 0 ∈ sample then false
  else decide (50 * sample.countP isSuspicious < max sample.length 1)

/-- `buffer.subarray(0, 5).toString('ascii') === '%PDF-'`: decoding as ASCII
    clears the high bit. -/
def hasPdfHeader (buffer : Bytes) : Bool :=
  5 ≤ buffer.length && (buffer.take 5).map (fun byte => byte &&& 0x7F) == Worker.PDF_MAGIC

/-- `hasZipHeader` (lines 42–47). -/
def hasZipHeader (buffer : Bytes) : Bool :=
  match buffer with
  | b0 :: b1 :: b2 :: b3 :: _ =>
    b0 == 0x50 && b1 == 0x4B && [0x03, 0x05, 0x07].contains b2 && [0x04, 0x06, 0x08].contains b3
  | _ => false

/-- The bytes of an ASCII string. -/
def asciiBytes (s : String) : Bytes := s.toList.map fun c => c.toNat.toUInt8

/-- `detectMimeType` (lines 37–60). -/
def detectMimeType (buffer : Bytes) : Option String :=
  if hasPdfHeader buffer then some PDF_MIME_TYPE
  else if hasZipHeader buffer ∧ asciiBytes "[Content_Types].xml" <:+: buffer ∧
      asciiBytes "word/document.xml" <:+: buffer then some DOCX_MIME_TYPE
  else if isLikelyTextBuffer buffer then some TEXT_MIME_TYPE
  else none

/-! ## Names -/

/-- `path.basename(name)` of the POSIX variant. -/
def basename (name : Text) : Text :=
  (name.rdropWhile fun c => c == '/').rtakeWhile fun c => c != '/'

/-- `path.extname(base)` of the POSIX variant, for a name without slashes: from
    the last dot, unless there is nothing before it. -/
def extname (base : Text) : Text :=
  let stem := base.rdropWhile fun c => c != '.'
  if stem.length ≤ 1 ∨ base = "..".toList then []
  else '.' :: base.rtakeWhile fun c => c != '.'

/-- `path.basename(base, suffix)` for a name without slashes. -/
def dropSuffix (base suffix : Text) : Text :=
  if suffix <:+ base then base.take (base.length - suffix.length) else base

/-- `isControlCharacter` (lines 141–144). -/
def isControlCharacter (c : Char) : Bool := c.toNat ≤ 31 || c.toNat == 127

/-- `[A-Za-z0-9._-]`. -/
def isStorageChar (c : Char) : Bool := c.isAlphanum || c == '.' || c == '_' || c == '-'

/-- `[.-]`. -/
def isDotOrDash (c : Char) : Bool := c == '.' || c == '-'

/-- `sanitizeStorageFilename` (lines 116–139). -/
def sanitizeStorageFilename (uni : EcmaUnicode) (originalName : Text) :
    Except HttpException Text :=
  let base := basename (if originalName = [] then "document".toList else originalName)
  let extension := uni.toLowerCase (extname base)
  let filtered := (uni.nfkc (dropSuffix base extension)).filter fun c => !isControlCharacter c
  let dashed := replaceMatches (runOf fun c => !isStorageChar c) ['-'] filtered
  let single := replaceMatches (runOf fun c => c == '-') ['-'] dashed
  let stem := (strip isDotOrDash single).take 80
  let safeExtension := extension.filter fun c => c == '.' || c.isLower || c.isDigit
  if stem = [] ∨ safeExtension = [] then .error (.badRequest "Invalid file name")
  else .ok (stem ++ safeExtension)

/-- `extensionToMimeType` (lines 82–93). -/
def extensionToMimeType (extension : Text) : Option String :=
  if extension = ".pdf".toList then some PDF_MIME_TYPE
  else if extension = ".txt".toList then some TEXT_MIME_TYPE
  else if extension = ".docx".toList then some DOCX_MIME_TYPE
  else none

/-- `normalizeDeclaredMimeType` (lines 95–104). -/
def normalizeDeclaredMimeType (uni : EcmaUnicode) (mimetype : String) :
    Except HttpException (Option String) :=
  if mimetype = "" ∨ mimetype = "application/octet-stream" then .ok none
  else
    let normalized := String.ofList (uni.toLowerCase mimetype.toList)
    if normalized ∈ SUPPORTED_MIME_TYPES then .ok (some normalized)
    else .error (.badRequest "Unsupported declared MIME type")

/-! ## Inspection -/

/-- What `inspectUploadedDocument` returns. -/
structure InspectedUpload where
  mimeType : String
  storageFilename : Text
deriving DecidableEq, Repr

/-- `inspectUploadedDocument` (lines 9–35). -/
def inspectUploadedDocument (uni : EcmaUnicode) (file : UploadedFile) :
    Except HttpException InspectedUpload := do
  let storageFilename ← sanitizeStorageFilename uni file.originalname
  let extension := uni.toLowerCase (extname storageFilename)
  let declaredMimeType ← normalizeDeclaredMimeType uni file.mimetype
  match extensionToMimeType extension, detectMimeType file.buffer with
  | some extensionMimeType, some detectedMimeType =>
    if extensionMimeType ≠ detectedMimeType then
      .error (.badRequest "File extension does not match file content")
    else if declaredMimeType.any (· ≠ detectedMimeType) then
      .error (.badRequest "Declared MIME type does not match file content")
    else .ok { mimeType := detectedMimeType, storageFilename := storageFilename }
  | _, _ => .error (.badRequest "Unsupported file type")

/-- The storage key of an upload (documents.service.ts, line 86). -/
def storageKey (kbId contentHash : Text) (upload : InspectedUpload) : Text :=
  kbId ++ "/".toList ++ contentHash ++ "-".toList ++ upload.storageFilename

/-! ## What is accepted as text -/

section Text

variable {uni : EcmaUnicode} {file : UploadedFile} {upload : InspectedUpload}

/-- The MIME type of an accepted upload is that of its content. -/
theorem detectMimeType_of_inspect (h : inspectUploadedDocument uni file = .ok upload) :
    detectMimeType file.buffer = some upload.mimeType := by
  simp only [inspectUploadedDocument, bind, Except.bind] at h
  split at h
  · cases h
  · split at h
    · cases h
    · split at h
      · rename_i extensionMimeType detectedMimeType hext hdet
        split_ifs at h
        cases h
        exact hdet
      · cases h

/-- What is taken for text has neither a PDF header nor a NUL in its first 4096
    bytes. -/
theorem detectMimeType_text {buffer : Bytes} (h : detectMimeType buffer = some TEXT_MIME_TYPE) :
    hasPdfHeader buffer = false ∧ 0 ∉ buffer.take 4096 := by
  unfold detectMimeType at h
  split_ifs at h with hpdf hzip htext
  · exact absurd (Option.some.inj h) (by decide)
  · exact absurd (Option.some.inj h) (by decide)
  · refine ⟨by simpa using hpdf, fun hzero => ?_⟩
    simp [isLikelyTextBuffer, hzero] at htext

theorem not_pdf_of_hasPdfHeader {buffer : Bytes} (h : hasPdfHeader buffer = false) :
    ¬ Worker.PDF_MAGIC <+: buffer := by
  rintro ⟨rest, rfl⟩
  have htake : ((Worker.PDF_MAGIC ++ rest).take 5).map (fun byte => byte &&& 0x7F) =
      Worker.PDF_MAGIC := rfl
  rw [hasPdfHeader, htake] at h
  simp [Worker.PDF_MAGIC] at h

end Text

/-- The worker takes a file that the API has accepted as text for text exactly if
    the first 2048 bytes are UTF-8, or more than nine tenths of them printable. -/
theorem upload_text_recognized_iff (uni : EcmaUnicode) (factory : Worker.ParserFactory)
    (file : UploadedFile) (upload : InspectedUpload)
    (hzip : factory.namelist file.buffer = none)
    (haccepted : inspectUploadedDocument uni file = .ok upload)
    (htext : upload.mimeType = TEXT_MIME_TYPE) (kbId contentHash : Text) :
    factory.detectFileType file.buffer upload.mimeType (storageKey kbId contentHash upload) =
        .ok .txt ↔
      Worker.Utf8 (file.buffer.take 2048) ∨ Worker.MostlyPrintable (file.buffer.take 2048) := by
  have hdetected := detectMimeType_of_inspect haccepted
  rw [htext] at hdetected ⊢
  obtain ⟨hpdf, hzero⟩ := detectMimeType_text hdetected
  have hdocx : factory.parseDocxXmlSignature file.buffer = false := by
    simp [Worker.ParserFactory.parseDocxXmlSignature, hzip]
  have hsample : 0 ∉ file.buffer.take 2048 :=
    fun h => hzero (List.take_subset_take_left _ (by decide) h)
  rw [← Worker.looksLikeText_iff hsample]
  exact Worker.detectFileType_txt_iff factory (not_pdf_of_hasPdfHeader hpdf) hdocx

/-- `"a.txt"` with the one byte `E9`: the letter `é` in Latin-1. -/
def latin1File : UploadedFile :=
  { originalname := "a.txt".toList, mimetype := "text/plain", buffer := [0xE9] }

theorem latin1File_accepted :
    inspectUploadedDocument .ascii latin1File =
      .ok { mimeType := TEXT_MIME_TYPE, storageFilename := "a.txt".toList } := by
  decide +kernel

theorem upload_text_recognized_iff_latin1 :
    plainFactory.detectFileType latin1File.buffer TEXT_MIME_TYPE
        (storageKey "kb".toList "hash".toList
          { mimeType := TEXT_MIME_TYPE, storageFilename := "a.txt".toList }) = .ok .txt ↔
      Worker.Utf8 (latin1File.buffer.take 2048) ∨
        Worker.MostlyPrintable (latin1File.buffer.take 2048) :=
  upload_text_recognized_iff .ascii plainFactory latin1File _ rfl latin1File_accepted rfl
    "kb".toList "hash".toList

/-- The API accepts the file, the worker rejects it. -/
theorem latin1_upload_rejected :
    ¬ ∀ (uni : EcmaUnicode) (factory : Worker.ParserFactory) (file : UploadedFile)
        (upload : InspectedUpload) (kbId contentHash : Text),
      factory.namelist file.buffer = none → inspectUploadedDocument uni file = .ok upload →
      upload.mimeType = TEXT_MIME_TYPE →
      factory.detectFileType file.buffer upload.mimeType (storageKey kbId contentHash upload) =
        .ok .txt := by
  intro hall
  have htxt := hall .ascii plainFactory latin1File _ "kb".toList "hash".toList rfl
    latin1File_accepted rfl
  revert htxt
  decide +kernel

end RagStack.Documents
