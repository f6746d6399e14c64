import RagStack.Worker.Models

/-!
# The parser factory

`services/worker/app/services/parsers/factory.py`: which parser a file is given
to, from its bytes, the declared MIME type and the storage key.

* `detectFileType_txt_iff`: when a file is taken for text.
* `detectFileType_utf8_iff`: UTF-8 text is, unless the sample ends inside a character
  and is not mostly printable ASCII.
-/

namespace RagStack.Worker

open RagStack.Common

/-- A Python `bytes`. -/
abbrev Bytes := List UInt8

/-- The keys of `ParserFactory._parsers`. -/
inductive FileType
  | pdf | docx | txt
deriving DecidableEq, Repr

/-- `ParserFactory`; `namelist` lists the members of a ZIP archive, and is `none`
    where `ZipFile` throws. `lower` is `str.lower`. -/
structure ParserFactory where
  namelist : Bytes → Option (List Text)
  lower : Text → Text

/-- `b"%PDF-"`. -/
def PDF_MAGIC : Bytes := [0x25, 0x50, 0x44, 0x46, 0x2D]

/-- `data.decode("utf-8")` does not throw. -/
def Utf8 (data : Bytes) : Prop := data.toByteArray.IsValidUTF8

instance (data : Bytes) : Decidable (Utf8 data) :=
  inferInstanceAs (Decidable data.toByteArray.IsValidUTF8)

/-- `byte in {9, 10, 13} or 32 <= byte <= 126`. -/
def isPrintableByte (byte : UInt8) : Bool :=
  byte == 9 || byte == 10 || byte == 13 || (32 ≤ byte && byte ≤ 126)

/-- More than nine tenths of the bytes are printable; the quotient of floats
    compares with 0.9 as the fractions do. -/
def MostlyPrintable (sample : Bytes) : Prop :=
  9 * max sample.length 1 < 10 * sample.countP isPrintableByte

instance (sample : Bytes) : Decidable (MostlyPrintable sample) :=
  inferInstanceAs (Decidable (_ < _))

/-- `_looks_like_text` (lines 50–63). -/
def looksLikeText (data : Bytes) : Bool :=
  if data = [] then true
  else if 0 ∈ data.take 2048 then false
  else if Utf8 (data.take 2048) then true
  else decide (MostlyPrintable (data.take 2048))

namespace ParserFactory

variable (factory : ParserFactory)

/-- `parse_docx_xml_signature` (base.py, lines 70–76). -/
def parseDocxXmlSignature (data : Bytes) : Bool :=
  match factory.namelist data with
  | none => false
  | some names =>
    names.contains "word/document.xml".toList && names.contains "[Content_Types].xml".toList

/-- `detect_file_type` (lines 18–38). -/
def detectFileType (data : Bytes) (mimeType : String) (s3Key : Text) :
    Except IngestionError FileType :=
  let lowerKey := factory.lower s3Key
  let declaredPdf := mimeType = "application/pdf" ∨ ".pdf".toList <:+ lowerKey
  let declaredDocx :=
    mimeType = "application/vnd.openxmlformats-officedocument.wordprocessingml.document" ∨
      ".docx".toList <:+ lowerKey
  let declaredText := mimeType = "text/plain" ∨ ".txt".toList <:+ lowerKey
  if PDF_MAGIC <+: data then .ok .pdf
  else if factory.parseDocxXmlSignature data then .ok .docx
  else if looksLikeText data ∧ (declaredText ∨ ¬ declaredPdf ∧ ¬ declaredDocx) then .ok .txt
  else .error
    { code := .unsupportedFileType, message := "Unsupported file type", retryable := false }

end ParserFactory

/-! ## Text -/

/-- The worker takes a sample without NUL for text if it is UTF-8 or mostly
    printable. -/
theorem looksLikeText_iff {data : Bytes} (h : 0 ∉ data.take 2048) :
    looksLikeText data = true ↔ Utf8 (data.take 2048) ∨ MostlyPrintable (data.take 2048) := by
  unfold looksLikeText
  by_cases hnil : data = []
  · subst hnil
    have hutf8 : Utf8 [] := ByteArray.isValidUTF8_empty
    simp [hutf8]
  · rw [if_neg hnil, if_neg h]
    by_cases hutf8 : Utf8 (data.take 2048) <;> simp [hutf8]

/-- With the MIME type `text/plain` the storage key does not matter. -/
theorem detectFileType_txt_iff (factory : ParserFactory) {data : Bytes} {s3Key : Text}
    (hpdf : ¬ PDF_MAGIC <+: data) (hdocx : factory.parseDocxXmlSignature data = false) :
    factory.detectFileType data "text/plain" s3Key = .ok .txt ↔ looksLikeText data = true := by
  unfold ParserFactory.detectFileType
  simp only [if_neg hpdf, hdocx, Bool.false_eq_true, if_false]
  cases looksLikeText data <;> simp

/-! ## UTF-8 text -/

/-- A cut of a UTF-8 text is UTF-8 where the byte behind it begins a character. -/
theorem utf8_take_iff {data : Bytes} (h : Utf8 data) (n : ℕ) :
    Utf8 (data.take n) ↔ ∀ byte ∈ data[n]?, byte.IsUTF8FirstByte := by
  rcases Nat.lt_or_ge n data.length with hn | hn
  · let s : String := String.fromUTF8 data.toByteArray h
    have hbytes : s.toByteArray = data.toByteArray := rfl
    have hsize : s.utf8ByteSize = data.length := by
      rw [← String.size_toByteArray, hbytes, List.size_toByteArray]
    have hvalid : (⟨n⟩ : String.Pos.Raw).IsValid s ↔ Utf8 (data.take n) := by
      have hextract : data.toByteArray.extract 0 n = (data.take n).toByteArray := by
        ext1
        simp [ByteArray.data_extract]
      rw [String.Pos.Raw.isValid_iff_isValidUTF8_extract_zero, hbytes, hextract]
      exact and_iff_right (by simp [String.Pos.Raw.le_iff, hsize]; omega)
    have hlt : (⟨n⟩ : String.Pos.Raw) < s.rawEndPos := by
      simpa [String.Pos.Raw.lt_iff, hsize] using hn
    have hne : (⟨n⟩ : String.Pos.Raw) ≠ s.rawEndPos := by
      intro heq
      rw [heq] at hlt
      simp [String.Pos.Raw.lt_iff] at hlt
    have hbyte : s.getUTF8Byte ⟨n⟩ hlt = data[n] := List.getElem_toByteArray
    rw [← hvalid, String.Pos.Raw.isValid_iff_isUTF8FirstByte, List.getElem?_eq_getElem hn]
    simp [hne, hlt, hbyte]
  · rw [List.take_of_length_le hn, List.getElem?_eq_none hn]
    simp [h]

/-- UTF-8 text is taken for text if and only if it ends within the sample, or the byte behind
    the sample begins a character, or the sample is mostly printable ASCII. -/
theorem detectFileType_utf8_iff (factory : ParserFactory) {data : Bytes} (hutf8 : Utf8 data)
    (hnul : 0 ∉ data) (hpdf : ¬ PDF_MAGIC <+: data)
    (hdocx : factory.parseDocxXmlSignature data = false) (s3Key : Text) :
    factory.detectFileType data "text/plain" s3Key = .ok .txt ↔
      data.length ≤ 2048 ∨ (∃ byte ∈ data[2048]?, byte.IsUTF8FirstByte) ∨
        MostlyPrintable (data.take 2048) := by
  have hsample : 0 ∉ data.take 2048 := fun h => hnul (List.mem_of_mem_take h)
  rw [detectFileType_txt_iff factory hpdf hdocx, looksLikeText_iff hsample, utf8_take_iff hutf8,
    ← or_assoc]
  apply or_congr_left
  rcases Nat.lt_or_ge 2048 data.length with hlength | hlength
  · rw [List.getElem?_eq_getElem hlength]
    simp [Nat.not_le.mpr hlength]
  · rw [List.getElem?_eq_none hlength]
    simp [hlength]

/-- A factory for which no file is an archive, for ASCII names. -/
def plainFactory : ParserFactory where
  namelist _ := none
  lower := List.map Char.toLower

theorem detectFileType_utf8_iff_ascii :
    plainFactory.detectFileType [0x48, 0x69] "text/plain" "kb/v1/guide.txt".toList = .ok .txt :=
  (detectFileType_utf8_iff plainFactory (by decide +kernel) (by decide) (by decide) rfl _).mpr
    (Or.inl (by decide))

/-- The letter `a` and `k` times the two bytes of `é`. -/
def accentedText (k : ℕ) : Bytes := 0x61 :: (List.replicate k ([0xC3, 0xA9] : Bytes)).flatten

theorem length_accentedText (k : ℕ) : (accentedText k).length = 2 * k + 1 := by
  simp [accentedText]
  omega

theorem utf8_append {a b : Bytes} (ha : Utf8 a) (hb : Utf8 b) : Utf8 (a ++ b) := by
  unfold Utf8
  rw [List.toByteArray_append]
  exact ha.append hb

theorem utf8_accentedText (k : ℕ) : Utf8 (accentedText k) := by
  have htail : Utf8 (List.replicate k ([0xC3, 0xA9] : Bytes)).flatten := by
    induction k with
    | zero => exact ByteArray.isValidUTF8_empty
    | succ k ih => exact utf8_append (by decide +kernel) ih
  exact utf8_append (a := [0x61]) (by decide +kernel) htail

theorem mem_accentedText {k : ℕ} {byte : UInt8} (h : byte ∈ accentedText k) :
    byte = 0x61 ∨ byte = 0xC3 ∨ byte = 0xA9 := by
  simp only [accentedText, List.mem_cons, List.mem_flatten, List.mem_replicate] at h
  rcases h with rfl | ⟨pair, ⟨-, rfl⟩, hbyte⟩
  · exact Or.inl rfl
  · right
    simpa using hbyte

/-- Every second byte is inside a character. -/
theorem getElem?_accentedText {k i : ℕ} (h : i < k) :
    (accentedText k)[2 * (i + 1)]? = some 0xA9 := by
  have htail : ∀ k i, i < k →
      (List.replicate k ([0xC3, 0xA9] : Bytes)).flatten[2 * i + 1]? = some 0xA9 := by
    intro k
    induction k with
    | zero => intro i hi; omega
    | succ k ih =>
      intro i hi
      cases i with
      | zero => rfl
      | succ i => exact ih i (by omega)
  exact htail k i h

theorem countP_accentedText (k : ℕ) : (accentedText k).countP isPrintableByte = 1 := by
  have htail : (List.replicate k ([0xC3, 0xA9] : Bytes)).flatten.countP isPrintableByte = 0 := by
    induction k with
    | zero => rfl
    | succ k ih => exact ih
  rw [accentedText, List.countP_cons_of_pos (by decide), htail]

theorem not_pdf_accentedText (k : ℕ) : ¬ PDF_MAGIC <+: accentedText k := by
  intro h
  rw [PDF_MAGIC, accentedText, List.cons_prefix_cons] at h
  exact absurd h.1 (by decide)

/-- A text of two-byte letters behind one ASCII letter is not taken for text. -/
theorem detectFileType_accentedText :
    ¬ ∀ (factory : ParserFactory) (data : Bytes), Utf8 data → 0 ∉ data → ¬ PDF_MAGIC <+: data →
      factory.parseDocxXmlSignature data = false → ∀ s3Key : Text,
        factory.detectFileType data "text/plain" s3Key = .ok .txt := by
  intro hall
  have hnul : 0 ∉ accentedText 1024 := by
    intro hmem
    rcases mem_accentedText hmem with h | h | h <;> revert h <;> decide
  have htxt := hall plainFactory (accentedText 1024) (utf8_accentedText 1024) hnul
    (not_pdf_accentedText 1024) rfl []
  have hsample : 0 ∉ (accentedText 1024).take 2048 := fun h => hnul (List.mem_of_mem_take h)
  rw [detectFileType_txt_iff plainFactory (not_pdf_accentedText 1024) rfl,
    looksLikeText_iff hsample, utf8_take_iff (utf8_accentedText 1024)] at htxt
  rcases htxt with hcut | hprintable
  · have hfirst := hcut 0xA9 (getElem?_accentedText (k := 1024) (i := 1023) (by decide))
    revert hfirst
    decide
  · have hcount : ((accentedText 1024).take 2048).countP isPrintableByte ≤ 1 := by
      rw [← countP_accentedText 1024]
      exact (List.take_sublist 2048 _).countP_le
    unfold MostlyPrintable at hprintable
    rw [List.length_take, length_accentedText] at hprintable
    omega

end RagStack.Worker
