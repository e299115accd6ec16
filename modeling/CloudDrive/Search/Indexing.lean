import CloudDrive.Operation

/-! # Indexing what is uploaded

`extract_text` of `app/search/extract.py`, and the bounded head of the stream that
`upload_simple` keeps for the index. -/

namespace CloudDrive

open Outcome Relational

/-! ## Decoding -/

/-- The character of a UTF-8 sequence of this first byte, and how many bytes follow it. -/
def leadingScalar (first : Nat) (rest : Content) : Option (Char × Nat) :=
  let tail (byte : Nat) : Bool := decide (0x80 ≤ byte ∧ byte ≤ 0xBF)
  if first < 0x80 then
    some (Char.ofNat first, 0)
  else if 0xC2 ≤ first ∧ first ≤ 0xDF then
    match rest.map UInt8.toNat with
    | second :: _ =>
        if tail second then
          some (Char.ofNat ((first - 0xC0) * 64 + (second - 0x80)), 1)
        else none
    | _ => none
  else if 0xE0 ≤ first ∧ first ≤ 0xEF then
    match rest.map UInt8.toNat with
    | second :: third :: _ =>
        let least := if first = 0xE0 then 0xA0 else 0x80
        let most := if first = 0xED then 0x9F else 0xBF
        if least ≤ second ∧ second ≤ most ∧ tail third then
          some (Char.ofNat ((first - 0xE0) * 4096 + (second - 0x80) * 64 + (third - 0x80)), 2)
        else none
    | _ => none
  else if 0xF0 ≤ first ∧ first ≤ 0xF4 then
    match rest.map UInt8.toNat with
    | second :: third :: fourth :: _ =>
        let least := if first = 0xF0 then 0x90 else 0x80
        let most := if first = 0xF4 then 0x8F else 0xBF
        if least ≤ second ∧ second ≤ most ∧ tail third ∧ tail fourth then
          some (Char.ofNat ((first - 0xF0) * 262144 + (second - 0x80) * 4096 +
            (third - 0x80) * 64 + (fourth - 0x80)), 3)
        else none
    | _ => none
  else
    none

/-- `bytes.decode("utf-8", errors="ignore")`, after `skip` bytes. A byte that starts no
sequence is left out; those that follow it start none either. -/
def decodeIgnoring : Nat → Content → List Char
  | _, [] => []
  | skip + 1, _ :: rest => decodeIgnoring skip rest
  | 0, first :: rest =>
      match leadingScalar first.toNat rest with
      | some (char, length) => char :: decodeIgnoring length rest
      | none => decodeIgnoring 0 rest

/-! ## Extracting -/

/-- `DEFAULT_MAX_BYTES`, which `upload_simple` imports as `INDEX_MAX_BYTES`. -/
def indexMaxBytes : Nat := 5 * 1024 * 1024

def maxChars : Nat := 200000

def maxPdfPages : Nat := 50

/-- `str.lower`, and `pypdf`: the text of each page in order, where a page or the file may
raise and a page may give no text. -/
class TextExtraction where
  lower : String → String
  pdfPages : Content → Option (List (Option (Option String)))

section Extracting

variable [TextExtraction]

/-- `_TEXT_EXTENSIONS`. -/
def textExtensions : List String :=
  ["txt", "md", "markdown", "csv", "tsv", "json", "log", "xml", "yaml", "yml", "html", "htm",
    "rst"]

/-- `_is_text_like`. -/
def isTextLike (mimeType extension : Option String) : Bool :=
  (match mimeType with
    | some mime => mime ≠ "" && ("text/".toList.isPrefixOf mime.toList || mime = "application/json")
    | none => false) ||
  match extension with
  | some ext => ext ≠ "" && decide (TextExtraction.lower ext ∈ textExtensions)
  | none => false

/-- `_is_pdf`. -/
def isPdf (mimeType extension : Option String) : Bool :=
  mimeType = some "application/pdf" || TextExtraction.lower (extension.getD "") = "pdf"

/-- `_clean`. -/
def clean (text : String) : String :=
  let text := (strip text).toList
  String.ofList (if maxChars < text.length then text.take maxChars else text)

/-- `cleaned or None`. -/
def cleaned (text : String) : Option String :=
  if clean text = "" then none else some (clean text)

/-- `_extract_pdf`. -/
def extractPdf (data : Content) : Option String :=
  match TextExtraction.pdfPages data with
  | none => none
  | some pages =>
      cleaned ("\n".intercalate ((pages.take maxPdfPages).filterMap fun page =>
        page.map fun text => text.getD ""))

/-- `extract_text`. -/
def extractText (data : Content) (mimeType extension : Option String) : Option String :=
  if indexMaxBytes < data.length then none
  else if isTextLike mimeType extension then cleaned (String.ofList (decodeIgnoring 0 data))
  else if isPdf mimeType extension then extractPdf data
  else none

/-! ## The index -/

/-- `FileSearchIndex`. -/
structure ContentIndexRow where
  itemId : Uuid
  content : String

instance : Keyed ContentIndexRow Uuid := ⟨ContentIndexRow.itemId⟩

abbrev ContentIndex := Table ContentIndexRow

/-- `index_file`, without the embeddings. -/
def indexFile (itemId : Uuid) (data : Content) (mimeType extension : Option String)
    (index : ContentIndex) : ContentIndex :=
  match extractText data mimeType extension with
  | none => index.filter fun row => decide (row.itemId ≠ itemId)
  | some text => index.save ⟨itemId, text⟩

/-- The text that is indexed for an item. -/
def indexedText (index : ContentIndex) (itemId : Uuid) : Option String :=
  (index.find? itemId).map ContentIndexRow.content

theorem indexedText_indexFile (itemId : Uuid) (data : Content)
    (mimeType extension : Option String) (index : ContentIndex) :
    indexedText (indexFile itemId data mimeType extension index) itemId =
      extractText data mimeType extension := by
  rw [indexFile]
  cases extractText data mimeType extension with
  | none =>
      rw [indexedText, Option.map_eq_none_iff, Table.find?_eq_none]
      intro row member isItem
      exact of_decide_eq_true (Table.mem_filter.mp member).2 isItem
  | some text =>
      rw [indexedText]
      have found : (index.save ⟨itemId, text⟩).find? itemId = some ⟨itemId, text⟩ :=
        Table.find?_eq_some.mpr ⟨Table.mem_save.mpr (.inl rfl), rfl⟩
      rw [found]
      rfl

end Extracting

/-! ## The head of the stream -/

/-- `head_cap`. -/
def headCap : Nat := indexMaxBytes + 1

/-- What one chunk adds in `_hashing_stream`. -/
def retain (head chunk : Content) : Content :=
  if head.length < headCap then head ++ chunk.take (headCap - head.length) else head

/-- The head when the stream has ended. -/
def retainedHead (stream : List Content) : Content :=
  stream.foldl retain []

/-- A head of what came before and the next chunk make the head of both. -/
theorem retain_take (earlier chunk : Content) :
    retain (earlier.take headCap) chunk = (earlier ++ chunk).take headCap := by
  rw [retain, List.length_take, List.take_append]
  by_cases short : earlier.length < headCap
  · rw [Nat.min_eq_right short.le, if_pos short]
  · have full : headCap ≤ earlier.length := Nat.le_of_not_lt short
    have enough : headCap - earlier.length = 0 := Nat.sub_eq_zero_of_le full
    rw [Nat.min_eq_left full, if_neg (Nat.lt_irrefl _), enough, List.take_zero, List.append_nil]

/-- However the stream is cut into chunks, the head is that of the whole content. -/
theorem retainedHead_eq (stream : List Content) :
    retainedHead stream = stream.flatten.take headCap := by
  have cut : ∀ (stream : List Content) (earlier : Content),
      stream.foldl retain (earlier.take headCap) = (earlier ++ stream.flatten).take headCap := by
    intro stream
    induction stream with
    | nil =>
        intro earlier
        rw [List.flatten_nil, List.append_nil]
        rfl
    | cons chunk rest induction =>
        intro earlier
        rw [List.foldl_cons, retain_take, induction, List.flatten_cons, List.append_assoc]
  have whole := cut stream []
  rwa [List.take_nil, List.nil_append] at whole

theorem retainedHead_whole {stream : List Content}
    (fits : stream.flatten.length ≤ indexMaxBytes) : retainedHead stream = stream.flatten := by
  rw [retainedHead_eq, List.take_of_length_le]
  exact fits.trans (Nat.le_succ _)

theorem retainedHead_beyond {stream : List Content}
    (large : indexMaxBytes < stream.flatten.length) :
    indexMaxBytes < (retainedHead stream).length := by
  rw [retainedHead_eq, List.length_take]
  exact Nat.lt_min.mpr ⟨Nat.lt_succ_self _, large⟩

section Upload

variable [TextExtraction]

theorem extractText_beyond {data : Content} (large : indexMaxBytes < data.length)
    (mimeType extension : Option String) : extractText data mimeType extension = none :=
  if_pos large

/-- The head stands for the whole content. -/
theorem extractText_retainedHead (stream : List Content) (mimeType extension : Option String) :
    extractText (retainedHead stream) mimeType extension =
      extractText stream.flatten mimeType extension := by
  rcases Nat.lt_or_ge indexMaxBytes stream.flatten.length with large | fits
  · rw [extractText_beyond large, extractText_beyond (retainedHead_beyond large)]
  · rw [retainedHead_whole fits]

/-! ## Uploading with an indexer -/

variable [Platform]

/-- `upload_simple`, where there is an indexer. -/
def uploadIndexed (userId : Uuid) (parentId : Option Uuid) (filename : String)
    (stream : List Content) (sizeBytes : Nat) (mimeType : Option String) (sys : System)
    (index : ContentIndex) : Except ServiceError (DriveItem × System × ContentIndex) := do
  let (item, sys) ← UploadService.uploadSimple userId parentId filename stream sizeBytes mimeType
    sys
  pure (item, sys, indexFile item.id (retainedHead stream) mimeType item.extension index)

/-- However the stream is cut, the text that is indexed for an uploaded file is that of the
complete file, and a file over the cap is not indexed. -/
theorem uploadIndexed_whole {userId : Uuid} {parentId : Option Uuid} {filename : String}
    {stream : List Content} {sizeBytes : Nat} {mimeType : Option String} {sys after : System}
    {index later : ContentIndex} {item : DriveItem}
    (uploads : uploadIndexed userId parentId filename stream sizeBytes mimeType sys index =
      .ok (item, after, later)) :
    extractText (retainedHead stream) mimeType item.extension =
        extractText stream.flatten mimeType item.extension ∧
      indexedText later item.id = extractText stream.flatten mimeType item.extension ∧
      (stream.flatten.length ≤ indexMaxBytes → retainedHead stream = stream.flatten) ∧
      (indexMaxBytes < stream.flatten.length → indexedText later item.id = none) := by
  simp only [uploadIndexed, bind_eq_ok, pure_eq_ok] at uploads
  rcases uploads with ⟨⟨created, middle⟩, _, same⟩
  cases same
  have same := extractText_retainedHead stream mimeType created.extension
  refine ⟨same, ?_, retainedHead_whole, ?_⟩
  · rw [indexedText_indexFile, same]
  · intro large
    rw [indexedText_indexFile, same, extractText_beyond large]

end Upload

/-! ## Three chunks -/

section Greeting

@[reducible] private def plainExtraction : TextExtraction := ⟨id, fun _ => none⟩

attribute [local instance] smallPlatform plainExtraction

/-- An umlaut is cut in two by an empty chunk. -/
private def greeting : List Content := [[72, 195], [], [182, 10]]

theorem uploadIndexed_whole_greeting :
    ∃ item after later, uploadIndexed 1 none "a.txt" greeting 4 none firstDay .empty =
        .ok (item, after, later) ∧ indexedText later item.id = some "Hö" := by
  cases uploads : uploadIndexed 1 none "a.txt" greeting 4 none firstDay .empty with
  | error error =>
      have succeeds : (uploadIndexed 1 none "a.txt" greeting 4 none firstDay .empty).isOk = true :=
        by decide
      rw [uploads] at succeeds
      cases succeeds
  | ok result =>
      have extension : (uploadIndexed 1 none "a.txt" greeting 4 none firstDay
          .empty).toOption.map (fun result => result.1.extension) = some (some "txt") := by decide
      rw [uploads] at extension
      have isText : result.1.extension = some "txt" := Option.some.inj extension
      have whole := (uploadIndexed_whole uploads).2.1
      rw [isText] at whole
      refine ⟨result.1, result.2.1, result.2.2, rfl, whole.trans ?_⟩
      decide

end Greeting

end CloudDrive
