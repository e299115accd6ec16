import CloudDrive.Download
import CloudDrive.Storage.Durability
import CloudDrive.Storage.Local

/-! # Files as they are served

`download` for users and for guests, and the bytes of a preview. What is served is what was
uploaded, whatever has happened to the item since. -/

namespace CloudDrive

open Outcome Relational Execution Blocks

/-! ## The type of a file -/

/-- `EXT_MIME`. -/
def extMime : List (String × String) :=
  [("pdf", "application/pdf"), ("png", "image/png"), ("jpg", "image/jpeg"),
    ("jpeg", "image/jpeg"), ("gif", "image/gif"), ("webp", "image/webp"),
    ("bmp", "image/bmp"), ("svg", "image/svg+xml"), ("txt", "text/plain"),
    ("log", "text/plain"), ("md", "text/markdown"), ("markdown", "text/markdown"),
    ("json", "application/json"), ("xml", "text/xml"), ("yaml", "text/yaml"),
    ("yml", "text/yaml"), ("csv", "text/csv"), ("mp4", "video/mp4"), ("webm", "video/webm"),
    ("mov", "video/quicktime"), ("mp3", "audio/mpeg"), ("wav", "audio/wav"),
    ("ogg", "audio/ogg"), ("m4a", "audio/mp4")]

/-- An optional text that is not blank. -/
def nonBlank (text : Option String) : Option String :=
  text.filter fun text => decide (text ≠ "")

/-- `effective_extension`. -/
def effectiveExtension (name : String) (extension : Option String) : Option String :=
  match nonBlank extension with
  | some ext => some ext
  | none =>
      match DownloadService.rpartition name with
      | some (_, ext) => nonBlank (some ext)
      | none => none

section Served

variable [Platform]

/-- `(ext or "").lower().lstrip(".")`. -/
def plainExtension (extension : Option String) : String :=
  String.ofList ((Platform.lower (extension.getD "")).toList.dropWhile (· = '.'))

/-- `resolve_mime`. -/
def resolveMime (mimeType : Option String) (name : String) (extension : Option String) :
    Option String :=
  match nonBlank mimeType with
  | some mime => some mime
  | none => extMime.lookup (plainExtension (effectiveExtension name extension))

def DriveItem.resolveMime (item : DriveItem) : Option String :=
  CloudDrive.resolveMime item.mimeType item.name item.extension

/-! ## Reading a blob -/

/-- `open_read`: the object one buffer at a time. -/
def openRead (object : StoredObject) : List Content :=
  foldBlocks LocalStorageProvider.bufferSize (fun read buffer => read ++ [buffer])
    object.content []

/-- What serving a file raises besides the errors of the services. -/
inductive ContentError (ε : Type) where
  | raised (error : ε)
  | itemContentNotFound (message : String)
  deriving DecidableEq, Repr

/-- An exception of the checks before passes through. -/
def raising {ε α : Type} (outcome : Except ε α) : Except (ContentError ε) α :=
  match outcome with
  | .ok value => .ok value
  | .error error => .error (.raised error)

/-- `if not item.storage_key or not await self._storage.exists(item.storage_key)`. -/
def blobOf {ε : Type} (sys : System) (item : DriveItem) :
    Except (ContentError ε) StoredObject :=
  orRaise (item.storageKey.bind sys.storage.find?)
    (.itemContentNotFound "File content not found")

structure DownloadFileResult where
  filename : String
  mimeType : String
  sizeBytes : Nat
  stream : List Content
  deriving DecidableEq, Repr

/-- The result that both downloads build. -/
def fileResult (item : DriveItem) (object : StoredObject) : DownloadFileResult where
  filename := item.name
  mimeType := item.resolveMime.getD "application/octet-stream"
  sizeBytes := item.sizeBytes
  stream := openRead object

namespace DownloadService

/-- The checks of `download`. -/
def downloadable (userId itemId : Uuid) (sys : System) : Except ServiceError DriveItem := do
  let item ← orRaise (sys.db.items.find? itemId) (.notFound "Item not found")
  require (item.isDeleted = false) (.notFound "Item not found")
  require (item.itemType = .file) (.invalidOperation "Cannot download a folder")
  PermissionService.assertCanDownload sys.db userId item
  pure item

def download (userId itemId : Uuid) (sys : System) :
    Except (ContentError ServiceError) DownloadFileResult := do
  let item ← raising (downloadable userId itemId sys)
  let object ← blobOf sys item
  pure (fileResult item object)

end DownloadService

namespace PublicShareService

/-- The checks of `download`. -/
def downloadable (links : Table ShareLink) (now : Instant) (accessToken : ShareAccessToken)
    (itemId : Uuid) (sys : System) : Except ShareError DriveItem := do
  let auth ← authorize links sys.db.items now accessToken
  assertCanDownload auth
  let item ← resolveInSubtree auth.root.id itemId sys.db.items
  require (item.itemType = .file) (.invalidOperation "Cannot download a folder")
  pure item

def download (links : Table ShareLink) (now : Instant) (accessToken : ShareAccessToken)
    (itemId : Uuid) (sys : System) : Except (ContentError ShareError) DownloadFileResult := do
  let item ← raising (downloadable links now accessToken itemId sys)
  let object ← blobOf sys item
  pure (fileResult item object)

end PublicShareService

/-! ## Previews -/

namespace PreviewService

inductive PreviewType where
  | image
  | pdf
  | document
  | text
  | markdown
  | video
  | audio
  | unsupported
  deriving DecidableEq, Repr

/-- `_TEXT_MAX_BYTES`. -/
def textMaxBytes : Nat := 65536

/-- `_OFFICE_EXTS`. -/
def officeExts : List String :=
  ["docx", "xlsx", "pptx", "doc", "xls", "ppt", "csv", "odt", "ods", "odp"]

/-- `_OFFICE_MIMES`. -/
def officeMimes : List String :=
  ["application/vnd.openxmlformats-officedocument.wordprocessingml.document",
    "application/vnd.openxmlformats-officedocument.spreadsheetml.sheet",
    "application/vnd.openxmlformats-officedocument.presentationml.presentation",
    "application/msword", "application/vnd.ms-excel", "application/vnd.ms-powerpoint",
    "application/vnd.oasis.opendocument.text", "application/vnd.oasis.opendocument.spreadsheet",
    "application/vnd.oasis.opendocument.presentation", "text/csv"]

/-- `_MARKDOWN_EXTS`. -/
def markdownExts : List String := ["md", "markdown"]

/-- LibreOffice, where it is installed: a document with its suffix, as a PDF. -/
structure Office where
  available : Bool
  convertToPdf : Content → String → Option Content

/-- `_resolve_preview_type`. -/
def previewTypeOf (mimeType extension : Option String) (office : Bool) : PreviewType :=
  let ext := plainExtension extension
  let lowered := Platform.lower (mimeType.getD "")
  let mime := if lowered ≠ "" then lowered else (extMime.lookup ext).getD ""
  let starts := fun kind : String => kind.toList.isPrefixOf mime.toList
  if ext ∈ markdownExts ∨ mime = "text/markdown" then .markdown
  else if office = true ∧ (ext ∈ officeExts ∨ mime ∈ officeMimes) then .document
  else if starts "image/" then .image
  else if mime = "application/pdf" then .pdf
  else if starts "text/" ∨ mime = "application/json" then .text
  else if starts "video/" then .video
  else if starts "audio/" then .audio
  else .unsupported

def resolvePreviewType (office : Office) (item : DriveItem) : PreviewType :=
  previewTypeOf item.mimeType (effectiveExtension item.name item.extension) office.available

/-- `_limited_text_stream`, after `total` bytes. -/
def limitedTextStream : Nat → List Content → List Content
  | _, [] => []
  | total, chunk :: rest =>
      if textMaxBytes ≤ total then []
      else
        let piece := chunk.take (textMaxBytes - total)
        piece :: limitedTextStream (total + piece.length) rest

/-- A converted document under `preview-cache/`. -/
structure CachedPdf where
  checksum : String
  pdf : Content

instance : Keyed CachedPdf String := ⟨CachedPdf.checksum⟩

omit [Platform] in
@[simp] theorem CachedPdf.key_eq (cached : CachedPdf) : Keyed.key cached = cached.checksum := rfl

abbrev PreviewCache := Table CachedPdf

/-- The suffix a document is converted with. -/
def documentSuffix (item : DriveItem) : String :=
  let ext := (item.extension.getD "").toList.dropWhile (· = '.')
  if ext = [] then ".bin" else "." ++ String.ofList ext

/-- `_document_pdf_stream`. -/
def documentPdfStream {ε : Type} (office : Office) (failed : ε) (item : DriveItem)
    (object : StoredObject) (cache : PreviewCache) :
    Except (ContentError ε) (List Content × PreviewCache) :=
  match (nonBlank item.checksumSha256).bind cache.find? with
  | some cached => .ok (openRead { object with content := cached.pdf }, cache)
  | none => do
      let pdf ← orRaise (office.convertToPdf (openRead object).flatten (documentSuffix item))
        (.raised failed)
      let cache := match nonBlank item.checksumSha256 with
        | some checksum => cache.save ⟨checksum, pdf⟩
        | none => cache
      pure ([pdf], cache)

/-- The type of a preview, its MIME type and its bytes. -/
structure Preview where
  previewType : PreviewType
  mimeType : String
  stream : List Content

/-- `content_for_item`, with the error that an operation is refused with. -/
def contentForItem {ε : Type} (office : Office) (refused : String → ε) (item : DriveItem)
    (sys : System) (cache : PreviewCache) :
    Except (ContentError ε) (Preview × PreviewCache) := do
  let object ← blobOf sys item
  let kind := resolvePreviewType office item
  match kind with
  | .unsupported => .error (.raised (refused "File type not supported for preview"))
  | .document => do
      let (stream, cache) ← documentPdfStream office
        (refused "Document could not be converted for preview") item object cache
      pure (⟨.document, "application/pdf", stream⟩, cache)
  | .markdown => pure (⟨.markdown, "text/markdown", limitedTextStream 0 (openRead object)⟩, cache)
  | .text => pure (⟨.text, item.resolveMime.getD "text/plain",
      limitedTextStream 0 (openRead object)⟩, cache)
  | kind => pure (⟨kind, item.resolveMime.getD "application/octet-stream", openRead object⟩, cache)

/-- `_get_file`. -/
def getFile (userId itemId : Uuid) (sys : System) : Except ServiceError DriveItem := do
  let item ← orRaise (sys.db.items.find? itemId) (.notFound "Item not found")
  require (item.isDeleted = false) (.notFound "Item not found")
  require (item.itemType = .file) (.invalidOperation "Cannot preview a folder")
  PermissionService.assertCanView sys.db userId item
  pure item

def getContent (office : Office) (userId itemId : Uuid) (sys : System) (cache : PreviewCache) :
    Except (ContentError ServiceError) (Preview × PreviewCache) := do
  let item ← raising (getFile userId itemId sys)
  contentForItem office ServiceError.invalidOperation item sys cache

end PreviewService

/-! ## What is served -/

omit [Platform] in
/-- The buffers of an object in their order are its bytes. -/
theorem openRead_flatten (object : StoredObject) : (openRead object).flatten = object.content := by
  have each : ∀ (read : Content) (pieces : List Content) (buffer : Content),
      pieces.flatten = read → (pieces ++ [buffer]).flatten = read ++ buffer := by
    intro read pieces buffer same
    rw [List.flatten_append, same, List.flatten_singleton]
  exact foldBlocks_keeps LocalStorageProvider.bufferSize_pos _
    (fun read pieces => pieces.flatten = read) each object.content [] [] rfl

omit [Platform] in
/-- However the source is cut into chunks, its first 64 KiB are what a text preview shows. -/
theorem PreviewService.limitedTextStream_flatten : ∀ (source : List Content) (total : Nat),
    (limitedTextStream total source).flatten = source.flatten.take (textMaxBytes - total)
  | [], total => by simp [limitedTextStream]
  | chunk :: rest, total => by
      rw [limitedTextStream]
      split
      · rename_i full
        rw [Nat.sub_eq_zero_of_le full]
        rfl
      · rename_i more
        rw [List.flatten_cons, limitedTextStream_flatten rest, List.flatten_cons,
          List.take_append, List.length_take]
        congr 2
        omega

omit [Platform] in
theorem raising_eq_ok {ε α : Type} {outcome : Except ε α} {value : α} :
    raising outcome = .ok value ↔ outcome = .ok value := by
  cases outcome <;> simp [raising]

omit [Platform] in
theorem raising_error {ε α β : Type} {outcome : Except ε α} {error : ε}
    (raised : outcome = .error error) (next : α → Except (ContentError ε) β) :
    raising outcome >>= next = .error (.raised error) := by
  rw [raised]
  rfl

theorem DownloadService.downloadable_ok {userId itemId : Uuid} {sys : System} {item : DriveItem}
    (passes : downloadable userId itemId sys = .ok item) :
    item ∈ sys.db.items ∧ item.id = itemId ∧ item.itemType = .file := by
  simp only [downloadable, bind_eq_ok, orRaise_eq_ok, require_eq_ok, pure_eq_ok] at passes
  rcases passes with ⟨_, found, _, _, _, isFile, _, _, rfl⟩
  rcases ItemTable.find?_eq_some.mp found with ⟨member, sameId⟩
  exact ⟨member, sameId, isFile⟩

theorem PublicShareService.downloadable_ok {links : Table ShareLink} {now : Instant}
    {accessToken : ShareAccessToken} {itemId : Uuid} {sys : System} {item : DriveItem}
    (passes : downloadable links now accessToken itemId sys = .ok item) :
    item ∈ sys.db.items ∧ item.id = itemId ∧ item.itemType = .file := by
  simp only [downloadable, resolveInSubtree, bind_eq_ok, orRaise_eq_ok, require_eq_ok,
    pure_eq_ok] at passes
  rcases passes with ⟨_, _, _, _, _, ⟨_, found, _, _, _, _, rfl⟩, _, isFile, rfl⟩
  rcases ItemTable.find?_eq_some.mp found with ⟨member, sameId⟩
  exact ⟨member, sameId, isFile⟩

theorem PreviewService.getFile_ok {userId itemId : Uuid} {sys : System} {item : DriveItem}
    (passes : getFile userId itemId sys = .ok item) :
    item ∈ sys.db.items ∧ item.id = itemId ∧ item.itemType = .file := by
  simp only [getFile, bind_eq_ok, orRaise_eq_ok, require_eq_ok, pure_eq_ok] at passes
  rcases passes with ⟨_, found, _, _, _, isFile, _, _, rfl⟩
  rcases ItemTable.find?_eq_some.mp found with ⟨member, sameId⟩
  exact ⟨member, sameId, isFile⟩

/-- One of the requests created the item with these bytes. -/
def Uploaded (events : List (Event System Op)) (itemId : Uuid) (bytes : Content) : Prop :=
  ∃ event ∈ events, ∃ item, event.action.Creates event.before event.after item (some bytes) ∧
    item.id = itemId

/-- The blob of a file is there, and is what was uploaded for it. -/
theorem History.blob_uploaded {start final : System} {events : List (Event System Op)}
    (history : History start events final) {item : DriveItem} (member : item ∈ final.db.items)
    (isFile : item.itemType = .file) : ∃ bytes object, Uploaded events item.id bytes ∧
      item.storageKey.bind final.storage.find? = some object ∧ object.content = bytes ∧
        item.sizeBytes = bytes.length ∧ item.checksumSha256 = some (Platform.sha256 bytes) := by
  cases history.traced (.item member rfl rfl) with
  | folder _ _ _ _ isFolder =>
      have isFolder : item.itemType = .folder := congrArg Imprint.itemType isFolder
      rw [isFile] at isFolder
      cases isFolder
  | file among creates sameId _ holds =>
      rcases holds.blob with ⟨key, object, names, found, same⟩
      refine ⟨_, object, ⟨_, among, _, creates, sameId⟩, ?_, same, holds.sizeBytes,
        holds.checksumSha256⟩
      have names : item.storageKey = some key := names
      rw [names]
      exact found

/-- What the checks refuse is refused so; otherwise the file is served with its name and the
bytes that were uploaded. -/
def ServesUpload {ε : Type} (events : List (Event System Op)) (itemId : Uuid)
    (checks : Except ε DriveItem) (outcome : Except (ContentError ε) DownloadFileResult) : Prop :=
  (∀ error, checks = .error error → outcome = .error (.raised error)) ∧
  ∀ item, checks = .ok item → ∃ bytes result, Uploaded events itemId bytes ∧
    outcome = .ok result ∧ result.filename = item.name ∧ result.sizeBytes = bytes.length ∧
      result.stream.flatten = bytes

theorem History.servesUpload {ε : Type} {start final : System} {events : List (Event System Op)}
    (history : History start events final) {itemId : Uuid} (checks : Except ε DriveItem)
    (passes : ∀ item, checks = .ok item →
      item ∈ final.db.items ∧ item.id = itemId ∧ item.itemType = .file) :
    ServesUpload events itemId checks
      (raising checks >>= fun item => blobOf final item >>= fun object =>
        pure (fileResult item object)) := by
  constructor
  · exact fun error refused => raising_error refused _
  · intro item passed
    rcases passes item passed with ⟨member, rfl, isFile⟩
    rcases history.blob_uploaded member isFile with ⟨bytes, object, uploaded, found, same, size, _⟩
    refine ⟨bytes, fileResult item object, uploaded, ?_, rfl, size,
      (openRead_flatten object).trans same⟩
    simp only [passed, raising, ok_bind, blobOf, found, orRaise]
    rfl

namespace PreviewService

variable {office : Office} {events : List (Event System Op)} {sys : System}

/-- Every cached document is the PDF of an upload with its checksum. -/
def Converted (office : Office) (events : List (Event System Op)) (cache : PreviewCache) : Prop :=
  ∀ cached ∈ cache, ∃ itemId bytes suffix, Uploaded events itemId bytes ∧
    Platform.sha256 bytes = cached.checksum ∧ office.convertToPdf bytes suffix = some cached.pdf

/-- What a preview of an upload is: a document as a PDF, of this upload or of another with the
same checksum, the beginning of a text, and anything else as it is. -/
structure ShowsUpload (office : Office) (events : List (Event System Op)) (bytes : Content)
    (preview : Preview) : Prop where
  supported : preview.previewType ≠ .unsupported
  document : preview.previewType = .document → ∃ itemId other suffix,
    Uploaded events itemId other ∧ Platform.sha256 other = Platform.sha256 bytes ∧
      office.convertToPdf other suffix = some preview.stream.flatten
  text : preview.previewType = .text ∨ preview.previewType = .markdown →
    preview.stream.flatten = bytes.take textMaxBytes
  whole : preview.previewType ∉ [.document, .text, .markdown] → preview.stream.flatten = bytes

theorem documentPdfStream_shows {ε : Type} {failed : ε} {item : DriveItem}
    {object : StoredObject} {cache after : PreviewCache} {stream : List Content}
    (uploaded : Uploaded events item.id object.content)
    (checksum : item.checksumSha256 = some (Platform.sha256 object.content))
    (converted : Converted office events cache)
    (runs : documentPdfStream office failed item object cache = .ok (stream, after)) :
    Converted office events after ∧ ∃ itemId other suffix, Uploaded events itemId other ∧
      Platform.sha256 other = Platform.sha256 object.content ∧
        office.convertToPdf other suffix = some stream.flatten := by
  have isChecksum : ∀ text ∈ nonBlank item.checksumSha256,
      text = Platform.sha256 object.content := by
    intro text isText
    rw [nonBlank, checksum] at isText
    exact (Option.some.inj (Option.filter_eq_some_iff.mp isText).1).symm
  unfold documentPdfStream at runs
  split at runs
  · rename_i cached found
    cases runs
    rcases Option.bind_eq_some_iff.mp found with ⟨text, isText, isCached⟩
    rcases Table.find?_eq_some.mp isCached with ⟨member, isKey⟩
    rcases converted cached member with ⟨itemId, other, suffix, otherUploaded, sum, isPdf⟩
    refine ⟨converted, itemId, other, suffix, otherUploaded, ?_, ?_⟩
    · exact sum.trans (isKey.trans (isChecksum text isText))
    · rw [openRead_flatten]
      exact isPdf
  · simp only [bind_eq_ok, orRaise_eq_ok, pure_eq_ok, Prod.mk.injEq, openRead_flatten] at runs
    rcases runs with ⟨pdf, isPdf, rfl, rfl⟩
    refine ⟨?_, item.id, object.content, documentSuffix item, uploaded, rfl, ?_⟩
    · split
      · rename_i text isText
        intro cached member
        rcases Table.mem_save.mp member with rfl | ⟨earlier, _⟩
        · exact ⟨item.id, object.content, documentSuffix item, uploaded,
            (isChecksum text isText).symm, isPdf⟩
        · exact converted cached earlier
      · exact converted
    · rw [List.flatten_singleton]
      exact isPdf

theorem contentForItem_shows {ε : Type} {refused : String → ε} {item : DriveItem}
    {object : StoredObject} {cache after : PreviewCache} {preview : Preview}
    (found : item.storageKey.bind sys.storage.find? = some object)
    (uploaded : Uploaded events item.id object.content)
    (checksum : item.checksumSha256 = some (Platform.sha256 object.content))
    (converted : Converted office events cache)
    (runs : contentForItem office refused item sys cache = .ok (preview, after)) :
    Converted office events after ∧ ShowsUpload office events object.content preview := by
  have beginning : (limitedTextStream 0 (openRead object)).flatten =
      object.content.take textMaxBytes := by
    rw [limitedTextStream_flatten, openRead_flatten, Nat.sub_zero]
  have all := openRead_flatten object
  have isBlob : blobOf sys item = (.ok object : Except (ContentError ε) _) := by
    rw [blobOf, found, orRaise]
  simp only [contentForItem, isBlob, ok_bind] at runs
  cases kind : resolvePreviewType office item with
  | unsupported =>
      rw [kind] at runs
      cases runs
  | document =>
      simp only [kind, bind_eq_ok, pure_eq_ok, Prod.mk.injEq] at runs
      rcases runs with ⟨⟨stream, _⟩, streams, rfl, rfl⟩
      rcases documentPdfStream_shows uploaded checksum converted streams with ⟨kept, shows_⟩
      refine ⟨kept, PreviewType.noConfusion, fun _ => shows_, ?_, ?_⟩
      · intro either
        rcases either with isText | isMarkdown
        · cases isText
        · cases isMarkdown
      · exact fun others => absurd List.mem_cons_self others
  | markdown =>
      rw [kind] at runs
      cases runs
      exact ⟨converted, PreviewType.noConfusion, PreviewType.noConfusion, fun _ => beginning,
        fun others => absurd (by simp) others⟩
  | text =>
      rw [kind] at runs
      cases runs
      exact ⟨converted, PreviewType.noConfusion, PreviewType.noConfusion, fun _ => beginning,
        fun others => absurd (by simp) others⟩
  | image =>
      rw [kind] at runs
      cases runs
      exact ⟨converted, PreviewType.noConfusion, PreviewType.noConfusion, by simp, fun _ => all⟩
  | pdf =>
      rw [kind] at runs
      cases runs
      exact ⟨converted, PreviewType.noConfusion, PreviewType.noConfusion, by simp, fun _ => all⟩
  | video =>
      rw [kind] at runs
      cases runs
      exact ⟨converted, PreviewType.noConfusion, PreviewType.noConfusion, by simp, fun _ => all⟩
  | audio =>
      rw [kind] at runs
      cases runs
      exact ⟨converted, PreviewType.noConfusion, PreviewType.noConfusion, by simp, fun _ => all⟩

/-- The only error of a file whose blob is there is the refusal of its type, or of its
conversion. -/
theorem contentForItem_raises {ε : Type} {refused : String → ε} {item : DriveItem}
    {object : StoredObject} {cache : PreviewCache} {error : ContentError ε}
    (found : item.storageKey.bind sys.storage.find? = some object)
    (raises : contentForItem office refused item sys cache = .error error) :
    ∃ message, error = .raised (refused message) := by
  have isBlob : blobOf sys item = (.ok object : Except (ContentError ε) _) := by
    rw [blobOf, found, orRaise]
  simp only [contentForItem, isBlob, ok_bind] at raises
  cases kind : resolvePreviewType office item with
  | unsupported =>
      rw [kind] at raises
      cases raises
      exact ⟨_, rfl⟩
  | document =>
      simp only [kind] at raises
      cases streams : documentPdfStream office
          (refused "Document could not be converted for preview") item object cache with
      | ok result =>
          rw [streams] at raises
          cases raises
      | error failure =>
          rw [streams] at raises
          cases raises
          unfold documentPdfStream at streams
          split at streams
          · cases streams
          · cases converts : office.convertToPdf (openRead object).flatten
                (documentSuffix item) with
            | some pdf =>
                rw [converts] at streams
                cases streams
            | none =>
                rw [converts] at streams
                cases streams
                exact ⟨_, rfl⟩
  | markdown =>
      rw [kind] at raises
      cases raises
  | text =>
      rw [kind] at raises
      cases raises
  | image =>
      rw [kind] at raises
      cases raises
  | pdf =>
      rw [kind] at raises
      cases raises
  | video =>
      rw [kind] at raises
      cases raises
  | audio =>
      rw [kind] at raises
      cases raises

/-- The requests of a service from its first day, with the previews between them. -/
inductive Previewed (office : Office) (start : System) :
    List (Event System Op) → System → PreviewCache → Prop
  | opened : Untouched start → Previewed office start [] start .empty
  | committed {events : List (Event System Op)} {sys after : System} {cache : PreviewCache}
      {op : Op} : Previewed office start events sys cache → op.Commits sys after →
      Previewed office start (events ++ [⟨sys, op, after⟩]) after cache
  | previewed {events : List (Event System Op)} {sys : System} {cache after : PreviewCache}
      {userId itemId : Uuid} {preview : Preview} : Previewed office start events sys cache →
      getContent office userId itemId sys cache = .ok (preview, after) →
      Previewed office start events sys after

theorem Previewed.history {start : System} {cache : PreviewCache}
    (previewed : Previewed office start events sys cache) : History start events sys := by
  induction previewed with
  | opened untouched => exact ⟨untouched, .nothing⟩
  | committed _ commits induction => exact ⟨induction.1, induction.2.next commits⟩
  | previewed _ _ induction => exact induction

/-- A run without previews. -/
theorem previewed_of_history {start : System} (history : History start events sys) :
    Previewed office start events sys .empty := by
  rcases history with ⟨untouched, run⟩
  induction run with
  | nothing => exact .opened untouched
  | next _ commits induction => exact induction.committed commits

theorem getContent_shows {start : System} (history : History start events sys)
    {cache after : PreviewCache} (converted : Converted office events cache)
    {userId itemId : Uuid} {preview : Preview}
    (runs : getContent office userId itemId sys cache = .ok (preview, after)) :
    Converted office events after ∧ ∃ bytes, Uploaded events itemId bytes ∧
      ShowsUpload office events bytes preview := by
  simp only [getContent, bind_eq_ok, raising_eq_ok] at runs
  rcases runs with ⟨item, passes, runs⟩
  rcases getFile_ok passes with ⟨member, rfl, isFile⟩
  rcases history.blob_uploaded member isFile with
    ⟨_, object, uploaded, found, rfl, _, checksum⟩
  rcases contentForItem_shows found uploaded checksum converted runs with ⟨kept, shows_⟩
  exact ⟨kept, object.content, uploaded, shows_⟩

theorem Previewed.converted {start : System} {cache : PreviewCache}
    (previewed : Previewed office start events sys cache) : Converted office events cache := by
  induction previewed with
  | opened => exact fun cached member => by cases member
  | committed _ _ induction =>
      intro cached member
      rcases induction cached member with ⟨itemId, bytes, suffix, ⟨event, among, creates⟩, isPdf⟩
      exact ⟨itemId, bytes, suffix, ⟨event, List.mem_append_left _ among, creates⟩, isPdf⟩
  | previewed earlier runs induction => exact (getContent_shows earlier.history induction runs).1

end PreviewService

end Served

/-! ## A file that a restore has brought back -/

section Restored

attribute [local instance] smallPlatform

private def restoredBlob : StoredObject := ⟨.file 1 10 1, [104, 105], 100⟩

private def noOffice : PreviewService.Office := ⟨false, fun _ _ => none⟩

end Restored

end CloudDrive
