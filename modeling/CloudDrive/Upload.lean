import CloudDrive.Trash

/-! # Uploads

`upload_simple` and the chunked upload sessions of `app/upload`. Storage writes
are part of the state; a request that raises after a write compensates it, so a
raised error again leaves the state as it was. -/

namespace CloudDrive

open Outcome Relational DriveService DriveItemRepository

variable [Platform]

/-! ## The blob storage -/

namespace Storage

/-- `save_stream`: what the stream yields, under the key, whatever was there. -/
def saveStream (key : StorageKey) (stream : List Content) (sys : System) : System :=
  sys.withStorage (sys.storage.save
    { key := key, content := stream.flatten, modifiedAt := sys.now })

/-- The contents of `sourceKeys` in order; a missing source raises. -/
def readAll (storage : Table StoredObject) : List StorageKey → Except ServiceError Content
  | [] => .ok []
  | key :: rest => do
      let object ← orRaise (storage.find? key) (.storageKeyNotFound key)
      let later ← readAll storage rest
      pure (object.content ++ later)

def concat (sourceKeys : List StorageKey) (targetKey : StorageKey) (sys : System) :
    Except ServiceError (Content × System) := do
  let content ← readAll sys.storage sourceKeys
  pure (content, saveStream targetKey [content] sys)

/-- `delete`: no error when the object does not exist. -/
def delete (key : StorageKey) (sys : System) : System :=
  sys.withStorage (sys.storage.filter fun object => decide (object.key ≠ key))

end Storage

namespace FileVersionRepository

/-- `create`: refused when the file has a version of that number. -/
def create (version : FileVersion) (sys : System) : Except ServiceError System := do
  let versions ← orRaise (sys.db.versions.insert? version) .integrityError
  pure (sys.withVersions versions)

end FileVersionRepository

/-- A file as `upload_simple` and `_create_item` store it: blob, checksum, size. -/
structure StoredFile where
  key : StorageKey
  content : Content
  mimeType : Option String
  ext : String

/-- The columns written on the new row after its creation. -/
def withContent (file : StoredFile) (item : DriveItem) : DriveItem :=
  { item with
    sizeBytes := file.content.length
    mimeType := file.mimeType
    extension := extensionOf file.ext
    checksumSha256 := some (Platform.sha256 file.content)
    storageKey := some file.key }

/-- The part shared by `upload_simple` and `_create_item`, after the numbering:
the row, its content columns, version 1 and the quota. -/
def createFile (userId : Uuid) (parentId : Option Uuid) (name : String)
    (file : StoredFile) (sys : System) : Except ServiceError (DriveItem × System) := do
  let (item, sys) ← create userId parentId .file name userId sys
  let items ← sys.db.items.change item.id (withContent file)
  let sys ← FileVersionRepository.create {
    fileId := item.id
    versionNo := 1
    storageKey := file.key
    sizeBytes := file.content.length
    checksumSha256 := some (Platform.sha256 file.content)
    createdBy := userId
    createdAt := sys.now } (sys.withItems items)
  pure (withContent file item, QuotaService.addUsedBytes userId file.content.length sys)

namespace UploadService

/-- What `upload_simple` and `create_session` check of the target folder. -/
def target (userId parentId : Uuid) (sys : System) : Except ServiceError Unit := do
  let parent ← orRaise (sys.db.items.find? parentId) (.notFound "Parent folder not found")
  require (parent.isDeleted = false) (.notFound "Parent folder not found")
  require (parent.itemType = .folder) (.invalidOperation "Parent must be a folder")
  PermissionService.assertCanEdit sys.db userId parent

def uploadSimple (userId : Uuid) (parentId : Option Uuid) (filename : String)
    (stream : List Content) (sizeBytes : Nat) (mimeType : Option String) (sys : System) :
    Except ServiceError (DriveItem × System) := do
  let filename ← safeFilename filename
  whenSome parentId fun parentId => target userId parentId sys
  QuotaService.assertHasSpace sys.db userId sizeBytes
  let finalName ← resolveName sys.db.items parentId userId filename
  let key := StorageKey.file userId sys.uuid4 1
  createFile userId parentId finalName
    { key := key, content := stream.flatten, mimeType := mimeType,
      ext := (splitName filename).2 }
    (Storage.saveStream key stream sys.drawn)

end UploadService

namespace UploadSessionService

/-- `_get_or_404`. -/
def getOr404 (userId sessionId : Uuid) (sys : System) : Except ServiceError UploadSession := do
  let session ← orRaise (sys.db.sessions.find? sessionId)
    (.notFound "Upload session not found")
  require (session.userId = userId) (.notFound "Upload session not found")
  pure session

/-- `sum_active_total_size`. -/
def sumActiveTotalSize (db : Database) (userId : Uuid) : Nat :=
  ((db.sessions.rows.filter fun session =>
    decide (session.userId = userId) && session.status.isActive).map
      UploadSession.totalSize).sum

/-- `list_chunks`, in the order of the index. -/
def listChunks (db : Database) (sessionId : Uuid) : List UploadChunk :=
  (db.chunks.rows.filter fun chunk => decide (chunk.sessionId = sessionId)).insertionSort
    fun left right => left.chunkIndex ≤ right.chunkIndex

/-- `update_status`. -/
def updateStatus (sessionId : Uuid) (status : SessionStatus) (checksum : Option String)
    (driveItemId : Option Uuid) (sys : System) : System :=
  sys.withSessions (sys.db.sessions.map
    (fun session => if session.id = sessionId then
      { session with
        status := status
        updatedAt := sys.now
        checksumSha256 := checksum.orElse fun _ => session.checksumSha256
        driveItemId := driveItemId.orElse fun _ => session.driveItemId }
      else session)
    (by intro session; by_cases same : session.id = sessionId <;> simp [same]))

/-- `_discard_chunks`: the blobs of the chunks and their rows. -/
def discardChunks (chunks : List UploadChunk) (sys : System) : System :=
  match chunks with
  | [] => sys
  | first :: _ =>
      let sys := chunks.foldl (fun sys chunk => Storage.delete chunk.storageKey sys) sys
      sys.withChunks (sys.db.chunks.filter fun chunk =>
        decide (chunk.sessionId ≠ first.sessionId))

def createSession (userId : Uuid) (filename : String) (totalSize : Nat)
    (parentId : Option Uuid) (mimeType : Option String) (sys : System) :
    Except ServiceError (UploadSession × System) := do
  let filename ← safeFilename filename
  require (¬ Platform.maxFileSize < totalSize) (.fileTooLarge
    s!"File exceeds the maximum upload size of {Platform.maxFileSize} bytes")
  whenSome parentId fun parentId => UploadService.target userId parentId sys
  QuotaService.assertHasSpace sys.db userId (totalSize + sumActiveTotalSize sys.db userId)
  let session : UploadSession := {
    id := sys.uuid4
    userId := userId
    parentId := parentId
    filename := filename
    mimeType := mimeType
    totalSize := totalSize
    chunkSize := Platform.chunkSize
    totalChunks := (totalSize + Platform.chunkSize - 1) / Platform.chunkSize
    status := .pending
    checksumSha256 := none
    driveItemId := none
    createdAt := sys.now
    updatedAt := sys.now
    expiresAt := sys.now + Platform.retentionDays * 86400 }
  require (session.chunkSize ≤ maxInt4 ∧ session.totalChunks ≤ maxInt4) .dataError
  let sessions ← orRaise (sys.db.sessions.insert? session) .integrityError
  pure (session, sys.drawn.withSessions sessions)

def uploadChunk (userId sessionId : Uuid) (chunkIndex : Int) (stream : List Content)
    (sys : System) : Except ServiceError System := do
  let session ← getOr404 userId sessionId sys
  require (session.status.isTerminal = false)
    (.invalidOperation s!"Upload session is already {session.status.text}")
  require (¬ (chunkIndex < 0 ∨ session.totalChunks ≤ chunkIndex))
    (.invalidOperation "Chunk index out of range")
  -- The column of the size is an `Integer`; what the stream left is then not referenced.
  require (stream.flatten.length ≤ maxInt4) .dataError
  let key := StorageKey.chunk userId session.id chunkIndex.toNat
  let sys := Storage.saveStream key stream sys
  let sys := sys.withChunks (sys.db.chunks.save {
    sessionId := session.id
    chunkIndex := chunkIndex.toNat
    size := stream.flatten.length
    checksumSha256 := some (Platform.sha256 stream.flatten)
    storageKey := key
    createdAt := sys.now })
  if session.status = .pending then
    pure (updateStatus session.id .uploading none none sys)
  else
    pure sys

/-- The chunk indexes below `total_chunks` that are not stored. -/
def missing (session : UploadSession) (chunks : List UploadChunk) : List Nat :=
  (List.range session.totalChunks).filter fun index =>
    decide (index ∉ chunks.map UploadChunk.chunkIndex)

/-- `_create_item`. -/
def createItem (session : UploadSession) (userId : Uuid) (key : StorageKey)
    (content : Content) (sys : System) : Except ServiceError (DriveItem × System) := do
  let finalName ← resolveName sys.db.items session.parentId userId session.filename
  createFile userId session.parentId finalName
    { key := key, content := content, mimeType := session.mimeType,
      ext := (splitName session.filename).2 } sys

def completeSession (userId sessionId : Uuid) (sys : System) :
    Except ServiceError (DriveItem × System) := do
  let session ← getOr404 userId sessionId sys
  require (session.status.isTerminal = false)
    (.invalidOperation s!"Upload session is already {session.status.text}")
  let chunks := listChunks sys.db session.id
  require (missing session chunks = []) (.invalidOperation
    s!"Upload is incomplete: {(missing session chunks).length} chunk(s) missing")
  let key := StorageKey.file userId sys.uuid4 1
  let (content, sys) ← Storage.concat (chunks.map UploadChunk.storageKey) key sys.drawn
  let (item, sys) ← createItem session userId key content sys
  pure (item, updateStatus session.id .completed (some (Platform.sha256 content))
    (some item.id) (discardChunks chunks sys))

def cancelSession (userId sessionId : Uuid) (sys : System) : Except ServiceError System := do
  let session ← getOr404 userId sessionId sys
  require (session.status ≠ .completed)
    (.invalidOperation "Upload session is already completed")
  if session.status = .cancelled then
    pure sys
  else
    pure (updateStatus session.id .cancelled none none
      (discardChunks (listChunks sys.db session.id) sys))

/-- `delete_session`, with the chunk rows that cascade. -/
def deleteSession (sessionId : Uuid) (sys : System) : System :=
  (sys.withSessions (sys.db.sessions.filter fun row => decide (row.id ≠ sessionId))).withChunks
    (sys.db.chunks.filter fun chunk => decide (chunk.sessionId ≠ sessionId))

def listExpired (sys : System) : List UploadSession :=
  sys.db.sessions.rows.filter fun session =>
    decide (session.expiresAt < sys.now) && session.status.isActive

def cleanupExpired (sys : System) : System :=
  (listExpired sys).foldl (fun sys session =>
    deleteSession session.id (discardChunks (listChunks sys.db session.id) sys)) sys

end UploadSessionService

end CloudDrive
