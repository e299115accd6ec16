import CloudDrive.Foundation.Table
import CloudDrive.Foundation.Outcome

/-! # Rows of the drive database

The columns of `app/models`, the objects of the blob storage and the errors a
service raises. Surrogate row ids that no service reads are left out where a
unique index or the only writer of the table gives a natural key. -/

namespace CloudDrive

open Relational

abbrev Uuid := Nat

/-- Instants, counted in seconds. The columns keep microseconds: rows that are written in one
second stand in the order in which they were written. -/
abbrev Timestamp := Nat

/-- The largest value of an `Integer` column. -/
def maxInt4 : Nat := 2147483647

abbrev Content := List UInt8

/-- What the deployment supplies: the collation of the database, the digest
and date formats of the standard library, and the upload settings. -/
class Platform where
  lower : String → String
  sha256 : Content → String
  strftime : Timestamp → String
  chunkSize : Nat
  maxFileSize : Nat
  retentionDays : Nat

/-- A deployment for small runs: ASCII names, empty files and the epoch. -/
@[reducible] def smallPlatform : Platform where
  lower text := String.ofList (text.toList.map Char.toLower)
  sha256 _ := "e3b0c44298fc1c149afbf4c8996fb92427ae41e4649b934ca495991b7852b855"
  strftime _ := "Jan 01, 00:00"
  chunkSize := 8388608
  maxFileSize := 5368709120
  retentionDays := 7

inductive ItemType where
  | folder
  | file
  deriving DecidableEq, Repr

/-- `_make_storage_key` and `_chunk_key`: the two shapes of blob names. -/
inductive StorageKey where
  | file (userId storageUuid versionNo : Nat)
  | chunk (userId sessionId chunkIndex : Nat)
  deriving DecidableEq, Repr

/-- `list_objects` skips the prefix of chunks in flight. -/
def StorageKey.isChunk : StorageKey → Bool
  | .file .. => false
  | .chunk .. => true

structure StoredObject where
  key : StorageKey
  content : Content
  modifiedAt : Timestamp
  deriving DecidableEq, Repr

structure User where
  id : Uuid
  email : String
  quotaBytes : Int
  usedBytes : Nat
  deriving DecidableEq, Repr

structure DriveItem where
  id : Uuid
  ownerId : Uuid
  parentId : Option Uuid
  itemType : ItemType
  name : String
  mimeType : Option String
  extension : Option String
  sizeBytes : Nat
  storageKey : Option StorageKey
  checksumSha256 : Option String
  isStarred : Bool
  isDeleted : Bool
  deletedAt : Option Timestamp
  createdBy : Uuid
  updatedBy : Option Uuid
  createdAt : Timestamp
  updatedAt : Timestamp
  deriving DecidableEq, Repr

structure FileVersion where
  fileId : Uuid
  versionNo : Nat
  storageKey : StorageKey
  sizeBytes : Nat
  checksumSha256 : Option String
  createdBy : Uuid
  createdAt : Timestamp
  deriving DecidableEq, Repr

inductive Permission where
  | viewer
  | downloader
  | editor
  | owner
  deriving DecidableEq, Repr

/-- `ck_shares_permission` refuses a share that grants ownership. -/
structure Share where
  itemId : Uuid
  ownerId : Uuid
  targetUserId : Uuid
  permission : Permission
  createdAt : Timestamp
  updatedAt : Timestamp
  notOwner : permission ≠ .owner
  deriving DecidableEq

inductive Trigger where
  | scheduled
  | manual
  | assistant
  | preRestore
  deriving DecidableEq, Repr

structure Snapshot where
  id : Uuid
  userId : Uuid
  trigger : Trigger
  label : String
  itemCount : Nat
  totalBytes : Nat
  pinned : Bool
  createdAt : Timestamp
  deriving DecidableEq, Repr

structure SnapshotSettings where
  userId : Uuid
  retentionN : Int
  scheduleEnabled : Bool
  scheduleIntervalMinutes : Int
  quotaBytes : Option Int
  deriving DecidableEq, Repr

structure SnapshotEntry where
  snapshotId : Uuid
  itemId : Uuid
  parentItemId : Option Uuid
  name : String
  itemType : ItemType
  storageKey : Option StorageKey
  checksumSha256 : Option String
  sizeBytes : Nat
  deriving DecidableEq, Repr

inductive SessionStatus where
  | pending
  | uploading
  | completed
  | failed
  | cancelled
  deriving DecidableEq, Repr

def SessionStatus.text : SessionStatus → String
  | .pending => "pending"
  | .uploading => "uploading"
  | .completed => "completed"
  | .failed => "failed"
  | .cancelled => "cancelled"

/-- `TERMINAL_STATUSES`. -/
def SessionStatus.isTerminal : SessionStatus → Bool
  | .completed | .failed | .cancelled => true
  | .pending | .uploading => false

/-- `ACTIVE_STATUSES`. -/
def SessionStatus.isActive : SessionStatus → Bool
  | .pending | .uploading => true
  | .completed | .failed | .cancelled => false

structure UploadSession where
  id : Uuid
  userId : Uuid
  parentId : Option Uuid
  filename : String
  mimeType : Option String
  totalSize : Nat
  chunkSize : Nat
  totalChunks : Nat
  status : SessionStatus
  checksumSha256 : Option String
  driveItemId : Option Uuid
  createdAt : Timestamp
  updatedAt : Timestamp
  expiresAt : Timestamp
  deriving DecidableEq, Repr

structure UploadChunk where
  sessionId : Uuid
  chunkIndex : Nat
  size : Nat
  checksumSha256 : Option String
  storageKey : StorageKey
  createdAt : Timestamp
  deriving DecidableEq, Repr

instance : Keyed User Uuid := ⟨User.id⟩
instance : Keyed DriveItem Uuid := ⟨DriveItem.id⟩
instance : Keyed FileVersion (Uuid × Nat) := ⟨fun row => (row.fileId, row.versionNo)⟩
instance : Keyed Share (Uuid × Uuid) := ⟨fun row => (row.itemId, row.targetUserId)⟩
instance : Keyed Snapshot Uuid := ⟨Snapshot.id⟩
instance : Keyed SnapshotSettings Uuid := ⟨SnapshotSettings.userId⟩
instance : Keyed SnapshotEntry (Uuid × Uuid) := ⟨fun row => (row.snapshotId, row.itemId)⟩
instance : Keyed UploadSession Uuid := ⟨UploadSession.id⟩
instance : Keyed UploadChunk (Uuid × Nat) := ⟨fun row => (row.sessionId, row.chunkIndex)⟩
instance : Keyed StoredObject StorageKey := ⟨StoredObject.key⟩

@[simp] theorem DriveItem.key_eq (row : DriveItem) : Keyed.key row = row.id := rfl
@[simp] theorem User.key_eq (row : User) : Keyed.key row = row.id := rfl
@[simp] theorem FileVersion.key_eq (row : FileVersion) :
    Keyed.key row = (row.fileId, row.versionNo) := rfl
@[simp] theorem Share.key_eq (row : Share) :
    Keyed.key row = (row.itemId, row.targetUserId) := rfl
@[simp] theorem Snapshot.key_eq (row : Snapshot) : Keyed.key row = row.id := rfl
@[simp] theorem SnapshotSettings.key_eq (row : SnapshotSettings) :
    Keyed.key row = row.userId := rfl
@[simp] theorem SnapshotEntry.key_eq (row : SnapshotEntry) :
    Keyed.key row = (row.snapshotId, row.itemId) := rfl
@[simp] theorem UploadSession.key_eq (row : UploadSession) : Keyed.key row = row.id := rfl
@[simp] theorem UploadChunk.key_eq (row : UploadChunk) :
    Keyed.key row = (row.sessionId, row.chunkIndex) := rfl
@[simp] theorem StoredObject.key_eq (row : StoredObject) : Keyed.key row = row.key := rfl

/-! ## Errors -/

/-- The error classes of `app/core/exceptions.py`, then what the database, the
storage and the query layer raise: `dataError` where a value does not fit its column.
`uncaught` is an error of Python that nothing handles, and `diverged` stands for a loop
of the source that has not ended within the bound the model gives it. -/
inductive ServiceError where
  | notFound (message : String)
  | forbidden (message : String)
  | nameConflict (message : String)
  | invalidOperation (message : String)
  | quotaExceeded (message : String)
  | fileTooLarge (message : String)
  | multipleResultsFound
  | noResultFound
  | integrityError
  | dataError
  | storageKeyNotFound (key : StorageKey)
  | uncaught (text : String)
  | diverged
  deriving DecidableEq, Repr

end CloudDrive
