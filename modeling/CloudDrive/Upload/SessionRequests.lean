import CloudDrive.Upload
import CloudDrive.Foundation.Interleaving

/-! # Requests on one upload session

Requests to complete, cancel or feed one session, statement by statement and blob
by blob. Each looks at the status of the session when it starts and writes it when
it ends. Blob operations take effect at once; the writes of a transaction take
effect together when it commits. Its updates lock the rows of the session and the
user, and its insert keeps others from a slot of the unique index. -/

namespace CloudDrive

open Outcome Relational UploadSessionService

section Requests

variable [Platform]

/-! ## The requests -/

inductive SessionAction where
  | complete
  | cancel
  | uploadChunk (chunkIndex : Int) (stream : List Content)

inductive LockedRow where
  | session
  | user
  deriving DecidableEq

/-- What a committed request has done to the session: the item it has created with
the bytes it has charged for it, or a cancellation. -/
inductive SessionOutcome where
  | completed (item : DriveItem) (charge : Nat)
  | cancelled

/-- What is committed and what is stored, the rows locked and the items inserted by
transactions that have not committed, and the outcomes so far, latest first. -/
structure UploadStore where
  sys : System
  locks : List LockedRow
  inserted : List DriveItem
  outcomes : List SessionOutcome

/-- How far a request has come, with the rows it holds. -/
inductive SessionTask where
  | arriving
  | listing (session : UploadSession)
  | checking (session : UploadSession) (chunks : List UploadChunk)
  | merging (session : UploadSession) (chunks : List UploadChunk) (key : StorageKey)
      (content : Content) (remaining : List UploadChunk)
  | naming (session : UploadSession) (chunks : List UploadChunk) (file : StoredFile)
      (counter : Nat) (name : String)
  | inserting (session : UploadSession) (chunks : List UploadChunk) (file : StoredFile)
      (name : String)
  | charging (session : UploadSession) (chunks : List UploadChunk) (file : StoredFile)
      (item : DriveItem)
  | discarding (session : UploadSession) (chunks : List UploadChunk) (file : StoredFile)
      (item : DriveItem) (remaining : List UploadChunk)
  | completing (session : UploadSession) (gone : List UploadChunk) (file : StoredFile)
      (item : DriveItem)
  | completed (session : UploadSession) (gone : List UploadChunk) (file : StoredFile)
      (item : DriveItem)
  | listingToCancel (session : UploadSession)
  | dropping (session : UploadSession) (chunks remaining : List UploadChunk)
  | cancelling (session : UploadSession) (gone : List UploadChunk)
  | cancelled (session : UploadSession) (gone : List UploadChunk)
  | saving (session : UploadSession) (chunkIndex : Nat) (stream : List Content)
  | feeding (session : UploadSession) (chunk : UploadChunk)
  | fed (session : UploadSession) (chunk : UploadChunk) (marks : Bool)
  | ended (result : Except ServiceError Unit)

/-- The rows `DELETE FROM upload_chunks` finds committed. -/
def deletedChunks (db : Database) (sessionId : Uuid) (chunks : List UploadChunk) :
    List UploadChunk :=
  if chunks = [] then [] else listChunks db sessionId

def removeChunks (gone : List UploadChunk) (sys : System) : System :=
  sys.withChunks (sys.db.chunks.filter fun chunk =>
    decide (Keyed.key chunk ∉ gone.map Keyed.key))

/-- The look at the session row with which a request starts. -/
def SessionAction.start (action : SessionAction) (userId sessionId : Uuid) (sys : System) :
    SessionTask :=
  match getOr404 userId sessionId sys with
  | .error error => .ended (.error error)
  | .ok session =>
      match action with
      | .complete =>
          if session.status.isTerminal then
            .ended (.error (.invalidOperation
              s!"Upload session is already {session.status.text}"))
          else
            .listing session
      | .cancel =>
          if session.status = .completed then
            .ended (.error (.invalidOperation "Upload session is already completed"))
          else if session.status = .cancelled then
            .ended (.ok ())
          else
            .listingToCancel session
      | .uploadChunk chunkIndex stream =>
          if session.status.isTerminal then
            .ended (.error (.invalidOperation
              s!"Upload session is already {session.status.text}"))
          else if chunkIndex < 0 ∨ session.totalChunks ≤ chunkIndex then
            .ended (.error (.invalidOperation "Chunk index out of range"))
          else
            .saving session chunkIndex.toNat stream

/-- `except Exception` in `complete_session`: the merged blob is dropped. -/
def dropMerged (file : StoredFile) (error : ServiceError) (store : UploadStore) :
    UploadStore × SessionTask :=
  ({ store with sys := Storage.delete file.key store.sys }, .ended (.error error))

def lockRow (row : LockedRow) (store : UploadStore) (next : SessionTask) :
    Option (UploadStore × SessionTask) :=
  if row ∈ store.locks then none
  else some ({ store with locks := row :: store.locks }, next)

/-- The next action of a request that does not commit with it. -/
def SessionAction.work (action : SessionAction) (userId sessionId : Uuid)
    (store : UploadStore) : SessionTask → Option (UploadStore × SessionTask)
  | .arriving => some (store, action.start userId sessionId store.sys)
  | .listing session =>
      let chunks := listChunks store.sys.db session.id
      some (store, if missing session chunks = [] then .checking session chunks
        else .ended (.error (.invalidOperation
          s!"Upload is incomplete: {(missing session chunks).length} chunk(s) missing")))
  | .checking session chunks =>
      -- `concat` looks for every source before it opens the first.
      match chunks.find? fun chunk => (store.sys.storage.find? chunk.storageKey).isNone with
      | some chunk => some (store, .ended (.error (.storageKeyNotFound chunk.storageKey)))
      | none =>
          some ({ store with sys := store.sys.drawn },
            .merging session chunks (.file userId store.sys.uuid4 1) [] chunks)
  | .merging session chunks key content [] =>
      some ({ store with sys := Storage.saveStream key [content] store.sys },
        .naming session chunks
          { key := key, content := content, mimeType := session.mimeType,
            ext := (splitName session.filename).2 } 1 session.filename)
  | .merging session chunks key content (chunk :: remaining) =>
      match store.sys.storage.find? chunk.storageKey with
      | none => some (store, .ended (.error (.storageKeyNotFound chunk.storageKey)))
      | some object =>
          some (store, .merging session chunks key (content ++ object.content) remaining)
  | .naming session chunks file counter name =>
      match nameExistsInParent store.sys.db.items name session.parentId userId none with
      | .error error => some (dropMerged file error store)
      | .ok true => some (store, .naming session chunks file (counter + 1)
          (numberedName (splitName session.filename).1 counter file.ext))
      | .ok false => some (store, .inserting session chunks file name)
  | .inserting session chunks file name =>
      let item := withContent file
        (DriveItemRepository.newItem store.sys userId session.parentId .file name userId)
      if ∃ other ∈ store.inserted, SameSlot other item then
        none
      else
        match store.sys.db.items.add item with
        | .error error => some (dropMerged file error store)
        | .ok _ =>
            some ({ store with sys := store.sys.drawn, inserted := item :: store.inserted },
              .charging session chunks file item)
  | .charging session chunks file item =>
      lockRow .user store (.discarding session chunks file item chunks)
  | .discarding session chunks file item [] =>
      some (store, .completing session (deletedChunks store.sys.db session.id chunks) file item)
  | .discarding session chunks file item (chunk :: remaining) =>
      some ({ store with sys := Storage.delete chunk.storageKey store.sys },
        .discarding session chunks file item remaining)
  | .completing session gone file item =>
      lockRow .session store (.completed session gone file item)
  | .listingToCancel session =>
      let chunks := listChunks store.sys.db session.id
      some (store, .dropping session chunks chunks)
  | .dropping session chunks [] =>
      some (store, .cancelling session (deletedChunks store.sys.db session.id chunks))
  | .dropping session chunks (chunk :: remaining) =>
      some ({ store with sys := Storage.delete chunk.storageKey store.sys },
        .dropping session chunks remaining)
  | .cancelling session gone => lockRow .session store (.cancelled session gone)
  | .saving session chunkIndex stream =>
      let key := StorageKey.chunk userId session.id chunkIndex
      some ({ store with sys := Storage.saveStream key stream store.sys },
        .feeding session {
          sessionId := session.id
          chunkIndex := chunkIndex
          size := stream.flatten.length
          checksumSha256 := some (Platform.sha256 stream.flatten)
          storageKey := key
          createdAt := store.sys.now })
  | .feeding session chunk =>
      if maxInt4 < chunk.size then some (store, .ended (.error .dataError))
      else if session.status = .pending then lockRow .session store (.fed session chunk true)
      else some (store, .fed session chunk false)
  | _ => none

/-! ## Commits -/

/-- What the transaction of a completion writes. -/
def commitCompletion (userId : Uuid) (session : UploadSession) (gone : List UploadChunk)
    (file : StoredFile) (item : DriveItem) (sys : System) : Except ServiceError System := do
  let items ← sys.db.items.add item
  let sys ← FileVersionRepository.create {
    fileId := item.id
    versionNo := 1
    storageKey := file.key
    sizeBytes := file.content.length
    checksumSha256 := some (Platform.sha256 file.content)
    createdBy := userId
    createdAt := sys.now } (sys.withItems items)
  let sys := removeChunks gone (QuotaService.addUsedBytes userId file.content.length sys)
  pure (updateStatus session.id .completed (some (Platform.sha256 file.content))
    (some item.id) sys)

def commitCancel (session : UploadSession) (gone : List UploadChunk) (sys : System) : System :=
  updateStatus session.id .cancelled none none (removeChunks gone sys)

def commitChunk (session : UploadSession) (chunk : UploadChunk) (marks : Bool) (sys : System) :
    System :=
  let sys := sys.withChunks (sys.db.chunks.save chunk)
  if marks then updateStatus session.id .uploading none none sys else sys

def SessionAction.act (action : SessionAction) (userId sessionId : Uuid)
    (store : UploadStore) (task : SessionTask) : Option (UploadStore × SessionTask) :=
  match task with
  | .completed session gone file item =>
      let locks := (store.locks.erase .session).erase .user
      let inserted := store.inserted.erase item
      match commitCompletion userId session gone file item store.sys with
      | .error error => some (⟨store.sys, locks, inserted, store.outcomes⟩, .ended (.error error))
      | .ok sys => some (⟨sys, locks, inserted,
          .completed item file.content.length :: store.outcomes⟩, .ended (.ok ()))
  | .cancelled session gone =>
      some (⟨commitCancel session gone store.sys, store.locks.erase .session, store.inserted,
        .cancelled :: store.outcomes⟩, .ended (.ok ()))
  | .fed session chunk marks =>
      let locks := if marks then store.locks.erase .session else store.locks
      some ({ store with sys := commitChunk session chunk marks store.sys, locks := locks },
        .ended (.ok ()))
  | task => action.work userId sessionId store task

abbrev UploadWorld (ι : Type) := Interleaving.World ι UploadStore SessionTask

/-- Requests of a user on one session, while time passes. -/
def sessionRequests {ι : Type} (userId sessionId : Uuid) (actions : ι → SessionAction) :
    Interleaving.Tasks ι UploadStore SessionTask Nat where
  act index := (actions index).act userId sessionId
  happen elapsed store :=
    some { store with sys := { store.sys with now := store.sys.now + elapsed } }

def requestsArrive {ι : Type} (sys : System) : UploadWorld ι where
  store := ⟨sys, [], [], []⟩
  task _ := .arriving

end Requests

end CloudDrive
