import CloudDrive.Upload.ConcurrentSession

/-! # Requests on all upload sessions

Requests that create, feed, complete and cancel sessions, and runs of the cleanup job, side
by side. Before any action of a request a fault can strike it: its transaction is rolled back,
and the blobs that it has saved and deleted stay so. -/

namespace CloudDrive

open Outcome Relational UploadSessionService

section Service

variable [Platform]

inductive UploadRequest where
  | create (userId : Uuid) (filename : String) (totalSize : Nat) (parentId : Option Uuid)
      (mimeType : Option String)
  | onSession (userId sessionId : Uuid) (action : SessionAction)
  | cleanup

/-- What is committed and what is stored, the sessions and users whose rows are locked, the
items inserted by transactions that have not committed, and the faults. -/
structure ServiceStore (ι : Type) where
  sys : System
  lockedSessions : List Uuid
  lockedUsers : List Uuid
  inserted : List DriveItem
  faults : ι → Option ServiceError

inductive ServiceTask where
  | arriving
  | creating (session : UploadSession)
  | working (task : SessionTask)
  -- The sessions that are to be deleted, and those whose deletion waits for the commit.
  | expiring (expired gone : List UploadSession)
  | emptying (session : UploadSession) (remaining : List UploadChunk)
      (expired gone : List UploadSession)
  | ended (result : Except ServiceError Unit)

inductive ServiceEvent (ι : Type) where
  | fault (index : ι) (error : ServiceError)
  | wait (elapsed : Nat)

/-! ## Locks -/

variable {ι : Type}

/-- The store as a request of the user on the session sees it. -/
def ServiceStore.view (store : ServiceStore ι) (userId sessionId : Uuid) : UploadStore where
  sys := store.sys
  locks := (if sessionId ∈ store.lockedSessions then [.session] else []) ++
    if userId ∈ store.lockedUsers then [.user] else []
  inserted := store.inserted
  outcomes := []

def relock (locked : Prop) [Decidable locked] (id : Uuid) (ids : List Uuid) : List Uuid :=
  if locked then id :: ids.erase id else ids.erase id

def ServiceStore.put (store : ServiceStore ι) (userId sessionId : Uuid) (after : UploadStore) :
    ServiceStore ι where
  sys := after.sys
  lockedSessions := relock (.session ∈ after.locks) sessionId store.lockedSessions
  lockedUsers := relock (.user ∈ after.locks) userId store.lockedUsers
  inserted := after.inserted
  faults := store.faults

/-! ## Faults -/

/-- The rows that a request has locked. -/
def SessionTask.locks : SessionTask → List LockedRow
  | .discarding .. | .completing .. => [.user]
  | .completed .. => [.session, .user]
  | .cancelled .. | .fed _ _ true => [.session]
  | _ => []

/-- The item that a request has inserted and not committed. -/
def SessionTask.insertedItem : SessionTask → Option DriveItem
  | .charging _ _ _ item | .discarding _ _ _ item _ | .completing _ _ _ item
  | .completed _ _ _ item => some item
  | _ => none

/-- The merged blob, as long as `except Exception` drops it. -/
def SessionTask.mergedFile : SessionTask → Option StoredFile
  | .naming _ _ file _ _ | .inserting _ _ file _ | .charging _ _ file _ => some file
  | _ => none

/-- The transaction of a request is rolled back. -/
def SessionTask.rollBack (task : SessionTask) (store : UploadStore) : UploadStore where
  sys := store.sys
  locks := store.locks.filter fun row => decide (row ∉ task.locks)
  inserted := match task.insertedItem with
    | some item => store.inserted.erase item
    | none => store.inserted
  outcomes := store.outcomes

def SessionTask.fail (error : ServiceError) (store : UploadStore) (task : SessionTask) :
    UploadStore × SessionTask :=
  match task.mergedFile with
  | some file => dropMerged file error (task.rollBack store)
  | none => (task.rollBack store, .ended (.error error))

/-- The rows of these sessions are no longer locked. -/
def ServiceStore.release (store : ServiceStore ι) (gone : List UploadSession) : ServiceStore ι where
  sys := store.sys
  lockedSessions := store.lockedSessions.filter fun sessionId =>
    decide (sessionId ∉ gone.map UploadSession.id)
  lockedUsers := store.lockedUsers
  inserted := store.inserted
  faults := store.faults

def UploadRequest.fail (request : UploadRequest) (error : ServiceError)
    (store : ServiceStore ι) (task : ServiceTask) : Option (ServiceStore ι × ServiceTask) :=
  match request, task with
  | .onSession _ _ _, .working (.ended _) => none
  | .onSession userId sessionId _, .working task =>
      let (after, next) := task.fail error (store.view userId sessionId)
      some (store.put userId sessionId after, .working next)
  | _, .arriving | _, .creating _ | _, .working _ => some (store, .ended (.error error))
  | _, .expiring _ gone | _, .emptying _ _ _ gone =>
      some (store.release gone, .ended (.error error))
  | _, .ended _ => none

/-! ## The requests -/

/-- The row of the chunk refers to a session that is gone. -/
def SessionTask.danglingChunk (sys : System) : SessionTask → Bool
  | .fed session _ _ => (sys.db.sessions.find? session.id).isNone
  | _ => false

def UploadRequest.act (request : UploadRequest) (store : ServiceStore ι) (task : ServiceTask) :
    Option (ServiceStore ι × ServiceTask) :=
  match request, task with
  | .create userId filename totalSize parentId mimeType, .arriving =>
      match createSession userId filename totalSize parentId mimeType store.sys with
      | .error error => some (store, .ended (.error error))
      | .ok (session, _) => some ({ store with sys := store.sys.drawn }, .creating session)
  | .create .., .creating session =>
      match store.sys.db.sessions.insert? session with
      | some sessions => some ({ store with sys := store.sys.withSessions sessions }, .ended (.ok ()))
      | none => some (store, .ended (.error .integrityError))
  | .onSession .., .arriving => some (store, .working .arriving)
  | .onSession userId sessionId action, .working task =>
      if task.danglingChunk store.sys then
        request.fail .integrityError store (.working task)
      else
        (action.act userId sessionId (store.view userId sessionId) task).map fun done =>
          (store.put userId sessionId done.1, .working done.2)
  | .cleanup, .arriving => some (store, .expiring (listExpired store.sys) [])
  | .cleanup, .expiring (session :: expired) gone =>
      some (store, .emptying session (listChunks store.sys.db session.id) expired gone)
  | .cleanup, .emptying session (chunk :: remaining) expired gone =>
      some ({ store with sys := Storage.delete chunk.storageKey store.sys },
        .emptying session remaining expired gone)
  | .cleanup, .emptying session [] expired gone =>
      if session.id ∈ store.lockedSessions then none
      else some ({ store with lockedSessions := session.id :: store.lockedSessions },
        .expiring expired (session :: gone))
  | .cleanup, .expiring [] gone =>
      let sys := gone.foldl (fun sys session => deleteSession session.id sys) store.sys
      some ({ store.release gone with sys := sys }, .ended (.ok ()))
  | _, _ => none

abbrev ServiceWorld (ι : Type) := Interleaving.World ι (ServiceStore ι) ServiceTask

/-- The requests, faults that strike them, and time that passes. -/
def uploadService [DecidableEq ι] (requests : ι → UploadRequest) :
    Interleaving.Tasks ι (ServiceStore ι) ServiceTask (ServiceEvent ι) where
  act index store task :=
    match store.faults index with
    | some error => (requests index).fail error store task
    | none => (requests index).act store task
  happen event store :=
    match event with
    | .fault index error =>
        some { store with faults := Function.update store.faults index (some error) }
    | .wait elapsed => some { store with sys := { store.sys with now := store.sys.now + elapsed } }

def serviceStarts (sys : System) : ServiceWorld ι where
  store := ⟨sys, [], [], [], fun _ => none⟩
  task _ := .arriving

end Service

end CloudDrive
