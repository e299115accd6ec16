import CloudDrive.Foundation.Execution
import CloudDrive.Snapshot.Effects

/-! # Runs of the service

A run is a sequence of committed requests by any users. A request that raises
commits nothing, so it is no step of a run. -/

namespace CloudDrive

open Outcome Relational Execution

section Requests

variable [Platform]

/-- The requests that write, with their arguments. -/
inductive Op where
  | createFolder (userId : Uuid) (parentId : Option Uuid) (name : String)
  | rename (userId itemId : Uuid) (newName : String)
  | move (userId itemId : Uuid) (newParentId : Option Uuid)
  | trashItem (userId itemId : Uuid)
  | restoreItem (userId itemId : Uuid)
  | permanentDelete (userId itemId : Uuid)
  | emptyTrash (userId : Uuid) (allDeleted : List DriveItem)
  | shareItem (actorId itemId : Uuid) (targetEmail : String) (permission : Permission)
  | removeShare (actorId itemId targetUserId : Uuid)
  | uploadSimple (userId : Uuid) (parentId : Option Uuid) (filename : String)
      (stream : List Content) (sizeBytes : Nat) (mimeType : Option String)
  | createSession (userId : Uuid) (filename : String) (totalSize : Nat)
      (parentId : Option Uuid) (mimeType : Option String)
  | uploadChunk (userId sessionId : Uuid) (chunkIndex : Int) (stream : List Content)
  | completeSession (userId sessionId : Uuid)
  | cancelSession (userId sessionId : Uuid)
  | cleanupExpired
  | createSnapshot (userId : Uuid) (trigger : Trigger) (label : String) (pinned : Bool)
  | updateSettings (userId : Uuid) (retentionN : Int) (scheduleEnabled : Bool)
      (scheduleIntervalMinutes : Int) (quotaBytes : Option Int)
  | pruneSnapshots (userId : Uuid)
  | restoreSnapshot (userId snapshotId : Uuid) (scope : SnapshotService.Scope)
      (mode : SnapshotService.SubtreeMode)
  | collectGarbage (graceMinutes : Nat)
  | tick (seconds : Nat)

namespace Op

/-- The state a request commits. -/
def commit : Op → System → Except ServiceError System
  | .createFolder userId parentId name, sys => do
      let (_, sys) ← DriveService.createFolder userId parentId name sys
      pure sys
  | .rename userId itemId newName, sys => DriveService.rename userId itemId newName sys
  | .move userId itemId newParentId, sys => DriveService.move userId itemId newParentId sys
  | .trashItem userId itemId, sys => TrashService.trashItem userId itemId sys
  | .restoreItem userId itemId, sys => TrashService.restore userId itemId sys
  | .permanentDelete userId itemId, sys => TrashService.permanentDelete userId itemId sys
  | .emptyTrash userId allDeleted, sys => TrashService.emptyTrash userId allDeleted sys
  | .shareItem actorId itemId targetEmail permission, sys =>
      ShareService.shareItem actorId itemId targetEmail permission sys
  | .removeShare actorId itemId targetUserId, sys =>
      ShareService.removeShare actorId itemId targetUserId sys
  | .uploadSimple userId parentId filename stream sizeBytes mimeType, sys => do
      let (_, sys) ← UploadService.uploadSimple userId parentId filename stream sizeBytes
        mimeType sys
      pure sys
  | .createSession userId filename totalSize parentId mimeType, sys => do
      let (_, sys) ← UploadSessionService.createSession userId filename totalSize parentId
        mimeType sys
      pure sys
  | .uploadChunk userId sessionId chunkIndex stream, sys =>
      UploadSessionService.uploadChunk userId sessionId chunkIndex stream sys
  | .completeSession userId sessionId, sys => do
      let (_, sys) ← UploadSessionService.completeSession userId sessionId sys
      pure sys
  | .cancelSession userId sessionId, sys =>
      UploadSessionService.cancelSession userId sessionId sys
  | .cleanupExpired, sys => .ok (UploadSessionService.cleanupExpired sys)
  | .createSnapshot userId trigger label pinned, sys => do
      let (_, sys) ← SnapshotService.create userId trigger label pinned sys
      pure sys
  | .updateSettings userId retentionN scheduleEnabled scheduleIntervalMinutes quotaBytes, sys =>
      .ok (SnapshotService.updateSettings userId retentionN scheduleEnabled
        scheduleIntervalMinutes quotaBytes sys)
  | .pruneSnapshots userId, sys =>
      .ok { sys with
        db := SnapshotService.prune userId (SnapshotService.getSettings sys.db userId) sys.db }
  | .restoreSnapshot userId snapshotId scope mode, sys => do
      let (_, sys) ← SnapshotService.restore userId snapshotId scope mode sys
      pure sys
  | .collectGarbage graceMinutes, sys =>
      .ok (SnapshotService.collectGarbage graceMinutes sys).2
  | .tick seconds, sys => .ok { sys with now := sys.now + seconds }

/-- The argument of `emptyTrash` is an order in which the database may return
the rows of the query. -/
def Offered (sys : System) : Op → Prop
  | .emptyTrash userId allDeleted =>
      allDeleted.Perm (TrashRepository.getAllDeleted sys userId)
  | _ => True

def Commits (op : Op) (before after : System) : Prop :=
  op.Offered before ∧ op.commit before = .ok after

/-- The requests of the drive, trash, share and upload services. -/
def NoSnapshotRestore : Op → Prop
  | .restoreSnapshot .. => False
  | _ => True

end Op

/-! ## What a committed request has done -/

open DriveService DriveItemRepository SnapshotService UploadSessionService

/-- One constructor for each way in which a request changes the state. -/
inductive Op.Effect (before : System) : Op → System → Prop
  | nothing {op : Op} : Effect before op before
  | folderCreated {userId : Uuid} {parentId : Option Uuid} {name accepted : String}
      {items : ItemTable} :
      (∀ folderId ∈ parentId, Writable before.db userId folderId) →
      before.db.items.add (newItem before userId parentId .folder accepted userId) =
        .ok items →
      Effect before (.createFolder userId parentId name) (before.drawn.withItems items)
  | rewritten {op : Op} {items : ItemTable} {old new : DriveItem} :
      ItemTable.Replaced before.db.items items old new → SameContent new old →
      new.parentId = old.parentId ∨ new.parentId = none →
      Effect before op (before.withItems items)
  | moved {userId itemId : Uuid} {newParentId : Option Uuid} {after : System} :
      DriveService.move userId itemId newParentId before = .ok after →
      Effect before (.move userId itemId newParentId) after
  | deleted {userId itemId : Uuid} {after : System} :
      TrashService.permanentDelete userId itemId before = .ok after →
      Effect before (.permanentDelete userId itemId) after
  | emptied {userId : Uuid} {allDeleted : List DriveItem} {after : System} :
      TrashService.emptyTrash userId allDeleted before = .ok after →
      Effect before (.emptyTrash userId allDeleted) after
  | shared {actorId itemId : Uuid} {targetEmail : String} {permission : Permission}
      {target : User} {share : Share} :
      ShareService.Owns before actorId itemId →
      UserService.getByEmail before.db targetEmail = .ok target →
      share.itemId = itemId → share.targetUserId = target.id →
      share.permission = permission →
      Effect before (.shareItem actorId itemId targetEmail permission)
        (before.withShares (before.db.shares.save share))
  | unshared {actorId itemId targetUserId : Uuid} {shares : Table Share} :
      (∀ share ∈ shares, share ∈ before.db.shares) →
      Effect before (.removeShare actorId itemId targetUserId) (before.withShares shares)
  | uploaded {userId : Uuid} {parentId : Option Uuid} {filename : String}
      {stream : List Content} {sizeBytes : Nat} {mimeType : Option String}
      {file : StoredFile} {item : DriveItem} {after : System} :
      (∀ folderId ∈ parentId, Writable before.db userId folderId) →
      file.key = .file userId before.uuid4 1 →
      FileCreated userId parentId file item
        (Storage.saveStream file.key stream before.drawn) after →
      Effect before (.uploadSimple userId parentId filename stream sizeBytes mimeType) after
  | sessionOpened {userId : Uuid} {filename : String} {totalSize : Nat}
      {parentId : Option Uuid} {mimeType : Option String} {session : UploadSession}
      {sessions : Table UploadSession} :
      (∀ folderId ∈ parentId, Writable before.db userId folderId) →
      session.userId = userId → session.parentId = parentId →
      sessions.rows = before.db.sessions.rows ++ [session] →
      Effect before (.createSession userId filename totalSize parentId mimeType)
        (before.drawn.withSessions sessions)
  | sessionWorked {op : Op} {after : System} :
      SessionWork before after → SessionsKept before after → Effect before op after
  | completed {userId sessionId : Uuid} {session : UploadSession} {file : StoredFile}
      {item : DriveItem} {middle after : System} :
      session ∈ before.db.sessions → session.id = sessionId → session.userId = userId →
      file.key = .file userId before.uuid4 1 →
      FileCreated userId session.parentId file item
        (Storage.saveStream file.key [file.content] before.drawn) middle →
      SessionWork middle after → SessionsKept middle after →
      Effect before (.completeSession userId sessionId) after
  | snapshotsWorked {op : Op} {userId : Uuid} {added : List Snapshot}
      {captured : List SnapshotEntry} {after : System} :
      Captures userId added captured before →
      SnapshotWork added captured before after → Effect before op after
  | snapshotRestored {userId snapshotId : Uuid} {scope : Scope} {mode : SubtreeMode}
      {outcome : Option RestoreOutcome} {after : System} :
      SnapshotService.restore userId snapshotId scope mode before = .ok (outcome, after) →
      Effect before (.restoreSnapshot userId snapshotId scope mode) after
  | collected {graceMinutes : Nat} {storage : Table StoredObject} :
      (∀ key ∈ referencedStorageKeys before.db, Stored before key →
        ∃ object ∈ storage, object.key = key) →
      Effect before (.collectGarbage graceMinutes) (before.withStorage storage)
  | ticked {seconds : Nat} :
      Effect before (.tick seconds) { before with now := before.now + seconds }

theorem Op.effect {op : Op} {before after : System} (commits : op.Commits before after) :
    op.Effect before after := by
  have runs := commits.2
  cases op with
  | createFolder userId parentId name =>
      simp only [Op.commit, bind_eq_ok, pure_eq_ok] at runs
      rcases runs with ⟨⟨item, _⟩, runs, rfl⟩
      rcases createFolder_ok runs with ⟨writable, _, rfl, items, added, rfl⟩
      exact .folderCreated writable added
  | rename userId itemId newName =>
      rcases rename_ok runs with rfl | ⟨item, editable, rfl, _, items, changed, rfl⟩
      · exact .nothing
      · exact .rewritten (ItemTable.change_replaced editable.member rfl changed)
          ⟨rfl, rfl, rfl, rfl, rfl⟩ (.inl rfl)
  | move userId itemId newParentId => exact .moved runs
  | trashItem userId itemId =>
      rcases TrashService.trashItem_ok runs with ⟨item, member, rfl, _, _, items, changed, rfl⟩
      exact .rewritten (ItemTable.change_replaced member rfl changed)
        ⟨rfl, rfl, rfl, rfl, rfl⟩ (.inl rfl)
  | restoreItem userId itemId =>
      rcases TrashService.restore_ok runs with
        ⟨item, _, _, _, _, items, new, replaced, content, _, parent, _, rfl⟩
      exact .rewritten replaced content
        (parent ▸ TrashService.restoreParent_cases before.db.items item)
  | permanentDelete userId itemId => exact .deleted runs
  | emptyTrash userId allDeleted => exact .emptied runs
  | shareItem actorId itemId targetEmail permission =>
      rcases ShareService.shareItem_ok runs with
        ⟨owns, target, share, found, _, onItem, toTarget, level, rfl⟩
      exact .shared owns found onItem toTarget level
  | removeShare actorId itemId targetUserId =>
      rcases ShareService.removeShare_ok runs with ⟨_, rfl⟩
      exact .unshared fun share member => (Table.mem_filter.mp member).1
  | uploadSimple userId parentId filename stream sizeBytes mimeType =>
      simp only [Op.commit, bind_eq_ok, pure_eq_ok] at runs
      rcases runs with ⟨⟨item, _⟩, runs, rfl⟩
      rcases UploadService.uploadSimple_ok runs with ⟨writable, file, isKey, created⟩
      exact .uploaded writable isKey created
  | createSession userId filename totalSize parentId mimeType =>
      simp only [Op.commit, bind_eq_ok, pure_eq_ok] at runs
      rcases runs with ⟨⟨session, _⟩, runs, rfl⟩
      rcases createSession_ok runs with ⟨writable, _, user, parent, sessions, rows, rfl⟩
      exact .sessionOpened writable user parent rows
  | uploadChunk userId sessionId chunkIndex stream =>
      rcases uploadChunk_ok runs with ⟨work, kept⟩
      exact .sessionWorked work kept
  | completeSession userId sessionId =>
      simp only [Op.commit, bind_eq_ok, pure_eq_ok] at runs
      rcases runs with ⟨⟨item, _⟩, runs, rfl⟩
      rcases completeSession_ok runs with
        ⟨session, member, sameId, mine, _, file, middle, isKey, created, work, kept⟩
      exact .completed member sameId mine isKey created work kept
  | cancelSession userId sessionId =>
      rcases cancelSession_ok runs with ⟨work, kept⟩
      exact .sessionWorked work kept
  | cleanupExpired =>
      cases runs
      rcases cleanupExpired_work before with ⟨work, kept⟩
      exact .sessionWorked work kept
  | createSnapshot userId trigger label pinned =>
      rcases create_work userId trigger label pinned before with ⟨_, creates, work⟩
      simp only [Op.commit, creates, bind_eq_ok, pure_eq_ok] at runs
      rcases runs with ⟨_, created, rfl⟩
      cases created
      exact .snapshotsWorked (.new userId trigger label pinned before) work
  | updateSettings userId retentionN scheduleEnabled scheduleIntervalMinutes quotaBytes =>
      cases runs
      exact .snapshotsWorked (.nothing userId before)
        (updateSettings_work _ _ _ _ _ before)
  | pruneSnapshots userId =>
      cases runs
      exact .snapshotsWorked (.nothing userId before)
        (prune_work userId _ before)
  | restoreSnapshot userId snapshotId scope mode =>
      simp only [Op.commit, bind_eq_ok, pure_eq_ok] at runs
      rcases runs with ⟨⟨outcome, _⟩, runs, rfl⟩
      exact .snapshotRestored runs
  | collectGarbage graceMinutes =>
      cases runs
      rcases collectGarbage_eq graceMinutes before with ⟨storage, same, kept⟩
      rw [same]
      exact .collected kept
  | tick seconds =>
      cases runs
      exact .ticked

/-! ## Runs -/

/-- A service with users and settings, but nothing stored yet. -/
structure Untouched (sys : System) : Prop where
  items : sys.db.items = .empty
  versions : sys.db.versions = .empty
  shares : sys.db.shares = .empty
  snapshots : sys.db.snapshots = .empty
  entries : sys.db.entries = .empty
  sessions : sys.db.sessions = .empty
  chunks : sys.db.chunks = .empty
  storage : sys.storage = .empty

/-- The committed runs of the service from its first day. -/
def History (start : System) (events : List (Event System Op)) (final : System) : Prop :=
  Untouched start ∧ Run Op.Commits start events final

/-- One request after the other, each committed. -/
def Op.commitAll (ops : List Op) (sys : System) : Except ServiceError System :=
  forEach Op.commit ops sys

/-- The steps of these requests, up to the first that raises. -/
def Op.trace : List Op → System → List (Event System Op)
  | [], _ => []
  | op :: rest, sys =>
      match op.commit sys with
      | .ok after => ⟨sys, op, after⟩ :: trace rest after
      | .error _ => []

/-- Requests that are offered in every state and commit one after the other are
a run. -/
theorem Op.run_trace : ∀ {ops : List Op} {start final : System},
    (∀ op ∈ ops, ∀ sys : System, op.Offered sys) → Op.commitAll ops start = .ok final →
    Run Op.Commits start (Op.trace ops start) final
  | [], start, final, _, runs => by
      cases runs
      exact .nothing
  | op :: rest, start, final, offered, runs => by
      rw [Op.commitAll, forEach_cons, bind_eq_ok] at runs
      rcases runs with ⟨middle, first, later⟩
      have run := run_trace
        (fun other member => offered other (List.mem_cons_of_mem _ member)) later
      rw [Op.trace, first]
      exact (Run.single ⟨offered op List.mem_cons_self start, first⟩).append run

theorem Op.trace_actions : ∀ {ops : List Op} {start final : System},
    Op.commitAll ops start = .ok final → (Op.trace ops start).map Event.action = ops
  | [], _, _, _ => rfl
  | op :: rest, start, final, runs => by
      rw [Op.commitAll, forEach_cons, bind_eq_ok] at runs
      rcases runs with ⟨middle, first, later⟩
      rw [Op.trace, first]
      exact congrArg (op :: ·) (trace_actions later)

theorem Op.action_mem_of_trace : ∀ {ops : List Op} {start : System} {event : Event System Op},
    event ∈ Op.trace ops start → event.action ∈ ops
  | [], _, _, member => by cases member
  | op :: rest, start, event, member => by
      rw [Op.trace] at member
      split at member
      · rcases List.mem_cons.mp member with rfl | later
        · exact List.mem_cons_self
        · exact List.mem_cons_of_mem _ (action_mem_of_trace later)
      · cases member

end Requests

/-! ## A small service -/

section Small

attribute [local instance] smallPlatform

/-- Two users, and nothing stored. -/
def firstDay : System where
  db := { Database.empty with
    users := ⟨[{ id := 1, email := "a@example.org", quotaBytes := 1000, usedBytes := 0 },
      { id := 2, email := "b@example.org", quotaBytes := 1000, usedBytes := 0 }], by decide⟩ }
  storage := .empty
  now := 100
  seed := 10

/-- The state these requests lead to, if each of them commits. -/
def afterFirstDay (ops : List Op) : System :=
  match Op.commitAll ops firstDay with
  | .ok sys => sys
  | .error _ => firstDay

theorem firstDay_untouched : Untouched firstDay :=
  ⟨rfl, rfl, rfl, rfl, rfl, rfl, rfl, rfl⟩

theorem firstDay_trace {ops : List Op} {final : System}
    (offered : ∀ op ∈ ops, ∀ sys : System, op.Offered sys)
    (runs : Op.commitAll ops firstDay = .ok final) :
    History firstDay (Op.trace ops firstDay) final :=
  ⟨firstDay_untouched, Op.run_trace offered runs⟩

theorem firstDay_history {ops : List Op} {final : System}
    (offered : ∀ op ∈ ops, ∀ sys : System, op.Offered sys)
    (runs : Op.commitAll ops firstDay = .ok final) :
    ∃ events, History firstDay events final ∧ events.map Event.action = ops :=
  ⟨_, firstDay_trace offered runs, Op.trace_actions runs⟩

end Small

end CloudDrive
