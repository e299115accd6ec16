import CloudDrive.Upload

/-! # Snapshots

`create`, `prune`, `restore` and `collect_garbage` of `app/snapshot`. A snapshot
copies no blob: its entries refer to the storage keys of the captured files. -/

namespace CloudDrive

open Outcome Relational

variable [Platform]

namespace SnapshotRepository

/-- `list_owner_items`. -/
def listOwnerItems (db : Database) (ownerId : Uuid) : List DriveItem :=
  db.items.rows.filter fun item => decide (item.ownerId = ownerId ∧ item.isDeleted = false)

/-- `list_all_items`. -/
def listAllItems (db : Database) (ownerId : Uuid) : List DriveItem :=
  db.items.rows.filter fun item => decide (item.ownerId = ownerId)

/-- `list_snapshots`, newest first. Where the query leaves the order open, rows come in
that of the table. -/
def listSnapshots (db : Database) (userId : Uuid) : List Snapshot :=
  (db.snapshots.rows.filter fun snapshot => decide (snapshot.userId = userId)).insertionSort
    fun left right => right.createdAt ≤ left.createdAt

/-- `list_all_entries`, in the order of the table: the query asks for none. -/
def listAllEntries (db : Database) (snapshotId : Uuid) : List SnapshotEntry :=
  db.entries.rows.filter fun entry => decide (entry.snapshotId = snapshotId)

def getSnapshot (db : Database) (userId snapshotId : Uuid) : Option Snapshot :=
  match db.snapshots.find? snapshotId with
  | some snapshot => if snapshot.userId = userId then some snapshot else none
  | none => none

/-- The rows `create_snapshot` adds, one at a time. -/
def addEntry (entry : SnapshotEntry) (db : Database) : Except ServiceError Database := do
  let entries ← orRaise (db.entries.insert? entry) .integrityError
  pure { db with entries := entries }

def createSnapshot (snapshot : Snapshot) (entries : List SnapshotEntry) (sys : System) :
    Except ServiceError System := do
  let snapshots ← orRaise (sys.db.snapshots.insert? snapshot) .integrityError
  let db ← forEach addEntry entries { sys.db with snapshots := snapshots }
  pure { sys with db := db }

/-- `delete_snapshot`, with the entries that cascade. -/
def deleteSnapshot (snapshotId : Uuid) (db : Database) : Database :=
  { db with
    snapshots := db.snapshots.filter fun row => decide (row.id ≠ snapshotId)
    entries := db.entries.filter fun entry => decide (entry.snapshotId ≠ snapshotId) }

def getUserQuotaBytes (db : Database) (userId : Uuid) : Int :=
  match db.users.find? userId with
  | some user => user.quotaBytes
  | none => 0

/-- The size of the entries when every checksum counts once, at the largest
size it has. -/
def dedupBytes (captured : List SnapshotEntry) : Nat :=
  ((captured.filterMap SnapshotEntry.checksumSha256).dedup.map fun checksum =>
    ((captured.filter fun entry => decide (entry.checksumSha256 = some checksum)).map
      SnapshotEntry.sizeBytes).foldr max 0).sum

/-- The entries of all snapshots of the user. -/
def capturedEntries (db : Database) (userId : Uuid) : List SnapshotEntry :=
  db.entries.rows.filter fun entry =>
    decide (∃ snapshot ∈ db.snapshots.rows,
      snapshot.id = entry.snapshotId ∧ snapshot.userId = userId)

/-- `used_snapshot_bytes`. -/
def usedSnapshotBytes (db : Database) (userId : Uuid) : Nat :=
  dedupBytes (capturedEntries db userId)

/-- The row `upsert_item` writes over an existing one. -/
def overwritten (now : Timestamp) (entry : SnapshotEntry) (item : DriveItem) : DriveItem :=
  { item with
    parentId := entry.parentItemId
    name := entry.name
    sizeBytes := entry.sizeBytes
    storageKey := entry.storageKey
    checksumSha256 := entry.checksumSha256
    isDeleted := false
    deletedAt := none
    updatedAt := now }

/-- The row `upsert_item` adds when the item is gone. -/
def recreated (now : Timestamp) (ownerId : Uuid) (entry : SnapshotEntry) : DriveItem where
  id := entry.itemId
  ownerId := ownerId
  parentId := entry.parentItemId
  itemType := entry.itemType
  name := entry.name
  mimeType := none
  extension := none
  sizeBytes := entry.sizeBytes
  storageKey := entry.storageKey
  checksumSha256 := entry.checksumSha256
  isStarred := false
  isDeleted := false
  deletedAt := none
  createdBy := ownerId
  updatedBy := some ownerId
  createdAt := now
  updatedAt := now

def upsertItem (now : Timestamp) (ownerId : Uuid) (entry : SnapshotEntry)
    (items : ItemTable) : Except ServiceError ItemTable :=
  match items.find? entry.itemId with
  | none => items.add (recreated now ownerId entry)
  | some _ => items.change entry.itemId (overwritten now entry)

/-- `set_deleted(item_id, deleted=True)`. -/
def setDeleted (now : Timestamp) (itemId : Uuid) (items : ItemTable) :
    Except ServiceError ItemTable :=
  items.change itemId fun item => { item with isDeleted := true, deletedAt := some now }

end SnapshotRepository

namespace SnapshotService

open SnapshotRepository

/-! ## Settings and retention -/

def getSettings (db : Database) (userId : Uuid) : SnapshotSettings :=
  match db.settings.find? userId with
  | some settings => settings
  | none => {
      userId := userId
      retentionN := 50
      scheduleEnabled := true
      scheduleIntervalMinutes := 60
      quotaBytes := none }

def resolveQuotaBytes (db : Database) (userId : Uuid) (settings : SnapshotSettings) : Int :=
  match settings.quotaBytes with
  | some quota => quota
  | none => getUserQuotaBytes db userId / 2

/-- `_exempt`: pinned snapshots and the safety snapshots of restores. -/
def exempt (snapshot : Snapshot) : Bool :=
  snapshot.pinned || decide (snapshot.trigger = .preRestore)

/-- The retention loop: the snapshot of rank `i` goes unless `i < retention_n`
or it is exempt. -/
def pruneRetention (retentionN : Int) : Nat → List Snapshot → Database → List Snapshot × Database
  | _, [], db => ([], db)
  | rank, snapshot :: rest, db =>
      if (rank : Int) < retentionN ∨ exempt snapshot = true then
        let later := pruneRetention retentionN (rank + 1) rest db
        (snapshot :: later.1, later.2)
      else
        pruneRetention retentionN (rank + 1) rest (deleteSnapshot snapshot.id db)

/-- The quota loop over the survivors, oldest first. -/
def pruneQuota (userId newestId : Uuid) (quota : Int) : List Snapshot → Database → Database
  | [], db => db
  | snapshot :: rest, db =>
      if snapshot.id = newestId ∨ exempt snapshot = true then
        pruneQuota userId newestId quota rest db
      else if (usedSnapshotBytes db userId : Int) ≤ quota then
        db
      else
        pruneQuota userId newestId quota rest (deleteSnapshot snapshot.id db)

def prune (userId : Uuid) (settings : SnapshotSettings) (db : Database) : Database :=
  let snaps := listSnapshots db userId
  let retained := pruneRetention settings.retentionN 0 snaps db
  let quota := resolveQuotaBytes retained.2 userId settings
  match snaps with
  | [] => retained.2
  | newest :: _ =>
      if 0 < quota then pruneQuota userId newest.id quota retained.1.reverse retained.2
      else retained.2

def updateSettings (userId : Uuid) (retentionN : Int) (scheduleEnabled : Bool)
    (scheduleIntervalMinutes : Int) (quotaBytes : Option Int) (sys : System) : System :=
  let settings : SnapshotSettings := {
    userId := userId
    retentionN := max 1 retentionN
    scheduleEnabled := scheduleEnabled
    scheduleIntervalMinutes := max 1 scheduleIntervalMinutes
    quotaBytes := quotaBytes.map (max 0) }
  let db := { sys.db with settings := sys.db.settings.save settings }
  { sys with db := prune userId settings db }

/-! ## Capture -/

/-- One entry of `create`; a parent outside the capture is dropped. -/
def capture (snapshotId : Uuid) (captured : List DriveItem) (item : DriveItem) :
    SnapshotEntry where
  snapshotId := snapshotId
  itemId := item.id
  parentItemId := item.parentId.filter fun parentId => parentId ∈ captured.map DriveItem.id
  name := item.name
  itemType := item.itemType
  storageKey := if item.itemType = .file then item.storageKey else none
  checksumSha256 := if item.itemType = .file then item.checksumSha256 else none
  sizeBytes := if item.itemType = .file then item.sizeBytes else 0

/-- The entries `create` writes for the user's live items. -/
def captureEntries (userId : Uuid) (sys : System) : List SnapshotEntry :=
  let items := listOwnerItems sys.db userId
  items.map (capture sys.uuid4 items)

def newSnapshot (userId : Uuid) (trigger : Trigger) (label : String) (pinned : Bool)
    (sys : System) : Snapshot where
  id := sys.uuid4
  userId := userId
  trigger := trigger
  label := label
  itemCount := (captureEntries userId sys).length
  totalBytes := ((captureEntries userId sys).map SnapshotEntry.sizeBytes).sum
  pinned := pinned || decide (trigger = .preRestore)
  createdAt := sys.now

def create (userId : Uuid) (trigger : Trigger) (label : String) (pinned : Bool)
    (sys : System) : Except ServiceError (Snapshot × System) := do
  let snapshot := newSnapshot userId trigger label pinned sys
  let created ← createSnapshot snapshot (captureEntries userId sys) sys.drawn
  pure (snapshot, { created with
    db := prune userId (getSettings created.db userId) created.db })

/-! ## Restore -/

/-- The worklist of `_expand_with_descendants`: `result` in the order of its
insertion, `stack` with its top first. An entry enters the result once, and only
then pushes its children. -/
def expandLoop (entries : List SnapshotEntry) :
    Nat → List SnapshotEntry → List SnapshotEntry → Except ServiceError (List SnapshotEntry)
  | _, result, [] => .ok result
  | 0, _, _ :: _ => .error .diverged
  | fuel + 1, result, entry :: stack =>
      if entry.itemId ∈ result.map SnapshotEntry.itemId then
        expandLoop entries fuel result stack
      else
        let children := entries.filter fun child =>
          decide (child.parentItemId = some entry.itemId)
        expandLoop entries fuel (result ++ [entry]) (children.reverse ++ stack)

/-- Every entry is pushed at most once as selected and once as a child. -/
def expandWithDescendants (entries : List SnapshotEntry) (selected : List Uuid) :
    Except ServiceError (List SnapshotEntry) :=
  let stack := (entries.filter fun entry => decide (entry.itemId ∈ selected)).reverse
  expandLoop entries (2 * entries.length + 1) [] stack

def rehomedToRoot (entry : SnapshotEntry) : SnapshotEntry :=
  { entry with parentItemId := none }

/-- The loop of `depth` in `_parents_first`, bounded by its `seen` guard. -/
def depthWalk (entries : List SnapshotEntry) :
    Nat → List Uuid → SnapshotEntry → Nat
  | 0, _, _ => 0
  | fuel + 1, seen, current =>
      match current.parentItemId with
      | none => 0
      | some parentId =>
          match entries.find? fun entry => decide (entry.itemId = parentId) with
          | none => 0
          | some parent =>
              if parentId ∈ seen then 0
              else depthWalk entries fuel (current.itemId :: seen) parent + 1

def depth (entries : List SnapshotEntry) (entry : SnapshotEntry) : Nat :=
  depthWalk entries (entries.length + 1) [] entry

/-- `_parents_first`: a stable sort by depth. -/
def parentsFirst (entries : List SnapshotEntry) : List SnapshotEntry :=
  entries.insertionSort fun left right => depth entries left ≤ depth entries right

/-- `scope`: the whole drive, or the entries with the given item ids. -/
inductive Scope where
  | whole
  | selected (itemIds : List Uuid)
  deriving DecidableEq, Repr

inductive SubtreeMode where
  | keepNew
  | exactMirror
  deriving DecidableEq, Repr

structure RestoreOutcome where
  preRestoreSnapshotId : Uuid
  restored : Nat
  trashed : Nat
  deriving DecidableEq, Repr

/-- The entries that a restore writes. -/
def restoreTarget (scope : Scope) (allEntries : List SnapshotEntry) :
    Except ServiceError (List SnapshotEntry) :=
  match scope with
  | .whole => .ok allEntries
  | .selected itemIds => expandWithDescendants allEntries itemIds

/-- An entry whose parent is neither restored nor in the drive goes to the
root. -/
def placed (restorableIds liveIds : List Uuid) (entry : SnapshotEntry) : SnapshotEntry :=
  match entry.parentItemId with
  | none => entry
  | some parentId =>
      if parentId ∈ restorableIds ∨ parentId ∈ liveIds then entry else rehomedToRoot entry

/-- Step 3 of `restore`: every target entry, parents first. -/
def upsertAll (now : Timestamp) (userId : Uuid) (target : List SnapshotEntry)
    (items : ItemTable) (liveIds : List Uuid) : Except ServiceError ItemTable :=
  forEach (fun entry items =>
      upsertItem now userId (placed (target.map SnapshotEntry.itemId) liveIds entry) items)
    (parentsFirst target) items

/-- The items that step 4 of `restore` sends to the trash. -/
def mirrored (scope : Scope) (allEntries target : List SnapshotEntry)
    (items : List DriveItem) : List DriveItem :=
  items.filter fun item =>
    decide (item.isDeleted = false ∧ item.id ∉ allEntries.map SnapshotEntry.itemId) &&
      match scope with
      | .whole => true
      | .selected _ => item.parentId.any (· ∈ target.map SnapshotEntry.itemId)

def mirror (mode : SubtreeMode) (scope : Scope) (allEntries target : List SnapshotEntry)
    (userId : Uuid) (db : Database) : List DriveItem :=
  match mode with
  | .keepNew => []
  | .exactMirror => mirrored scope allEntries target (listAllItems db userId)

/-- Steps 2 to 4 of `restore`, once the safety snapshot exists. -/
def applySnapshot (userId snapshotId : Uuid) (scope : Scope) (mode : SubtreeMode)
    (preId : Uuid) (sys : System) : Except ServiceError (RestoreOutcome × System) := do
  let allEntries := listAllEntries sys.db snapshotId
  let target ← restoreTarget scope allEntries
  let liveIds := (listAllItems sys.db userId).map DriveItem.id
  let items ← upsertAll sys.now userId target sys.db.items liveIds
  let sys := sys.withItems items
  let extra := mirror mode scope allEntries target userId sys.db
  let items ← forEach (fun item items => setDeleted sys.now item.id items) extra sys.db.items
  pure ({ preRestoreSnapshotId := preId, restored := target.length, trashed := extra.length },
    sys.withItems items)

/-- The label of the safety snapshot names the time of the restored one. -/
def safetyLabel (snapshot : Snapshot) : String :=
  s!"Before restoring the {Platform.strftime snapshot.createdAt} snapshot"

def restore (userId snapshotId : Uuid) (scope : Scope) (mode : SubtreeMode)
    (sys : System) : Except ServiceError (Option RestoreOutcome × System) := do
  match getSnapshot sys.db userId snapshotId with
  | none => pure (none, sys)
  | some snapshot =>
      let (pre, sys) ← create userId .preRestore (safetyLabel snapshot) false sys
      let (outcome, sys) ← applySnapshot userId snapshotId scope mode pre.id sys
      pure (some outcome, sys)

/-! ## Garbage collection -/

/-- `referenced_storage_keys`. -/
def referencedStorageKeys (db : Database) : List StorageKey :=
  db.items.rows.filterMap DriveItem.storageKey ++
    db.versions.rows.map FileVersion.storageKey ++
    db.entries.rows.filterMap SnapshotEntry.storageKey

structure GcOutcome where
  deleted : Nat
  freedBytes : Nat
  skippedRecent : Nat
  deriving DecidableEq, Repr

/-- `list_objects` leaves out the chunks of uploads in flight. -/
def listObjects (sys : System) : List StoredObject :=
  sys.storage.rows.filter fun object => !object.key.isChunk

/-- Within the grace period: `modified_at >= now - grace_minutes * 60`. -/
def isRecent (graceMinutes : Nat) (now : Timestamp) (object : StoredObject) : Bool :=
  decide (now ≤ object.modifiedAt + graceMinutes * 60)

def collectGarbage (graceMinutes : Nat) (sys : System) : GcOutcome × System :=
  let orphans := (listObjects sys).filter fun object =>
    decide (object.key ∉ referencedStorageKeys sys.db)
  let collected := orphans.filter fun object => !isRecent graceMinutes sys.now object
  ({ deleted := collected.length
     freedBytes := (collected.map fun object => object.content.length).sum
     skippedRecent := (orphans.filter (isRecent graceMinutes sys.now)).length },
   collected.foldl (fun sys object => Storage.delete object.key sys) sys)

end SnapshotService

end CloudDrive
