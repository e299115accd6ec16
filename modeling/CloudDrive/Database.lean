import CloudDrive.Models
import CloudDrive.Foundation.ParentTable

/-! # The database, the storage and their constraints

`ItemTable` carries what the schema enforces on `drive_items` at every flush:
the primary key, the column widths, the self-referencing foreign key of
`parent_id` and the unique index `uq_drive_items_same_folder_name`. -/

namespace CloudDrive

open Relational

variable [Platform]

/-! ## `drive_items` -/

/-- The columns that renaming, moving, trashing and restoring leave alone. -/
structure SameContent (new old : DriveItem) : Prop where
  ownerId : new.ownerId = old.ownerId
  itemType : new.itemType = old.itemType
  sizeBytes : new.sizeBytes = old.sizeBytes
  storageKey : new.storageKey = old.storageKey
  checksumSha256 : new.checksumSha256 = old.checksumSha256

omit [Platform] in
theorem SameContent.trans {newer new old : DriveItem} (second : SameContent newer new)
    (first : SameContent new old) : SameContent newer old :=
  ⟨second.ownerId.trans first.ownerId, second.itemType.trans first.itemType,
    second.sizeBytes.trans first.sizeBytes, second.storageKey.trans first.storageKey,
    second.checksumSha256.trans first.checksumSha256⟩

/-- The widths of `name`, `mime_type` and `extension`. -/
def DriveItem.Fits (item : DriveItem) : Prop :=
  item.name.length ≤ 512 ∧
    (∀ text ∈ item.mimeType, text.length ≤ 255) ∧
    (∀ text ∈ item.extension, text.length ≤ 50)

instance (item : DriveItem) : Decidable item.Fits :=
  inferInstanceAs (Decidable (_ ∧ _ ∧ _))

/-- Both rows claim one entry of `uq_drive_items_same_folder_name`. SQL nulls
are distinct, so rows at the root never collide. -/
def SameSlot (left right : DriveItem) : Prop :=
  left.isDeleted = false ∧ right.isDeleted = false ∧
    left.ownerId = right.ownerId ∧
    left.parentId ≠ none ∧ left.parentId = right.parentId ∧
    Platform.lower left.name = Platform.lower right.name

instance (left right : DriveItem) : Decidable (SameSlot left right) :=
  inferInstanceAs (Decidable (_ ∧ _ ∧ _ ∧ _ ∧ _ ∧ _))

def ParentsExist (rows : List DriveItem) : Prop :=
  ∀ row ∈ rows, ∀ top ∈ row.parentId, top ∈ rows.map DriveItem.id

instance (rows : List DriveItem) : Decidable (ParentsExist rows) :=
  inferInstanceAs (Decidable (∀ row ∈ rows, ∀ top ∈ row.parentId, _))

structure ItemTable extends Table DriveItem where
  fits : ∀ row ∈ rows, row.Fits
  slotsFree : rows.Pairwise fun left right => ¬ SameSlot left right
  parentsExist : ParentsExist rows

/-- What the database checks when pending changes are written. -/
def Consistent (rows : List DriveItem) : Prop :=
  (rows.map DriveItem.id).Nodup ∧ (∀ row ∈ rows, row.Fits) ∧
    (rows.Pairwise fun left right => ¬ SameSlot left right) ∧ ParentsExist rows

instance (rows : List DriveItem) : Decidable (Consistent rows) :=
  inferInstanceAs (Decidable (_ ∧ _ ∧ _ ∧ _))

def flush (rows : List DriveItem) : Except ServiceError ItemTable :=
  if consistent : Consistent rows then
    .ok {
      rows := rows
      nodup := consistent.1
      fits := consistent.2.1
      slotsFree := consistent.2.2.1
      parentsExist := consistent.2.2.2 }
  else
    .error .integrityError

theorem flush_ok {rows : List DriveItem} {table : ItemTable}
    (flushed : flush rows = .ok table) : table.rows = rows := by
  by_cases consistent : Consistent rows
  · simp only [flush, consistent, dite_true, Except.ok.injEq] at flushed
    rw [← flushed]
  · simp [flush, consistent] at flushed

theorem flush_eq_ok_iff {rows : List DriveItem} :
    (∃ table, flush rows = .ok table) ↔ Consistent rows := by
  by_cases consistent : Consistent rows
  · simp [flush, consistent]
  · simp [flush, consistent]

namespace ItemTable

instance : Membership DriveItem ItemTable where
  mem table row := row ∈ table.rows

variable {table after : ItemTable}

@[simp] theorem mem_rows {row : DriveItem} : row ∈ table.rows ↔ row ∈ table := Iff.rfl

@[simp] theorem mem_toTable {row : DriveItem} :
    row ∈ table.toTable ↔ row ∈ table := Iff.rfl

theorem ext_rows {left right : ItemTable} (equal : left.rows = right.rows) :
    left = right := by
  rcases left with ⟨⟨rows, _⟩, _, _, _⟩
  rcases right with ⟨⟨others, _⟩, _, _, _⟩
  cases equal
  rfl

instance : DecidableEq ItemTable := fun left right =>
  decidable_of_iff (left.rows = right.rows)
    ⟨ext_rows, fun equal => congrArg (fun table => table.rows) equal⟩

theorem consistent (table : ItemTable) : Consistent table.rows :=
  ⟨table.nodup, table.fits, table.slotsFree, table.parentsExist⟩

def empty : ItemTable where
  rows := []
  nodup := by simp
  fits := by simp
  slotsFree := .nil
  parentsExist := by simp [ParentsExist]

theorem eq_of_id_eq {left right : DriveItem} (leftMem : left ∈ table)
    (rightMem : right ∈ table) (sameId : left.id = right.id) : left = right :=
  List.inj_on_of_nodup_map table.nodup leftMem rightMem sameId

/-- `select(DriveItem).where(DriveItem.id == item_id)`. -/
def find? (table : ItemTable) (itemId : Uuid) : Option DriveItem :=
  table.toTable.find? itemId

theorem find?_eq_some {itemId : Uuid} {row : DriveItem} :
    table.find? itemId = some row ↔ row ∈ table ∧ row.id = itemId :=
  Table.find?_eq_some

theorem find?_eq_none {itemId : Uuid} :
    table.find? itemId = none ↔ ∀ row ∈ table, row.id ≠ itemId :=
  Table.find?_eq_none

theorem find?_id {row : DriveItem} (member : row ∈ table) :
    table.find? row.id = some row :=
  find?_eq_some.mpr ⟨member, rfl⟩

/-- The parent graph that `parent_id` draws over the ids of the items. -/
def parentOf (table : ItemTable) : Uuid → Option Uuid :=
  table.toTable.parentBy DriveItem.parentId

theorem parentOf_eq_some {itemId top : Uuid} :
    table.parentOf itemId = some top ↔
      ∃ row ∈ table, row.id = itemId ∧ row.parentId = some top :=
  Table.parentBy_eq_some

theorem parentOf_id {row : DriveItem} (member : row ∈ table) :
    table.parentOf row.id = row.parentId :=
  Table.parentBy_key (show row ∈ table.toTable from member)

theorem parent_mem {row : DriveItem} {top : Uuid} (member : row ∈ table)
    (step : row.parentId = some top) : ∃ parent ∈ table, parent.id = top := by
  rcases List.mem_map.mp (table.parentsExist row member top step) with ⟨parent, parentMem, sameId⟩
  exact ⟨parent, parentMem, sameId⟩

/-! ### Writes, each checked by the flush that follows it -/

def add (table : ItemTable) (item : DriveItem) : Except ServiceError ItemTable :=
  flush (table.rows ++ [item])

def change (table : ItemTable) (itemId : Uuid) (rewrite : DriveItem → DriveItem) :
    Except ServiceError ItemTable :=
  flush (table.rows.map fun row => if row.id = itemId then rewrite row else row)

def remove (table : ItemTable) (itemId : Uuid) : Except ServiceError ItemTable :=
  flush (table.rows.filter fun row => decide (row.id ≠ itemId))

theorem mem_of_add {item row : DriveItem} (added : table.add item = .ok after) :
    row ∈ after ↔ row ∈ table ∨ row = item := by
  rw [← mem_rows, flush_ok added, List.mem_append, List.mem_singleton, mem_rows]

theorem fresh_of_add {item : DriveItem} (added : table.add item = .ok after) :
    ∀ row ∈ table, row.id ≠ item.id := by
  intro row member sameId
  have distinct := after.nodup
  rw [flush_ok added, List.map_append, List.nodup_append] at distinct
  exact distinct.2.2 row.id (List.mem_map_of_mem member) item.id (by simp) sameId

theorem mem_of_change {itemId : Uuid} {rewrite : DriveItem → DriveItem}
    {row : DriveItem} (changed : table.change itemId rewrite = .ok after) :
    row ∈ after ↔ (∃ old ∈ table, old.id = itemId ∧ rewrite old = row) ∨
      (row ∈ table ∧ row.id ≠ itemId) := by
  rw [← mem_rows, flush_ok changed, List.mem_map]
  constructor
  · rintro ⟨old, oldMem, rfl⟩
    by_cases same : old.id = itemId
    · exact .inl ⟨old, oldMem, same, by simp [same]⟩
    · exact .inr (by simpa [same] using oldMem)
  · rintro (⟨old, oldMem, same, rfl⟩ | ⟨member, different⟩)
    · exact ⟨old, oldMem, by simp [same]⟩
    · exact ⟨row, member, by simp [different]⟩

theorem mem_of_remove {itemId : Uuid} {row : DriveItem}
    (removed : table.remove itemId = .ok after) :
    row ∈ after ↔ row ∈ table ∧ row.id ≠ itemId := by
  rw [← mem_rows, flush_ok removed, List.mem_filter]
  simp

/-- `after` is `table` with the row `old` rewritten to `new`. -/
structure Replaced (table after : ItemTable) (old new : DriveItem) : Prop where
  member : old ∈ table
  sameId : new.id = old.id
  rows : ∀ row, row ∈ after ↔ row = new ∨ (row ∈ table ∧ row.id ≠ old.id)

theorem change_replaced {old : DriveItem} {rewrite : DriveItem → DriveItem}
    (member : old ∈ table) (keepsId : (rewrite old).id = old.id)
    (changed : table.change old.id rewrite = .ok after) :
    Replaced table after old (rewrite old) := by
  refine ⟨member, keepsId, fun row => ?_⟩
  rw [mem_of_change changed]
  constructor
  · intro either
    rcases either with ⟨other, otherMem, sameId, rfl⟩ | kept
    · rw [eq_of_id_eq otherMem member sameId]
      exact .inl rfl
    · exact .inr kept
  · intro either
    rcases either with rfl | kept
    · exact .inl ⟨old, member, rfl, rfl⟩
    · exact .inr kept

theorem Replaced.newMem {old new : DriveItem} (replaced : Replaced table after old new) :
    new ∈ after :=
  (replaced.rows new).mpr (.inl rfl)

theorem Replaced.trans {middle : ItemTable} {old new newer : DriveItem}
    (first : Replaced table middle old new) (second : Replaced middle after new newer) :
    Replaced table after old newer := by
  refine ⟨first.member, second.sameId.trans first.sameId, fun row => ?_⟩
  rw [second.rows, first.rows, first.sameId]
  constructor
  · intro either
    rcases either with rfl | ⟨rfl | kept, different⟩
    · exact .inl rfl
    · exact absurd first.sameId different
    · exact .inr kept
  · intro either
    rcases either with rfl | kept
    · exact .inl rfl
    · exact .inr ⟨.inr kept, kept.2⟩

/-- Rewriting a row hangs its id under the new parent. -/
theorem Replaced.parentOf {old new : DriveItem} (replaced : Replaced table after old new) :
    after.parentOf = Forest.reparent table.parentOf old.id new.parentId := by
  funext itemId
  rw [Forest.reparent]
  by_cases same : itemId = old.id
  · rw [if_pos same, same, ← replaced.sameId, parentOf_id replaced.newMem]
  · rw [if_neg same]
    refine Option.ext fun top => ?_
    rw [parentOf_eq_some, parentOf_eq_some]
    constructor
    · intro below
      rcases below with ⟨row, member, sameId, points⟩
      rcases (replaced.rows row).mp member with rfl | kept
      · exact absurd (sameId.symm.trans replaced.sameId) same
      · exact ⟨row, kept.1, sameId, points⟩
    · intro below
      rcases below with ⟨row, member, sameId, points⟩
      have different : row.id ≠ old.id := fun isOld => same (sameId.symm.trans isOld)
      exact ⟨row, (replaced.rows row).mpr (.inr ⟨member, different⟩), sameId, points⟩

/-- Adding a row hangs its id under its parent. -/
theorem add_parentOf {item : DriveItem} (rows : ∀ row, row ∈ after ↔ row ∈ table ∨ row = item)
    (fresh : ∀ row ∈ table, row.id ≠ item.id) :
    after.parentOf = Forest.reparent table.parentOf item.id item.parentId := by
  funext itemId
  rw [Forest.reparent]
  by_cases same : itemId = item.id
  · rw [if_pos same, same, parentOf_id ((rows item).mpr (.inr rfl))]
  · rw [if_neg same]
    refine Option.ext fun top => ?_
    rw [parentOf_eq_some, parentOf_eq_some]
    constructor
    · intro below
      rcases below with ⟨row, member, sameId, points⟩
      rcases (rows row).mp member with kept | rfl
      · exact ⟨row, kept, sameId, points⟩
      · exact absurd sameId.symm same
    · intro below
      rcases below with ⟨row, member, sameId, points⟩
      exact ⟨row, (rows row).mpr (.inl member), sameId, points⟩

end ItemTable

/-! ## The whole state -/

structure Database where
  users : Table User
  items : ItemTable
  versions : Table FileVersion
  shares : Table Share
  snapshots : Table Snapshot
  entries : Table SnapshotEntry
  settings : Table SnapshotSettings
  sessions : Table UploadSession
  chunks : Table UploadChunk

/-- The committed database, the blob storage, the clock, and the point up to
which `uuid4` has drawn ids. -/
structure System where
  db : Database
  storage : Table StoredObject
  now : Timestamp
  seed : Nat

def Database.empty : Database where
  users := .empty
  items := .empty
  versions := .empty
  shares := .empty
  snapshots := .empty
  entries := .empty
  settings := .empty
  sessions := .empty
  chunks := .empty

def StorageKey.ids : StorageKey → List Nat
  | .file userId storageUuid _ => [userId, storageUuid]
  | .chunk userId sessionId _ => [userId, sessionId]

/-- Every id that occurs in the state as the identity of something. -/
def System.usedIds (sys : System) : List Nat :=
  sys.db.items.rows.map DriveItem.id ++
  sys.db.versions.rows.map FileVersion.fileId ++
  sys.db.shares.rows.map Share.itemId ++
  sys.db.snapshots.rows.map Snapshot.id ++
  sys.db.entries.rows.map SnapshotEntry.snapshotId ++
  sys.db.entries.rows.map SnapshotEntry.itemId ++
  sys.db.sessions.rows.map UploadSession.id ++
  sys.db.chunks.rows.map UploadChunk.sessionId ++
  sys.storage.rows.flatMap fun object => object.key.ids

/-- The next value of `uuid4()`: one that occurs nowhere and was not drawn
before. -/
def System.uuid4 (sys : System) : Nat :=
  max sys.seed (sys.usedIds.foldr max 0 + 1)

def System.drawn (sys : System) : System :=
  { sys with seed := sys.uuid4 + 1 }

theorem System.lt_uuid4 {sys : System} {id : Nat} (used : id ∈ sys.usedIds) :
    id < sys.uuid4 := by
  have bounded : ∀ ids : List Nat, id ∈ ids → id ≤ ids.foldr max 0 := by
    intro ids
    induction ids with
    | nil => intro member; cases member
    | cons head tail induction =>
        intro member
        rw [List.foldr_cons]
        rcases List.mem_cons.mp member with rfl | later
        · omega
        · have small := induction later
          omega
  have small := bounded sys.usedIds used
  rw [uuid4]
  omega

/-- `id` identifies nothing in the state. -/
structure System.Unused (sys : System) (id : Nat) : Prop where
  items : ∀ row ∈ sys.db.items.rows, row.id ≠ id
  versions : ∀ row ∈ sys.db.versions.rows, row.fileId ≠ id
  shares : ∀ row ∈ sys.db.shares.rows, row.itemId ≠ id
  snapshots : ∀ row ∈ sys.db.snapshots.rows, row.id ≠ id
  entrySnapshots : ∀ row ∈ sys.db.entries.rows, row.snapshotId ≠ id
  entryItems : ∀ row ∈ sys.db.entries.rows, row.itemId ≠ id
  sessions : ∀ row ∈ sys.db.sessions.rows, row.id ≠ id
  chunks : ∀ row ∈ sys.db.chunks.rows, row.sessionId ≠ id
  storage : ∀ object ∈ sys.storage.rows, id ∉ object.key.ids

theorem System.unused_of_not_mem {sys : System} {id : Nat}
    (notUsed : id ∉ sys.usedIds) : sys.Unused id := by
  simp only [usedIds, List.mem_append, List.mem_map, List.mem_flatMap, not_or,
    not_exists, not_and] at notUsed
  obtain ⟨⟨⟨⟨⟨⟨⟨⟨items, versions⟩, shares⟩, snapshots⟩, entrySnapshots⟩,
    entryItems⟩, sessions⟩, chunks⟩, storage⟩ := notUsed
  exact ⟨items, versions, shares, snapshots, entrySnapshots, entryItems, sessions,
    chunks, storage⟩

theorem System.uuid4_unused (sys : System) : sys.Unused sys.uuid4 :=
  unused_of_not_mem fun used => Nat.lt_irrefl _ (lt_uuid4 used)

def System.withItems (sys : System) (items : ItemTable) : System :=
  { sys with db := { sys.db with items := items } }

def System.withVersions (sys : System) (versions : Table FileVersion) : System :=
  { sys with db := { sys.db with versions := versions } }

def System.withShares (sys : System) (shares : Table Share) : System :=
  { sys with db := { sys.db with shares := shares } }

def System.withStorage (sys : System) (storage : Table StoredObject) : System :=
  { sys with storage := storage }

def System.withSessions (sys : System) (sessions : Table UploadSession) : System :=
  { sys with db := { sys.db with sessions := sessions } }

def System.withChunks (sys : System) (chunks : Table UploadChunk) : System :=
  { sys with db := { sys.db with chunks := chunks } }

end CloudDrive
