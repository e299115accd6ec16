import CloudDrive.Foundation.Levels
import CloudDrive.Drive.Browsing
import CloudDrive.Snapshot.Undo

/-! # Browsing a snapshot

`browse` lists one folder of a snapshot at a time. A capture drops the parents that it does
not have, so level by level it shows all of its entries. -/

namespace CloudDrive

open Outcome Relational Forest

namespace SnapshotRepository

variable [Platform] [Collation]

/-- `list_entries`. -/
def listEntries (db : Database) (snapshotId : Uuid) (parentItemId : Option Uuid) :
    List SnapshotEntry :=
  (db.entries.rows.filter fun entry =>
    decide (entry.snapshotId = snapshotId ∧ entry.parentItemId = parentItemId)).insertionSort
      fun left right => Collation.before left.name right.name = true

end SnapshotRepository

namespace SnapshotService

open SnapshotRepository

section Browsing

variable [Platform] [Collation]

def browse (userId snapshotId : Uuid) (parentItemId : Option Uuid) (db : Database) :
    Option (List SnapshotEntry) :=
  match getSnapshot db userId snapshotId with
  | some _ => some (listEntries db snapshotId parentItemId)
  | none => none

/-- Opens the top of the snapshot, then the folders of each level. -/
def browseAll (userId snapshotId : Uuid) (db : Database) (levels : Nat) :
    Option (List SnapshotEntry) :=
  byLevel (fun parentItemId => (browse userId snapshotId parentItemId db).getD [])
    (fun entry => decide (entry.itemType = .folder)) SnapshotEntry.itemId levels [none] []

theorem browse_found {db : Database} {userId snapshotId : Uuid} {snapshot : Snapshot}
    (found : getSnapshot db userId snapshotId = some snapshot) (parentItemId : Option Uuid) :
    browse userId snapshotId parentItemId db = some (listEntries db snapshotId parentItemId) := by
  rw [browse, found]

theorem mem_listEntries {db : Database} {snapshotId : Uuid} {parentItemId : Option Uuid}
    {entry : SnapshotEntry} : entry ∈ listEntries db snapshotId parentItemId ↔
      entry ∈ listAllEntries db snapshotId ∧ entry.parentItemId = parentItemId := by
  rw [listEntries, (List.perm_insertionSort _ _).mem_iff, List.mem_filter, listAllEntries,
    List.mem_filter, and_assoc, decide_eq_true_iff, decide_eq_true_iff]

theorem listEntries_nodup (db : Database) (snapshotId : Uuid) (parentItemId : Option Uuid) :
    (listEntries db snapshotId parentItemId).Nodup := by
  rw [listEntries, (List.perm_insertionSort _ _).nodup_iff]
  exact (List.Nodup.of_map _ db.entries.nodup).filter _

end Browsing

/-! ## The entries of a capture -/

section Captures

variable [Platform] {userId : Uuid} {sys : System}

/-- The parent that a capture records for an item, when it records one, was captured too. -/
theorem captured_parent {entry : SnapshotEntry} {top : Uuid}
    (member : entry ∈ captureEntries userId sys) (named : entry.parentItemId = some top) :
    ∃ item ∈ listOwnerItems sys.db userId, item.id = entry.itemId ∧ item.parentId = some top ∧
      ∃ folder ∈ listOwnerItems sys.db userId, folder.id = top := by
  rcases List.mem_map.mp member with ⟨item, itemMem, rfl⟩
  have kept : item.parentId.filter (fun parentId =>
      parentId ∈ (listOwnerItems sys.db userId).map DriveItem.id) = some top := named
  rcases Option.filter_eq_some_iff.mp kept with ⟨points, inCapture⟩
  rcases List.mem_map.mp (of_decide_eq_true inCapture) with ⟨folder, folderMem, sameId⟩
  exact ⟨item, itemMem, rfl, points, folder, folderMem, sameId⟩

theorem captured_parent_entry {entry : SnapshotEntry} {top : Uuid}
    (member : entry ∈ captureEntries userId sys) (named : entry.parentItemId = some top) :
    ∃ other ∈ captureEntries userId sys, other.itemId = top := by
  rcases captured_parent member named with ⟨_, _, _, _, folder, folderMem, rfl⟩
  exact ⟨_, List.mem_map_of_mem folderMem, rfl⟩

/-- The parents of the entries are the parents of the items. -/
theorem recordedParent_captured {itemId top : Uuid}
    (step : recordedParent (captureEntries userId sys) itemId = some top) :
    sys.db.items.parentOf itemId = some top := by
  rcases Option.bind_eq_some_iff.mp step with ⟨entry, search, named⟩
  have sameId : entry.itemId = itemId := by simpa using List.find?_some search
  rcases captured_parent (List.mem_of_find?_eq_some search) named with
    ⟨item, itemMem, isItem, points, _⟩
  rw [← sameId, ← isItem, ItemTable.parentOf_id (mem_listOwnerItems.mp itemMem).1, points]

/-- With every parent a folder of the drive, every parent is a folder of the capture. -/
theorem captured_parent_folder (tree : FolderTree sys.db.items) {entry : SnapshotEntry}
    {top : Uuid} (member : entry ∈ captureEntries userId sys)
    (named : entry.parentItemId = some top) :
    ∃ folder ∈ captureEntries userId sys, folder.itemId = top ∧ folder.itemType = .folder := by
  rcases captured_parent member named with ⟨item, itemMem, _, points, row, rowMem, rfl⟩
  rcases tree.parents item (mem_listOwnerItems.mp itemMem).1 row.id points with
    ⟨folder, folderMem, sameId, kind⟩
  have same : folder = row :=
    ItemTable.eq_of_id_eq folderMem (mem_listOwnerItems.mp rowMem).1 sameId
  exact ⟨_, List.mem_map_of_mem rowMem, rfl, same ▸ kind⟩

omit [Platform] in
theorem recordedParent_supported (entries : List SnapshotEntry) :
    Supported (recordedParent entries) (entries.map SnapshotEntry.itemId) := by
  intro itemId top step
  rcases Option.bind_eq_some_iff.mp step with ⟨entry, search, _⟩
  have sameId : entry.itemId = itemId := by simpa using List.find?_some search
  exact sameId ▸ List.mem_map_of_mem (List.mem_of_find?_eq_some search)

variable [Collation] {trigger : Trigger} {label : String} {pinned : Bool} {snapshot : Snapshot}
  {after : System}

/-- What `browse` shows of a new snapshot. -/
theorem create_listed (tree : FolderTree sys.db.items)
    (creates : create userId trigger label pinned sys = .ok (snapshot, after))
    (found : getSnapshot after.db userId snapshot.id = some snapshot) :
    Listed (fun parentItemId => (browse userId snapshot.id parentItemId after.db).getD [])
      (fun entry => decide (entry.itemType = .folder)) SnapshotEntry.itemId
      (recordedParent (captureEntries userId sys)) (captureEntries userId sys) := by
  have distinct := captureEntries_nodup userId sys
  constructor
  case distinct => exact distinct
  case listed =>
    intro place entry
    rw [browse_found found, Option.getD_some, mem_listEntries, create_entries creates found]
    apply and_congr_right
    intro member
    rw [recordedParent_eq distinct member]
  case once =>
    intro place
    rw [browse_found found, Option.getD_some]
    exact listEntries_nodup _ _ _
  case folders =>
    intro entry member top step
    rw [recordedParent_eq distinct member] at step
    rcases captured_parent_folder tree member step with ⟨folder, folderMem, sameId, kind⟩
    exact ⟨folder, folderMem, sameId, decide_eq_true kind⟩

/-- In the snapshot that `create` takes of a forest of folders every parent is an entry, and
browsing it level by level visits each entry once. -/
theorem create_browsable (tree : FolderTree sys.db.items)
    (creates : create userId trigger label pinned sys = .ok (snapshot, after)) :
    (∀ entry ∈ captureEntries userId sys, ∀ top ∈ entry.parentItemId,
      ∃ other ∈ captureEntries userId sys, other.itemId = top) ∧
    (getSnapshot after.db userId snapshot.id = some snapshot →
      (listAllEntries after.db snapshot.id).Perm (captureEntries userId sys) ∧
      (∀ parentItemId, (browse userId snapshot.id parentItemId after.db).isSome) ∧
      ∃ levels visited, browseAll userId snapshot.id after.db levels = some visited ∧
        visited.Perm (listAllEntries after.db snapshot.id) ∧
        (visited.map SnapshotEntry.itemId).Nodup) := by
  constructor
  · exact fun entry member top named => captured_parent_entry member named
  · intro found
    have distinct := captureEntries_nodup userId sys
    have entriesNodup : (listAllEntries after.db snapshot.id).Nodup :=
      (List.Nodup.of_map _ after.db.entries.nodup).filter _
    have perm : (listAllEntries after.db snapshot.id).Perm (captureEntries userId sys) :=
      (List.perm_ext_iff_of_nodup entriesNodup (.of_map _ distinct)).mpr
        fun entry => create_entries creates found
    have acyclic : Acyclic (recordedParent (captureEntries userId sys)) :=
      tree.acyclic.of_sub fun _ _ step => recordedParent_captured step
    rcases byLevel_visits (create_listed tree creates found) acyclic
      (recordedParent_supported _) with ⟨visited, runs, visitsAll⟩
    apply And.intro perm
    constructor
    · intro parentItemId
      rw [browse_found found]
      rfl
    · apply Exists.intro _
      apply Exists.intro visited
      apply And.intro runs
      apply And.intro (visitsAll.trans perm.symm)
      exact (visitsAll.map SnapshotEntry.itemId).nodup_iff.mpr distinct

end Captures

/-! ## A folder left behind in the trash -/

section LeftFolder

attribute [local instance] smallPlatform smallCollation

private def trashOuter : List Op :=
  [.createFolder 1 none "Work", .createFolder 1 (some 10) "Plans",
    .createFolder 1 (some 11) "Drafts", .trashItem 1 10]

private def outerTrashed : System := afterFirstDay trashOuter

private def outerSnapshot : Snapshot := newSnapshot 1 .manual "weekly" false outerTrashed

private def outerCaptured : System :=
  match create 1 .manual "weekly" false outerTrashed with
  | .ok (_, captured) => captured
  | .error _ => outerTrashed

private theorem outerTrashed_tree : FolderTree outerTrashed.db.items := by
  constructor
  case acyclic =>
    apply Table.parentBy_acyclic fun itemId => itemId
    decide
  case parents =>
    have found : ∀ row ∈ outerTrashed.db.items.rows, ∀ top ∈ row.parentId,
        ∃ folder ∈ outerTrashed.db.items.rows, folder.id = top ∧ folder.itemType = .folder := by
      decide
    intro row member top isParent
    rcases found row member top isParent with ⟨folder, folderMem, both⟩
    exact ⟨folder, folderMem, both⟩

theorem create_browsable_outerTrashed :
    getSnapshot outerCaptured.db 1 outerSnapshot.id = some outerSnapshot ∧
    (∀ entry ∈ captureEntries 1 outerTrashed, ∀ top ∈ entry.parentItemId,
      ∃ other ∈ captureEntries 1 outerTrashed, other.itemId = top) ∧
    (getSnapshot outerCaptured.db 1 outerSnapshot.id = some outerSnapshot →
      (listAllEntries outerCaptured.db outerSnapshot.id).Perm (captureEntries 1 outerTrashed) ∧
      (∀ parentItemId, (browse 1 outerSnapshot.id parentItemId outerCaptured.db).isSome) ∧
      ∃ levels visited,
        browseAll 1 outerSnapshot.id outerCaptured.db levels = some visited ∧
        visited.Perm (listAllEntries outerCaptured.db outerSnapshot.id) ∧
        (visited.map SnapshotEntry.itemId).Nodup) :=
  ⟨rfl, create_browsable outerTrashed_tree
    (show create 1 .manual "weekly" false outerTrashed = .ok (outerSnapshot, outerCaptured)
      from rfl)⟩

end LeftFolder

end SnapshotService

end CloudDrive
