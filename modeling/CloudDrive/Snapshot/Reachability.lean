import CloudDrive.Snapshot.RestoredRows

/-! # Finding what was restored

A restored item goes back to the parent it had if that parent has a row, live or not. It
can be found when the folders above that place lead to the root. -/

namespace CloudDrive

open Outcome Relational Execution

namespace SnapshotService

open SnapshotRepository

section Reachability

variable [Platform]

/-- The item can be reached from the root through folders that are not deleted. -/
inductive Reachable (items : ItemTable) : Uuid → Prop
  | root {item : DriveItem} : item ∈ items → item.parentId = none → Reachable items item.id
  | inside {item folder : DriveItem} : item ∈ items → item.parentId = some folder.id →
      folder ∈ items → folder.itemType = .folder → folder.isDeleted = false →
      Reachable items folder.id → Reachable items item.id

variable {userId : Uuid} {snapshot : Snapshot} {scope : Scope} {mode : SubtreeMode}
  {sys after : System}

theorem Reachable.above {items : ItemTable} {itemId : Uuid} (reachable : Reachable items itemId) :
    ∃ item ∈ items.rows, item.id = itemId ∧ (item.parentId = none ∨
      ∃ folder ∈ items.rows, item.parentId = some folder.id ∧ folder.isDeleted = false) := by
  cases reachable with
  | root member atRoot => exact ⟨_, member, rfl, .inl atRoot⟩
  | inside member inFolder folderMem _ live _ =>
      exact ⟨_, member, rfl, .inr ⟨_, folderMem, inFolder, live⟩⟩

/-- The parent that an item has once the restore is done. -/
def futureParent (userId : Uuid) (snapshot : Snapshot) (scope : Scope) (sys : System)
    (itemId : Uuid) : Option Uuid :=
  if itemId ∈ restoredIds userId snapshot scope sys then
    writtenParent userId snapshot scope sys itemId
  else
    sys.db.items.parentOf itemId

/-- The folder is restored, or it is live now and the mirror does not trash it. -/
inductive StaysOpen (userId : Uuid) (snapshot : Snapshot) (scope : Scope) (mode : SubtreeMode)
    (sys : System) : Uuid → Prop
  | restored {entry : SnapshotEntry} : entry ∈ restoredEntries userId snapshot scope sys →
      entry.itemType = .folder → StaysOpen userId snapshot scope mode sys entry.itemId
  | kept {folder : DriveItem} : folder ∈ sys.db.items →
      folder.id ∉ restoredIds userId snapshot scope sys → folder.itemType = .folder →
      folder.isDeleted = false → ¬ Trashes userId snapshot scope mode sys folder →
      StaysOpen userId snapshot scope mode sys folder.id

/-- The way up from the item ends at the root, by the captured parents of what is
restored and the present parents of everything else, through folders that stay open. -/
inductive Anchored (userId : Uuid) (snapshot : Snapshot) (scope : Scope) (mode : SubtreeMode)
    (sys : System) : Uuid → Prop
  | root {itemId : Uuid} : futureParent userId snapshot scope sys itemId = none →
      Anchored userId snapshot scope mode sys itemId
  | inside {itemId folderId : Uuid} :
      futureParent userId snapshot scope sys itemId = some folderId →
      StaysOpen userId snapshot scope mode sys folderId →
      Anchored userId snapshot scope mode sys folderId →
      Anchored userId snapshot scope mode sys itemId

theorem restore_futureParent {snapshotId : Uuid} {outcome : RestoreOutcome}
    (found : getSnapshot sys.db userId snapshotId = some snapshot)
    (runs : restore userId snapshotId scope mode sys = .ok (some outcome, after)) :
    after.db.items.parentOf = futureParent userId snapshot scope sys := by
  rcases restore_parents found runs with ⟨moved, kept⟩
  funext itemId
  rw [futureParent]
  split
  · exact moved itemId ‹_›
  · exact kept itemId ‹_›

/-- The open folders are the live folders of the drive after the restore. -/
theorem staysOpen_iff (identified : Identified sys) {snapshotId : Uuid}
    {outcome : RestoreOutcome}
    (found : getSnapshot sys.db userId snapshotId = some snapshot)
    (runs : restore userId snapshotId scope mode sys = .ok (some outcome, after))
    {folderId : Uuid} : StaysOpen userId snapshot scope mode sys folderId ↔
      ∃ folder ∈ after.db.items, folder.id = folderId ∧ folder.itemType = .folder ∧
        folder.isDeleted = false := by
  have rows := restore_rows found runs
  constructor
  · intro stays
    rcases stays with ⟨member, isFolder⟩ | ⟨before, outside, isFolder, live, spared⟩
    · rcases restoredRow_fields _ with ⟨sameId, _, _, live⟩
      exact ⟨_, restoredRow_mem found runs member, sameId,
        (restoredRow_type identified found member).2.trans isFolder, live⟩
    · exact ⟨_, (rows _).mpr (.inr (.inr ⟨before, outside, spared⟩)), rfl, isFolder, live⟩
  · intro isOpen
    rcases isOpen with ⟨folder, member, rfl, isFolder, live⟩
    rcases (rows folder).mp member with ⟨entry, entryMem, rfl⟩ | ⟨old, _, _, _, rfl⟩ |
      ⟨before, outside, spared⟩
    · rw [(restoredRow_fields entry).1]
      exact .restored entryMem ((restoredRow_type identified found entryMem).2.symm.trans isFolder)
    · cases live
    · exact .kept before outside isFolder live spared

theorem reachable_iff_anchored (identified : Identified sys) {snapshotId : Uuid}
    {outcome : RestoreOutcome}
    (found : getSnapshot sys.db userId snapshotId = some snapshot)
    (runs : restore userId snapshotId scope mode sys = .ok (some outcome, after))
    {itemId : Uuid} (there : ∃ item ∈ after.db.items, item.id = itemId) :
    Reachable after.db.items itemId ↔ Anchored userId snapshot scope mode sys itemId := by
  have parents := restore_futureParent found runs
  constructor
  · intro reachable
    induction reachable with
    | @root item member atRoot =>
        apply Anchored.root
        rw [← parents, ItemTable.parentOf_id member]
        exact atRoot
    | @inside item folder member inFolder folderMem isFolder live _ induction =>
        have parent : futureParent userId snapshot scope sys item.id = some folder.id := by
          rw [← parents, ItemTable.parentOf_id member]
          exact inFolder
        apply Anchored.inside parent
        · exact (staysOpen_iff identified found runs).mpr
            ⟨folder, folderMem, rfl, isFolder, live⟩
        · exact induction ⟨folder, folderMem, rfl⟩
  · intro anchored
    induction anchored with
    | @root itemId atRoot =>
        rcases there with ⟨item, member, rfl⟩
        apply Reachable.root member
        rw [← ItemTable.parentOf_id member, parents]
        exact atRoot
    | @inside itemId folderId parent stays _ induction =>
        rcases there with ⟨item, member, rfl⟩
        rcases (staysOpen_iff identified found runs).mp stays with
          ⟨folder, folderMem, rfl, isFolder, live⟩
        apply Reachable.inside member _ folderMem isFolder live
        · exact induction ⟨folder, folderMem, rfl⟩
        · rw [← ItemTable.parentOf_id member, parents]
          exact parent

/-- Every restored item can be reached from the root exactly when the way up from each,
as the restore leaves it, runs through open folders to the root. -/
theorem restored_reachable_iff {start : System} {events : List (Event System Op)}
    (history : History start events sys) {snapshotId : Uuid} {outcome : RestoreOutcome}
    (found : getSnapshot sys.db userId snapshotId = some snapshot)
    (runs : restore userId snapshotId scope mode sys = .ok (some outcome, after)) :
    (∀ itemId ∈ restoredIds userId snapshot scope sys, Reachable after.db.items itemId) ↔
      ∀ itemId ∈ restoredIds userId snapshot scope sys,
        Anchored userId snapshot scope mode sys itemId := by
  apply forall_congr'
  intro itemId
  apply forall_congr'
  intro restored
  rcases List.mem_map.mp restored with ⟨entry, member, rfl⟩
  apply reachable_iff_anchored history.identified found runs
  exact ⟨_, restoredRow_mem found runs member, (restoredRow_fields entry).1⟩

end Reachability

/-! ## A file of a trashed folder

The file `a.txt` of `Docs` is trashed and restored alone, once while `Docs` is there and
once when it is in the trash too. -/

section TrashedFolder

attribute [local instance] smallPlatform

private def trashFile : List Op :=
  [.createFolder 1 none "Docs", .uploadSimple 1 (some 10) "a.txt" [] 0 none,
    .createSnapshot 1 .manual "weekly" false, .trashItem 1 12]

private def trashFileAndFolder : List Op := trashFile ++ [.trashItem 1 10]

private def fileTrashed : System := afterFirstDay trashFile

private def bothTrashed : System := afterFirstDay trashFileAndFolder

private def docsSnapshot : Snapshot :=
  newSnapshot 1 .manual "weekly" false (afterFirstDay (trashFile.take 2))

private def rescued (sys : System) : System :=
  match restore 1 13 (.selected [12]) .keepNew sys with
  | .ok (_, after) => after
  | .error _ => sys

theorem restored_reachable_iff_fileTrashed :
    (∀ itemId ∈ restoredIds 1 docsSnapshot (.selected [12]) fileTrashed,
      Reachable (rescued fileTrashed).db.items itemId) ↔
    ∀ itemId ∈ restoredIds 1 docsSnapshot (.selected [12]) fileTrashed,
      Anchored 1 docsSnapshot (.selected [12]) .keepNew fileTrashed itemId := by
  have history : History firstDay (Op.trace trashFile firstDay) fileTrashed :=
    firstDay_trace (by simp [trashFile, Op.Offered]) rfl
  have found : getSnapshot fileTrashed.db 1 13 = some docsSnapshot := by decide
  have runs : restore 1 13 (.selected [12]) .keepNew fileTrashed =
      .ok (some ⟨14, 1, 0⟩, rescued fileTrashed) := rfl
  exact restored_reachable_iff history found runs

/-- The rescued file is live and lies in a folder that is in the trash. -/
theorem rescued_unreachable :
    Op.commitAll trashFileAndFolder firstDay = .ok bothTrashed ∧
    restore 1 13 (.selected [12]) .keepNew bothTrashed =
      .ok (some ⟨14, 1, 0⟩, rescued bothTrashed) ∧
    restoredIds 1 docsSnapshot (.selected [12]) bothTrashed = [12] ∧
    ¬ Reachable (rescued bothTrashed).db.items 12 := by
  apply And.intro rfl
  apply And.intro rfl
  apply And.intro (by decide)
  intro reachable
  exact absurd reachable.above (by decide)

end TrashedFolder

end SnapshotService

end CloudDrive
