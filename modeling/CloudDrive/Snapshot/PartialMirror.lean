import CloudDrive.Snapshot.RestoredRows
import CloudDrive.Snapshot.Mirroring

/-! # Mirroring a part of a snapshot

A partial restore in the mode `exact_mirror` trashes what is now in a restored folder and
is nowhere in the snapshot. An item that the snapshot has elsewhere is spared. -/

namespace CloudDrive

open Outcome Relational Execution

namespace SnapshotService

open SnapshotRepository

section PartialMirror

variable [Platform] {userId : Uuid} {snapshot : Snapshot} {scope : Scope} {mode : SubtreeMode}
  {sys after : System}

/-- The live items in each restored folder are the ones that the snapshot has there. -/
def MirrorsFolders (userId : Uuid) (snapshot : Snapshot) (scope : Scope) (sys after : System) :
    Prop :=
  ∀ folder ∈ restoredEntries userId snapshot scope sys, folder.itemType = .folder →
    ∀ signature,
      (∃ row ∈ after.db.items, row.isDeleted = false ∧ row.parentId = some folder.itemId ∧
        itemSignature row = signature) ↔
      ∃ entry ∈ listAllEntries sys.db snapshot.id,
        entry.parentItemId = some folder.itemId ∧ entrySignature entry = signature

/-- The items that are not restored nor in a restored item are as they were. -/
def KeepsOutside (userId : Uuid) (snapshot : Snapshot) (scope : Scope) (sys after : System) :
    Prop :=
  ∀ row : DriveItem, row.id ∉ restoredIds userId snapshot scope sys →
    (∀ parentId ∈ row.parentId, parentId ∉ restoredIds userId snapshot scope sys) →
    (row ∈ after.db.items ↔ row ∈ sys.db.items)

/-- What is now in a restored folder and is not restored belongs to the user and is
nowhere in the snapshot. -/
def OnlyNewInside (userId : Uuid) (snapshot : Snapshot) (scope : Scope) (sys : System) : Prop :=
  ∀ row ∈ sys.db.items, row.isDeleted = false →
    row.id ∉ restoredIds userId snapshot scope sys →
    ∀ folder ∈ restoredEntries userId snapshot scope sys, folder.itemType = .folder →
      row.parentId = some folder.itemId →
      row.ownerId = userId ∧
        row.id ∉ (listAllEntries sys.db snapshot.id).map SnapshotEntry.itemId

theorem survives_of_restored {entry : SnapshotEntry}
    (member : entry ∈ restoredEntries userId snapshot scope sys) :
    remainingEntries userId snapshot sys = listAllEntries sys.db snapshot.id := by
  rw [remainingEntries]
  by_cases survives : SurvivesSafety userId snapshot sys
  · exact if_pos survives
  · rw [restoredEntries, if_neg survives] at member
    cases member

/-- An entry in a restored item is restored at its own place. -/
theorem restoredRow_inside (identified : Identified sys) {snapshotId : Uuid}
    (found : getSnapshot sys.db userId snapshotId = some snapshot) {entry : SnapshotEntry}
    (member : entry ∈ restoredEntries userId snapshot scope sys) {folderId : Uuid}
    (inside : entry.parentItemId = some folderId)
    (restored : folderId ∈ restoredIds userId snapshot scope sys) :
    (restoredRow userId snapshot scope sys entry).parentId = some folderId ∧
    itemSignature (restoredRow userId snapshot scope sys entry) = entrySignature entry := by
  have inSnapshot := restoredEntries_sub userId snapshot scope sys member
  have inPlace : placement userId snapshot scope sys entry = entry := by
    apply placed_of_closed
    intro parentId isParent
    cases isParent.symm.trans inside
    exact restored
  rcases getSnapshot_eq_some.mp found with ⟨_, rfl, _⟩
  rw [(restoredRow_fields entry).2.1, inPlace, restoredRow, inPlace]
  exact ⟨inside, written_signature identified found inSnapshot⟩

theorem restore_keepsOutside {snapshotId : Uuid} {outcome : RestoreOutcome} {itemIds : List Uuid}
    (found : getSnapshot sys.db userId snapshotId = some snapshot)
    (runs : restore userId snapshotId (.selected itemIds) mode sys = .ok (some outcome, after)) :
    KeepsOutside userId snapshot (.selected itemIds) sys after := by
  intro row outside notInside
  have spared : ∀ old : DriveItem, old.parentId = row.parentId →
      ¬ Trashes userId snapshot (.selected itemIds) mode sys old := by
    intro old sameParent trashes
    rcases trashes.inside with whole | ⟨parentId, isParent, restored⟩
    · cases whole
    · exact notInside parentId (sameParent ▸ isParent) restored
  rw [restore_rows found runs]
  constructor
  · intro either
    rcases either with ⟨entry, member, rfl⟩ | ⟨old, _, _, trashes, rfl⟩ | ⟨before, _, _⟩
    · rw [(restoredRow_fields entry).1] at outside
      exact absurd (List.mem_map_of_mem member) outside
    · exact absurd trashes (spared old rfl)
    · exact before
  · exact fun before => .inr (.inr ⟨before, outside, spared row rfl⟩)

/-- A partial exact mirror leaves in every restored folder what the snapshot has there,
and everything else as it was, exactly when no live item in such a folder belongs to
somebody else or is in the snapshot at another place. -/
theorem partialMirror_iff {start : System} {events : List (Event System Op)}
    (history : History start events sys) {snapshotId : Uuid} {outcome : RestoreOutcome}
    {itemIds : List Uuid}
    (found : getSnapshot sys.db userId snapshotId = some snapshot)
    (runs : restore userId snapshotId (.selected itemIds) .exactMirror sys =
      .ok (some outcome, after)) :
    (MirrorsFolders userId snapshot (.selected itemIds) sys after ∧
      KeepsOutside userId snapshot (.selected itemIds) sys after) ↔
    OnlyNewInside userId snapshot (.selected itemIds) sys := by
  have rows := restore_rows found runs
  constructor
  · intro both row before live outside folder folderMem isFolder inside
    have remaining := survives_of_restored folderMem
    have folderRestored := List.mem_map_of_mem (f := SnapshotEntry.itemId) folderMem
    have notEntry : (∃ entry ∈ listAllEntries sys.db snapshot.id,
        entry.parentItemId = some folder.itemId ∧
        entrySignature entry = itemSignature row) → False := by
      intro recorded
      rcases recorded with ⟨entry, member, isChild, sameSignature⟩
      have sameId : entry.itemId = row.id := congrArg Prod.fst sameSignature
      have restored := restoredIds_children folderRestored (remaining ▸ member) isChild
      exact outside (sameId ▸ List.mem_map_of_mem restored)
    have trashed : Trashes userId snapshot (.selected itemIds) .exactMirror sys row := by
      by_contra spared
      apply notEntry
      exact (both.1 folder folderMem isFolder (itemSignature row)).mp
        ⟨row, (rows row).mpr (.inr (.inr ⟨before, outside, spared⟩)), live, inside, rfl⟩
    exact ⟨trashed.owned, remaining ▸ trashed.absent⟩
  · intro onlyNew
    apply And.intro _ (restore_keepsOutside found runs)
    intro folder folderMem isFolder signature
    have remaining := survives_of_restored folderMem
    have folderRestored := List.mem_map_of_mem (f := SnapshotEntry.itemId) folderMem
    constructor
    · intro visible
      rcases visible with ⟨row, member, live, inside, rfl⟩
      rcases (rows row).mp member with ⟨entry, entryMem, rfl⟩ | ⟨old, _, _, _, rfl⟩ |
        ⟨before, outside, spared⟩
      · have recorded : entry.parentItemId = some folder.itemId :=
          placed_parent ((restoredRow_fields entry).2.1.symm.trans inside)
        have restored := restoredRow_inside history.identified found entryMem recorded
          folderRestored
        exact ⟨entry, restoredEntries_sub _ _ _ _ entryMem, recorded, restored.2.symm⟩
      · cases live
      · rcases onlyNew row before live outside folder folderMem isFolder inside with
          ⟨owned, absent⟩
        exact absurd ⟨rfl, owned, live, remaining ▸ absent,
          .inr ⟨folder.itemId, inside, folderRestored⟩⟩ spared
    · intro recorded
      rcases recorded with ⟨entry, member, isChild, rfl⟩
      have entryMem := restoredIds_children folderRestored (remaining ▸ member) isChild
      have restored := restoredRow_inside history.identified found entryMem isChild
        folderRestored
      exact ⟨_, restoredRow_mem found runs entryMem, (restoredRow_fields entry).2.2.2,
        restored.1, restored.2⟩

end PartialMirror

/-! ## An item that moved in

`Work` holds `a` and `b` stands beside it when the snapshot is taken. Then `c` is made in
`Work`, or `b` moves into it. -/

section MovedIn

attribute [local instance] smallPlatform

private def besideWork : List Op :=
  [.createFolder 1 none "Work", .createFolder 1 (some 10) "a", .createFolder 1 none "b",
    .createSnapshot 1 .manual "weekly" false]

private def newInWork : System := afterFirstDay (besideWork ++ [.createFolder 1 (some 10) "c"])

private def movedIntoWork : System := afterFirstDay (besideWork ++ [.move 1 12 (some 10)])

private def besideSnapshot : Snapshot :=
  newSnapshot 1 .manual "weekly" false (afterFirstDay (besideWork.take 3))

private def restoredWork (sys : System) : System :=
  match restore 1 13 (.selected [10]) .exactMirror sys with
  | .ok (_, after) => after
  | .error _ => sys

theorem partialMirror_iff_newInWork :
    (MirrorsFolders 1 besideSnapshot (.selected [10]) newInWork (restoredWork newInWork) ∧
      KeepsOutside 1 besideSnapshot (.selected [10]) newInWork (restoredWork newInWork)) ↔
    OnlyNewInside 1 besideSnapshot (.selected [10]) newInWork := by
  have history : History firstDay
      (Op.trace (besideWork ++ [.createFolder 1 (some 10) "c"]) firstDay) newInWork :=
    firstDay_trace (by simp [besideWork, Op.Offered]) rfl
  have found : getSnapshot newInWork.db 1 13 = some besideSnapshot := by decide
  have runs : restore 1 13 (.selected [10]) .exactMirror newInWork =
      .ok (some ⟨15, 2, 1⟩, restoredWork newInWork) := rfl
  exact partialMirror_iff history found runs

/-- The folder `b` stays in `Work`, where the snapshot has only `a`. -/
theorem movedIntoWork_stays :
    Op.commitAll (besideWork ++ [.move 1 12 (some 10)]) firstDay = .ok movedIntoWork ∧
    restore 1 13 (.selected [10]) .exactMirror movedIntoWork =
      .ok (some ⟨14, 2, 0⟩, restoredWork movedIntoWork) ∧
    ¬ MirrorsFolders 1 besideSnapshot (.selected [10]) movedIntoWork
      (restoredWork movedIntoWork) := by
  apply And.intro rfl
  apply And.intro rfl
  intro mirrors
  have visible : ∃ row ∈ (restoredWork movedIntoWork).db.items.rows, row.isDeleted = false ∧
      row.parentId = some 10 ∧ itemSignature row = (12, some 10, "b", .folder, none) := by decide
  have work : ∃ entry ∈ restoredEntries 1 besideSnapshot (.selected [10]) movedIntoWork,
      entry.itemType = .folder ∧ entry.itemId = 10 := by decide
  rcases work with ⟨folder, member, isFolder, isWork⟩
  have recorded := (mirrors folder member isFolder _).mp (isWork ▸ visible)
  rw [isWork] at recorded
  have absent : ¬ ∃ entry ∈ listAllEntries movedIntoWork.db besideSnapshot.id,
      entry.parentItemId = some 10 ∧
      entrySignature entry = (12, some 10, "b", .folder, none) := by decide
  exact absent recorded

end MovedIn

end SnapshotService

end CloudDrive
