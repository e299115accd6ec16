import CloudDrive.Snapshot.SafetySnapshot
import CloudDrive.Snapshot.Effects

/-! # Restoring into a tree that has changed

A restore gives the selected items the parents they once had and leaves every
other item where it is now. The mixture is a forest exactly when no selected
item goes back under items that now lie below it. -/

namespace CloudDrive

open Outcome Relational Forest Relation

namespace SnapshotService

open SnapshotRepository

section Mixture

variable [Platform]

/-- The entries the restore writes: none when its snapshot is pruned first. -/
def restoredEntries (userId : Uuid) (snapshot : Snapshot) (scope : Scope) (sys : System) :
    List SnapshotEntry :=
  if SurvivesSafety userId snapshot sys then
    match restoreTarget scope (listAllEntries sys.db snapshot.id) with
    | .ok target => target
    | .error _ => []
  else
    []

theorem Guarded.restoredEntries_eq {userId : Uuid} {snapshot : Snapshot} {sys guarded : System}
    (guard : Guarded userId snapshot sys guarded) {scope : Scope} {target : List SnapshotEntry}
    (selects : restoreTarget scope (listAllEntries guarded.db snapshot.id) = .ok target) :
    restoredEntries userId snapshot scope sys = target := by
  by_cases survives : SurvivesSafety userId snapshot sys
  · rw [guard.kept survives] at selects
    simp only [restoredEntries, if_pos survives, selects]
  · rw [guard.lost survives] at selects
    rw [restoredEntries, if_neg survives]
    cases scope <;> cases selects <;> rfl

/-- What a restore writes is in its snapshot. -/
theorem restoredEntries_sub (userId : Uuid) (snapshot : Snapshot) (scope : Scope)
    (sys : System) :
    restoredEntries userId snapshot scope sys ⊆ listAllEntries sys.db snapshot.id := by
  intro entry restored
  rcases restoreTarget_runs scope (listAllEntries_nodup sys.db snapshot.id)
    with ⟨target, selects, targetSub, _⟩
  by_cases survives : SurvivesSafety userId snapshot sys
  · simp only [restoredEntries, if_pos survives, selects] at restored
    exact targetSub restored
  · simp only [restoredEntries, if_neg survives] at restored
    cases restored

def restoredIds (userId : Uuid) (snapshot : Snapshot) (scope : Scope) (sys : System) :
    List Uuid :=
  (restoredEntries userId snapshot scope sys).map SnapshotEntry.itemId

/-- The parent that the restore writes for an item. -/
def writtenParent (userId : Uuid) (snapshot : Snapshot) (scope : Scope) (sys : System)
    (itemId : Uuid) : Option Uuid :=
  ((restoredEntries userId snapshot scope sys).find? fun entry =>
    decide (entry.itemId = itemId)).bind fun entry =>
      (placed (restoredIds userId snapshot scope sys)
        ((listAllItems sys.db userId).map DriveItem.id) entry).parentItemId

omit [Platform] in
theorem find?_entry {entries : List SnapshotEntry} {entry : SnapshotEntry}
    (distinct : (entries.map SnapshotEntry.itemId).Nodup)
    (member : entry ∈ entries) :
    entries.find? (fun other => decide (other.itemId = entry.itemId)) = some entry := by
  cases search : entries.find? fun other => decide (other.itemId = entry.itemId) with
  | none => simpa using List.find?_eq_none.mp search entry member
  | some other =>
      have sameId : other.itemId = entry.itemId := by simpa using List.find?_some search
      rw [List.inj_on_of_nodup_map distinct (List.mem_of_find?_eq_some search) member sameId]

/-- Every walk of the services up or down the tree ends. -/
structure Walkable (db : Database) : Prop where
  acyclic : Acyclic db.items.parentOf
  upwards : ∀ userId, ∀ item ∈ db.items,
    PermissionService.getPermission db userId item ≠ .error .diverged
  downwards : ∀ itemId storage now seed,
    TrashRepository.getChildrenRecursive ⟨db, storage, now, seed⟩ itemId ≠ .error .diverged

theorem walkable_of_acyclic {db : Database} (acyclic : Acyclic db.items.parentOf) :
    Walkable db := by
  refine ⟨acyclic, ?_, ?_⟩
  · intro userId item member diverged
    rcases PermissionService.getPermission_ends acyclic userId member with ⟨result, ends⟩
    rw [ends] at diverged
    cases diverged
  · intro itemId storage now seed diverged
    rcases Table.breadthFirst_spec acyclic itemId with ⟨below, ends, _⟩
    have answer : TrashRepository.getChildrenRecursive ⟨db, storage, now, seed⟩ itemId =
        orRaise (db.items.toTable.breadthFirst DriveItem.parentId
          (db.items.rows.length + 1) [itemId] []) .diverged := rfl
    rw [answer, ends] at diverged
    cases diverged

/-- What a capture records of a forest is a forest. -/
theorem capture_parent {userId : Uuid} {past : System} {entry : SnapshotEntry}
    (member : entry ∈ captureEntries userId past) {top : Uuid}
    (step : entry.parentItemId = some top) : past.db.items.parentOf entry.itemId = some top := by
  rcases List.mem_map.mp member with ⟨item, itemMem, rfl⟩
  have inTable : item ∈ past.db.items := (List.mem_filter.mp itemMem).1
  rw [show (capture past.uuid4 (listOwnerItems past.db userId) item).itemId = item.id from rfl,
    ItemTable.parentOf_id inTable]
  exact (Option.filter_eq_some_iff.mp step).1

omit [Platform] in
theorem placed_parent {restorableIds liveIds : List Uuid} {entry : SnapshotEntry}
    {top : Uuid} (step : (placed restorableIds liveIds entry).parentItemId = some top) :
    entry.parentItemId = some top := by
  unfold placed at step
  split at step
  · exact step
  · split at step
    · exact step
    · cases step

theorem writtenParent_acyclic {userId : Uuid} {snapshot : Snapshot} {scope : Scope}
    {sys past : System} (pastAcyclic : Acyclic past.db.items.parentOf)
    (captured : listAllEntries sys.db snapshot.id = captureEntries userId past) :
    Acyclic (writtenParent userId snapshot scope sys) := by
  refine pastAcyclic.of_sub ?_
  intro itemId top step
  rcases Option.bind_eq_some_iff.mp step with ⟨entry, found, points⟩
  have sameId : entry.itemId = itemId := by simpa using List.find?_some found
  have restored := List.mem_of_find?_eq_some found
  have inSnapshot := restoredEntries_sub userId snapshot scope sys restored
  rw [captured] at inSnapshot
  rw [← sameId]
  exact capture_parent inSnapshot (placed_parent points)

/-- The mirror does not move anything. -/
private theorem mirror_parents {middle after : ItemTable} {now : Timestamp}
    {isMirrored : DriveItem → Prop}
    (rows : ∀ row, row ∈ after ↔
      (∃ old ∈ middle, row = trashedCopy now old ∧ isMirrored old) ∨
      (row ∈ middle ∧ ¬ isMirrored row)) :
    after.parentOf = middle.parentOf := by
  funext itemId
  refine Option.ext fun top => ?_
  rw [ItemTable.parentOf_eq_some, ItemTable.parentOf_eq_some]
  constructor
  · rintro ⟨row, member, sameId, step⟩
    rcases (rows row).mp member with ⟨old, oldMem, rfl, _⟩ | ⟨inMiddle, _⟩
    · exact ⟨old, oldMem, sameId, step⟩
    · exact ⟨row, inMiddle, sameId, step⟩
  · rintro ⟨old, oldMem, sameId, step⟩
    by_cases trashes : isMirrored old
    · exact ⟨trashedCopy now old, (rows _).mpr (.inl ⟨old, oldMem, rfl, trashes⟩), sameId, step⟩
    · exact ⟨old, (rows old).mpr (.inr ⟨oldMem, trashes⟩), sameId, step⟩

/-- After a committed restore the restored items have the parents written for
them and the others the parents they had. -/
theorem restore_parents {userId snapshotId : Uuid} {snapshot : Snapshot} {scope : Scope}
    {mode : SubtreeMode} {sys after : System} {outcome : RestoreOutcome}
    (found : getSnapshot sys.db userId snapshotId = some snapshot)
    (runs : restore userId snapshotId scope mode sys = .ok (some outcome, after)) :
    (∀ itemId, itemId ∈ restoredIds userId snapshot scope sys →
      after.db.items.parentOf itemId = writtenParent userId snapshot scope sys itemId) ∧
    (∀ itemId, itemId ∉ restoredIds userId snapshot scope sys →
      after.db.items.parentOf itemId = sys.db.items.parentOf itemId) := by
  rcases getSnapshot_eq_some.mp found with ⟨_, rfl, _⟩
  rcases restore_ok found runs with ⟨guarded, target, middle, restored⟩
  rcases restoreTarget_runs scope (listAllEntries_nodup guarded.db snapshot.id)
    with ⟨_, selects, _, distinct⟩
  cases restored.selects.symm.trans selects
  have isTarget := restored.guard.restoredEntries_eq selects
  have middleRows := upsertAll_ok distinct restored.upserts
  rw [mirror_parents restored.items]
  constructor
  · intro itemId member
    rw [restoredIds, isTarget] at member
    rcases List.mem_map.mp member with ⟨entry, entryMem, rfl⟩
    let row := written sys.now userId sys.db.items (placed
      (target.map SnapshotEntry.itemId) ((listAllItems sys.db userId).map DriveItem.id) entry)
    have rowMem : row ∈ middle := (middleRows row).mpr (.inl ⟨entry, entryMem, rfl⟩)
    have rowId : row.id = entry.itemId := by simp [row]
    rw [← rowId, ItemTable.parentOf_id rowMem, rowId, writtenParent, restoredIds, isTarget,
      find?_entry distinct entryMem]
    exact (written_fields _ _ _ _).2.1
  · intro itemId outside
    rw [restoredIds, isTarget] at outside
    refine Option.ext fun top => ?_
    rw [ItemTable.parentOf_eq_some, ItemTable.parentOf_eq_some]
    constructor
    · rintro ⟨row, member, rfl, step⟩
      rcases (middleRows row).mp member with ⟨entry, entryMem, rfl⟩ | ⟨before, _⟩
      · rw [written_id, placed_itemId] at outside
        exact absurd (List.mem_map_of_mem entryMem) outside
      · exact ⟨row, before, rfl, step⟩
    · rintro ⟨row, member, rfl, step⟩
      exact ⟨row, (middleRows row).mpr (.inr ⟨member, outside⟩), rfl, step⟩

/-- A committed restore of a capture of a forest into a forest leaves a forest
exactly when no restored item goes back under items that now lie, directly or
through further restored items, below itself. -/
theorem restore_walkable_iff {userId snapshotId : Uuid} {snapshot : Snapshot} {scope : Scope}
    {mode : SubtreeMode} {sys past after : System} {outcome : RestoreOutcome}
    (found : getSnapshot sys.db userId snapshotId = some snapshot)
    (acyclic : Acyclic sys.db.items.parentOf)
    (pastAcyclic : Acyclic past.db.items.parentOf)
    (captured : listAllEntries sys.db snapshot.id = captureEntries userId past)
    (runs : restore userId snapshotId scope mode sys = .ok (some outcome, after)) :
    Walkable after.db ↔ ∀ itemId, ¬ TransGen
      (Lands (· ∈ restoredIds userId snapshot scope sys) sys.db.items.parentOf
        (writtenParent userId snapshot scope sys)) itemId itemId := by
  rcases restore_parents found runs with ⟨moved, kept⟩
  rw [← acyclic_mixed_iff moved kept acyclic (writtenParent_acyclic pastAcyclic captured)]
  exact ⟨Walkable.acyclic, walkable_of_acyclic⟩

end Mixture

/-! ## Two folders that changed places

`Plans` holds `Drafts` when the snapshot is taken. Then `Drafts` moves to the
root and `Plans` into it. Restoring `Drafts` alone puts each below the other. -/

section Swapped

attribute [local instance] smallPlatform

private def folderRow (id : Uuid) (parentId : Option Uuid) (name : String) : DriveItem where
  id := id
  ownerId := 1
  parentId := parentId
  itemType := .folder
  name := name
  mimeType := none
  extension := none
  sizeBytes := 0
  storageKey := none
  checksumSha256 := none
  isStarred := false
  isDeleted := false
  deletedAt := none
  createdBy := 1
  updatedBy := none
  createdAt := 50
  updatedAt := 50

private theorem nested_keys : [(1 : Uuid)].Nodup :=
  List.nodup_singleton 1

private def nested : System where
  db := { Database.empty with
    users := ⟨[{ id := 1, email := "a@example.org", quotaBytes := 1000, usedBytes := 0 }],
      nested_keys⟩
    items := { rows := [folderRow 2 none "Plans", folderRow 3 (some 2) "Drafts"],
               nodup := by decide, fits := by decide, slotsFree := by decide,
               parentsExist := by decide } }
  storage := .empty
  now := 100
  seed := 20

/-- Capture, then let the two folders change places. -/
private def swap : Except ServiceError (Snapshot × System) := do
  let (snapshot, sys) ← create 1 .manual "weekly" false nested
  let sys ← DriveService.move 1 3 none sys
  let sys ← DriveService.move 1 2 (some 3) sys
  pure (snapshot, sys)

private def swapped : System :=
  match swap with
  | .ok (_, sys) => sys
  | .error _ => nested

private def weekly : Snapshot := newSnapshot 1 .manual "weekly" false nested

private def cyclic : System :=
  match restore 1 20 (.selected [3]) .keepNew swapped with
  | .ok (_, after) => after
  | .error _ => swapped

private theorem nested_acyclic : Acyclic nested.db.items.parentOf :=
  Table.parentBy_acyclic (fun itemId => itemId) (by decide)

private theorem swapped_acyclic : Acyclic swapped.db.items.parentOf :=
  Table.parentBy_acyclic (fun itemId => 3 - itemId) (by decide)

private theorem restore_swapped :
    restore 1 20 (.selected [3]) .keepNew swapped = .ok (some ⟨21, 1, 0⟩, cyclic) := rfl

theorem restore_walkable_iff_swapped :
    Walkable cyclic.db ↔ ∀ itemId, ¬ TransGen
      (Lands (· ∈ restoredIds 1 weekly (.selected [3]) swapped) swapped.db.items.parentOf
        (writtenParent 1 weekly (.selected [3]) swapped)) itemId itemId :=
  restore_walkable_iff (show getSnapshot swapped.db 1 20 = some weekly by decide)
    swapped_acyclic nested_acyclic
    (show listAllEntries swapped.db weekly.id = captureEntries 1 nested by decide)
    restore_swapped

theorem swapped_cycle :
    Acyclic nested.db.items.parentOf ∧ swap = .ok (weekly, swapped) ∧
      Acyclic swapped.db.items.parentOf ∧
      restore 1 weekly.id (.selected [3]) .keepNew swapped = .ok (some ⟨21, 1, 0⟩, cyclic) ∧
      ¬ Acyclic cyclic.db.items.parentOf := by
  refine ⟨nested_acyclic, rfl, swapped_acyclic, restore_swapped, ?_⟩
  intro acyclic
  have down : cyclic.db.items.parentOf 2 = some 3 := by decide
  have up : cyclic.db.items.parentOf 3 = some 2 := by decide
  exact acyclic 2 (TransGen.tail (TransGen.single down) up)

end Swapped

end SnapshotService

end CloudDrive
