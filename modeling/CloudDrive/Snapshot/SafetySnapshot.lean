import CloudDrive.Snapshot.Restoring

/-! # Restoring exactly what was captured

A restore first takes a safety snapshot, and that prunes. It applies the entries
its snapshot had when the call began exactly when the pruning spares it. -/

namespace CloudDrive

open Outcome Relational

namespace SnapshotService

open SnapshotRepository

section Restore

variable [Platform]

/-- The row shows what the entry recorded, at the place the entry gives it. -/
structure Shows (entry : SnapshotEntry) (parentId : Option Uuid) (row : DriveItem) :
    Prop where
  id : row.id = entry.itemId
  parentId : row.parentId = parentId
  name : row.name = entry.name
  sizeBytes : row.sizeBytes = entry.sizeBytes
  storageKey : row.storageKey = entry.storageKey
  checksum : row.checksumSha256 = entry.checksumSha256
  live : row.isDeleted = false

/-- The restore sent the live item `old` to the trash. -/
def SentToTrash (after : System) (old : DriveItem) : Prop :=
  old.isDeleted = false ∧ ∃ row ∈ after.db.items, row.id = old.id ∧ row.isDeleted = true

/-- Between `before` and `after` exactly the entries that `snapshot` had in
`before` were applied, and it still has them. -/
structure AppliesEntries (userId : Uuid) (snapshot : Snapshot) (scope : Scope)
    (mode : SubtreeMode) (before after : System) (target : List SnapshotEntry) : Prop where
  upserted : ∀ entry ∈ target, ∃ row ∈ after.db.items, Shows entry
    (placed (target.map SnapshotEntry.itemId)
      ((listAllItems before.db userId).map DriveItem.id) entry).parentItemId row
  others : ∀ row ∈ after.db.items, row.id ∉ target.map SnapshotEntry.itemId →
    ∃ old ∈ before.db.items, row = old ∨ row = trashedCopy before.now old
  remaining : ∀ old ∈ before.db.items, ∃ row ∈ after.db.items, row.id = old.id
  mirrored : scope = .whole → mode = .exactMirror → ∀ old ∈ before.db.items,
    (SentToTrash after old ↔ old.ownerId = userId ∧ old.isDeleted = false ∧
      old.id ∉ (listAllEntries before.db snapshot.id).map SnapshotEntry.itemId)
  found : getSnapshot after.db userId snapshot.id = some snapshot
  kept : listAllEntries after.db snapshot.id = listAllEntries before.db snapshot.id

/-- The restore applies the entries the snapshot has now. The database may
refuse one of these very entries; the request is then rolled back. -/
def RestoreApplies (userId : Uuid) (snapshot : Snapshot) (scope : Scope)
    (mode : SubtreeMode) (sys : System) : Prop :=
  ∃ target, restoreTarget scope (listAllEntries sys.db snapshot.id) = .ok target ∧
    ((∃ outcome after,
        restore userId snapshot.id scope mode sys = .ok (some outcome, after) ∧
        outcome.restored = target.length ∧
        AppliesEntries userId snapshot scope mode sys after target) ∨
      ∃ error, restore userId snapshot.id scope mode sys = .error error ∧
        upsertAll sys.now userId target sys.db.items
          ((listAllItems sys.db userId).map DriveItem.id) = .error error)

/-- What the two steps after the safety snapshot leave, when they run on the
entries of the snapshot. -/
private theorem appliesEntries_of_rows {userId : Uuid} {snapshot : Snapshot} {scope : Scope}
    {mode : SubtreeMode} {sys guarded : System} {target : List SnapshotEntry}
    {middle after : ItemTable} (guard : Guarded userId snapshot sys guarded)
    (survives : SurvivesSafety userId snapshot sys)
    (selects : restoreTarget scope (listAllEntries sys.db snapshot.id) = .ok target)
    (upserts : upsertAll sys.now userId target sys.db.items
      ((listAllItems sys.db userId).map DriveItem.id) = .ok middle)
    (rows : ∀ row, row ∈ after ↔
      (∃ old ∈ middle, row = trashedCopy sys.now old ∧
        Mirrored mode scope (listAllEntries sys.db snapshot.id) target userId old) ∨
      (row ∈ middle ∧
        ¬ Mirrored mode scope (listAllEntries sys.db snapshot.id) target userId row)) :
    AppliesEntries userId snapshot scope mode sys (guarded.withItems after) target := by
  rcases restoreTarget_runs scope (listAllEntries_nodup sys.db snapshot.id) with
    ⟨_, selectsAlso, targetSub, distinct⟩
  cases selects.symm.trans selectsAlso
  have middleRows := upsertAll_ok distinct upserts
  have inSnapshot : ∀ id ∈ target.map SnapshotEntry.itemId,
      id ∈ (listAllEntries sys.db snapshot.id).map SnapshotEntry.itemId :=
    fun id member => List.map_subset _ targetSub member
  have untouched : ∀ old ∈ sys.db.items, old.id ∉ target.map SnapshotEntry.itemId →
      old ∈ middle := fun old member outside =>
    (middleRows old).mpr (.inr ⟨member, outside⟩)
  constructor
  case upserted =>
    intro entry member
    let row := written sys.now userId sys.db.items (placed (target.map SnapshotEntry.itemId)
      ((listAllItems sys.db userId).map DriveItem.id) entry)
    have rowMem : row ∈ middle := (middleRows row).mpr (.inl ⟨entry, member, rfl⟩)
    have rowId : row.id = entry.itemId := by simp [row]
    have notMirrored : ¬ Mirrored mode scope (listAllEntries sys.db snapshot.id) target
        userId row := fun isMirrored => isMirrored.absent
      (rowId ▸ inSnapshot _ (List.mem_map_of_mem member))
    obtain ⟨_, parentId, name, size, key, checksum, live⟩ := written_fields sys.now userId
      sys.db.items (placed (target.map SnapshotEntry.itemId)
        ((listAllItems sys.db userId).map DriveItem.id) entry)
    obtain ⟨sameName, sameSize, sameKey, sameChecksum⟩ := placed_fields
      (target.map SnapshotEntry.itemId) ((listAllItems sys.db userId).map DriveItem.id) entry
    exact ⟨row, (rows row).mpr (.inr ⟨rowMem, notMirrored⟩), rowId, parentId,
      name.trans sameName, size.trans sameSize, key.trans sameKey,
      checksum.trans sameChecksum, live⟩
  case others =>
    intro row member outside
    have fromBefore : ∀ old ∈ middle, old.id ∉ target.map SnapshotEntry.itemId →
        old ∈ sys.db.items := by
      intro old oldMem notTarget
      rcases (middleRows old).mp oldMem with ⟨entry, entryMem, rfl⟩ | ⟨oldBefore, _⟩
      · exact absurd (List.mem_map_of_mem entryMem) (by simpa using notTarget)
      · exact oldBefore
    rcases (rows row).mp member with ⟨old, oldMem, rfl, _⟩ | ⟨rowMem, _⟩
    · exact ⟨old, fromBefore old oldMem outside, .inr rfl⟩
    · exact ⟨row, fromBefore row rowMem outside, .inl rfl⟩
  case remaining =>
    intro old oldMem
    obtain ⟨row, rowMem, sameId⟩ : ∃ row ∈ middle, row.id = old.id := by
      by_cases among : old.id ∈ target.map SnapshotEntry.itemId
      · rcases List.mem_map.mp among with ⟨entry, entryMem, sameId⟩
        exact ⟨_, (middleRows _).mpr (.inl ⟨entry, entryMem, rfl⟩), by simpa using sameId⟩
      · exact ⟨old, untouched old oldMem among, rfl⟩
    by_cases isMirrored : Mirrored mode scope (listAllEntries sys.db snapshot.id) target
        userId row
    · exact ⟨trashedCopy sys.now row, (rows _).mpr (.inl ⟨row, rowMem, rfl, isMirrored⟩), sameId⟩
    · exact ⟨row, (rows _).mpr (.inr ⟨rowMem, isMirrored⟩), sameId⟩
  case mirrored =>
    rintro rfl rfl old oldMem
    have outside : old.id ∉ (listAllEntries sys.db snapshot.id).map SnapshotEntry.itemId →
        old ∈ middle := fun absent =>
      untouched old oldMem fun among => absent (inSnapshot _ among)
    constructor
    · rintro ⟨live, row, rowMem, sameId, trashed⟩
      rcases (rows row).mp rowMem with ⟨source, sourceMem, rfl, isMirrored⟩ | ⟨rowMiddle, _⟩
      · have same : source = old :=
          ItemTable.eq_of_id_eq sourceMem
            (outside fun among => isMirrored.absent ((show source.id = old.id from sameId) ▸ among))
            sameId
        exact same ▸ ⟨isMirrored.owned, isMirrored.live, isMirrored.absent⟩
      · rcases (middleRows row).mp rowMiddle with ⟨entry, _, rfl⟩ | ⟨rowBefore, _⟩
        · rw [(written_fields _ _ _ _).2.2.2.2.2.2] at trashed
          cases trashed
        · rw [ItemTable.eq_of_id_eq rowBefore oldMem sameId, live] at trashed
          cases trashed
    · rintro ⟨owned, live, absent⟩
      refine ⟨live, trashedCopy sys.now old, (rows _).mpr (.inl ⟨old, outside absent, rfl, ?_⟩),
        rfl, rfl⟩
      exact ⟨rfl, owned, live, absent, .inl rfl⟩
  case found =>
    exact guard.found.mpr survives
  case kept =>
    exact guard.kept survives

/-- A restore applies the entries its snapshot had when it began exactly when the
snapshot survives the safety snapshot taken first. -/
theorem restoreApplies_iff_survives {userId snapshotId : Uuid} {snapshot : Snapshot}
    {sys : System} (found : getSnapshot sys.db userId snapshotId = some snapshot)
    (scope : Scope) (mode : SubtreeMode) :
    RestoreApplies userId snapshot scope mode sys ↔ SurvivesSafety userId snapshot sys := by
  rcases getSnapshot_eq_some.mp found with ⟨_, rfl, _⟩
  rcases safety_guarded found with ⟨guarded, creates, guard⟩
  have restores : restore userId snapshot.id scope mode sys =
      applySnapshot userId snapshot.id scope mode (safetySnapshot userId snapshot sys).id guarded
        >>= fun result => .ok (some result.1, result.2) := by
    simp only [restore, found, creates]
    rfl
  have allItems : listAllItems guarded.db userId = listAllItems sys.db userId := by
    rw [listAllItems, guard.items]
    rfl
  rcases restoreTarget_runs scope (listAllEntries_nodup sys.db snapshot.id) with
    ⟨target, selects, _, _⟩
  constructor
  · intro applies
    by_contra lost
    have nothing : restoreTarget scope (listAllEntries guarded.db snapshot.id) = .ok [] := by
      rw [guard.lost lost]
      cases scope <;> rfl
    obtain ⟨trashed, rows, applied, _⟩ :=
      applySnapshot_runs mode (safetySnapshot userId snapshot sys).id nothing
        (show upsertAll guarded.now userId [] guarded.db.items _ = .ok guarded.db.items from rfl)
    have emptied : restore userId snapshot.id scope mode sys =
        .ok (some ⟨(safetySnapshot userId snapshot sys).id, 0, trashed⟩,
          guarded.withItems rows) := by
      rw [restores, applied]
      rfl
    rcases applies with ⟨_, _, ⟨outcome, after, runs, _, applies⟩ | ⟨error, refused, _⟩⟩
    · cases emptied.symm.trans runs
      exact lost (guard.found.mp applies.found)
    · cases emptied.symm.trans refused
  · intro survives
    have selectsGuarded : restoreTarget scope (listAllEntries guarded.db snapshot.id) =
        .ok target := by
      rw [guard.kept survives]
      exact selects
    refine ⟨target, selects, ?_⟩
    cases upserts : upsertAll sys.now userId target sys.db.items
        ((listAllItems sys.db userId).map DriveItem.id) with
    | error error =>
        refine .inr ⟨error, ?_, rfl⟩
        rw [restores, applySnapshot_refused selectsGuarded
          (by rw [guard.now, guard.items, allItems]; exact upserts)]
        rfl
    | ok middle =>
        refine .inl ?_
        obtain ⟨trashed, after, applied, rows⟩ :=
          applySnapshot_runs mode (safetySnapshot userId snapshot sys).id selectsGuarded
            (by rw [guard.now, guard.items, allItems]; exact upserts)
        rw [guard.now, guard.kept survives] at rows
        refine ⟨⟨(safetySnapshot userId snapshot sys).id, target.length, trashed⟩,
          guarded.withItems after, ?_, rfl,
          appliesEntries_of_rows guard survives selects upserts rows⟩
        rw [restores, applied]
        rfl

end Restore

/-! ## A timeline that is full

A user who keeps one snapshot restores it. The safety snapshot takes its place,
the restore finds no entry, and the exact mirror trashes the whole drive. -/

section FullTimeline

attribute [local instance] smallPlatform

private def onlyFolder : DriveItem where
  id := 4
  ownerId := 1
  parentId := none
  itemType := .folder
  name := "Reports"
  mimeType := none
  extension := none
  sizeBytes := 0
  storageKey := none
  checksumSha256 := none
  isStarred := false
  isDeleted := false
  deletedAt := none
  createdBy := 1
  updatedBy := none
  createdAt := 50
  updatedAt := 50

private def onlySnapshot : Snapshot where
  id := 10
  userId := 1
  trigger := .manual
  label := "monthly"
  itemCount := 1
  totalBytes := 0
  pinned := false
  createdAt := 100

private def fullTimeline : System where
  db := { Database.empty with
    users := ⟨[{ id := 1, email := "a@example.org", quotaBytes := 1000, usedBytes := 0 }],
      by decide⟩
    items := { rows := [onlyFolder], nodup := by decide, fits := by decide,
               slotsFree := by decide, parentsExist := by decide }
    snapshots := ⟨[onlySnapshot], by decide⟩
    entries := ⟨[{ snapshotId := 10, itemId := 4, parentItemId := none, name := "Reports",
                   itemType := .folder, storageKey := none, checksumSha256 := none,
                   sizeBytes := 0 }], by decide⟩
    settings := ⟨[{ userId := 1, retentionN := 1, scheduleEnabled := true,
                    scheduleIntervalMinutes := 60, quotaBytes := none }], by decide⟩ }
  storage := .empty
  now := 200
  seed := 20

theorem restoreApplies_iff_survives_fullTimeline :
    RestoreApplies 1 onlySnapshot .whole .exactMirror fullTimeline ↔
      SurvivesSafety 1 onlySnapshot fullTimeline :=
  restoreApplies_iff_survives
    (show getSnapshot fullTimeline.db 1 10 = some onlySnapshot by decide) .whole .exactMirror

/-- The row ids a restore leaves in the trash, and whether it still finds the
snapshot. -/
private def remains (result : Except ServiceError (Option RestoreOutcome × System)) :
    Option (List Uuid × Option Snapshot) :=
  match result with
  | .ok (_, after) => some ((after.db.items.rows.filter (·.isDeleted)).map DriveItem.id,
      getSnapshot after.db 1 10)
  | .error _ => none

theorem fullTimeline_lost :
    ¬ RestoreApplies 1 onlySnapshot .whole .exactMirror fullTimeline := by
  have result : remains (restore 1 10 .whole .exactMirror fullTimeline) = some ([4], none) := by
    decide
  rintro ⟨_, _, ⟨outcome, after, runs, _, applies⟩ | ⟨error, refused, _⟩⟩
  · rw [show restore 1 10 .whole .exactMirror fullTimeline = .ok (some outcome, after)
      from runs] at result
    simp only [remains, Option.some.injEq, Prod.mk.injEq] at result
    exact absurd (result.2.symm.trans applies.found) (by simp)
  · rw [show restore 1 10 .whole .exactMirror fullTimeline = .error error
      from refused] at result
    cases result

end FullTimeline

end SnapshotService

end CloudDrive
