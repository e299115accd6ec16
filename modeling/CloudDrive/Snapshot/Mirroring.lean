import CloudDrive.Snapshot.ParentsFirst

/-! # Mirroring a snapshot exactly

A restore of the whole drive in the mode `exact_mirror`: every entry is written after
its parent, the rest of the drive goes to the trash, and what is live afterwards is
what the snapshot recorded. -/

namespace CloudDrive

open Outcome Relational Execution Forest Relation

namespace SnapshotService

open SnapshotRepository

section Mirroring

variable [Platform]

/-! ## Parents first -/

/-- The entries are a forest that contains the parents of its members. -/
structure ClosedForest (entries : List SnapshotEntry) : Prop where
  distinct : (entries.map SnapshotEntry.itemId).Nodup
  closed : ∀ entry ∈ entries, ∀ parentId ∈ entry.parentItemId,
    parentId ∈ entries.map SnapshotEntry.itemId
  acyclic : Acyclic (recordedParent entries)

variable {entries : List SnapshotEntry} {entry : SnapshotEntry}

omit [Platform] in
/-- Every entry comes after its parent. -/
theorem ClosedForest.topDown (forest : ClosedForest entries) :
    TopDown SnapshotEntry.itemId SnapshotEntry.parentItemId [] (parentsFirst entries) := by
  have mapped : TopDown SnapshotEntry.itemId SnapshotEntry.parentItemId []
      ((parentsFirst entries).map id) := by
    apply parentsFirst_topDown forest.distinct forest.acyclic fun _ => rfl
    intro entry member top named
    exact .inr ⟨named, forest.closed entry member top named⟩
  rwa [List.map_id] at mapped

/-! ## The restore -/

/-- `_items_signature`: what makes an item the same in two drives. -/
def itemSignature (item : DriveItem) : Uuid × Option Uuid × String × ItemType × Option String :=
  (item.id, item.parentId, item.name, item.itemType, item.checksumSha256)

/-- `_entries_signature`. -/
def entrySignature (entry : SnapshotEntry) :
    Uuid × Option Uuid × String × ItemType × Option String :=
  (entry.itemId, entry.parentItemId, entry.name, entry.itemType, entry.checksumSha256)

/-- The user's live items are those of the entries, the user's other items are in the
trash, and the items of others are as they were. -/
structure Mirrors (userId : Uuid) (entries : List SnapshotEntry) (before after : System) :
    Prop where
  live : ∀ signature, signature ∈ (listOwnerItems after.db userId).map itemSignature ↔
    signature ∈ entries.map entrySignature
  trashed : ∀ row ∈ after.db.items, row.ownerId = userId →
    row.id ∉ entries.map SnapshotEntry.itemId → row.isDeleted = true
  others : ∀ row, row.ownerId ≠ userId → (row ∈ after.db.items ↔ row ∈ before.db.items)

/-- The row written for an entry has its signature. -/
theorem written_signature {now : Timestamp} {userId snapshotId : Uuid} {snapshot : Snapshot}
    {sys : System} (identified : Identified sys)
    (found : getSnapshot sys.db userId snapshotId = some snapshot)
    (member : entry ∈ listAllEntries sys.db snapshot.id) :
    itemSignature (written now userId sys.db.items entry) = entrySignature entry := by
  rcases written_fields now userId sys.db.items entry with
    ⟨sameId, parent, name, _, _, checksum, _⟩
  have type : (written now userId sys.db.items entry).itemType = entry.itemType := by
    rcases Identified.written_owner with ⟨item, itemMem, isItem, _, type⟩ | ⟨_, _, type⟩
    · exact type.trans (item_of_entry identified found member itemMem isItem).2
    · exact type
  simp only [itemSignature, entrySignature, sameId, parent, name, type, checksum]

theorem placedEntries_of_closed {userId : Uuid} {sys : System}
    (closed : ∀ entry ∈ entries, ∀ parentId ∈ entry.parentItemId,
      parentId ∈ entries.map SnapshotEntry.itemId) :
    placedEntries userId sys entries = parentsFirst entries := by
  have same : ∀ entry ∈ parentsFirst entries, placed (entries.map SnapshotEntry.itemId)
      ((listAllItems sys.db userId).map DriveItem.id) entry = entry := by
    intro entry member
    exact placed_of_closed (closed entry ((perm_parentsFirst entries).mem_iff.mp member))
  rw [placedEntries, List.map_congr_left same, List.map_id']

/-- What a committed exact mirror of a surviving closed snapshot leaves. -/
theorem mirrors_of_restored {userId : Uuid} {snapshot : Snapshot} {sys guarded after : System}
    {target : List SnapshotEntry} {middle : ItemTable} (identified : Identified sys)
    (found : getSnapshot sys.db userId snapshot.id = some snapshot)
    (closed : ∀ entry ∈ listAllEntries sys.db snapshot.id, ∀ parentId ∈ entry.parentItemId,
      parentId ∈ (listAllEntries sys.db snapshot.id).map SnapshotEntry.itemId)
    (survives : SurvivesSafety userId snapshot sys)
    (restored : Restored userId snapshot .whole .exactMirror sys guarded after target middle) :
    Mirrors userId (listAllEntries sys.db snapshot.id) sys after := by
  have selects := restored.selects
  have rows := restored.items
  rw [restored.guard.kept survives] at selects rows
  cases selects
  have middleRows : ∀ row, row ∈ middle ↔
      (∃ entry ∈ listAllEntries sys.db snapshot.id,
        row = written sys.now userId sys.db.items entry) ∨
      (row ∈ sys.db.items ∧
        row.id ∉ (listAllEntries sys.db snapshot.id).map SnapshotEntry.itemId) := by
    intro row
    rw [upsertAll_ok (listAllEntries_nodup sys.db snapshot.id) restored.upserts row]
    apply or_congr_left
    apply exists_congr
    intro entry
    apply and_congr_right
    intro member
    rw [placed_of_closed (closed entry member)]
  have mine : ∀ entry ∈ listAllEntries sys.db snapshot.id,
      (written sys.now userId sys.db.items entry).ownerId = userId := by
    intro entry member
    exact written_mine identified found member rfl
  constructor
  case live =>
    intro signature
    rw [List.mem_map, List.mem_map]
    constructor
    · intro listed
      rcases listed with ⟨row, rowMem, rfl⟩
      rcases List.mem_filter.mp rowMem with ⟨inAfter, isLive⟩
      rcases of_decide_eq_true isLive with ⟨owned, live⟩
      rcases (rows row).mp inAfter with ⟨old, _, rfl, _⟩ | ⟨inMiddle, notMirrored⟩
      · cases live
      · rcases (middleRows row).mp inMiddle with ⟨entry, member, rfl⟩ | ⟨_, absent⟩
        · exact ⟨entry, member, (written_signature identified found member).symm⟩
        · exact absurd ⟨rfl, owned, live, absent, .inl rfl⟩ notMirrored
    · intro recorded
      rcases recorded with ⟨entry, member, rfl⟩
      have inMiddle := (middleRows _).mpr (.inl ⟨entry, member, rfl⟩)
      rcases written_fields sys.now userId sys.db.items entry with
        ⟨sameId, _, _, _, _, _, live⟩
      have inAfter : written sys.now userId sys.db.items entry ∈ after.db.items := by
        apply (rows _).mpr (.inr ⟨inMiddle, _⟩)
        intro isMirrored
        exact isMirrored.absent (sameId ▸ List.mem_map_of_mem member)
      exact ⟨_, List.mem_filter.mpr ⟨inAfter, decide_eq_true ⟨mine entry member, live⟩⟩,
        written_signature identified found member⟩
  case trashed =>
    intro row inAfter owned absent
    rcases (rows row).mp inAfter with ⟨old, _, rfl, _⟩ | ⟨_, notMirrored⟩
    · rfl
    · by_contra notTrashed
      have live := Bool.eq_false_of_not_eq_true notTrashed
      exact notMirrored ⟨rfl, owned, live, absent, .inl rfl⟩
  case others =>
    intro row different
    constructor
    · intro inAfter
      rcases (rows row).mp inAfter with ⟨old, _, rfl, isMirrored⟩ | ⟨inMiddle, _⟩
      · exact absurd isMirrored.owned different
      · rcases (middleRows row).mp inMiddle with ⟨entry, member, rfl⟩ | ⟨before, _⟩
        · exact absurd (mine entry member) different
        · exact before
    · intro before
      have absent : row.id ∉ (listAllEntries sys.db snapshot.id).map SnapshotEntry.itemId := by
        intro listed
        rcases List.mem_map.mp listed with ⟨entry, member, sameId⟩
        exact different (item_of_entry identified found member before sameId.symm).1
      apply (rows row).mpr (.inr ⟨(middleRows row).mpr (.inr ⟨before, absent⟩), _⟩)
      exact fun isMirrored => different isMirrored.owned

/-- In every state that a run reaches, an exact mirror of a whole snapshot that outlives
the safety snapshot, whose entries are a forest with all parents, and of which the
index refuses no flush, makes the user's drive what the entries say. -/
theorem restore_mirrors {start sys : System} {events : List (Event System Op)}
    (history : History start events sys) {userId snapshotId : Uuid} {snapshot : Snapshot}
    (found : getSnapshot sys.db userId snapshotId = some snapshot)
    (closed : ∀ entry ∈ listAllEntries sys.db snapshotId, ∀ parentId ∈ entry.parentItemId,
      parentId ∈ (listAllEntries sys.db snapshotId).map SnapshotEntry.itemId)
    (acyclic : Acyclic (recordedParent (listAllEntries sys.db snapshotId)))
    (survives : SurvivesSafety userId snapshot sys)
    (free : ∀ flushes, restoreFlushes userId snapshotId .whole .exactMirror sys = .ok flushes →
      ∀ rows ∈ flushes, rows.Pairwise fun left right => ¬ SameSlot left right) :
    ∃ outcome after, restore userId snapshotId .whole .exactMirror sys =
        .ok (some outcome, after) ∧
      Mirrors userId (listAllEntries sys.db snapshotId) sys after := by
  rcases getSnapshot_eq_some.mp found with ⟨_, rfl, _⟩
  rcases safety_guarded found with ⟨guarded, creates, guard⟩
  have selects : restoreTarget .whole (listAllEntries guarded.db snapshot.id) =
      .ok (listAllEntries sys.db snapshot.id) := by
    rw [guard.kept survives]
    rfl
  have forest : ClosedForest (listAllEntries sys.db snapshot.id) :=
    ⟨listAllEntries_nodup sys.db snapshot.id, closed, acyclic⟩
  have places : placedEntries userId sys (listAllEntries sys.db snapshot.id) =
      parentsFirst (listAllEntries sys.db snapshot.id) := placedEntries_of_closed closed
  have upserts : ∃ middle, upsertAll sys.now userId (listAllEntries sys.db snapshot.id)
      sys.db.items ((listAllItems sys.db userId).map DriveItem.id) = .ok middle := by
    rw [upsertAll, ← forEach_map (upsertItem sys.now userId)]
    show ∃ middle, forEach _ (placedEntries userId sys _) _ = .ok middle
    rcases restoreFlushes_eq found creates guard selects .exactMirror with
      ⟨mirrored, isFlushes, _⟩
    rw [places] at isFlushes ⊢
    apply upserts_run forest.topDown nofun
    · intro entry member
      have inSnapshot := (perm_parentsFirst _).mem_iff.mp member
      exact history.identified.names entry (List.mem_filter.mp inSnapshot).1
    · exact fun rows member => free _ isFlushes rows (List.mem_append_left _ member)
  rcases upserts with ⟨middle, upserts⟩
  rcases (restoreApplies_iff_survives found .whole .exactMirror).mpr survives with
    ⟨target, selected, ⟨outcome, after, runs, _⟩ | ⟨error, _, refused⟩⟩
  · rcases restore_ok found runs with ⟨others, otherTarget, otherMiddle, restored⟩
    exact ⟨outcome, after, runs,
      mirrors_of_restored history.identified found closed survives restored⟩
  · cases selected
    rw [upserts] at refused
    cases refused

end Mirroring

/-! ## A folder that is gone and one that is new

After the snapshot `a` is deleted for ever and `c` is made beside where it was. -/

section GoneAndNew

attribute [local instance] smallPlatform

private def workWithA : List Op :=
  [.createFolder 1 none "Work", .createFolder 1 (some 10) "a"]

private def deleteAndMake : List Op :=
  workWithA ++ [.createSnapshot 1 .manual "weekly" false, .trashItem 1 11,
    .permanentDelete 1 11, .createFolder 1 (some 10) "c"]

private def changedWork : System := afterFirstDay deleteAndMake

private def workSnapshot : Snapshot :=
  newSnapshot 1 .manual "weekly" false (afterFirstDay workWithA)

private def workFlushes : List (List DriveItem) :=
  match restoreFlushes 1 12 .whole .exactMirror changedWork with
  | .ok flushes => flushes
  | .error _ => []

theorem restore_mirrors_changedWork :
    (∃ outcome after, restore 1 12 .whole .exactMirror changedWork = .ok (some outcome, after) ∧
      Mirrors 1 (listAllEntries changedWork.db 12) changedWork after) ∧
    (listAllEntries changedWork.db 12).map SnapshotEntry.name = ["Work", "a"] := by
  have history : History firstDay (Op.trace deleteAndMake firstDay) changedWork :=
    firstDay_trace (by simp [deleteAndMake, workWithA, Op.Offered]) rfl
  have found : getSnapshot changedWork.db 1 12 = some workSnapshot := by decide
  have acyclic : Acyclic (recordedParent (listAllEntries changedWork.db 12)) :=
    recordedParent_acyclic_of_lower (by decide)
  have flushed : restoreFlushes 1 12 .whole .exactMirror changedWork = .ok workFlushes := rfl
  have free : ∀ rows ∈ workFlushes, rows.Pairwise fun left right => ¬ SameSlot left right := by
    decide
  constructor
  · apply restore_mirrors history found (by decide) acyclic (by decide)
    intro flushes same
    cases flushed.symm.trans same
    exact free
  · decide

end GoneAndNew

end SnapshotService

end CloudDrive
