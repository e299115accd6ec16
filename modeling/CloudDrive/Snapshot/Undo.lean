import CloudDrive.Snapshot.RestoredRows
import CloudDrive.Snapshot.ParentsFirst

/-! # Undoing a restore

A snapshot that is restored over the drive it was taken of, and the safety snapshot of
a restore restored after it. Both bring every live item back, an item in a folder that
was not captured at the root. -/

namespace CloudDrive

open Outcome Relational Execution Forest

namespace SnapshotService

open SnapshotRepository

section Undo

variable [Platform] {userId : Uuid} {snapshot : Snapshot} {scope : Scope} {mode : SubtreeMode}
  {past sys after : System}

/-! ## A new snapshot -/

/-- The parent that a capture records for a live item of the user. -/
def capturedParent (userId : Uuid) (db : Database) (item : DriveItem) : Option Uuid :=
  item.parentId.filter fun parentId => parentId ∈ (listOwnerItems db userId).map DriveItem.id

theorem mem_listOwnerItems {db : Database} {item : DriveItem} :
    item ∈ listOwnerItems db userId ↔
      item ∈ db.items ∧ item.ownerId = userId ∧ item.isDeleted = false := by
  rw [listOwnerItems, List.mem_filter, decide_eq_true_iff]
  rfl

/-- A new snapshot that pruning spares has the entries of the capture. -/
theorem create_entries {trigger : Trigger} {label : String} {pinned : Bool} {captured : System}
    (creates : create userId trigger label pinned sys = .ok (snapshot, captured))
    (found : getSnapshot captured.db userId snapshot.id = some snapshot)
    {entry : SnapshotEntry} :
    entry ∈ listAllEntries captured.db snapshot.id ↔ entry ∈ captureEntries userId sys := by
  rcases create_work userId trigger label pinned sys with ⟨_, same, work⟩
  cases creates.symm.trans same
  rcases work.pruned with ⟨gone, snapshots, entries⟩
  have spared := ((snapshots _).mp (getSnapshot_eq_some.mp found).1).2
  rw [listAllEntries, List.mem_filter, decide_eq_true_iff]
  show entry ∈ captured.db.entries ∧ _ ↔ _
  rw [entries]
  constructor
  · intro both
    rcases both with ⟨⟨earlier | isNew, _⟩, ofSnapshot⟩
    · exact absurd ofSnapshot (sys.uuid4_unused.entrySnapshots entry earlier)
    · exact isNew
  · intro isNew
    have ofSnapshot := captureEntries_snapshotId isNew
    exact ⟨⟨.inr isNew, ofSnapshot ▸ spared⟩, ofSnapshot⟩

/-- Pruning never takes a safety snapshot. -/
theorem safety_found {captured : System}
    (creates : create userId .preRestore (safetyLabel snapshot) false sys =
      .ok (safetySnapshot userId snapshot sys, captured)) :
    getSnapshot captured.db userId (safetySnapshot userId snapshot sys).id =
      some (safetySnapshot userId snapshot sys) := by
  rcases create_runs userId .preRestore (safetyLabel snapshot) false sys with
    ⟨db, taken, same⟩
  cases creates.symm.trans same
  rcases prune_spec userId (getSettings db userId) db with ⟨gone, prunes, _, fate⟩
  have inDb : safetySnapshot userId snapshot sys ∈ db.snapshots := by
    rw [← Table.mem_rows, taken.snapshots]
    exact List.mem_append_right _ List.mem_cons_self
  have spared := (fate _ (mem_listSnapshots.mpr ⟨inDb, rfl⟩)).mpr (.inl rfl)
  apply getSnapshot_eq_some.mpr
  apply And.intro _ ⟨rfl, rfl⟩
  show _ ∈ (prune userId (getSettings db userId) db).snapshots
  rw [prunes]
  exact mem_without_snapshots.mpr ⟨inDb, spared⟩

theorem safety_survives (userId : Uuid) (snapshot : Snapshot) (before sys : System) :
    SurvivesSafety userId (safetySnapshot userId snapshot before) sys :=
  .inl rfl

/-! ## Restoring a capture -/

/-- The live items of `past` are back, the user's other items are in the trash, and no
others have changed since `before`. -/
structure Recaptured (userId : Uuid) (past before after : System) : Prop where
  live : ∀ item ∈ listOwnerItems past.db userId, ∃ row ∈ after.db.items, row.id = item.id ∧
    row.name = item.name ∧ row.isDeleted = false ∧
    row.parentId = capturedParent userId past.db item
  rest : ∀ old ∈ before.db.items, old.id ∉ (listOwnerItems past.db userId).map DriveItem.id →
    ∃ row ∈ after.db.items, row.id = old.id ∧ row.name = old.name ∧
      row.parentId = old.parentId ∧
      (row.isDeleted = true ↔ old.isDeleted = true ∨ old.ownerId = userId)
  only : ∀ row ∈ after.db.items, row.id ∈ (listOwnerItems past.db userId).map DriveItem.id ∨
    ((∃ old ∈ before.db.items, old.id = row.id) ∧
      (row.ownerId = userId → row.isDeleted = true))

theorem capturedIds (userId : Uuid) (past : System) :
    (captureEntries userId past).map SnapshotEntry.itemId =
      (listOwnerItems past.db userId).map DriveItem.id := by
  rw [captureEntries, List.map_map]
  rfl

theorem recaptured_of_restore {outcome : RestoreOutcome}
    (found : getSnapshot sys.db userId snapshot.id = some snapshot)
    (captured : ∀ {entry}, entry ∈ listAllEntries sys.db snapshot.id ↔
      entry ∈ captureEntries userId past)
    (survives : SurvivesSafety userId snapshot sys)
    (runs : restore userId snapshot.id .whole .exactMirror sys = .ok (some outcome, after)) :
    Recaptured userId past sys after := by
  have rows := restore_rows found runs
  have remaining : remainingEntries userId snapshot sys = listAllEntries sys.db snapshot.id :=
    if_pos survives
  have entries : restoredEntries userId snapshot .whole sys =
      listAllEntries sys.db snapshot.id := by
    have selected := restoredEntries_selected userId snapshot .whole sys
    rw [remaining] at selected
    exact (Except.ok.inj selected).symm
  have ids : ∀ itemId, itemId ∈ restoredIds userId snapshot .whole sys ↔
      itemId ∈ (listOwnerItems past.db userId).map DriveItem.id := by
    intro itemId
    rw [← capturedIds, restoredIds, entries, List.mem_map, List.mem_map]
    simp only [captured]
  have trashes : ∀ old : DriveItem, old.id ∉ (listOwnerItems past.db userId).map DriveItem.id →
      (Trashes userId snapshot .whole .exactMirror sys old ↔
        old.ownerId = userId ∧ old.isDeleted = false) := by
    intro old outside
    constructor
    · exact fun mirrored => ⟨mirrored.owned, mirrored.live⟩
    · intro both
      have absent : old.id ∉ (remainingEntries userId snapshot sys).map SnapshotEntry.itemId := by
        rw [remaining, ← entries]
        exact fun listed => outside ((ids old.id).mp listed)
      exact ⟨rfl, both.1, both.2, absent, .inl rfl⟩
  constructor
  case live =>
    intro item member
    have entryMem : capture past.uuid4 (listOwnerItems past.db userId) item ∈
        restoredEntries userId snapshot .whole sys := by
      rw [entries, captured]
      exact List.mem_map_of_mem member
    have inPlace : placement userId snapshot .whole sys
        (capture past.uuid4 (listOwnerItems past.db userId) item) =
          capture past.uuid4 (listOwnerItems past.db userId) item := by
      apply placed_of_closed
      intro parentId named
      have isCaptured := (Option.filter_eq_some_iff.mp named).2
      exact (ids parentId).mpr (of_decide_eq_true isCaptured)
    have written := restoredRow_mem found runs entryMem
    have fields := @restoredRow_fields _ userId snapshot .whole sys
      (capture past.uuid4 (listOwnerItems past.db userId) item)
    rw [inPlace] at fields
    exact ⟨_, written, fields.1, fields.2.2.1, fields.2.2.2, fields.2.1⟩
  case rest =>
    intro old before outside
    have notRestored := mt (ids old.id).mp outside
    by_cases mine : old.ownerId = userId ∧ old.isDeleted = false
    · have trashed := (trashes old outside).mpr mine
      have member := (rows _).mpr (.inr (.inl ⟨old, before, notRestored, trashed, rfl⟩))
      exact ⟨_, member, rfl, rfl, rfl, fun _ => .inr mine.1, fun _ => rfl⟩
    · have spared := mt (trashes old outside).mp mine
      have member := (rows old).mpr (.inr (.inr ⟨before, notRestored, spared⟩))
      apply Exists.intro old
      apply And.intro member
      apply And.intro rfl
      apply And.intro rfl
      apply And.intro rfl
      apply Iff.intro .inl
      intro either
      rcases either with deleted | owned
      · exact deleted
      · exact Bool.eq_true_of_not_eq_false fun live => mine ⟨owned, live⟩
  case only =>
    intro row member
    rcases (rows row).mp member with ⟨entry, entryMem, rfl⟩ | ⟨old, before, _, _, rfl⟩ |
      ⟨before, outside, spared⟩
    · rw [(restoredRow_fields entry).1]
      exact .inl ((ids _).mp (List.mem_map_of_mem entryMem))
    · exact .inr ⟨⟨old, before, rfl⟩, fun _ => rfl⟩
    · have notCaptured := mt (ids row.id).mpr outside
      apply Or.inr
      apply And.intro ⟨row, before, rfl⟩
      intro owned
      by_contra notTrashed
      exact spared ((trashes row notCaptured).mpr
        ⟨owned, Bool.eq_false_of_not_eq_true notTrashed⟩)

/-! ## No flush is refused -/

/-- The rows are those of `past` with their names, some of them moved to the root. -/
def Softened (past : ItemTable) (rows : List DriveItem) : Prop :=
  ∀ row ∈ rows, ∃ old ∈ past, row.id = old.id ∧ row.ownerId = old.ownerId ∧
    row.name = old.name ∧ row.isDeleted = old.isDeleted ∧
    (row.parentId = old.parentId ∨ row.parentId = none)

/-- The entry leaves its live item where it is or moves it to the root. -/
def Softens (userId : Uuid) (past : ItemTable) (entry : SnapshotEntry) : Prop :=
  ∃ old ∈ past, entry.itemId = old.id ∧ userId = old.ownerId ∧ entry.name = old.name ∧
    old.isDeleted = false ∧ (entry.parentItemId = old.parentId ∨ entry.parentItemId = none)

theorem Softened.slotsFree {items : ItemTable} {rows : List DriveItem}
    (softened : Softened items rows) (distinct : (rows.map DriveItem.id).Nodup) :
    rows.Pairwise fun left right => ¬ SameSlot left right := by
  rw [slotsFree_iff distinct]
  intro left leftMem right rightMem same
  rcases softened left leftMem with ⟨leftOld, leftOldMem, leftId, leftOwner, leftName, leftLive,
    leftParent⟩
  rcases softened right rightMem with ⟨rightOld, rightOldMem, rightId, rightOwner, rightName,
    rightLive, rightParent⟩
  rcases same with ⟨isLive, alsoLive, owner, nested, parent, name⟩
  have leftStays : left.parentId = leftOld.parentId := leftParent.resolve_right nested
  have rightStays : right.parentId = rightOld.parentId := rightParent.resolve_right (parent ▸ nested)
  have sameSlot : SameSlot leftOld rightOld :=
    ⟨leftLive ▸ isLive, rightLive ▸ alsoLive, leftOwner ▸ rightOwner ▸ owner,
      leftStays ▸ nested, leftStays ▸ rightStays ▸ parent, leftName ▸ rightName ▸ name⟩
  rw [leftId, rightId]
  exact (slotsFree_iff items.nodup).mp items.slotsFree leftOld leftOldMem rightOld rightOldMem
    sameSlot

theorem Softened.upsert {items middle : ItemTable} {entry : SnapshotEntry}
    (softened : Softened items middle.rows) (softens : Softens userId items entry)
    (now : Timestamp) : Softened items (upsertRows now userId entry middle) := by
  intro row member
  rcases mem_upsertRows.mp member with rfl | ⟨earlier, _⟩
  · rcases softens with ⟨old, oldMem, sameId, owner, name, live, parent⟩
    rcases written_fields now userId middle entry with ⟨isId, isParent, isName, _, _, _, isLive⟩
    have isOwner : (written now userId middle entry).ownerId = old.ownerId := by
      rcases @Identified.written_owner _ now userId middle entry with
        ⟨item, itemMem, itemId, itemOwner, _⟩ | ⟨_, isOwner, _⟩
      · rcases softened item itemMem with ⟨source, sourceMem, sourceId, sourceOwner, _⟩
        have same : source = old :=
          ItemTable.eq_of_id_eq sourceMem oldMem (sourceId.symm.trans (itemId.trans sameId))
        exact itemOwner.trans (sourceOwner.trans (same ▸ rfl))
      · exact isOwner.trans owner
    exact ⟨old, oldMem, isId.trans sameId, isOwner, isName.trans name, isLive.trans live.symm,
      isParent ▸ parent⟩
  · exact softened row earlier

theorem softened_flushes {items : ItemTable} {now : Timestamp} :
    ∀ {entries : List SnapshotEntry} {middle : ItemTable}, Softened items middle.rows →
      (∀ entry ∈ entries, Softens userId items entry) →
      ∀ rows ∈ upsertFlushes now userId entries middle,
        rows.Pairwise fun left right => ¬ SameSlot left right
  | [], _, _, _, rows, member => by cases member
  | entry :: rest, middle, softened, softens, rows, member => by
      have next := softened.upsert (softens entry List.mem_cons_self) now
      rw [upsertFlushes] at member
      rcases List.mem_cons.mp member with rfl | later
      · exact next.slotsFree upsertRows_nodup
      · cases runs : upsertItem now userId entry middle with
        | error error =>
            rw [runs] at later
            cases later
        | ok after =>
            rw [runs] at later
            have isRows : after.rows = upsertRows now userId entry middle :=
              flush_ok ((upsertItem_eq now userId entry middle).symm.trans runs)
            exact softened_flushes (isRows ▸ next)
              (fun other member => softens other (List.mem_cons_of_mem _ member)) rows later

/-- Restoring a snapshot over the drive it was taken of is never refused. -/
theorem restore_capture_runs (same : sys.db.items = past.db.items)
    (found : getSnapshot sys.db userId snapshot.id = some snapshot)
    (captured : ∀ {entry}, entry ∈ listAllEntries sys.db snapshot.id ↔
      entry ∈ captureEntries userId past)
    (survives : SurvivesSafety userId snapshot sys) :
    ∃ outcome after, restore userId snapshot.id .whole .exactMirror sys =
      .ok (some outcome, after) := by
  rcases (restoreApplies_iff_survives found .whole .exactMirror).mpr survives with
    ⟨target, selected, ⟨outcome, after, runs, _⟩ | ⟨error, _, refused⟩⟩
  · exact ⟨outcome, after, runs⟩
  · cases selected
    rw [upsertAll, ← forEach_map (upsertItem sys.now userId)] at refused
    have softens : ∀ entry ∈ placedEntries userId sys (listAllEntries sys.db snapshot.id),
        Softens userId sys.db.items entry ∧
          ∀ parentId ∈ entry.parentItemId, parentId ∈ sys.db.items.rows.map DriveItem.id := by
      intro entry member
      rcases List.mem_map.mp member with ⟨original, among, rfl⟩
      have isCaptured := captured.mp ((perm_parentsFirst _).mem_iff.mp among)
      rcases List.mem_map.mp isCaptured with ⟨item, itemMem, rfl⟩
      rcases mem_listOwnerItems.mp itemMem with ⟨inPast, owned, live⟩
      have hangs : ∀ top, (placed ((listAllEntries sys.db snapshot.id).map SnapshotEntry.itemId)
          ((listAllItems sys.db userId).map DriveItem.id)
          (capture past.uuid4 (listOwnerItems past.db userId) item)).parentItemId = some top →
          item.parentId = some top ∧ top ∈ (listOwnerItems past.db userId).map DriveItem.id := by
        intro top step
        rcases Option.filter_eq_some_iff.mp (placed_parent step) with ⟨isParent, isCaptured⟩
        exact ⟨isParent, of_decide_eq_true isCaptured⟩
      constructor
      · apply Exists.intro item
        apply And.intro (same ▸ inPast)
        apply And.intro (placed_itemId _ _ _)
        apply And.intro owned.symm
        apply And.intro (placed_fields _ _ _).1
        apply And.intro live
        cases step : (placed ((listAllEntries sys.db snapshot.id).map SnapshotEntry.itemId)
          ((listAllItems sys.db userId).map DriveItem.id)
          (capture past.uuid4 (listOwnerItems past.db userId) item)).parentItemId with
        | none => exact .inr rfl
        | some top => exact .inl (hangs top step).1.symm
      · intro parentId step
        rcases List.mem_map.mp (hangs parentId step).2 with ⟨folder, folderMem, rfl⟩
        rw [same]
        exact List.mem_map_of_mem (mem_listOwnerItems.mp folderMem).1
    have runs : ∃ after, forEach (upsertItem sys.now userId)
        (placedEntries userId sys (listAllEntries sys.db snapshot.id)) sys.db.items =
          .ok after := by
      apply upserts_run (TopDown.of_known fun entry member => (softens entry member).2)
        (fun _ known => known)
      · intro entry member
        rcases (softens entry member).1 with ⟨old, oldMem, _, _, name, _⟩
        rw [name]
        exact (sys.db.items.fits old oldMem).1
      · apply softened_flushes _ fun entry member => (softens entry member).1
        exact fun row member => ⟨row, member, rfl, rfl, rfl, rfl, .inl rfl⟩
    rcases runs with ⟨after, runs⟩
    cases refused.symm.trans runs

/-! ## There and back -/

/-- Every item has the name and the deleted flag it had, and the parent it had unless it
is a live item of the user in a folder that is none. -/
structure SameDrive (userId : Uuid) (before after : System) : Prop where
  kept : ∀ old ∈ before.db.items, ∃ row ∈ after.db.items, row.id = old.id ∧
    row.name = old.name ∧ row.isDeleted = old.isDeleted ∧
    row.parentId = if old.ownerId = userId ∧ old.isDeleted = false then
      capturedParent userId before.db old else old.parentId
  only : ∀ row ∈ after.db.items, ∃ old ∈ before.db.items, old.id = row.id

/-- The user's items that were live have their names and captured parents, those that
were deleted are, and no other item of the user is live. -/
structure Undone (userId : Uuid) (before after : System) : Prop where
  kept : ∀ old ∈ before.db.items, old.ownerId = userId → ∃ row ∈ after.db.items,
    row.id = old.id ∧ row.isDeleted = old.isDeleted ∧
    (old.isDeleted = false → row.name = old.name ∧
      row.parentId = capturedParent userId before.db old)
  only : ∀ row ∈ after.db.items, row.ownerId = userId → row.isDeleted = false →
    ∃ old ∈ before.db.items, old.id = row.id ∧ old.ownerId = userId ∧ old.isDeleted = false

theorem Recaptured.sameDrive (same : sys.db.items = past.db.items)
    (recaptured : Recaptured userId past sys after) : SameDrive userId past after := by
  constructor
  case kept =>
    intro old member
    by_cases mine : old.ownerId = userId ∧ old.isDeleted = false
    · rcases recaptured.live old (mem_listOwnerItems.mpr ⟨member, mine⟩) with
        ⟨row, rowMem, sameId, name, live, parent⟩
      rw [if_pos mine]
      exact ⟨row, rowMem, sameId, name, live.trans mine.2.symm, parent⟩
    · have outside : old.id ∉ (listOwnerItems past.db userId).map DriveItem.id := by
        intro listed
        rcases List.mem_map.mp listed with ⟨other, otherMem, sameId⟩
        rcases mem_listOwnerItems.mp otherMem with ⟨otherItem, otherMine⟩
        exact mine (ItemTable.eq_of_id_eq otherItem member sameId ▸ otherMine)
      rcases recaptured.rest old (same ▸ member) outside with
        ⟨row, rowMem, sameId, name, parent, deleted⟩
      rw [if_neg mine]
      have flag : row.isDeleted = old.isDeleted := by
        rw [Bool.eq_iff_iff, deleted]
        constructor
        · intro either
          rcases either with isDeleted | owned
          · exact isDeleted
          · exact Bool.eq_true_of_not_eq_false fun live => mine ⟨owned, live⟩
        · exact .inl
      exact ⟨row, rowMem, sameId, name, flag, parent⟩
  case only =>
    intro row member
    rcases recaptured.only row member with listed | ⟨⟨old, before, sameId⟩, _⟩
    · rcases List.mem_map.mp listed with ⟨old, oldMem, sameId⟩
      exact ⟨old, (mem_listOwnerItems.mp oldMem).1, sameId⟩
    · exact ⟨old, same ▸ before, sameId⟩

/-- A restore takes no row away and leaves every row its owner. -/
theorem restore_owners {snapshotId : Uuid} {outcome : RestoreOutcome}
    (found : getSnapshot sys.db userId snapshotId = some snapshot)
    (runs : restore userId snapshotId scope mode sys = .ok (some outcome, after))
    {old : DriveItem} (member : old ∈ sys.db.items) :
    ∃ row ∈ after.db.items, row.id = old.id ∧ row.ownerId = old.ownerId := by
  have rows := restore_rows found runs
  by_cases restored : old.id ∈ restoredIds userId snapshot scope sys
  · rcases List.mem_map.mp restored with ⟨entry, entryMem, sameId⟩
    have written := restoredRow_mem found runs entryMem
    have isId := (@restoredRow_fields _ userId snapshot scope sys entry).1
    apply Exists.intro _
    apply And.intro written
    apply And.intro (isId.trans sameId)
    rcases @Identified.written_owner _ sys.now userId sys.db.items
      (placement userId snapshot scope sys entry) with ⟨item, itemMem, itemId, owner, _⟩ | ⟨absent, _⟩
    · have same : item = old := ItemTable.eq_of_id_eq itemMem member
        (itemId.trans ((placed_itemId _ _ _).trans sameId))
      exact owner.trans (same ▸ rfl)
    · exact absurd ((placed_itemId _ _ _).trans sameId).symm (absent old member)
  · by_cases trashed : Trashes userId snapshot scope mode sys old
    · exact ⟨_, (rows _).mpr (.inr (.inl ⟨old, member, restored, trashed, rfl⟩)), rfl, rfl⟩
    · exact ⟨old, (rows old).mpr (.inr (.inr ⟨member, restored, trashed⟩)), rfl, rfl⟩

theorem restore_found {snapshotId : Uuid} {outcome : RestoreOutcome}
    (runs : restore userId snapshotId scope mode sys = .ok (some outcome, after)) :
    ∃ snapshot, getSnapshot sys.db userId snapshotId = some snapshot ∧
      outcome.preRestoreSnapshotId = (safetySnapshot userId snapshot sys).id := by
  cases found : getSnapshot sys.db userId snapshotId with
  | none =>
      simp only [restore, found, pure_eq_ok, Prod.mk.injEq, reduceCtorEq, false_and] at runs
  | some snapshot =>
      apply Exists.intro snapshot
      apply And.intro rfl
      rcases safety_guarded found with ⟨guarded, creates, guard⟩
      simp only [restore, found, creates, bind_eq_ok, pure_eq_ok, Prod.mk.injEq] at runs
      rcases runs with ⟨_, created, result, applied, isOutcome, _⟩
      cases created
      simp only [applySnapshot, bind_eq_ok, pure_eq_ok] at applied
      rcases applied with ⟨_, _, _, _, _, _, rfl⟩
      exact (congrArg RestoreOutcome.preRestoreSnapshotId (Option.some.inj isOutcome)).symm

theorem undone_of_restores {snapshotId : Uuid} {outcome : RestoreOutcome}
    {result : Option RestoreOutcome} {changed undone : System}
    (first : restore userId snapshotId scope mode sys = .ok (some outcome, changed))
    (second : restore userId outcome.preRestoreSnapshotId .whole .exactMirror changed =
      .ok (result, undone)) :
    result.isSome ∧ Undone userId sys undone := by
  rcases restore_found first with ⟨snapshot, found, isSafety⟩
  rcases restore_ok found first with ⟨guarded, target, middle, restored⟩
  rw [isSafety] at second
  have thereGuarded := safety_found restored.creates
  have there : getSnapshot changed.db userId (safetySnapshot userId snapshot sys).id =
      some (safetySnapshot userId snapshot sys) := by
    rw [restored.frame]
    exact thereGuarded
  have captured : ∀ {entry},
      entry ∈ listAllEntries changed.db (safetySnapshot userId snapshot sys).id ↔
        entry ∈ captureEntries userId sys := by
    intro entry
    rw [restored.frame]
    exact create_entries restored.creates thereGuarded
  cases result with
  | none =>
      simp only [restore, there, bind_eq_ok, pure_eq_ok, Prod.mk.injEq, reduceCtorEq,
        false_and, and_false, exists_false] at second
  | some outcome =>
      have recaptured := recaptured_of_restore there captured
        (safety_survives userId snapshot sys changed) second
      apply And.intro rfl
      constructor
      case kept =>
        intro old member mine
        cases isOld : old.isDeleted with
        | false =>
            rcases recaptured.live old (mem_listOwnerItems.mpr ⟨member, mine, isOld⟩) with
              ⟨row, rowMem, sameId, name, live, parent⟩
            exact ⟨row, rowMem, sameId, live, fun _ => ⟨name, parent⟩⟩
        | true =>
            rcases restore_owners found first member with ⟨row, rowMem, sameId, owner⟩
            have outside : row.id ∉ (listOwnerItems sys.db userId).map DriveItem.id := by
              intro listed
              rcases List.mem_map.mp listed with ⟨other, otherMem, otherId⟩
              rcases mem_listOwnerItems.mp otherMem with ⟨otherItem, _, live⟩
              have same := ItemTable.eq_of_id_eq otherItem member (otherId.trans sameId)
              cases isOld.symm.trans (same ▸ live)
            rcases recaptured.rest row rowMem outside with ⟨last, lastMem, lastId, _, _, deleted⟩
            exact ⟨last, lastMem, lastId.trans sameId, deleted.mpr (.inr (owner.trans mine)),
              fun live => absurd live Bool.noConfusion⟩
      case only =>
        intro row member mine live
        rcases recaptured.only row member with listed | ⟨_, deleted⟩
        · rcases List.mem_map.mp listed with ⟨old, oldMem, sameId⟩
          rcases mem_listOwnerItems.mp oldMem with ⟨oldItem, oldMine, oldLive⟩
          exact ⟨old, oldItem, sameId, oldMine, oldLive⟩
        · cases live.symm.trans (deleted mine)

/-- A snapshot restored over the drive it was taken of leaves it as it was, and the
safety snapshot of a restore takes the restore back. -/
theorem restore_reversible (sys : System) :
    (∀ {userId trigger label pinned snapshot captured},
      create userId trigger label pinned sys = .ok (snapshot, captured) →
      getSnapshot captured.db userId snapshot.id = some snapshot →
      SurvivesSafety userId snapshot captured →
      ∃ outcome after, restore userId snapshot.id .whole .exactMirror captured =
          .ok (some outcome, after) ∧ SameDrive userId sys after) ∧
    ∀ {userId snapshotId scope mode outcome changed result undone},
      restore userId snapshotId scope mode sys = .ok (some outcome, changed) →
      restore userId outcome.preRestoreSnapshotId .whole .exactMirror changed =
        .ok (result, undone) →
      result.isSome ∧ Undone userId sys undone := by
  constructor
  · intro userId trigger label pinned snapshot captured creates found survives
    rcases create_work userId trigger label pinned sys with ⟨_, same, work⟩
    cases creates.symm.trans same
    have entries : ∀ {entry}, entry ∈ listAllEntries captured.db _ ↔
        entry ∈ captureEntries userId sys := create_entries creates found
    rcases restore_capture_runs work.items found entries survives with ⟨outcome, after, runs⟩
    exact ⟨outcome, after, runs,
      (recaptured_of_restore found entries survives runs).sameDrive work.items⟩
  · exact undone_of_restores

end Undo

/-! ## A folder left in a trashed folder

`a` lies in `Work`, and `Work` goes to the trash. -/

section LeftBehind

attribute [local instance] smallPlatform

private def leaveBehind : List Op :=
  [.createFolder 1 none "Work", .createFolder 1 (some 10) "a", .trashItem 1 10]

private def leftBehind : System := afterFirstDay leaveBehind

private def leftSnapshot : Snapshot := newSnapshot 1 .manual "weekly" false leftBehind

private def leftCaptured : System :=
  match create 1 .manual "weekly" false leftBehind with
  | .ok (_, captured) => captured
  | .error _ => leftBehind

private def wholeRestored (snapshotId : Uuid) (sys : System) : System :=
  match restore 1 snapshotId .whole .exactMirror sys with
  | .ok (_, after) => after
  | .error _ => sys

private def broughtBack : System := wholeRestored 12 leftCaptured

private def takenBack : System := wholeRestored 13 broughtBack

theorem restore_reversible_leftBehind :
    (∃ outcome after, restore 1 12 .whole .exactMirror leftCaptured = .ok (some outcome, after) ∧
      SameDrive 1 leftBehind after) ∧
    (∃ outcome, restore 1 13 .whole .exactMirror broughtBack = .ok (outcome, takenBack) ∧
      outcome.isSome ∧ Undone 1 leftCaptured takenBack) := by
  have creates : create 1 .manual "weekly" false leftBehind = .ok (leftSnapshot, leftCaptured) :=
    rfl
  have first : restore 1 12 .whole .exactMirror leftCaptured =
      .ok (some ⟨13, 1, 0⟩, broughtBack) := rfl
  have second : restore 1 13 .whole .exactMirror broughtBack =
      .ok (some ⟨14, 1, 0⟩, takenBack) := rfl
  constructor
  · exact (restore_reversible leftBehind).1 creates (by decide) (by decide)
  · exact ⟨_, second, (restore_reversible leftCaptured).2 first second⟩

/-- The restore moves `a` from the trashed folder to the root. -/
theorem leftBehind_moved :
    Op.commitAll leaveBehind firstDay = .ok leftBehind ∧
    create 1 .manual "weekly" false leftBehind = .ok (leftSnapshot, leftCaptured) ∧
    restore 1 12 .whole .exactMirror leftCaptured = .ok (some ⟨13, 1, 0⟩, broughtBack) ∧
    (∃ row ∈ leftBehind.db.items.rows,
      row.id = 11 ∧ row.isDeleted = false ∧ row.parentId = some 10) ∧
    ∃ row ∈ broughtBack.db.items.rows,
      row.id = 11 ∧ row.isDeleted = false ∧ row.parentId = none :=
  ⟨rfl, rfl, rfl, by decide, by decide⟩

end LeftBehind

end SnapshotService

end CloudDrive
