import CloudDrive.Snapshot.Mirroring

/-! # Scheduled snapshots

`run_scheduled_snapshot` compares the live items with the entries of the newest
snapshot. The two signatures of an unchanged drive agree when the capture has changed no
parent. -/

namespace CloudDrive

open Outcome Relational Execution

namespace SnapshotService

open SnapshotRepository

section Scheduling

variable [Platform]

/-! ## The schedule -/

/-- `_period_start`: the beginning of the period of `now`, counted from midnight. -/
def periodStart (now : Timestamp) (intervalMinutes : Int) : Timestamp :=
  let interval := (max 1 intervalMinutes).toNat
  let midnight := now - now % 86400
  let elapsed := (now - midnight) / 60
  midnight + elapsed / interval * interval * 60

/-- `_ItemSig`: id, parent, name, type and checksum, an empty one if there is none. -/
abbrev ItemSig := Uuid × Option Uuid × String × ItemType × String

def itemsSignature (items : List DriveItem) : Finset ItemSig :=
  (items.map fun item =>
    (item.id, item.parentId, item.name, item.itemType, item.checksumSha256.getD "")).toFinset

def entriesSignature (entries : List SnapshotEntry) : Finset ItemSig :=
  (entries.map fun entry => (entry.itemId, entry.parentItemId, entry.name, entry.itemType,
    entry.checksumSha256.getD "")).toFinset

/-- `run_scheduled_snapshot`: the schedule is on, the period has no snapshot yet, the
drive is not empty and not the same as at the newest snapshot. -/
def runScheduledSnapshot (userId : Uuid) (now : Timestamp) (sys : System) :
    Except ServiceError (Option Snapshot × System) := do
  let settings := getSettings sys.db userId
  let newest := (listSnapshots sys.db userId).head?
  let items := listOwnerItems sys.db userId
  if settings.scheduleEnabled = false then
    pure (none, sys)
  else if newest.any fun last =>
      periodStart now settings.scheduleIntervalMinutes ≤ last.createdAt then
    pure (none, sys)
  else if items = [] then
    pure (none, sys)
  else if newest.any fun last =>
      itemsSignature items = entriesSignature (listAllEntries sys.db last.id) then
    pure (none, sys)
  else do
    let (snapshot, sys) ← create userId .scheduled "Scheduled" false sys
    pure (some snapshot, sys)

/-! ## Folders have no checksum -/

/-- No folder carries a checksum, in the drive or in a snapshot. -/
structure FoldersPlain (db : Database) : Prop where
  items : ∀ row ∈ db.items, row.itemType = .folder → row.checksumSha256 = none
  entries : ∀ entry ∈ db.entries, entry.itemType = .folder → entry.checksumSha256 = none

namespace FoldersPlain

variable {before after : System}

/-- The rows that are there were there, and so were the entries. -/
theorem of_sub (plain : FoldersPlain before.db)
    (items : ∀ row ∈ after.db.items, row ∈ before.db.items)
    (entries : after.db.entries = before.db.entries) : FoldersPlain after.db :=
  ⟨fun row member => plain.items row (items row member), entries ▸ plain.entries⟩

/-- One row is new. -/
theorem of_created (plain : FoldersPlain before.db) {item : DriveItem}
    (isPlain : item.itemType = .folder → item.checksumSha256 = none)
    (items : ∀ row ∈ after.db.items, row ∈ before.db.items ∨ row = item)
    (entries : after.db.entries = before.db.entries) : FoldersPlain after.db := by
  constructor
  case items =>
    intro row member
    rcases items row member with earlier | rfl
    · exact plain.items row earlier
    · exact isPlain
  case entries => exact entries ▸ plain.entries

theorem of_replaced (plain : FoldersPlain before.db) {items : ItemTable} {old new : DriveItem}
    (replaced : ItemTable.Replaced before.db.items items old new)
    (content : SameContent new old) : FoldersPlain (before.withItems items).db := by
  constructor
  case items =>
    intro row member isFolder
    rcases (replaced.rows row).mp member with rfl | ⟨earlier, _⟩
    · rw [content.checksumSha256]
      exact plain.items old replaced.member (content.itemType ▸ isFolder)
    · exact plain.items row earlier isFolder
  case entries => exact plain.entries

theorem of_fileCreated (plain : FoldersPlain before.db) {userId : Uuid}
    {parentId : Option Uuid} {file : StoredFile} {key : StorageKey} {stream : List Content}
    {item : DriveItem} (created : FileCreated userId parentId file item
      (Storage.saveStream key stream before.drawn) after) : FoldersPlain after.db := by
  have isFile : item.itemType = .folder → item.checksumSha256 = none := by
    rw [created.itemType]
    nofun
  have entries : after.db.entries = before.db.entries := by
    rcases created.frame with ⟨_, _, _, frame⟩
    rw [frame]
    rfl
  exact plain.of_created isFile (fun row => (created.items row).mp) entries

theorem of_sessionWork (plain : FoldersPlain before.db)
    (work : UploadSessionService.SessionWork before after) : FoldersPlain after.db := by
  rcases work.frame with ⟨_, _, frame⟩
  rw [frame]
  exact ⟨plain.items, plain.entries⟩

theorem of_permanentDelete (plain : FoldersPlain before.db) {userId itemId : Uuid}
    (runs : TrashService.permanentDelete userId itemId before = .ok after) :
    FoldersPlain after.db := by
  rcases TrashService.permanentDelete_ok runs with
    ⟨_, _, _, _, _, _, _, reclaimed, middle, erased, _, rfl⟩
  rcases TrashService.settle_eq userId reclaimed middle with ⟨users, same⟩
  rw [same]
  exact ⟨fun row member => plain.items row ((erased.items row).mp member).1,
    erased.entries ▸ plain.entries⟩

theorem of_snapshotWork (plain : FoldersPlain before.db) {userId : Uuid}
    {added : List Snapshot} {captured : List SnapshotEntry}
    (captures : Captures userId added captured before)
    (work : SnapshotWork added captured before after) : FoldersPlain after.db := by
  rcases work.pruned with ⟨gone, _, entries⟩
  constructor
  case items => exact work.items ▸ plain.items
  case entries =>
    intro entry member isFolder
    rcases ((entries entry).mp member).1 with earlier | isNew
    · exact plain.entries entry earlier isFolder
    · rcases List.mem_map.mp (captures.entries isNew) with ⟨item, _, rfl⟩
      have isFolder : item.itemType = .folder := isFolder
      simp only [capture, isFolder, reduceCtorEq, if_false]

theorem of_restore (plain : FoldersPlain before.db) (identified : Identified before)
    {userId snapshotId : Uuid} {scope : Scope} {mode : SubtreeMode}
    {outcome : Option RestoreOutcome}
    (runs : restore userId snapshotId scope mode before = .ok (outcome, after)) :
    FoldersPlain after.db := by
  cases found : getSnapshot before.db userId snapshotId with
  | none =>
      rw [restore_missing found runs]
      exact plain
  | some snapshot =>
      rcases restore_ok found runs with ⟨guarded, target, middle, restored⟩
      rcases create_work userId .preRestore (safetyLabel snapshot) false before with
        ⟨_, creates, work⟩
      cases restored.creates.symm.trans creates
      have guardedPlain := plain.of_snapshotWork (.new userId _ _ _ before) work
      have guardedIds := identified.of_snapshotWork (.new userId _ _ _ before) work
      rcases restoreTarget_runs scope (listAllEntries_nodup guarded.db snapshot.id)
        with ⟨_, selects, targetSub, distinct⟩
      cases restored.selects.symm.trans selects
      have middlePlain : ∀ row ∈ middle, row.itemType = .folder → row.checksumSha256 = none := by
        intro row member isFolder
        rcases (upsertAll_ok distinct restored.upserts row).mp member with
          ⟨entry, entryMem, rfl⟩ | ⟨earlier, _⟩
        · have inSnapshot := (List.mem_filter.mp (targetSub entryMem)).1
          rcases guardedIds.recorded entry inSnapshot with ⟨owner, isSnapshot, same⟩
          have byRow := Identified.written_identified restored (targetSub entryMem)
            (target.map SnapshotEntry.itemId) ((listAllItems before.db userId).map DriveItem.id)
            _ rfl
          rw [written_id, placed_itemId] at byRow
          have sameType := (guardedIds.unique byRow (.entry inSnapshot isSnapshot same rfl rfl rfl)).2
          rw [(written_fields _ _ _ _).2.2.2.2.2.1, (placed_fields _ _ _).2.2.2]
          exact guardedPlain.entries entry inSnapshot (sameType ▸ isFolder)
        · exact plain.items row earlier isFolder
      constructor
      case items =>
        intro row member
        rcases (restored.items row).mp member with ⟨old, oldMem, rfl, _⟩ | ⟨inMiddle, _⟩
        · exact middlePlain old oldMem
        · exact middlePlain row inMiddle
      case entries =>
        rw [restored.frame]
        exact guardedPlain.entries

theorem of_effect {op : Op} (plain : FoldersPlain before.db) (identified : Identified before)
    (effect : op.Effect before after) : FoldersPlain after.db := by
  cases effect with
  | nothing => exact plain
  | folderCreated writable added =>
      exact plain.of_created (fun _ => rfl) (fun row => (ItemTable.mem_of_add added).mp) rfl
  | rewritten replaced content _ => exact plain.of_replaced replaced content
  | moved runs =>
      rcases DriveService.move_ok runs with ⟨item, editable, rfl, _, items, changed, rfl⟩
      exact plain.of_replaced (ItemTable.change_replaced editable.member rfl changed)
        ⟨rfl, rfl, rfl, rfl, rfl⟩
  | deleted runs => exact plain.of_permanentDelete runs
  | emptied runs =>
      exact forEach_keeps (fun sys : System => FoldersPlain sys.db)
        (fun _ _ _ middle step => middle.of_permanentDelete step) plain runs
  | shared => exact plain.of_sub (fun row member => member) rfl
  | unshared => exact plain.of_sub (fun row member => member) rfl
  | uploaded _ _ created => exact plain.of_fileCreated created
  | sessionOpened => exact plain.of_sub (fun row member => member) rfl
  | sessionWorked work _ => exact plain.of_sessionWork work
  | completed _ _ _ _ created work _ => exact (plain.of_fileCreated created).of_sessionWork work
  | snapshotsWorked captures work => exact plain.of_snapshotWork captures work
  | snapshotRestored runs => exact plain.of_restore identified runs
  | collected => exact plain.of_sub (fun row member => member) rfl
  | ticked => exact plain.of_sub (fun row member => member) rfl

theorem of_untouched {sys : System} (untouched : Untouched sys) : FoldersPlain sys.db := by
  constructor
  case items =>
    intro row member
    rw [untouched.items] at member
    cases member
  case entries =>
    intro entry member
    rw [untouched.entries] at member
    cases member

theorem of_history {start final : System} {events : List (Event System Op)}
    (history : History start events final) : FoldersPlain final.db := by
  have both : Identified final ∧ FoldersPlain final.db := by
    apply history.2.keeps ⟨history.1.identified, of_untouched history.1⟩
    intro before after keeps commits
    have effect := Op.effect commits
    exact ⟨keeps.1.of_effect effect, keeps.2.of_effect keeps.1 effect⟩
  exact both.2

end FoldersPlain

/-! ## The signatures -/

/-- The entry says of the item what a signature tells. -/
structure Describes (entry : SnapshotEntry) (item : DriveItem) : Prop where
  itemId : entry.itemId = item.id
  parent : entry.parentItemId = item.parentId
  name : entry.name = item.name
  itemType : entry.itemType = item.itemType
  checksum : entry.checksumSha256.getD "" = item.checksumSha256.getD ""

omit [Platform] in
theorem signature_eq_iff {entry : SnapshotEntry} {item : DriveItem} :
    ((entry.itemId, entry.parentItemId, entry.name, entry.itemType,
        entry.checksumSha256.getD "") : ItemSig) =
      (item.id, item.parentId, item.name, item.itemType, item.checksumSha256.getD "") ↔
    Describes entry item := by
  simp only [Prod.mk.injEq]
  constructor
  · intro same
    exact ⟨same.1, same.2.1, same.2.2.1, same.2.2.2.1, same.2.2.2.2⟩
  · intro describes
    exact ⟨describes.itemId, describes.parent, describes.name, describes.itemType,
      describes.checksum⟩

omit [Platform] in
/-- The signatures agree when every item has an entry that describes it and every entry
describes an item. -/
theorem itemsSignature_eq_iff {items : List DriveItem} {entries : List SnapshotEntry} :
    itemsSignature items = entriesSignature entries ↔
      (∀ item ∈ items, ∃ entry ∈ entries, Describes entry item) ∧
      ∀ entry ∈ entries, ∃ item ∈ items, Describes entry item := by
  have itemsMem : ∀ sig, sig ∈ itemsSignature items ↔ ∃ item ∈ items,
      (item.id, item.parentId, item.name, item.itemType, item.checksumSha256.getD "") = sig := by
    intro sig
    rw [itemsSignature, List.mem_toFinset, List.mem_map]
  have entriesMem : ∀ sig, sig ∈ entriesSignature entries ↔ ∃ entry ∈ entries,
      (entry.itemId, entry.parentItemId, entry.name, entry.itemType,
        entry.checksumSha256.getD "") = sig := by
    intro sig
    rw [entriesSignature, List.mem_toFinset, List.mem_map]
  constructor
  · intro same
    constructor
    · intro item member
      rcases (entriesMem _).mp (same ▸ (itemsMem _).mpr ⟨item, member, rfl⟩) with
        ⟨entry, entryMem, sameSig⟩
      exact ⟨entry, entryMem, signature_eq_iff.mp sameSig⟩
    · intro entry member
      rcases (itemsMem _).mp (same ▸ (entriesMem _).mpr ⟨entry, member, rfl⟩) with
        ⟨item, itemMem, sameSig⟩
      exact ⟨item, itemMem, signature_eq_iff.mp sameSig.symm⟩
  · intro both
    apply Finset.ext
    intro sig
    rw [itemsMem, entriesMem]
    constructor
    · intro ofItem
      rcases ofItem with ⟨item, member, rfl⟩
      rcases both.1 item member with ⟨entry, entryMem, describes⟩
      exact ⟨entry, entryMem, signature_eq_iff.mpr describes⟩
    · intro ofEntry
      rcases ofEntry with ⟨entry, member, rfl⟩
      rcases both.2 entry member with ⟨item, itemMem, describes⟩
      exact ⟨item, itemMem, (signature_eq_iff.mpr describes).symm⟩

omit [Platform] in
theorem itemsSignature_eq_map (items : List DriveItem) :
    itemsSignature items = ((items.map itemSignature).map fun
      (itemId, parentId, name, itemType, checksum) =>
        (itemId, parentId, name, itemType, checksum.getD "")).toFinset := by
  rw [List.map_map]
  rfl

/-- Every live item of the user is at the root or in a live item of the user. -/
def ParentsCaptured (userId : Uuid) (db : Database) : Prop :=
  ∀ item ∈ listOwnerItems db userId, ∀ parentId ∈ item.parentId,
    parentId ∈ (listOwnerItems db userId).map DriveItem.id

omit [Platform] in
theorem capture_describes {snapshotId : Uuid} {captured : List DriveItem} {item : DriveItem}
    (plain : item.itemType = .folder → item.checksumSha256 = none) :
    Describes (capture snapshotId captured item) item ↔
      ∀ parentId ∈ item.parentId, parentId ∈ captured.map DriveItem.id := by
  have kept : (capture snapshotId captured item).parentItemId = item.parentId ↔
      ∀ parentId ∈ item.parentId, parentId ∈ captured.map DriveItem.id := by
    show (item.parentId.filter fun parentId => parentId ∈ captured.map DriveItem.id) = _ ↔ _
    cases item.parentId with
    | none => exact ⟨fun _ => nofun, fun _ => rfl⟩
    | some parentId => simp [Option.filter_some]
  rw [← kept]
  constructor
  · exact Describes.parent
  · intro parent
    have checksum : (capture snapshotId captured item).checksumSha256 = item.checksumSha256 := by
      cases type : item.itemType with
      | folder => simp [capture, type, plain type]
      | file => simp [capture, type]
    exact ⟨rfl, parent, rfl, rfl, congrArg (fun value => value.getD "") checksum⟩

/-- The capture of a drive has the signature of the drive when it kept every parent. -/
theorem captureEntries_signature_iff {userId : Uuid} {past : System}
    (plain : FoldersPlain past.db) :
    itemsSignature (listOwnerItems past.db userId) =
      entriesSignature (captureEntries userId past) ↔ ParentsCaptured userId past.db := by
  have isPlain : ∀ item ∈ listOwnerItems past.db userId,
      item.itemType = .folder → item.checksumSha256 = none :=
    fun item member => plain.items item (List.mem_filter.mp member).1
  rw [itemsSignature_eq_iff]
  constructor
  · intro same item member
    rcases same.1 item member with ⟨entry, entryMem, describes⟩
    rcases List.mem_map.mp entryMem with ⟨other, otherMem, rfl⟩
    have sameItem : other = item := ItemTable.eq_of_id_eq (List.mem_filter.mp otherMem).1
      (List.mem_filter.mp member).1 describes.itemId
    rw [sameItem] at describes
    exact (capture_describes (isPlain item member)).mp describes
  · intro captured
    have describes : ∀ item ∈ listOwnerItems past.db userId,
        Describes (capture past.uuid4 (listOwnerItems past.db userId) item) item :=
      fun item member => (capture_describes (isPlain item member)).mpr (captured item member)
    constructor
    · exact fun item member => ⟨_, List.mem_map_of_mem member, describes item member⟩
    · intro entry entryMem
      rcases List.mem_map.mp entryMem with ⟨item, member, rfl⟩
      exact ⟨item, member, describes item member⟩

/-! ## The scheduled run -/

/-- A run that is not due, or finds the signature of the newest snapshot, skips. -/
theorem runScheduledSnapshot_skips {userId : Uuid} {now : Timestamp} {sys : System}
    {newest : Snapshot} (isNewest : (listSnapshots sys.db userId).head? = some newest)
    (skips : (getSettings sys.db userId).scheduleEnabled = false ∨
      itemsSignature (listOwnerItems sys.db userId) =
        entriesSignature (listAllEntries sys.db newest.id)) :
    runScheduledSnapshot userId now sys = .ok (none, sys) := by
  rcases skips with disabled | same
  · simp only [runScheduledSnapshot, disabled, if_true]
    rfl
  · simp only [runScheduledSnapshot, isNewest, Option.any_some, same]
    split_ifs <;> first | rfl | simp_all

/-- A due run that finds another signature takes a snapshot. -/
theorem runScheduledSnapshot_takes {userId : Uuid} {now : Timestamp} {sys : System}
    {newest : Snapshot} (isNewest : (listSnapshots sys.db userId).head? = some newest)
    (enabled : (getSettings sys.db userId).scheduleEnabled = true)
    (due : newest.createdAt <
      periodStart now (getSettings sys.db userId).scheduleIntervalMinutes)
    (notEmpty : listOwnerItems sys.db userId ≠ [])
    (different : itemsSignature (listOwnerItems sys.db userId) ≠
      entriesSignature (listAllEntries sys.db newest.id)) :
    ∃ snapshot after, runScheduledSnapshot userId now sys = .ok (some snapshot, after) := by
  rcases create_work userId .scheduled "Scheduled" false sys with ⟨after, creates, _⟩
  apply Exists.intro _
  apply Exists.intro after
  have notYet : ¬ periodStart now (getSettings sys.db userId).scheduleIntervalMinutes ≤
      newest.createdAt := Nat.not_le_of_lt due
  simp only [runScheduledSnapshot, isNewest, Option.any_some, enabled, notYet, different,
    notEmpty, creates, decide_false, Bool.true_eq_false, Bool.false_eq_true, if_false,
    bind_eq_ok, pure_eq_ok]
  exact ⟨_, rfl, rfl⟩

omit [Platform] in
/-- Every time is followed by the beginning of a later period. -/
theorem exists_periodStart_gt (time : Nat) (intervalMinutes : Int) :
    ∃ now : Nat, time ≤ now ∧ time < periodStart now intervalMinutes := by
  apply Exists.intro ((time + 1) * 86400)
  have midnight : (time + 1) * 86400 % 86400 = 0 := Nat.mul_mod_left _ _
  rw [periodStart, midnight]
  constructor
  · omega
  · apply Nat.lt_of_lt_of_le _ (Nat.le_add_right _ _)
    show time < (time + 1) * 86400 - 0
    omega

/-- When nothing has changed since the newest snapshot, every later scheduled run skips
exactly when the schedule is off or the snapshot kept the parent of every item. -/
theorem runScheduledSnapshot_skips_iff {start past sys : System}
    {events : List (Event System Op)} (history : History start events past) {userId : Uuid}
    {newest : Snapshot} (isNewest : (listSnapshots sys.db userId).head? = some newest)
    (captured : listAllEntries sys.db newest.id = captureEntries userId past)
    (unchanged : ∀ signature, signature ∈ (listOwnerItems sys.db userId).map itemSignature ↔
      signature ∈ (listOwnerItems past.db userId).map itemSignature) :
    ((∀ now, newest.createdAt ≤ now →
        runScheduledSnapshot userId now sys = .ok (none, sys)) ↔
      (getSettings sys.db userId).scheduleEnabled = false ∨ ParentsCaptured userId past.db) ∧
    (itemsSignature (listOwnerItems sys.db userId) =
        entriesSignature (listAllEntries sys.db newest.id) ↔ ParentsCaptured userId past.db) ∧
    ∀ items entries, itemsSignature items = entriesSignature entries ↔
      (∀ item ∈ items, ∃ entry ∈ entries, Describes entry item) ∧
      ∀ entry ∈ entries, ∃ item ∈ items, Describes entry item := by
  have sameItems : itemsSignature (listOwnerItems sys.db userId) =
      itemsSignature (listOwnerItems past.db userId) := by
    apply Finset.ext
    intro sig
    rw [itemsSignature_eq_map, itemsSignature_eq_map, List.mem_toFinset, List.mem_toFinset,
      List.mem_map, List.mem_map]
    simp only [unchanged]
  have signatures : itemsSignature (listOwnerItems sys.db userId) =
      entriesSignature (listAllEntries sys.db newest.id) ↔ ParentsCaptured userId past.db := by
    rw [sameItems, captured]
    exact captureEntries_signature_iff (.of_history history)
  apply And.intro _ ⟨signatures, fun _ _ => itemsSignature_eq_iff⟩
  constructor
  · intro skips
    by_contra neither
    rw [not_or, Bool.not_eq_false] at neither
    rcases exists_periodStart_gt newest.createdAt
      (getSettings sys.db userId).scheduleIntervalMinutes with ⟨now, later, due⟩
    have notEmpty : listOwnerItems sys.db userId ≠ [] := by
      intro empty
      rw [empty] at unchanged
      have nothing : listOwnerItems past.db userId = [] := by
        rw [← List.map_eq_nil_iff (f := itemSignature)]
        exact List.eq_nil_iff_forall_not_mem.mpr fun signature member =>
          List.not_mem_nil ((unchanged signature).mpr member)
      apply neither.2
      rw [ParentsCaptured, nothing]
      exact fun _ member => absurd member List.not_mem_nil
    rcases runScheduledSnapshot_takes isNewest neither.1 due notEmpty
      (mt signatures.mp neither.2) with ⟨snapshot, after, takes⟩
    cases (skips now later).symm.trans takes
  · intro skips now _
    exact runScheduledSnapshot_skips isNewest (skips.imp_right signatures.mpr)

end Scheduling

/-! ## A folder in a trashed folder

`Work` goes to the trash, its subfolder `a` stays. -/

section Orphan

attribute [local instance] smallPlatform

private def trashWork : List Op :=
  [.createFolder 1 none "Work", .createFolder 1 (some 10) "a", .trashItem 1 10]

private def captureDrive : List Op := [.createSnapshot 1 .manual "weekly" false]

private def workTrashed : System := afterFirstDay trashWork

private def workCaptured : System := afterFirstDay (trashWork ++ captureDrive)

private def keepWork : List Op :=
  [.createFolder 1 none "Work", .createFolder 1 (some 10) "a"]

private def workKept : System := afterFirstDay keepWork

private def keptCaptured : System := afterFirstDay (keepWork ++ captureDrive)

private def keptSnapshot : Snapshot := newSnapshot 1 .manual "weekly" false workKept

theorem runScheduledSnapshot_skips_iff_workKept :
    ((∀ now, keptSnapshot.createdAt ≤ now →
        runScheduledSnapshot 1 now keptCaptured = .ok (none, keptCaptured)) ↔
      (getSettings keptCaptured.db 1).scheduleEnabled = false ∨
        ParentsCaptured 1 workKept.db) ∧
    (itemsSignature (listOwnerItems keptCaptured.db 1) =
        entriesSignature (listAllEntries keptCaptured.db keptSnapshot.id) ↔
      ParentsCaptured 1 workKept.db) ∧
    ∀ items entries, itemsSignature items = entriesSignature entries ↔
      (∀ item ∈ items, ∃ entry ∈ entries, Describes entry item) ∧
      ∀ entry ∈ entries, ∃ item ∈ items, Describes entry item := by
  have history : History firstDay (Op.trace keepWork firstDay) workKept :=
    firstDay_trace (by simp [keepWork, Op.Offered]) rfl
  have same : (listOwnerItems keptCaptured.db 1).map itemSignature =
      (listOwnerItems workKept.db 1).map itemSignature := rfl
  apply runScheduledSnapshot_skips_iff history (by decide) (by decide)
  intro signature
  rw [same]

/-- The subfolder that is left has its parent in the drive and none in the snapshot, so
the drive counts as changed in every period. -/
theorem orphan_captured_again :
    Op.commitAll trashWork firstDay = .ok workTrashed ∧
    Op.commitAll captureDrive workTrashed = .ok workCaptured ∧
    (listSnapshots workCaptured.db 1).head? =
      some (newSnapshot 1 .manual "weekly" false workTrashed) ∧
    listAllEntries workCaptured.db 12 = captureEntries 1 workTrashed ∧
    listOwnerItems workCaptured.db 1 = listOwnerItems workTrashed.db 1 ∧
    (runScheduledSnapshot 1 7200 workCaptured).map (fun result => result.1.isSome) =
      .ok true ∧
    itemsSignature (listOwnerItems workCaptured.db 1) ≠
      entriesSignature (listAllEntries workCaptured.db 12) := by
  have history : Op.commitAll trashWork firstDay = .ok workTrashed := rfl
  exact ⟨history, rfl, by decide, by decide, by decide, by decide, by decide⟩

end Orphan

end SnapshotService

end CloudDrive
