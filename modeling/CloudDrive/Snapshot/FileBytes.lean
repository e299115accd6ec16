import CloudDrive.Snapshot.Identity
import CloudDrive.Snapshot.Reparenting
import CloudDrive.Upload.UsedBytes

/-! # The counter across restores

`used_bytes` is the size of the files that a user has, in the trash or not, as long as every
file that comes into the drive with some content passes the counter. A restore that brings
back a file that was deleted for good does not, and a deletion gives the owner of the folder
the bytes of other people's files below it. -/

namespace CloudDrive

open Outcome Relational Execution Forest QuotaService SnapshotService SnapshotRepository

section FileBytes

variable [Platform]

/-! ## Files and their versions -/

/-- What an item adds to the files of a user. -/
def fileWeight (userId : Uuid) (item : DriveItem) : Nat :=
  if (decide (item.ownerId = userId) && decide (item.itemType = .file)) = true then
    item.sizeBytes else 0

/-- The `size_bytes` of the user's files, trashed ones included, added up. -/
def fileBytes (db : Database) (userId : Uuid) : Nat :=
  ((db.items.rows.filter fun item =>
    decide (item.ownerId = userId) && decide (item.itemType = .file)).map
      DriveItem.sizeBytes).sum

theorem fileBytes_eq (db : Database) (userId : Uuid) :
    fileBytes db userId = db.items.toTable.total (fileWeight userId) :=
  Table.sum_filter _ _ _

omit [Platform] in
theorem fileWeight_mine {userId : Uuid} {item : DriveItem} (mine : item.ownerId = userId)
    (isFile : item.itemType = .file) : fileWeight userId item = item.sizeBytes := by
  rw [fileWeight, if_pos (by rw [decide_eq_true mine, decide_eq_true isFile]; rfl)]

omit [Platform] in
theorem fileWeight_other {userId : Uuid} {item : DriveItem} (other : item.ownerId ≠ userId) :
    fileWeight userId item = 0 := by
  rw [fileWeight, if_neg (by rw [decide_eq_false other]; exact Bool.false_ne_true)]

omit [Platform] in
theorem fileWeight_folder {userId : Uuid} {item : DriveItem} (isFolder : item.itemType ≠ .file) :
    fileWeight userId item = 0 := by
  rw [fileWeight, if_neg (by rw [decide_eq_false isFolder, Bool.and_false]; exact Bool.false_ne_true)]

omit [Platform] in
theorem fileWeight_le (userId : Uuid) (item : DriveItem) :
    fileWeight userId item ≤ item.sizeBytes := by
  rw [fileWeight]
  split
  · exact Nat.le_refl _
  · exact Nat.zero_le _

/-- The size of the versions of a file. -/
def versionsOf (db : Database) (itemId : Uuid) : Nat :=
  ((db.versions.rows.filter fun version => decide (version.fileId = itemId)).map
    FileVersion.sizeBytes).sum

def versionWeight (itemId : Uuid) (version : FileVersion) : Nat :=
  if decide (version.fileId = itemId) = true then version.sizeBytes else 0

theorem versionsOf_eq (db : Database) (itemId : Uuid) :
    versionsOf db itemId = db.versions.total (versionWeight itemId) :=
  Table.sum_filter _ _ _

theorem versionsOf_none {db : Database} {itemId : Uuid}
    (none : ∀ version ∈ db.versions, version.fileId ≠ itemId) : versionsOf db itemId = 0 := by
  have empty : db.versions.rows.filter (fun version => decide (version.fileId = itemId)) = [] := by
    apply List.filter_eq_nil_iff.mpr
    intro version member isOf
    exact none version member (of_decide_eq_true isOf)
  rw [versionsOf, empty]
  rfl

/-- Versions that are there before and after. -/
theorem versionsOf_congr {before after : Database} {itemId : Uuid}
    (same : ∀ version, version.fileId = itemId →
      (version ∈ after.versions ↔ version ∈ before.versions)) :
    versionsOf after itemId = versionsOf before itemId := by
  have matched : ∀ {left right : Database}, (∀ version, version.fileId = itemId →
      version ∈ left.versions → version ∈ right.versions) →
      versionsOf left itemId ≤ versionsOf right itemId := by
    intro left right sub
    rw [versionsOf_eq, versionsOf_eq]
    apply Table.total_le_of_matched
    intro version member weighs
    have isOf : version.fileId = itemId := by
      by_contra other
      exact weighs (by rw [versionWeight, decide_eq_false other, if_neg Bool.false_ne_true])
    exact ⟨version, sub version isOf member, rfl, Nat.le_refl _⟩
  apply Nat.le_antisymm
  · exact matched fun version isOf => (same version isOf).mp
  · exact matched fun version isOf => (same version isOf).mpr

/-! ## The size of an id -/

/-- A file, or a file of a snapshot, says how large `itemId` is. -/
inductive Weighs (db : Database) (itemId : Uuid) (bytes : Nat) : Prop
  | item {row : DriveItem} : row ∈ db.items → row.id = itemId → row.itemType = .file →
      row.sizeBytes = bytes → Weighs db itemId bytes
  | entry {row : SnapshotEntry} : row ∈ db.entries → row.itemId = itemId →
      row.itemType = .file → row.sizeBytes = bytes → Weighs db itemId bytes

/-- A file keeps its size for ever, in the drive and in the snapshots. -/
def Weighed (db : Database) : Prop :=
  ∀ {itemId : Uuid} {bytes other : Nat},
    Weighs db itemId bytes → Weighs db itemId other → bytes = other

/-- The books of a user: sizes are as recorded, a file has no more versions than it is large,
a file of the user has as much, and the counter is the size of the user's files. -/
structure Booked (userId : Uuid) (db : Database) : Prop where
  weighed : Weighed db
  files : VersionsOfFiles db
  within : ∀ item ∈ db.items, item.itemType = .file → versionsOf db item.id ≤ item.sizeBytes
  backed : ∀ item ∈ db.items, item.itemType = .file → item.ownerId = userId →
    versionsOf db item.id = item.sizeBytes
  used : ∀ user, db.users.find? userId = some user → user.usedBytes = fileBytes db userId

/-- Two rows of one file. -/
structure SameFile (new old : DriveItem) : Prop where
  id : new.id = old.id
  ownerId : new.ownerId = old.ownerId
  itemType : new.itemType = old.itemType
  sizeBytes : new.sizeBytes = old.sizeBytes

omit [Platform] in
theorem SameFile.weight {new old : DriveItem} (same : SameFile new old) (userId : Uuid) :
    fileWeight userId new = fileWeight userId old := by
  rw [fileWeight, same.ownerId, same.itemType, same.sizeBytes, fileWeight]

/-- The versions and the counters are as they were, and so are the files, but for files of a
size that is on record, which weigh nothing for the user. -/
structure Restocked (userId : Uuid) (before after : Database) : Prop where
  versions : after.versions = before.versions
  users : after.users = before.users
  entries : ∀ entry ∈ after.entries, entry.itemType = .file →
    Weighs before entry.itemId entry.sizeBytes
  items : ∀ item ∈ after.items, item.itemType = .file →
    (∃ old ∈ before.items, SameFile item old) ∨
      ((∀ old ∈ before.items, old.id ≠ item.id) ∧ Weighs before item.id item.sizeBytes ∧
        (item.ownerId = userId → item.sizeBytes = 0))
  still : ∀ old ∈ before.items, old.itemType = .file → ∃ item ∈ after.items, SameFile item old

theorem Booked.restocked {userId : Uuid} {before after : Database} (booked : Booked userId before)
    (restocked : Restocked userId before after) : Booked userId after := by
  have versions : ∀ itemId, versionsOf after itemId = versionsOf before itemId :=
    fun itemId => by rw [versionsOf, restocked.versions, versionsOf]
  have unversioned : ∀ {item : DriveItem}, (∀ old ∈ before.items, old.id ≠ item.id) →
      versionsOf before item.id = 0 := by
    intro item absent
    apply versionsOf_none
    intro version member isOf
    rcases booked.files version member with ⟨old, oldMem, isFile, _⟩
    exact absent old oldMem (isFile.trans isOf)
  have weighs : ∀ {itemId bytes}, Weighs after itemId bytes → Weighs before itemId bytes := by
    intro itemId bytes weighs
    rcases weighs with ⟨member, rfl, isFile, rfl⟩ | ⟨member, rfl, isFile, rfl⟩
    · rcases restocked.items _ member isFile with ⟨old, oldMem, same⟩ | ⟨_, recorded, _⟩
      · exact .item oldMem same.id.symm (same.itemType.symm.trans isFile) same.sizeBytes.symm
      · exact recorded
    · exact restocked.entries _ member isFile
  constructor
  case weighed => exact fun left right => booked.weighed (weighs left) (weighs right)
  case files =>
    intro version member
    rw [restocked.versions] at member
    rcases booked.files version member with ⟨old, oldMem, isOf, isFile⟩
    rcases restocked.still old oldMem isFile with ⟨item, itemMem, same⟩
    exact ⟨item, itemMem, same.id.trans isOf, same.itemType.trans isFile⟩
  case within =>
    intro item member isFile
    rw [versions]
    rcases restocked.items item member isFile with ⟨old, oldMem, same⟩ | ⟨absent, _⟩
    · rw [same.id, same.sizeBytes]
      exact booked.within old oldMem (same.itemType.symm.trans isFile)
    · rw [unversioned absent]
      exact Nat.zero_le _
  case backed =>
    intro item member isFile mine
    rw [versions]
    rcases restocked.items item member isFile with ⟨old, oldMem, same⟩ | ⟨absent, _, empty⟩
    · rw [same.id, same.sizeBytes]
      exact booked.backed old oldMem (same.itemType.symm.trans isFile)
        (same.ownerId.symm.trans mine)
    · rw [unversioned absent, empty mine]
  case used =>
    intro user found
    rw [restocked.users] at found
    rw [booked.used user found, fileBytes_eq, fileBytes_eq]
    have isFile : ∀ {item : DriveItem}, fileWeight userId item ≠ 0 → item.itemType = .file := by
      intro item heavy
      by_contra isFolder
      exact heavy (fileWeight_folder isFolder)
    apply Nat.le_antisymm
    · apply Table.total_le_of_matched
      intro old oldMem heavy
      rcases restocked.still old oldMem (isFile heavy) with ⟨item, itemMem, same⟩
      exact ⟨item, itemMem, same.id, (same.weight userId).ge⟩
    · apply Table.total_le_of_matched
      intro item member heavy
      rcases restocked.items item member (isFile heavy) with ⟨old, oldMem, same⟩ | ⟨_, _, empty⟩
      · exact ⟨old, oldMem, same.id.symm, (same.weight userId).le⟩
      · by_cases mine : item.ownerId = userId
        · have light := fileWeight_le userId item
          rw [empty mine] at light
          exact absurd (Nat.le_zero.mp light) heavy
        · exact absurd (fileWeight_other mine) heavy

/-! ## Requests that store and free nothing -/

omit [Platform] in
theorem SameFile.refl (item : DriveItem) : SameFile item item :=
  ⟨rfl, rfl, rfl, rfl⟩

theorem Restocked.of_items {userId : Uuid} {before after : Database}
    (versions : after.versions = before.versions) (users : after.users = before.users)
    (entries : ∀ entry ∈ after.entries, entry.itemType = .file →
      Weighs before entry.itemId entry.sizeBytes)
    (items : after.items = before.items) : Restocked userId before after where
  versions := versions
  users := users
  entries := entries
  items item member _ := .inl ⟨item, items ▸ member, SameFile.refl item⟩
  still old member _ := ⟨old, items ▸ member, SameFile.refl old⟩

theorem Restocked.of_frame {userId : Uuid} {before after : Database}
    (versions : after.versions = before.versions) (users : after.users = before.users)
    (entries : after.entries = before.entries) (items : after.items = before.items) :
    Restocked userId before after :=
  .of_items versions users (fun _ member isFile => .entry (entries ▸ member) rfl isFile rfl) items

theorem Restocked.replaced {userId : Uuid} {db : Database} {items : ItemTable}
    {old new : DriveItem} (replaced : ItemTable.Replaced db.items items old new)
    (content : SameContent new old) : Restocked userId db { db with items := items } where
  versions := rfl
  users := rfl
  entries entry member isFile := .entry member rfl isFile rfl
  items item member _ := by
    rcases (replaced.rows item).mp member with rfl | ⟨earlier, _⟩
    · exact .inl ⟨old, replaced.member, replaced.sameId, content.ownerId, content.itemType,
        content.sizeBytes⟩
    · exact .inl ⟨item, earlier, SameFile.refl item⟩
  still row member _ := by
    by_cases isOld : row.id = old.id
    · rw [ItemTable.eq_of_id_eq member replaced.member isOld]
      exact ⟨new, (replaced.rows new).mpr (.inl rfl), replaced.sameId, content.ownerId,
        content.itemType, content.sizeBytes⟩
    · exact ⟨row, (replaced.rows row).mpr (.inr ⟨member, isOld⟩), SameFile.refl row⟩

theorem Restocked.folder {userId : Uuid} {db : Database} {items : ItemTable} {folder : DriveItem}
    (added : db.items.add folder = .ok items) (isFolder : folder.itemType = .folder) :
    Restocked userId db { db with items := items } where
  versions := rfl
  users := rfl
  entries entry member isFile := .entry member rfl isFile rfl
  items item member isFile := by
    rcases (ItemTable.mem_of_add added).mp member with earlier | rfl
    · exact .inl ⟨item, earlier, SameFile.refl item⟩
    · rw [isFolder] at isFile
      cases isFile
  still old member _ := ⟨old, (ItemTable.mem_of_add added).mpr (.inl member), SameFile.refl old⟩

/-- The entries of a new snapshot record the sizes that the files have. -/
theorem weighs_captured {userId : Uuid} {sys : System} {entry : SnapshotEntry}
    (member : entry ∈ captureEntries userId sys) (isFile : entry.itemType = .file) :
    Weighs sys.db entry.itemId entry.sizeBytes := by
  rcases List.mem_map.mp member with ⟨item, itemMem, rfl⟩
  have inTable : item ∈ sys.db.items := (List.mem_filter.mp itemMem).1
  apply Weighs.item inTable rfl isFile
  exact (if_pos isFile).symm

theorem weighs_of_work {userId : Uuid} {added : List Snapshot} {captured : List SnapshotEntry}
    {before after : System} (captures : Captures userId added captured before)
    (work : SnapshotWork added captured before after) :
    ∀ entry ∈ after.db.entries, entry.itemType = .file →
      Weighs before.db entry.itemId entry.sizeBytes := by
  intro entry member isFile
  rcases work.pruned with ⟨gone, _, entries⟩
  rcases ((entries entry).mp member).1 with earlier | isNew
  · exact .entry earlier rfl isFile rfl
  · exact weighs_captured (captures.entries isNew) isFile

theorem Op.Effect.restocked {userId : Uuid} {op : Op} {before after : System}
    (effect : op.Effect before after) (uncharged : op.Uncharged) (noRestore : op.NoSnapshotRestore) :
    Restocked userId before.db after.db := by
  cases effect with
  | nothing => exact .of_frame rfl rfl rfl rfl
  | folderCreated _ added => exact .folder added rfl
  | rewritten replaced content _ => exact .replaced replaced content
  | moved moves =>
      rcases DriveService.move_ok moves with ⟨item, editable, rfl, _, items, changed, rfl⟩
      exact .replaced (ItemTable.change_replaced editable.member rfl changed)
        ⟨rfl, rfl, rfl, rfl, rfl⟩
  | deleted _ => exact uncharged.elim
  | emptied _ => exact uncharged.elim
  | shared _ _ _ _ _ => exact .of_frame rfl rfl rfl rfl
  | unshared _ => exact .of_frame rfl rfl rfl rfl
  | uploaded _ _ _ => exact uncharged.elim
  | sessionOpened _ _ _ _ => exact .of_frame rfl rfl rfl rfl
  | sessionWorked work _ =>
      rcases work.frame with ⟨_, _, frame⟩
      rw [frame]
      exact .of_frame rfl rfl rfl rfl
  | completed _ _ _ _ _ _ _ => exact uncharged.elim
  | snapshotsWorked captures work =>
      have weighs := weighs_of_work captures work
      rcases work.frame with ⟨_, _, _, frame⟩
      rw [frame] at weighs ⊢
      exact .of_items rfl rfl weighs rfl
  | snapshotRestored _ => exact noRestore.elim
  | collected _ => exact .of_frame rfl rfl rfl rfl
  | ticked => exact .of_frame rfl rfl rfl rfl

/-! ## New files -/

theorem createFile_booked {userId actorId : Uuid} {parentId : Option Uuid} {name : String}
    {file : StoredFile} {sys after : System} {item : DriveItem}
    (creates : createFile actorId parentId name file sys = .ok (item, after))
    (booked : Booked userId sys.db) : Booked userId after.db := by
  have created := createFile_ok creates
  rcases createFile_charges creates with ⟨users, _, size⟩
  have unused := created.fresh
  have entries : after.db.entries = sys.db.entries := by
    rcases created.frame with ⟨_, _, _, frame⟩
    rw [frame]
  have versions : ∀ itemId, versionsOf after.db itemId = versionsOf sys.db itemId +
      if decide (item.id = itemId) = true then file.content.length else 0 := by
    intro itemId
    rw [versionsOf_eq, versionsOf_eq]
    exact Table.total_added created.versions (fun member => unused.versions _ member rfl) _
  have earlier : ∀ old ∈ sys.db.items, versionsOf after.db old.id = versionsOf sys.db old.id := by
    intro old member
    rw [versions, decide_eq_false fun same => unused.items old member same.symm,
      if_neg Bool.false_ne_true, Nat.add_zero]
  have own : versionsOf after.db item.id = item.sizeBytes := by
    rw [versions, versionsOf_none unused.versions, decide_eq_true rfl, if_pos rfl, size,
      Nat.zero_add]
  have fresh : ∀ {bytes}, ¬ Weighs sys.db item.id bytes := by
    intro bytes weighs
    rcases weighs with ⟨member, same, _, _⟩ | ⟨member, same, _, _⟩
    · exact unused.items _ member same
    · exact unused.entryItems _ member same
  have weighs : ∀ {itemId bytes}, Weighs after.db itemId bytes →
      Weighs sys.db itemId bytes ∨ (itemId = item.id ∧ bytes = item.sizeBytes) := by
    intro itemId bytes weighs
    rcases weighs with ⟨member, rfl, isFile, rfl⟩ | ⟨member, same, isFile, rfl⟩
    · rcases (created.items _).mp member with old | rfl
      · exact .inl (.item old rfl isFile rfl)
      · exact .inr ⟨rfl, rfl⟩
    · exact .inl (.entry (entries ▸ member) same isFile rfl)
  constructor
  case weighed =>
    intro itemId bytes other left right
    rcases weighs left with leftOld | ⟨rfl, rfl⟩
    · rcases weighs right with rightOld | ⟨rfl, _⟩
      · exact booked.weighed leftOld rightOld
      · exact absurd leftOld fresh
    · rcases weighs right with rightOld | ⟨_, rfl⟩
      · exact absurd rightOld fresh
      · rfl
  case files =>
    intro version member
    rcases (created.versions version).mp member with old | rfl
    · rcases booked.files version old with ⟨row, rowMem, sameId, isFile⟩
      exact ⟨row, (created.items row).mpr (.inl rowMem), sameId, isFile⟩
    · exact ⟨item, (created.items item).mpr (.inr rfl), rfl, created.itemType⟩
  case within =>
    intro row member isFile
    rcases (created.items row).mp member with old | rfl
    · rw [earlier row old]
      exact booked.within row old isFile
    · exact own.le
  case backed =>
    intro row member isFile mine
    rcases (created.items row).mp member with old | rfl
    · rw [earlier row old]
      exact booked.backed row old isFile mine
    · exact own
  case used =>
    have added : fileBytes after.db userId = fileBytes sys.db userId + fileWeight userId item := by
      rw [fileBytes_eq, fileBytes_eq]
      exact Table.total_added created.items (fun member => unused.items item member rfl) _
    intro user found
    rw [users] at found
    by_cases mine : actorId = userId
    · have weight := fileWeight_mine (created.ownerId.trans mine) created.itemType
      rw [mine] at found
      cases search : sys.db.users.find? userId with
      | none =>
          rw [QuotaService.charged, Table.find?_map, search] at found
          cases found
      | some old =>
          rw [find_charged_self search, Option.some.injEq] at found
          rw [added, weight, size, ← found, ← booked.used old search]
    · rw [find_charged_other (Ne.symm mine)] at found
      rw [added, fileWeight_other (created.ownerId ▸ mine), Nat.add_zero]
      exact booked.used user found

/-! ## Deletions -/

open TrashService

/-- Every file with some content at or below `itemId` is the user's if the user deletes it,
and not the user's if somebody else does. -/
def TakesOwn (userId actorId itemId : Uuid) (db : Database) : Prop :=
  ∀ row ∈ db.items, row.itemType = .file → row.sizeBytes ≠ 0 →
    AtOrAbove db.items.parentOf row.id itemId → (row.ownerId = userId ↔ actorId = userId)

theorem TakesOwn.of_sub {userId actorId itemId : Uuid} {smaller db : Database}
    (own : TakesOwn userId actorId itemId db)
    (sub : ∀ row ∈ smaller.items, row ∈ db.items) : TakesOwn userId actorId itemId smaller := by
  intro row member isFile heavy path
  apply own row (sub row member) isFile heavy
  apply Relation.ReflTransGen.mono _ _ _ path
  intro node top step
  rcases ItemTable.parentOf_eq_some.mp step with ⟨child, childMem, sameId, named⟩
  exact ItemTable.parentOf_eq_some.mpr ⟨child, sub child childMem, sameId, named⟩

theorem deleteRow_frees {row : DriveItem} {reclaimed final : Reclaimed} {sys after : System}
    (runs : deleteRow row (reclaimed, sys) = .ok (final, after)) :
    final.freed =
      reclaimed.freed + if row.itemType = .file then versionsOf sys.db row.id else 0 := by
  simp only [deleteRow, bind_eq_ok, pure_eq_ok, Prod.mk.injEq] at runs
  rcases runs with ⟨_, _, rfl, rfl⟩
  split <;> rfl

/-- One row goes: what is freed and what the files are left with is what they were. -/
theorem deleteRow_balances {userId : Uuid} {row : DriveItem} {reclaimed final : Reclaimed}
    {sys after : System} (runs : deleteRow row (reclaimed, sys) = .ok (final, after))
    (member : row ∈ sys.db.items)
    (covered : row.itemType = .file → versionsOf sys.db row.id = fileWeight userId row) :
    final.freed + fileBytes after.db userId = reclaimed.freed + fileBytes sys.db userId := by
  have erased := (deleteRow_ok runs).1
  have gone : fileBytes sys.db userId = fileBytes after.db userId + fileWeight userId row := by
    rw [fileBytes_eq, fileBytes_eq]
    apply Table.total_added
    · intro other
      rw [ItemTable.mem_toTable, ItemTable.mem_toTable, erased.items, List.mem_singleton]
      constructor
      · intro among
        by_cases same : other.id = row.id
        · exact .inr (ItemTable.eq_of_id_eq among member same)
        · exact .inl ⟨among, same⟩
      · intro among
        rcases among with kept | rfl
        · exact kept.1
        · exact member
    · intro kept
      exact ((erased.items row).mp kept).2 (List.mem_singleton_self _)
  rw [deleteRow_frees runs]
  by_cases isFile : row.itemType = .file
  · rw [if_pos isFile, covered isFile, gone]
    omega
  · rw [if_neg isFile, gone, fileWeight_folder isFile]
    omega

/-- A row that is gone already frees nothing. -/
theorem deleteRow_absent {userId : Uuid} {row : DriveItem} {reclaimed final : Reclaimed}
    {sys after : System} (runs : deleteRow row (reclaimed, sys) = .ok (final, after))
    (absent : ∀ other ∈ sys.db.items, other.id ≠ row.id)
    (unversioned : ∀ version ∈ sys.db.versions, version.fileId ≠ row.id) :
    final.freed + fileBytes after.db userId = reclaimed.freed + fileBytes sys.db userId := by
  have erased := (deleteRow_ok runs).1
  have same : fileBytes after.db userId = fileBytes sys.db userId := by
    rw [fileBytes_eq, fileBytes_eq]
    apply Table.total_congr
    intro other
    rw [ItemTable.mem_toTable, ItemTable.mem_toTable, erased.items, List.mem_singleton]
    exact and_iff_left_of_imp (absent other)
  rw [deleteRow_frees runs, versionsOf_none unversioned, ite_self, same]
  rfl

/-- The rows of a subtree go one by one, each as it was before the first went. -/
theorem deleteRows_balances {userId : Uuid} {sys : System} :
    ∀ {rows : List DriveItem} {gone : List Uuid} {reclaimed final : Reclaimed}
    {middle after : System}, Erased gone sys middle →
    (∀ row ∈ rows, row ∈ sys.db.items ∧
      (row.itemType = .file → versionsOf sys.db row.id = fileWeight userId row)) →
    forEach deleteRow rows (reclaimed, middle) = .ok (final, after) →
    final.freed + fileBytes after.db userId = reclaimed.freed + fileBytes middle.db userId
  | [], _, _, _, _, _, _, _, runs => by
      cases runs
      rfl
  | row :: rest, gone, reclaimed, final, middle, after, erased, covered, runs => by
      rw [forEach_cons, bind_eq_ok] at runs
      rcases runs with ⟨⟨nextReclaimed, next⟩, first, later⟩
      rcases covered row List.mem_cons_self with ⟨member, coveredRow⟩
      have here : nextReclaimed.freed + fileBytes next.db userId =
          reclaimed.freed + fileBytes middle.db userId := by
        by_cases isGone : row.id ∈ gone
        · apply deleteRow_absent first
          · exact fun other among same => ((erased.items other).mp among).2 (same ▸ isGone)
          · exact fun version among same => ((erased.versions version).mp among).2 (same ▸ isGone)
        · apply deleteRow_balances first ((erased.items row).mpr ⟨member, isGone⟩)
          intro isFile
          rw [← coveredRow isFile]
          apply versionsOf_congr
          intro version isOf
          rw [erased.versions, isOf]
          exact and_iff_left isGone
      have rests := deleteRows_balances (erased.trans (deleteRow_ok first).1)
        (fun other among => covered other (List.mem_cons_of_mem _ among)) later
      exact rests.trans here

/-- The books without the rows that are gone. -/
theorem Booked.erased {userId : Uuid} {gone : List Uuid} {before after : Database}
    (booked : Booked userId before)
    (items : ∀ row, row ∈ after.items ↔ row ∈ before.items ∧ row.id ∉ gone)
    (versions : ∀ version, version ∈ after.versions ↔
      version ∈ before.versions ∧ version.fileId ∉ gone)
    (entries : after.entries = before.entries)
    (used : ∀ user, after.users.find? userId = some user →
      user.usedBytes = fileBytes after userId) : Booked userId after := by
  have weighs : ∀ {itemId bytes}, Weighs after itemId bytes → Weighs before itemId bytes := by
    intro itemId bytes weighs
    rcases weighs with ⟨member, same, isFile, rfl⟩ | ⟨member, same, isFile, rfl⟩
    · exact .item ((items _).mp member).1 same isFile rfl
    · exact .entry (entries ▸ member) same isFile rfl
  have kept : ∀ row ∈ after.items, versionsOf after row.id = versionsOf before row.id := by
    intro row member
    apply versionsOf_congr
    intro version isOf
    rw [versions, isOf]
    exact and_iff_left ((items row).mp member).2
  constructor
  case weighed => exact fun left right => booked.weighed (weighs left) (weighs right)
  case files =>
    intro version member
    rcases (versions version).mp member with ⟨earlier, stays⟩
    rcases booked.files version earlier with ⟨row, rowMem, isOf, isFile⟩
    exact ⟨row, (items row).mpr ⟨rowMem, isOf ▸ stays⟩, isOf, isFile⟩
  case within =>
    intro row member isFile
    rw [kept row member]
    exact booked.within row ((items row).mp member).1 isFile
  case backed =>
    intro row member isFile mine
    rw [kept row member]
    exact booked.backed row ((items row).mp member).1 isFile mine
  case used => exact used

theorem Booked.permanentDelete {userId actorId itemId : Uuid} {sys after : System}
    (booked : Booked userId sys.db) (own : TakesOwn userId actorId itemId sys.db)
    (runs : TrashService.permanentDelete actorId itemId sys = .ok after) :
    Booked userId after.db ∧ ∀ row ∈ after.db.items, row ∈ sys.db.items := by
  simp only [TrashService.permanentDelete, bind_eq_ok, orRaise_eq_ok, require_eq_ok,
    pure_eq_ok] at runs
  rcases runs with ⟨item, found, _, _, _, _, below, isBelow, ⟨reclaimed, middle⟩, deleted, rfl⟩
  rcases ItemTable.find?_eq_some.mp found with ⟨itemMem, isItem⟩
  have erased := (deleteRows_ok deleted).1
  have inSubtree : ∀ row ∈ below.reverse ++ [item],
      row ∈ sys.db.items ∧ AtOrAbove sys.db.items.parentOf row.id itemId := by
    intro row among
    rcases List.mem_append.mp among with isDeeper | isLast
    · rcases mem_descendants isBelow row (List.mem_reverse.mp isDeeper) with ⟨member, path⟩
      exact ⟨member, isItem ▸ path.to_reflTransGen⟩
    · rw [List.mem_singleton.mp isLast, isItem]
      exact ⟨itemMem, .refl⟩
  have users : (settle actorId reclaimed middle).db.users =
      QuotaService.charged actorId (· - reclaimed.freed) sys.db.users := by
    rw [settle_charges, erased.users]
  have same : (settle actorId reclaimed middle).db.items = middle.db.items ∧
      (settle actorId reclaimed middle).db.versions = middle.db.versions ∧
      (settle actorId reclaimed middle).db.entries = middle.db.entries := by
    rcases settle_eq actorId reclaimed middle with ⟨settled, equal⟩
    rw [equal]
    exact ⟨rfl, rfl, rfl⟩
  have items : ∀ row, row ∈ (settle actorId reclaimed middle).db.items ↔
      row ∈ sys.db.items ∧ row.id ∉ (below.reverse ++ [item]).map DriveItem.id := by
    rw [same.1]
    exact erased.items
  have total : fileBytes (settle actorId reclaimed middle).db userId = fileBytes middle.db userId := by
    rw [fileBytes, same.1, fileBytes]
  apply And.intro _ fun row member => ((items row).mp member).1
  apply booked.erased items (same.2.1 ▸ erased.versions) (same.2.2.trans erased.entries)
  intro user found
  rw [users] at found
  rw [total]
  by_cases mine : actorId = userId
  · -- The user deletes: what the rows hold is the user's, or nothing.
    have covered : ∀ row ∈ below.reverse ++ [item], row ∈ sys.db.items ∧
        (row.itemType = .file → versionsOf sys.db row.id = fileWeight userId row) := by
      intro row among
      rcases inSubtree row among with ⟨member, path⟩
      apply And.intro member
      intro isFile
      by_cases empty : row.sizeBytes = 0
      · have most := booked.within row member isFile
        have weight := fileWeight_le userId row
        omega
      · have isMine := (own row member isFile empty path).mpr mine
        rw [fileWeight_mine isMine isFile]
        exact booked.backed row member isFile isMine
    have balances : reclaimed.freed + fileBytes middle.db userId = fileBytes sys.db userId :=
      (deleteRows_balances (Erased.refl sys) covered deleted).trans (Nat.zero_add _)
    rw [mine] at found
    cases search : sys.db.users.find? userId with
    | none =>
        rw [QuotaService.charged, Table.find?_map, search] at found
        cases found
    | some old =>
        have used := booked.used old search
        rw [find_charged_self search, Option.some.injEq] at found
        rw [← found]
        show old.usedBytes - reclaimed.freed = _
        omega
  · -- Somebody else deletes: the files of the user stay, or are empty.
    rw [find_charged_other (Ne.symm mine)] at found
    rw [booked.used user found, fileBytes_eq, fileBytes_eq]
    apply Nat.le_antisymm
    · apply Table.total_le_of_matched
      intro row member heavy
      have stays : row.id ∉ (below.reverse ++ [item]).map DriveItem.id := by
        intro isGone
        rcases List.mem_map.mp isGone with ⟨other, among, sameId⟩
        rcases inSubtree other among with ⟨otherMem, path⟩
        have isRow : other = row := ItemTable.eq_of_id_eq otherMem member sameId
        rw [isRow] at path
        have isFile : row.itemType = .file := by
          by_contra isFolder
          exact heavy (fileWeight_folder isFolder)
        have full : row.sizeBytes ≠ 0 := fun empty => heavy (Nat.le_zero.mp
          (empty ▸ fileWeight_le userId row))
        exact heavy (fileWeight_other fun isMine => mine ((own row member isFile full path).mp isMine))
      exact ⟨row, (erased.items row).mpr ⟨member, stays⟩, rfl, Nat.le_refl _⟩
    · exact Table.total_le (fun row member => ((erased.items row).mp member).1) _

theorem Booked.emptyTrash {userId actorId : Uuid} {allDeleted : List DriveItem}
    {sys after : System} (booked : Booked userId sys.db)
    (own : ∀ item ∈ allDeleted, TakesOwn userId actorId item.id sys.db)
    (runs : TrashService.emptyTrash actorId allDeleted sys = .ok after) :
    Booked userId after.db := by
  have kept : Booked userId after.db ∧ ∀ row ∈ after.db.items, row ∈ sys.db.items := by
    apply forEach_keeps_mem (fun middle : System => Booked userId middle.db ∧
      ∀ row ∈ middle.db.items, row ∈ sys.db.items) _ _ runs
    · intro item member middle later kept deletes
      have among : item ∈ allDeleted := (List.mem_filter.mp member).1
      rcases kept.1.permanentDelete ((own item among).of_sub kept.2) deletes with ⟨still, sub⟩
      exact ⟨still, fun row rowMem => kept.2 row (sub row rowMem)⟩
    · exact ⟨booked, fun row member => member⟩
  exact kept.1

/-! ## Restores -/

/-- No file with some content comes back that has no row in the drive. -/
def RevivesEmpty (userId snapshotId : Uuid) (scope : Scope) (sys : System) : Prop :=
  ∀ snapshot, getSnapshot sys.db userId snapshotId = some snapshot →
    ∀ entry ∈ restoredEntries userId snapshot scope sys, entry.itemType = .file →
      entry.sizeBytes ≠ 0 → ∃ item ∈ sys.db.items, item.id = entry.itemId

/-- The row that a restore writes for an entry is the file that was there, or a new one of the
recorded size. -/
theorem written_file {actorId : Uuid} {snapshot : Snapshot} {sys : System} {entry placedEntry :
    SnapshotEntry} {now : Timestamp} (identified : Identified sys)
    (weighed : Weighed sys.db)
    (found : getSnapshot sys.db actorId snapshot.id = some snapshot)
    (member : entry ∈ listAllEntries sys.db snapshot.id)
    (sameId : placedEntry.itemId = entry.itemId)
    (sameType : placedEntry.itemType = entry.itemType)
    (sameSize : placedEntry.sizeBytes = entry.sizeBytes)
    (isFile : (written now actorId sys.db.items placedEntry).itemType = .file) :
    (∃ old ∈ sys.db.items,
      SameFile (written now actorId sys.db.items placedEntry) old) ∨
    ((∀ old ∈ sys.db.items, old.id ≠ entry.itemId) ∧ entry.itemType = .file ∧
      (written now actorId sys.db.items placedEntry).id = entry.itemId ∧
      (written now actorId sys.db.items placedEntry).ownerId = actorId ∧
      (written now actorId sys.db.items placedEntry).sizeBytes = entry.sizeBytes) := by
  rcases List.mem_filter.mp member with ⟨inTable, ofSnapshot⟩
  rcases getSnapshot_eq_some.mp found with ⟨isSnapshot, _, mine⟩
  cases search : sys.db.items.find? placedEntry.itemId with
  | none =>
      rw [written, search] at isFile ⊢
      have absent := ItemTable.find?_eq_none.mp search
      rw [sameId] at absent
      exact .inr ⟨absent, sameType.symm.trans isFile, sameId, rfl, sameSize⟩
  | some old =>
      rcases ItemTable.find?_eq_some.mp search with ⟨oldMem, isOld⟩
      rw [written, search] at isFile ⊢
      have oldFile : old.itemType = .file := isFile
      have oldId : old.id = entry.itemId := isOld.trans sameId
      have entryFile : entry.itemType = .file :=
        ((identified.unique (.item oldMem oldId rfl rfl)
          (.entry inTable isSnapshot (of_decide_eq_true ofSnapshot).symm rfl mine rfl)).2).symm.trans
            oldFile
      have size : old.sizeBytes = entry.sizeBytes :=
        weighed (.item oldMem oldId oldFile rfl) (.entry inTable rfl entryFile rfl)
      exact .inl ⟨old, oldMem, rfl, rfl, rfl, sameSize.trans size.symm⟩

theorem Booked.restore {userId actorId snapshotId : Uuid} {scope : Scope} {mode : SubtreeMode}
    {before after : System} {outcome : Option RestoreOutcome} (booked : Booked userId before.db)
    (identified : Identified before)
    (revives : actorId = userId → RevivesEmpty actorId snapshotId scope before)
    (runs : SnapshotService.restore actorId snapshotId scope mode before = .ok (outcome, after)) :
    Booked userId after.db := by
  cases found : getSnapshot before.db actorId snapshotId with
  | none => exact restore_missing found runs ▸ booked
  | some snapshot =>
      have isSnapshot : snapshot.id = snapshotId := (getSnapshot_eq_some.mp found).2.1
      rcases restore_ok found runs with ⟨guarded, target, middle, restored⟩
      rcases create_work actorId .preRestore (safetyLabel snapshot) false before with
        ⟨_, creates, work⟩
      cases restored.creates.symm.trans creates
      have weighs := weighs_of_work (.new actorId _ _ _ before) work
      rcases work.frame with ⟨_, _, _, frame⟩
      rcases restoreTarget_runs scope (listAllEntries_nodup guarded.db snapshot.id)
        with ⟨_, selects, _, distinct⟩
      cases restored.selects.symm.trans selects
      have isTarget := restored.guard.restoredEntries_eq restored.selects
      have middleRows := upsertAll_ok distinct restored.upserts
      have known : ∀ row ∈ middle, row.itemType = .file →
          (∃ old ∈ before.db.items, SameFile row old) ∨
            ((∀ old ∈ before.db.items, old.id ≠ row.id) ∧
              Weighs before.db row.id row.sizeBytes ∧
              (row.ownerId = userId → row.sizeBytes = 0)) := by
        intro row member isFile
        rcases (middleRows row).mp member with ⟨entry, entryMem, rfl⟩ | ⟨earlier, _⟩
        · have inSnapshot : entry ∈ listAllEntries before.db snapshot.id :=
            restoredEntries_sub actorId snapshot scope before (isTarget ▸ entryMem)
          rcases written_file identified booked.weighed (isSnapshot.symm ▸ found) inSnapshot
            (placed_itemId _ _ entry) (placed_itemType _ _ entry) (placed_fields _ _ entry).2.1
            isFile with same | ⟨absent, entryFile, sameId, owner, size⟩
          · exact .inl same
          · rw [sameId, owner, size]
            apply Or.inr
            apply And.intro absent
            apply And.intro (.entry (List.mem_filter.mp inSnapshot).1 rfl entryFile rfl)
            intro mine
            by_contra full
            rcases revives mine snapshot found entry (isTarget ▸ entryMem) entryFile full with
              ⟨item, itemMem, isItem⟩
            exact absent item itemMem isItem
        · exact .inl ⟨row, earlier, SameFile.refl row⟩
      have versions : after.db.versions = before.db.versions := by
        rw [restored.frame]
        show guarded.db.versions = _
        rw [frame]
      have users : after.db.users = before.db.users := by
        rw [restored.frame]
        show guarded.db.users = _
        rw [frame]
      have entries : after.db.entries = guarded.db.entries := by
        rw [restored.frame]
        rfl
      apply booked.restocked
      constructor
      case versions => exact versions
      case users => exact users
      case entries =>
        rw [entries]
        exact weighs
      case items =>
        intro row member isFile
        rcases (restored.items row).mp member with ⟨old, oldMem, rfl, _⟩ | ⟨inMiddle, _⟩
        · rcases known old oldMem isFile with ⟨earlier, earlierMem, same⟩ | new
          · exact .inl ⟨earlier, earlierMem, same.id, same.ownerId, same.itemType, same.sizeBytes⟩
          · exact .inr new
        · exact known row inMiddle isFile
      case still =>
        intro old oldMem oldFile
        have inMiddle : ∃ row ∈ middle, SameFile row old := by
          by_cases among : old.id ∈ target.map SnapshotEntry.itemId
          · rcases List.mem_map.mp among with ⟨entry, entryMem, sameId⟩
            have isWritten := (middleRows _).mpr (.inl ⟨entry, entryMem, rfl⟩)
            have isOld : before.db.items.find? (placed (target.map SnapshotEntry.itemId)
                ((listAllItems before.db actorId).map DriveItem.id) entry).itemId = some old := by
              rw [placed_itemId, sameId]
              exact ItemTable.find?_id oldMem
            rw [written, isOld] at isWritten
            rcases known _ isWritten oldFile with ⟨other, otherMem, same⟩ | ⟨absent, _⟩
            · rw [← ItemTable.eq_of_id_eq otherMem oldMem same.id.symm]
              exact ⟨_, isWritten, same⟩
            · exact absurd rfl (absent old oldMem)
          · exact ⟨old, (middleRows old).mpr (.inr ⟨oldMem, among⟩), SameFile.refl old⟩
        rcases inMiddle with ⟨row, rowMem, same⟩
        by_cases trashed : Mirrored mode scope (listAllEntries guarded.db snapshot.id) target
            actorId row
        · exact ⟨_, (restored.items _).mpr (.inl ⟨row, rowMem, rfl, trashed⟩), same.id,
            same.ownerId, same.itemType, same.sizeBytes⟩
        · exact ⟨row, (restored.items row).mpr (.inr ⟨rowMem, trashed⟩), same⟩

/-! ## Runs -/

/-- What is deleted for good has its content counted for whoever deletes it, and what is
restored has it counted still. -/
def Op.Balances (userId : Uuid) (before : System) : Op → Prop
  | .permanentDelete actorId itemId => TakesOwn userId actorId itemId before.db
  | .emptyTrash actorId allDeleted =>
      ∀ item ∈ allDeleted, TakesOwn userId actorId item.id before.db
  | .restoreSnapshot actorId snapshotId scope _ =>
      actorId = userId → RevivesEmpty actorId snapshotId scope before
  | _ => True

theorem Op.Commits.booked {userId : Uuid} {op : Op} {before after : System}
    (commits : op.Commits before after) (identified : Identified before)
    (balances : op.Balances userId before) (booked : Booked userId before.db) :
    Booked userId after.db := by
  have runs := commits.2
  have effect := Op.effect commits
  cases op with
  | uploadSimple actorId parentId filename stream sizeBytes mimeType =>
      simp only [Op.commit, UploadService.uploadSimple, bind_eq_ok, pure_eq_ok] at runs
      rcases runs with ⟨⟨item, _⟩, ⟨_, _, _, _, _, _, _, _, creates⟩, rfl⟩
      exact createFile_booked creates booked
  | completeSession actorId sessionId =>
      simp only [Op.commit, UploadSessionService.completeSession, Storage.concat,
        UploadSessionService.createItem, bind_eq_ok, pure_eq_ok] at runs
      rcases runs with ⟨⟨item, _⟩, ⟨session, _, _, _, _, _, ⟨content, _⟩, ⟨_, _, rfl, rfl⟩,
        ⟨stored, middle⟩, ⟨name, _, creates⟩, rfl, rfl⟩, rfl⟩
      rcases UploadSessionService.discardChunks_eq
        (UploadSessionService.listChunks before.db session.id) middle with ⟨rows, discards, _⟩
      rw [discards]
      have stores := createFile_booked creates booked
      exact stores.restocked (.of_frame rfl rfl rfl rfl)
  | permanentDelete actorId itemId => exact (booked.permanentDelete balances runs).1
  | emptyTrash actorId allDeleted => exact booked.emptyTrash balances runs
  | restoreSnapshot actorId snapshotId scope mode =>
      simp only [Op.commit, bind_eq_ok, pure_eq_ok] at runs
      rcases runs with ⟨⟨outcome, _⟩, runs, rfl⟩
      exact booked.restore identified balances runs
  | _ => exact booked.restocked (effect.restocked trivial trivial)

theorem Untouched.booked {userId : Uuid} {start : System} (untouched : Untouched start)
    (nothingUsed : ∀ user, start.db.users.find? userId = some user → user.usedBytes = 0) :
    Booked userId start.db := by
  constructor
  case weighed =>
    intro itemId bytes other left
    rcases left with ⟨member, _⟩ | ⟨member, _⟩
    · rw [untouched.items] at member
      cases member
    · rw [untouched.entries] at member
      cases member
  case files =>
    intro version member
    rw [untouched.versions] at member
    cases member
  case within =>
    intro item member
    rw [untouched.items] at member
    cases member
  case backed =>
    intro item member
    rw [untouched.items] at member
    cases member
  case used =>
    intro user found
    rw [fileBytes, untouched.items]
    exact nothingUsed user found

/-- From an empty drive on the counter is the size of the user's files in every state, if no
restore of the user brings back a file with content that was deleted for good, and no deletion
takes the content of one user's files for that of another. -/
theorem usedBytes_eq_fileBytes {userId : Uuid} {start final : System}
    {events : List (Event System Op)} (history : History start events final)
    (nothingUsed : ∀ user, start.db.users.find? userId = some user → user.usedBytes = 0)
    (balances : ∀ event ∈ events, event.action.Balances userId event.before) :
    ∀ user, final.db.users.find? userId = some user →
      user.usedBytes = fileBytes final.db userId := by
  have starts : Booked userId start.db ∧ Identified start :=
    ⟨history.1.booked nothingUsed, history.1.identified⟩
  have ends : Booked userId final.db ∧ Identified final := by
    apply history.2.keeps
    · exact starts
    · intro event member kept commits
      exact ⟨commits.booked kept.2 (balances event member) kept.1,
        kept.2.of_effect (Op.effect commits)⟩
  exact ends.1.used

/-- A file that a restore has brought back has no versions, so deleting it again frees
nothing. -/
theorem permanentDelete_revived {actorId itemId snapshotId : Uuid} {scope : Scope}
    {mode : SubtreeMode} {outcome : Option RestoreOutcome}
    {before deleted restored trashed after : System}
    (deletes : TrashService.permanentDelete actorId itemId before = .ok deleted)
    (restores : SnapshotService.restore actorId snapshotId scope mode deleted =
      .ok (outcome, restored))
    (trashes : TrashService.trashItem actorId itemId restored = .ok trashed)
    (isFile : ∀ item ∈ trashed.db.items, item.id = itemId → item.itemType = .file)
    (deletesAgain : TrashService.permanentDelete actorId itemId trashed = .ok after) :
    after.db.users = deleted.db.users := by
  have unversioned : ∀ version ∈ deleted.db.versions, version.fileId ≠ itemId := by
    rcases permanentDelete_ok deletes with
      ⟨item, _, rfl, _, _, below, _, reclaimed, middle, erased, _, rfl⟩
    rcases settle_eq actorId reclaimed middle with ⟨users, equal⟩
    rw [equal]
    intro version member isOf
    apply ((erased.versions version).mp member).2
    rw [isOf, List.map_append]
    exact List.mem_append_right _ (List.mem_singleton_self _)
  have kept : restored.db.versions = deleted.db.versions ∧
      restored.db.users = deleted.db.users := by
    cases found : getSnapshot deleted.db actorId snapshotId with
    | none => exact restore_missing found restores ▸ ⟨rfl, rfl⟩
    | some snapshot =>
        rcases restore_ok found restores with ⟨guarded, target, middle, applied⟩
        rcases create_work actorId .preRestore (safetyLabel snapshot) false deleted with
          ⟨_, creates, work⟩
        cases applied.creates.symm.trans creates
        rcases work.frame with ⟨_, _, _, frame⟩
        rw [applied.frame]
        show guarded.db.versions = _ ∧ guarded.db.users = _
        rw [frame]
        exact ⟨rfl, rfl⟩
  have marked : trashed.db.versions = restored.db.versions ∧
      trashed.db.users = restored.db.users := by
    rcases TrashService.trashItem_ok trashes with ⟨_, _, _, _, _, items, _, rfl⟩
    exact ⟨rfl, rfl⟩
  simp only [TrashService.permanentDelete, bind_eq_ok, orRaise_eq_ok, require_eq_ok,
    pure_eq_ok] at deletesAgain
  rcases deletesAgain with
    ⟨item, found, _, _, _, _, below, isBelow, ⟨reclaimed, middle⟩, goes, rfl⟩
  rcases ItemTable.find?_eq_some.mp found with ⟨itemMem, isItem⟩
  rw [descendants, if_pos (isFile item itemMem isItem)] at isBelow
  cases pure_eq_ok.mp isBelow
  rw [List.reverse_nil, List.nil_append, forEach_cons, bind_eq_ok] at goes
  rcases goes with ⟨⟨last, final⟩, goes, done⟩
  cases done
  have frees := deleteRow_frees goes
  rw [versionsOf_none (marked.1 ▸ kept.1 ▸ isItem ▸ unversioned), ite_self] at frees
  have freed : reclaimed.freed = 0 := frees
  have erased := (deleteRow_ok goes).1
  rw [settle_charges, freed, QuotaService.charged_zero, erased.users, marked.2, kept.2]

end FileBytes

/-! ## A file that comes back

Two bytes are uploaded and captured, deleted for good, and restored. -/

section Small

attribute [local instance] smallPlatform

private def keptThenDeleted : List Op :=
  [.uploadSimple 1 none "a" [[65, 66]] 2 none, .createSnapshot 1 .manual "kept" false,
    .trashItem 1 11, .restoreSnapshot 1 12 .whole .exactMirror, .trashItem 1 11,
    .permanentDelete 1 11]

theorem usedBytes_eq_fileBytes_firstDay :
    ∃ final, Op.commitAll keptThenDeleted firstDay = .ok final ∧
      ∀ user, final.db.users.find? 1 = some user → user.usedBytes = fileBytes final.db 1 := by
  cases runs : Op.commitAll keptThenDeleted firstDay with
  | error => cases runs
  | ok final =>
      apply Exists.intro final
      apply And.intro rfl
      have history := firstDay_trace (by simp [keptThenDeleted, Op.Offered]) runs
      have nothingUsed : ∀ user, firstDay.db.users.find? 1 = some user → user.usedBytes = 0 := by
        intro user found
        cases found
        rfl
      have each : ∀ event ∈ Op.trace keptThenDeleted firstDay,
          (∀ row ∈ event.before.db.items.rows, row.ownerId = 1) ∧
          ∀ snapshot ∈ event.before.db.snapshots.rows,
            ∀ entry ∈ restoredEntries 1 snapshot .whole event.before,
              ∃ item ∈ event.before.db.items.rows, item.id = entry.itemId := by decide
      apply usedBytes_eq_fileBytes history nothingUsed
      intro event member
      have isOne := Op.action_mem_of_trace member
      rcases each event member with ⟨mine, there⟩
      simp only [keptThenDeleted, List.mem_cons, List.not_mem_nil, or_false] at isOne
      rcases isOne with isOne | isOne | isOne | isOne | isOne | isOne <;> rw [isOne]
      · trivial
      · trivial
      · trivial
      · intro _ snapshot found entry among _ _
        exact there snapshot (getSnapshot_eq_some.mp found).1 entry among
      · trivial
      · exact fun row rowMem _ _ _ => iff_of_true (mine row rowMem) rfl

private def deletedThenRestored : List Op :=
  [.uploadSimple 1 none "a" [[65, 66]] 2 none, .createSnapshot 1 .manual "kept" false,
    .trashItem 1 11, .permanentDelete 1 11, .restoreSnapshot 1 12 .whole .keepNew]

theorem restoredFile_uncounted :
    (∃ events, History firstDay events (afterFirstDay deletedThenRestored) ∧
      events.map Event.action = deletedThenRestored) ∧
    (afterFirstDay deletedThenRestored).db.users.rows.map User.usedBytes = [0, 0] ∧
    fileBytes (afterFirstDay deletedThenRestored).db 1 = 2 := by
  constructor
  · exact firstDay_history (by simp [deletedThenRestored, Op.Offered]) rfl
  · decide

end Small

end CloudDrive
