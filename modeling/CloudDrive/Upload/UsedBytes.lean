import CloudDrive.Upload.Accounting

/-! # The counter of used bytes

In a drive of one owner `used_bytes` is the size of the stored versions, those of trashed
files among them. A new file adds the size of its version; a deletion subtracts in one step
what the versions of the whole subtree held. -/

namespace CloudDrive

open Outcome Relational Execution Forest QuotaService

section Accounts

variable [Platform]

/-- The `size_bytes` of the versions of the owner's items, added up. -/
def versionBytes (db : Database) (ownerId : Uuid) : Nat :=
  ((db.versions.rows.filter fun version =>
    (db.items.find? version.fileId).any fun item => decide (item.ownerId = ownerId)).map
      FileVersion.sizeBytes).sum

/-- Every version is the version of a file. -/
def VersionsOfFiles (db : Database) : Prop :=
  ∀ version ∈ db.versions, ∃ item ∈ db.items,
    item.id = version.fileId ∧ item.itemType = .file

/-- The counter of the owner is the size of all versions. -/
structure Accounted (ownerId : Uuid) (db : Database) : Prop where
  files : VersionsOfFiles db
  used : ∀ user, db.users.find? ownerId = some user →
    user.usedBytes = db.versions.total FileVersion.sizeBytes

/-- The drive has one owner. -/
def SoleOwner (ownerId : Uuid) (db : Database) : Prop :=
  ∀ item ∈ db.items, item.ownerId = ownerId

instance (ownerId : Uuid) (db : Database) : Decidable (SoleOwner ownerId db) :=
  inferInstanceAs (Decidable (∀ item ∈ db.items.rows, _))

/-- In the drive of one owner every version is the owner's. -/
theorem VersionsOfFiles.versionBytes {ownerId : Uuid} {db : Database} (files : VersionsOfFiles db)
    (sole : SoleOwner ownerId db) :
    versionBytes db ownerId = db.versions.total FileVersion.sizeBytes := by
  have every : db.versions.rows.filter (fun version => (db.items.find? version.fileId).any
      fun item => decide (item.ownerId = ownerId)) = db.versions.rows := by
    apply List.filter_eq_self.mpr
    intro version member
    rcases files version member with ⟨item, itemMem, isFile, _⟩
    rw [ItemTable.find?_eq_some.mpr ⟨itemMem, isFile⟩, Option.any_some]
    exact decide_eq_true (sole item itemMem)
  rw [CloudDrive.versionBytes, every, Table.total]

/-! ## Requests that store and free nothing -/

/-- The versions and the counters are as they were, and every file is still there. -/
structure FilesKept (before after : Database) : Prop where
  versions : after.versions = before.versions
  users : after.users = before.users
  items : ∀ item ∈ before.items, item.itemType = .file →
    ∃ later ∈ after.items, later.id = item.id ∧ later.itemType = .file

theorem FilesKept.of_items {before after : Database} (versions : after.versions = before.versions)
    (users : after.users = before.users) (items : ∀ item ∈ before.items, item ∈ after.items) :
    FilesKept before after :=
  ⟨versions, users, fun item member isFile => ⟨item, items item member, rfl, isFile⟩⟩

theorem FilesKept.replaced {db : Database} {items : ItemTable} {old new : DriveItem}
    (replaced : ItemTable.Replaced db.items items old new) (sameType : new.itemType = old.itemType) :
    FilesKept db { db with items := items } where
  versions := rfl
  users := rfl
  items item member isFile := by
    by_cases isOld : item.id = old.id
    · have same : item = old := ItemTable.eq_of_id_eq member replaced.member isOld
      apply Exists.intro new
      apply And.intro ((replaced.rows new).mpr (.inl rfl))
      exact ⟨replaced.sameId.trans isOld.symm, sameType.trans (same ▸ isFile)⟩
    · exact ⟨item, (replaced.rows item).mpr (.inr ⟨member, isOld⟩), rfl, isFile⟩

theorem Accounted.kept {ownerId : Uuid} {before after : Database}
    (accounted : Accounted ownerId before) (kept : FilesKept before after) :
    Accounted ownerId after where
  files version member := by
    rw [kept.versions] at member
    rcases accounted.files version member with ⟨item, itemMem, sameId, isFile⟩
    rcases kept.items item itemMem isFile with ⟨later, laterMem, laterId, laterFile⟩
    exact ⟨later, laterMem, laterId.trans sameId, laterFile⟩
  used user found := by
    rw [kept.users] at found
    rw [kept.versions]
    exact accounted.used user found

theorem Op.Effect.filesKept {op : Op} {before after : System} (effect : op.Effect before after)
    (uncharged : op.Uncharged) (noRestore : op.NoSnapshotRestore) :
    FilesKept before.db after.db := by
  cases effect with
  | nothing => exact .of_items rfl rfl fun item member => member
  | folderCreated _ added =>
      exact .of_items rfl rfl fun item member => (ItemTable.mem_of_add added).mpr (.inl member)
  | rewritten replaced content _ => exact .replaced replaced content.itemType
  | moved moves =>
      rcases DriveService.move_ok moves with ⟨item, editable, rfl, _, items, changed, rfl⟩
      exact .replaced (ItemTable.change_replaced editable.member rfl changed) rfl
  | deleted _ => exact uncharged.elim
  | emptied _ => exact uncharged.elim
  | shared _ _ _ _ _ => exact .of_items rfl rfl fun item member => member
  | unshared _ => exact .of_items rfl rfl fun item member => member
  | uploaded _ _ _ => exact uncharged.elim
  | sessionOpened _ _ _ _ => exact .of_items rfl rfl fun item member => member
  | sessionWorked work _ =>
      rcases work.frame with ⟨_, _, frame⟩
      rw [frame]
      exact .of_items rfl rfl fun item member => member
  | completed _ _ _ _ _ _ _ => exact uncharged.elim
  | snapshotsWorked _ work =>
      rcases work.frame with ⟨_, _, _, frame⟩
      rw [frame]
      exact .of_items rfl rfl fun item member => member
  | snapshotRestored _ => exact noRestore.elim
  | collected _ => exact .of_items rfl rfl fun item member => member
  | ticked => exact .of_items rfl rfl fun item member => member

/-! ## New files -/

/-- A new file adds its size to the counter and a version of that size. -/
theorem createFile_accounted {ownerId : Uuid} {parentId : Option Uuid} {name : String}
    {file : StoredFile} {sys after : System} {item : DriveItem}
    (creates : createFile ownerId parentId name file sys = .ok (item, after))
    (accounted : Accounted ownerId sys.db) : Accounted ownerId after.db := by
  have created := createFile_ok creates
  have users := (createFile_charges creates).1
  constructor
  · intro version member
    rcases (created.versions version).mp member with earlier | rfl
    · rcases accounted.files version earlier with ⟨old, oldMem, sameId, isFile⟩
      exact ⟨old, (created.items old).mpr (.inl oldMem), sameId, isFile⟩
    · exact ⟨item, (created.items item).mpr (.inr rfl), rfl, created.itemType⟩
  · intro user found
    have added := Table.total_added created.versions
      (fun member => created.fresh.versions _ member rfl) FileVersion.sizeBytes
    rw [users] at found
    cases search : sys.db.users.find? ownerId with
    | none =>
        rw [QuotaService.charged, Table.find?_map, search] at found
        cases found
    | some before =>
        rw [find_charged_self search, Option.some.injEq] at found
        rw [added, ← found, ← accounted.used before search]

/-! ## Deletions -/

namespace TrashService

/-- The rows that go with a folder are those below it. -/
theorem mem_descendants {sys : System} {item : DriveItem} {below : List DriveItem}
    (finds : descendants sys item = .ok below) :
    ∀ row ∈ below, row ∈ sys.db.items ∧ Above sys.db.items.parentOf row.id item.id := by
  intro row member
  rw [descendants] at finds
  split at finds
  · cases pure_eq_ok.mp finds
    cases member
  · rcases Table.mem_of_breadthFirst (orRaise_eq_ok.mp finds) row member with
      among | ⟨inTable, top, isItem, path⟩
    · cases among
    · rw [List.mem_singleton.mp isItem] at path
      exact ⟨inTable, path⟩

/-- What the subtraction frees of a row is what the versions of the row held. -/
theorem deleteRow_freed {item : DriveItem} {reclaimed final : Reclaimed} {sys after : System}
    (runs : deleteRow item (reclaimed, sys) = .ok (final, after))
    (folders : item.itemType ≠ .file → ∀ version ∈ sys.db.versions, version.fileId ≠ item.id) :
    final.freed + after.db.versions.total FileVersion.sizeBytes =
      reclaimed.freed + sys.db.versions.total FileVersion.sizeBytes := by
  have erased := (deleteRow_ok runs).1
  have left : after.db.versions.total FileVersion.sizeBytes =
      (sys.db.versions.filter fun version => decide (version.fileId ≠ item.id)).total
        FileVersion.sizeBytes := by
    apply Table.total_congr
    intro version
    rw [erased.versions, List.mem_singleton, Table.mem_filter, decide_eq_true_eq]
  have parts := Table.total_filter sys.db.versions
    (fun version => decide (version.fileId ≠ item.id)) FileVersion.sizeBytes
  simp only [deleteRow, bind_eq_ok, pure_eq_ok, Prod.mk.injEq] at runs
  rcases runs with ⟨_, _, rfl, rfl⟩
  rw [left]
  by_cases isFile : item.itemType = .file
  · rw [if_pos isFile]
    have own : (sys.db.versions.rows.filter fun version => decide (version.fileId = item.id)) =
        sys.db.versions.rows.filter fun version => !decide (version.fileId ≠ item.id) := by
      apply List.filter_congr
      intro version _
      rw [decide_not, Bool.not_not]
    show reclaimed.freed + (List.map _ (List.filter _ _)).sum + _ = _
    rw [own, ← parts, Nat.add_assoc, Nat.add_comm (List.sum _)]
    rfl
  · rw [if_neg isFile]
    have none : (sys.db.versions.filter fun version => !decide (version.fileId ≠ item.id)).total
        FileVersion.sizeBytes = 0 := by
      have empty : sys.db.versions.rows.filter
          (fun version => !decide (version.fileId ≠ item.id)) = [] := by
        apply List.filter_eq_nil_iff.mpr
        intro version member
        rw [decide_eq_true (folders isFile version member)]
        exact Bool.false_ne_true
      show (List.map FileVersion.sizeBytes (List.filter _ sys.db.versions.rows)).sum = 0
      rw [empty]
      rfl
    rw [← parts, none, Nat.add_zero]

theorem deleteRows_freed : ∀ {rows : List DriveItem} {reclaimed final : Reclaimed}
    {sys after : System}, forEach deleteRow rows (reclaimed, sys) = .ok (final, after) →
    (∀ row ∈ rows, row.itemType ≠ .file →
      ∀ version ∈ sys.db.versions, version.fileId ≠ row.id) →
    final.freed + after.db.versions.total FileVersion.sizeBytes =
      reclaimed.freed + sys.db.versions.total FileVersion.sizeBytes
  | [], reclaimed, final, sys, after, runs, _ => by
      cases runs
      rfl
  | row :: rest, reclaimed, final, sys, after, runs, folders => by
      rw [forEach_cons, bind_eq_ok] at runs
      rcases runs with ⟨⟨middleReclaimed, middle⟩, first, later⟩
      have erased := (deleteRow_ok first).1
      have here := deleteRow_freed first (folders row List.mem_cons_self)
      have rests := deleteRows_freed later fun other member isFolder version among =>
        folders other (List.mem_cons_of_mem _ member) isFolder version
          ((erased.versions version).mp among).1
      exact rests.trans here

/-- A subtree gives back what the versions of its rows held. -/
theorem deleteSubtree_freed {item : DriveItem} {below : List DriveItem} {reclaimed : Reclaimed}
    {sys middle : System} (files : VersionsOfFiles sys.db) (member : item ∈ sys.db.items)
    (isBelow : descendants sys item = .ok below)
    (deleted : forEach deleteRow (below.reverse ++ [item]) ({ freed := 0, keys := [] }, sys) =
      .ok (reclaimed, middle)) :
    reclaimed.freed + middle.db.versions.total FileVersion.sizeBytes =
      sys.db.versions.total FileVersion.sizeBytes := by
  have inItems : ∀ row ∈ below.reverse ++ [item], row ∈ sys.db.items := by
    intro row among
    rcases List.mem_append.mp among with isDeeper | isItem
    · exact (mem_descendants isBelow row (List.mem_reverse.mp isDeeper)).1
    · exact List.mem_singleton.mp isItem ▸ member
  have freed := deleteRows_freed deleted
  rw [Nat.zero_add] at freed
  apply freed
  -- Only files have versions, so a folder goes without any.
  intro row among isFolder version versionMem sameId
  rcases files version versionMem with ⟨other, otherMem, otherId, isFile⟩
  rw [ItemTable.eq_of_id_eq otherMem (inItems row among) (otherId.trans sameId)] at isFile
  exact isFolder isFile

/-- The bytes that `permanent_delete` hands to `subtract_used_bytes`. -/
def freedBytes (itemId : Uuid) (sys : System) : Except ServiceError Nat := do
  let item ← orRaise (sys.db.items.find? itemId) (.notFound "Item not found")
  let below ← descendants sys item
  let state ← forEach deleteRow (below.reverse ++ [item]) ({ freed := 0, keys := [] }, sys)
  pure state.1.freed

/-- The counter holds all that the deletion subtracts, so the clamp at zero does not change
what is left. -/
def Unclamped (userId itemId : Uuid) (sys : System) : Prop :=
  ∀ freed, freedBytes itemId sys = .ok freed →
    ∀ user, sys.db.users.find? userId = some user → freed ≤ user.usedBytes

theorem freedBytes_ok {itemId : Uuid} {sys : System} {freed : Nat} (files : VersionsOfFiles sys.db)
    (frees : freedBytes itemId sys = .ok freed) :
    freed ≤ sys.db.versions.total FileVersion.sizeBytes := by
  simp only [freedBytes, bind_eq_ok, orRaise_eq_ok, pure_eq_ok] at frees
  rcases frees with ⟨item, found, below, isBelow, ⟨reclaimed, middle⟩, deleted, rfl⟩
  have member := (ItemTable.find?_eq_some.mp found).1
  rw [← deleteSubtree_freed files member isBelow deleted]
  exact Nat.le_add_right _ _

theorem permanentDelete_frees {userId itemId : Uuid} {sys after : System}
    (files : VersionsOfFiles sys.db) (runs : permanentDelete userId itemId sys = .ok after) :
    ∃ item ∈ sys.db.items, item.ownerId = userId ∧ ∃ (freed : Nat) (gone : List Uuid),
      after.db.users = QuotaService.charged userId (· - freed) sys.db.users ∧
      freed + after.db.versions.total FileVersion.sizeBytes =
        sys.db.versions.total FileVersion.sizeBytes ∧
      (∀ row, row ∈ after.db.items ↔ row ∈ sys.db.items ∧ row.id ∉ gone) ∧
      ∀ version, version ∈ after.db.versions ↔
        version ∈ sys.db.versions ∧ version.fileId ∉ gone := by
  simp only [permanentDelete, bind_eq_ok, orRaise_eq_ok, require_eq_ok, pure_eq_ok] at runs
  rcases runs with ⟨item, found, _, owned, _, _, below, isBelow, ⟨reclaimed, middle⟩, deleted, rfl⟩
  have member := (ItemTable.find?_eq_some.mp found).1
  have erased := (deleteRows_ok deleted).1
  have freed := deleteSubtree_freed files member isBelow deleted
  have users := settle_charges userId reclaimed middle
  rcases settle_eq userId reclaimed middle with ⟨settled, equal⟩
  rw [erased.users] at users
  have same : (settle userId reclaimed middle).db.items = middle.db.items ∧
      (settle userId reclaimed middle).db.versions = middle.db.versions := by
    rw [equal]
    exact ⟨rfl, rfl⟩
  apply Exists.intro item
  apply And.intro member
  apply And.intro owned
  apply Exists.intro reclaimed.freed
  apply Exists.intro ((below.reverse ++ [item]).map DriveItem.id)
  apply And.intro users
  rw [same.1, same.2]
  exact ⟨freed, erased.items, erased.versions⟩

end TrashService

open TrashService

theorem Accounted.unclamped {ownerId : Uuid} {sys : System} (accounted : Accounted ownerId sys.db)
    (itemId : Uuid) : Unclamped ownerId itemId sys := by
  intro freed frees user found
  rw [accounted.used user found]
  exact freedBytes_ok accounted.files frees

theorem Accounted.permanentDelete {ownerId userId itemId : Uuid} {sys after : System}
    (accounted : Accounted ownerId sys.db) (sole : SoleOwner ownerId sys.db)
    (runs : TrashService.permanentDelete userId itemId sys = .ok after) :
    Accounted ownerId after.db ∧ SoleOwner ownerId after.db := by
  rcases permanentDelete_frees accounted.files runs with
    ⟨item, member, owned, freed, gone, users, sum, items, versions⟩
  have isOwner : userId = ownerId := owned.symm.trans (sole item member)
  constructor
  · constructor
    · intro version versionMem
      rcases (versions version).mp versionMem with ⟨earlier, stays⟩
      rcases accounted.files version earlier with ⟨row, rowMem, sameId, isFile⟩
      exact ⟨row, (items row).mpr ⟨rowMem, sameId ▸ stays⟩, sameId, isFile⟩
    · intro user found
      rw [users, isOwner] at found
      cases search : sys.db.users.find? ownerId with
      | none =>
          rw [QuotaService.charged, Table.find?_map, search] at found
          cases found
      | some before =>
          have used := accounted.used before search
          rw [find_charged_self search, Option.some.injEq] at found
          rw [← found]
          show before.usedBytes - freed = _
          omega
  · exact fun row rowMem => sole row ((items row).mp rowMem).1

/-- One deletion after the other, as `empty_trash` makes them. -/
theorem Accounted.permanentDeletes {ownerId userId : Uuid} {rows : List DriveItem}
    {sys after : System} (accounted : Accounted ownerId sys.db) (sole : SoleOwner ownerId sys.db)
    (runs : forEach (fun item sys => TrashService.permanentDelete userId item.id sys) rows sys =
      .ok after) :
    Accounted ownerId after.db ∧ SoleOwner ownerId after.db := by
  apply forEach_keeps (fun middle => Accounted ownerId middle.db ∧ SoleOwner ownerId middle.db)
    _ ⟨accounted, sole⟩ runs
  intro item middle later kept deletes
  exact kept.1.permanentDelete kept.2 deletes

/-! ## Runs -/

/-- Every subtraction that the request makes finds what it subtracts in the counter. -/
def Op.Unclamped (before : System) : Op → Prop
  | .permanentDelete userId itemId => TrashService.Unclamped userId itemId before
  | .emptyTrash userId allDeleted => ∀ done item rest middle,
      topLevel allDeleted = done ++ item :: rest →
      forEach (fun item sys => TrashService.permanentDelete userId item.id sys) done before =
        .ok middle → TrashService.Unclamped userId item.id middle
  | _ => True

theorem Op.Commits.accounted {op : Op} {before after : System} {ownerId : Uuid}
    (commits : op.Commits before after) (noRestore : op.NoSnapshotRestore)
    (accounted : Accounted ownerId before.db) (soleBefore : SoleOwner ownerId before.db)
    (soleAfter : SoleOwner ownerId after.db) : Accounted ownerId after.db := by
  have runs := commits.2
  have effect := Op.effect commits
  cases op with
  | uploadSimple userId parentId filename stream sizeBytes mimeType =>
      simp only [Op.commit, UploadService.uploadSimple, bind_eq_ok, pure_eq_ok] at runs
      rcases runs with ⟨⟨item, _⟩, ⟨_, _, _, _, _, _, _, _, creates⟩, rfl⟩
      have created := createFile_ok creates
      have isOwner : userId = ownerId :=
        created.ownerId.symm.trans (soleAfter item ((created.items item).mpr (.inr rfl)))
      rw [isOwner] at creates
      exact createFile_accounted creates accounted
  | completeSession userId sessionId =>
      simp only [Op.commit, UploadSessionService.completeSession, Storage.concat,
        UploadSessionService.createItem, bind_eq_ok, pure_eq_ok] at runs
      rcases runs with ⟨⟨item, _⟩, ⟨session, _, _, _, _, _, ⟨content, _⟩, ⟨_, _, rfl, rfl⟩,
        ⟨stored, middle⟩, ⟨name, _, creates⟩, rfl, rfl⟩, rfl⟩
      have created := createFile_ok creates
      rcases UploadSessionService.discardChunks_eq
        (UploadSessionService.listChunks before.db session.id) middle with ⟨rows, discards, _⟩
      rw [discards] at soleAfter ⊢
      have isOwner : userId = ownerId :=
        created.ownerId.symm.trans (soleAfter stored ((created.items stored).mpr (.inr rfl)))
      rw [isOwner] at creates
      have stores := createFile_accounted creates accounted
      exact stores.kept (.of_items rfl rfl fun item member => member)
  | permanentDelete userId itemId => exact (accounted.permanentDelete soleBefore runs).1
  | emptyTrash userId allDeleted => exact (accounted.permanentDeletes soleBefore runs).1
  | restoreSnapshot userId snapshotId scope mode => exact noRestore.elim
  | _ => exact accounted.kept (effect.filesKept trivial noRestore)

/-- A deletion of the owner subtracts no more than the counter holds. -/
theorem Accounted.unclamped_of_ok {ownerId userId itemId : Uuid} {sys after : System}
    (accounted : Accounted ownerId sys.db) (sole : SoleOwner ownerId sys.db)
    (runs : TrashService.permanentDelete userId itemId sys = .ok after) :
    TrashService.Unclamped userId itemId sys := by
  rcases permanentDelete_frees accounted.files runs with ⟨item, member, owned, _⟩
  rw [← owned, sole item member]
  exact accounted.unclamped itemId

theorem Op.Commits.unclamped {op : Op} {before after : System} {ownerId : Uuid}
    (commits : op.Commits before after) (accounted : Accounted ownerId before.db)
    (sole : SoleOwner ownerId before.db) : op.Unclamped before := by
  have runs := commits.2
  cases op with
  | permanentDelete userId itemId => exact accounted.unclamped_of_ok sole runs
  | emptyTrash userId allDeleted =>
      intro done item rest middle split deletes
      have deleted : forEach (fun item sys => TrashService.permanentDelete userId item.id sys)
          (done ++ item :: rest) before = .ok after := split ▸ runs
      rw [forEach_append, deletes] at deleted
      rcases bind_eq_ok.mp deleted with ⟨_, isMiddle, deleted⟩
      cases isMiddle
      rw [forEach_cons, bind_eq_ok] at deleted
      rcases deleted with ⟨later, deletesItem, _⟩
      rcases accounted.permanentDeletes sole deletes with ⟨accounted, sole⟩
      exact accounted.unclamped_of_ok sole deletesItem
  | _ => trivial

theorem accounted_run {ownerId : Uuid} {start final : System} {events : List (Event System Op)}
    (run : Run Op.Commits start events final)
    (noRestore : ∀ event ∈ events, event.action.NoSnapshotRestore)
    (noItems : start.db.items = .empty) (noVersions : start.db.versions = .empty)
    (nothingUsed : ∀ user, start.db.users.find? ownerId = some user → user.usedBytes = 0)
    (sole : ∀ event ∈ events, SoleOwner ownerId event.after.db) :
    Accounted ownerId final.db ∧ SoleOwner ownerId final.db := by
  have starts : Accounted ownerId start.db ∧ SoleOwner ownerId start.db := by
    constructor
    · constructor
      · intro version member
        rw [noVersions] at member
        cases member
      · intro user found
        rw [noVersions]
        exact nothingUsed user found
    · intro item member
      rw [noItems] at member
      cases member
  apply run.keeps
  · exact starts
  · intro event member kept commits
    have soleAfter := sole event member
    exact ⟨commits.accounted (noRestore event member) kept.1 kept.2 soleAfter, soleAfter⟩

/-- From an empty drive on, as long as all items have one owner, the counter is the size of
the versions in every state, and no subtraction is cut off at zero. -/
theorem usedBytes_eq_versionBytes {ownerId : Uuid} {start final : System}
    {events : List (Event System Op)} (run : Run Op.Commits start events final)
    (noRestore : ∀ event ∈ events, event.action.NoSnapshotRestore)
    (noItems : start.db.items = .empty) (noVersions : start.db.versions = .empty)
    (nothingUsed : ∀ user, start.db.users.find? ownerId = some user → user.usedBytes = 0)
    (sole : ∀ event ∈ events, SoleOwner ownerId event.after.db) :
    (∀ user, final.db.users.find? ownerId = some user →
      user.usedBytes = versionBytes final.db ownerId) ∧
    ∀ event ∈ events, event.action.Unclamped event.before := by
  rcases accounted_run run noRestore noItems noVersions nothingUsed sole with
    ⟨accounted, soleFinal⟩
  constructor
  · intro user found
    rw [accounted.files.versionBytes soleFinal]
    exact accounted.used user found
  · intro event member
    rcases List.append_of_mem member with ⟨past, rest, split⟩
    rcases run.upTo split with ⟨earlier, commits⟩
    have among : ∀ other ∈ past, other ∈ events :=
      fun other inPast => split ▸ List.mem_append_left _ inPast
    rcases accounted_run earlier (fun other inPast => noRestore other (among other inPast)) noItems
      noVersions nothingUsed (fun other inPast => sole other (among other inPast)) with
      ⟨accountedBefore, soleBefore⟩
    exact commits.unclamped accountedBefore soleBefore

end Accounts

/-! ## A folder that goes

Two files are uploaded, one of them into a folder, and the folder is deleted for good. -/

section Small

attribute [local instance] smallPlatform

private def deletedFolder : List Op :=
  [.createFolder 1 none "Work", .uploadSimple 1 (some 10) "a" [[65, 66]] 2 none,
    .uploadSimple 1 none "b" [[67]] 1 none, .trashItem 1 10, .permanentDelete 1 10]

theorem usedBytes_eq_versionBytes_firstDay :
    ∃ final, Op.commitAll deletedFolder firstDay = .ok final ∧ versionBytes final.db 1 = 1 ∧
      ∀ user, final.db.users.find? 1 = some user → user.usedBytes = versionBytes final.db 1 := by
  cases runs : Op.commitAll deletedFolder firstDay with
  | error => cases runs
  | ok final =>
      apply Exists.intro final
      apply And.intro rfl
      have run := Op.run_trace (by simp [deletedFolder, Op.Offered]) runs
      have noRestore : ∀ event ∈ Op.trace deletedFolder firstDay,
          event.action.NoSnapshotRestore := by
        intro event member
        have isOne := Op.action_mem_of_trace member
        simp only [deletedFolder, List.mem_cons, List.not_mem_nil, or_false] at isOne
        rcases isOne with isOne | isOne | isOne | isOne | isOne <;> rw [isOne] <;> trivial
      have nothingUsed : ∀ user, firstDay.db.users.find? 1 = some user → user.usedBytes = 0 := by
        intro user found
        cases found
        rfl
      have accounts := usedBytes_eq_versionBytes run noRestore rfl rfl nothingUsed (by decide)
      constructor
      · cases runs
        rfl
      · exact accounts.1

end Small

end CloudDrive
