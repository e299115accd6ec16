import CloudDrive.Trash.PermanentDelete

/-! # Whose bytes a deletion frees

A file is charged to its owner, who need not own the folder it lies in. `permanent_delete`
adds up what the whole subtree frees and subtracts it from the caller. -/

namespace CloudDrive

open Outcome Relational Forest Relation Execution

namespace TrashService

open TrashRepository

section Credits

variable [Platform] {sys : System} {userId : Uuid} {item : DriveItem}

/-- `itemId` is `topId` or below it. -/
def within (items : ItemTable) (topId itemId : Uuid) : Bool :=
  (List.range (items.rows.length + 1)).any fun steps =>
    decide (ancestor items.parentOf steps itemId = some topId)

/-- The version belongs to a file of the user. -/
def ownedBy (items : ItemTable) (userId : Uuid) (version : FileVersion) : Bool :=
  (items.find? version.fileId).any fun file => decide (file.ownerId = userId)

/-- The versions of the files at or below `topId`. -/
def subtreeVersions (db : Database) (topId : Uuid) : Table FileVersion :=
  db.versions.filter fun version => within db.items topId version.fileId

/-- The bytes of the user's own files in the subtree. -/
def creditOf (db : Database) (topId userId : Uuid) : Nat :=
  ((subtreeVersions db topId).filter (ownedBy db.items userId)).total FileVersion.sizeBytes

/-- The counter of every user goes down by the bytes of the user's own files. -/
def CreditsOwners (topId : Uuid) (before after : Database) : Prop :=
  ∀ userId user, before.users.find? userId = some user →
    ∃ now, after.users.find? userId = some now ∧
      now.usedBytes + creditOf before topId userId = user.usedBytes

/-- The foreign key of `drive_items.owner_id`. -/
def OwnersExist (db : Database) : Prop :=
  ∀ item ∈ db.items, ∃ user, db.users.find? item.ownerId = some user

theorem within_iff {items : ItemTable} (acyclic : Acyclic items.parentOf) {topId itemId : Uuid} :
    within items topId itemId = true ↔ AtOrAbove items.parentOf itemId topId := by
  rw [within, List.any_eq_true, atOrAbove_iff_ancestor]
  constructor
  · intro found
    rcases found with ⟨steps, _, reached⟩
    exact ⟨steps, of_decide_eq_true reached⟩
  · intro found
    rcases found with ⟨steps, reached⟩
    apply Exists.intro steps
    apply And.intro _ (decide_eq_true reached)
    apply List.mem_range.mpr
    by_contra far
    have ends := Table.chain_ends acyclic itemId
    rw [← Nat.add_sub_cancel' (not_lt.mp far), ancestor_add] at reached
    rw [show ancestor items.parentOf (items.rows.length + 1) itemId = none from ends] at reached
    cases reached

theorem ownedBy_iff {items : ItemTable} {version : FileVersion} :
    ownedBy items userId version = true ↔
      ∃ file ∈ items, file.id = version.fileId ∧ file.ownerId = userId := by
  rw [ownedBy, Option.any_eq_true]
  constructor
  · intro found
    rcases found with ⟨file, isFile, owned⟩
    rcases ItemTable.find?_eq_some.mp isFile with ⟨member, sameId⟩
    exact ⟨file, member, sameId, of_decide_eq_true owned⟩
  · intro found
    rcases found with ⟨file, member, sameId, owned⟩
    exact ⟨file, ItemTable.find?_eq_some.mpr ⟨member, sameId⟩, decide_eq_true owned⟩

theorem mem_subtreeVersions {topId : Uuid} (acyclic : Acyclic sys.db.items.parentOf)
    {version : FileVersion} : version ∈ subtreeVersions sys.db topId ↔
      version ∈ sys.db.versions ∧ AtOrAbove sys.db.items.parentOf version.fileId topId := by
  rw [subtreeVersions, Table.mem_filter, within_iff acyclic]

/-- The bytes that other users have in the subtree. -/
def strangeBytes (db : Database) (topId userId : Uuid) : Nat :=
  ((subtreeVersions db topId).filter fun version => !ownedBy db.items userId version).total
    FileVersion.sizeBytes

theorem credit_add_strange (db : Database) (topId userId : Uuid) :
    creditOf db topId userId + strangeBytes db topId userId =
      (subtreeVersions db topId).total FileVersion.sizeBytes :=
  Table.total_filter _ _ _

/-- The caller is charged for the whole subtree. -/
theorem permanentDelete_subtracts {after : System} (tree : FolderTree sys.db.items)
    (files : VersionsOfFiles sys.db) (member : item ∈ sys.db.items)
    (owned : item.ownerId = userId) (trashed : item.isDeleted = true)
    (runs : permanentDelete userId item.id sys = .ok after) :
    after.db.users = QuotaService.charged userId
      (· - (subtreeVersions sys.db item.id).total FileVersion.sizeBytes) sys.db.users := by
  rcases permanentDelete_contract tree files member owned trashed with
    ⟨_, _, _, again, _, _, _, _, erased⟩
  cases runs.symm.trans again
  rcases permanentDelete_frees files runs with ⟨_, _, _, freed, _, users, sum, _⟩
  have left : after.db.versions.total FileVersion.sizeBytes = (sys.db.versions.filter fun version =>
      !within sys.db.items item.id version.fileId).total FileVersion.sizeBytes := by
    apply Table.total_congr
    intro version
    rw [erased.versions, Table.mem_filter, Bool.not_eq_true', ← Bool.not_eq_true,
      within_iff tree.acyclic]
  have parts := Table.total_filter sys.db.versions
    (fun version => within sys.db.items item.id version.fileId) FileVersion.sizeBytes
  have same : freed = (subtreeVersions sys.db item.id).total FileVersion.sizeBytes := by
    rw [subtreeVersions]
    omega
  rw [users, same]

/-- A deletion credits every owner with the owner's bytes exactly when all bytes of the
subtree are the caller's and the caller's counter holds them. -/
theorem permanentDelete_credits_iff {after : System} (tree : FolderTree sys.db.items)
    (files : VersionsOfFiles sys.db) (owners : OwnersExist sys.db) (member : item ∈ sys.db.items)
    (owned : item.ownerId = userId) (trashed : item.isDeleted = true)
    (runs : permanentDelete userId item.id sys = .ok after) :
    CreditsOwners item.id sys.db after.db ↔
      (∀ version ∈ sys.db.versions, AtOrAbove sys.db.items.parentOf version.fileId item.id →
        0 < version.sizeBytes → ownedBy sys.db.items userId version = true) ∧
      ∀ user, sys.db.users.find? userId = some user →
        creditOf sys.db item.id userId ≤ user.usedBytes := by
  have users := permanentDelete_subtracts tree files member owned trashed runs
  rw [CreditsOwners, users, ← credit_add_strange sys.db item.id userId]
  constructor
  · intro credits
    constructor
    · intro version versionMem below positive
      by_contra strange
      rcases files version versionMem with ⟨file, fileMem, isFile, _⟩
      rcases owners file fileMem with ⟨user, found⟩
      have other : file.ownerId ≠ userId := by
        intro same
        exact strange (ownedBy_iff.mpr ⟨file, fileMem, isFile, same⟩)
      rcases credits file.ownerId user found with ⟨now, isNow, balance⟩
      rw [QuotaService.find_charged_other other, found] at isNow
      cases isNow
      have counted : version ∈ (subtreeVersions sys.db item.id).filter
          (ownedBy sys.db.items file.ownerId) :=
        Table.mem_filter.mpr ⟨(mem_subtreeVersions tree.acyclic).mpr ⟨versionMem, below⟩,
          ownedBy_iff.mpr ⟨file, fileMem, isFile, rfl⟩⟩
      have atLeast : version.sizeBytes ≤ creditOf sys.db item.id file.ownerId :=
        Table.weight_le_total counted FileVersion.sizeBytes
      omega
    · intro user found
      rcases credits userId user found with ⟨now, _, balance⟩
      omega
  · intro condition otherId user found
    rcases condition with ⟨allOwned, holds⟩
    have noStrange : strangeBytes sys.db item.id userId = 0 := by
      apply Table.total_eq_zero_iff.mpr
      intro version among
      rcases Table.mem_filter.mp among with ⟨inside, strange⟩
      rcases (mem_subtreeVersions tree.acyclic).mp inside with ⟨versionMem, below⟩
      by_contra weighs
      rw [allOwned version versionMem below (Nat.pos_of_ne_zero weighs)] at strange
      cases strange
    by_cases caller : otherId = userId
    · rw [caller] at found ⊢
      apply Exists.intro _
      apply And.intro (QuotaService.find_charged_self found)
      have enough := holds user found
      show user.usedBytes - (creditOf sys.db item.id userId +
        strangeBytes sys.db item.id userId) + creditOf sys.db item.id userId = user.usedBytes
      omega
    · apply Exists.intro user
      apply And.intro ((QuotaService.find_charged_other caller).trans found)
      have nothing : creditOf sys.db item.id otherId = 0 := by
        apply Table.total_eq_zero_iff.mpr
        intro version among
        rcases Table.mem_filter.mp among with ⟨inside, isOther⟩
        rcases (mem_subtreeVersions tree.acyclic).mp inside with ⟨versionMem, below⟩
        by_contra weighs
        have isCaller := allOwned version versionMem below (Nat.pos_of_ne_zero weighs)
        rcases ownedBy_iff.mp isOther with ⟨file, fileMem, isFile, first⟩
        rcases ownedBy_iff.mp isCaller with ⟨same, sameMem, isSame, second⟩
        rw [ItemTable.eq_of_id_eq sameMem fileMem (isSame.trans isFile.symm)] at second
        exact caller (first.symm.trans second)
      rw [nothing, Nat.add_zero]

end Credits

/-! ## A guest's file in a shared folder

User 2 uploads two bytes into the folder that user 1 shares, and user 1 deletes the folder. -/

section GuestFile

attribute [local instance] smallPlatform

private def guestUploads : List Op :=
  [.createFolder 1 none "Work", .shareItem 1 10 "b@example.org" .editor,
    .uploadSimple 2 (some 10) "a" [[65, 66]] 2 none, .trashItem 1 10]

private def withGuestFile : System := afterFirstDay guestUploads

private def workTrashed : DriveItem :=
  markedDeleted firstDay (DriveItemRepository.newItem firstDay 1 none .folder "Work" 1)

private theorem withGuestFile_tree : FolderTree withGuestFile.db.items where
  acyclic := Table.parentBy_acyclic id (by decide)
  parents := by
    have folders : ∀ row ∈ withGuestFile.db.items.rows, ∀ top ∈ row.parentId,
        ∃ folder ∈ withGuestFile.db.items.rows, folder.id = top ∧ folder.itemType = .folder := by
      decide
    exact folders

private theorem withGuestFile_versions : VersionsOfFiles withGuestFile.db := by
  have found : ∀ version ∈ withGuestFile.db.versions.rows,
      ∃ item ∈ withGuestFile.db.items.rows,
        item.id = version.fileId ∧ item.itemType = .file := by
    decide
  exact found

private theorem withGuestFile_owners : OwnersExist withGuestFile.db := by
  have found : ∀ item ∈ withGuestFile.db.items.rows,
      (withGuestFile.db.users.find? item.ownerId).isSome = true := by
    decide
  exact fun item member => Option.isSome_iff_exists.mp (found item member)

private theorem workTrashed_mem : workTrashed ∈ withGuestFile.db.items :=
  ItemTable.mem_rows.mp (by decide)

theorem permanentDelete_credits_iff_guestFile :
    ∃ after, permanentDelete 1 workTrashed.id withGuestFile = .ok after ∧
      (CreditsOwners workTrashed.id withGuestFile.db after.db ↔
        (∀ version ∈ withGuestFile.db.versions,
          AtOrAbove withGuestFile.db.items.parentOf version.fileId workTrashed.id →
          0 < version.sizeBytes → ownedBy withGuestFile.db.items 1 version = true) ∧
        ∀ user, withGuestFile.db.users.find? 1 = some user →
          creditOf withGuestFile.db workTrashed.id 1 ≤ user.usedBytes) := by
  rcases permanentDelete_contract withGuestFile_tree withGuestFile_versions workTrashed_mem rfl rfl
    with ⟨_, after, _, runs, _⟩
  exact ⟨after, runs, permanentDelete_credits_iff withGuestFile_tree withGuestFile_versions
    withGuestFile_owners workTrashed_mem rfl rfl runs⟩

/-- The two bytes of user 2 are gone and still charged. -/
theorem guest_keeps_charge :
    (∃ events, History firstDay events withGuestFile) ∧
      ∃ after, permanentDelete 1 10 withGuestFile = .ok after ∧
        creditOf withGuestFile.db 10 2 = 2 ∧
        (after.db.users.find? 2).map User.usedBytes = some 2 ∧
        ¬ CreditsOwners 10 withGuestFile.db after.db := by
  have history : History firstDay (Op.trace guestUploads firstDay) withGuestFile :=
    firstDay_trace (by simp [guestUploads, Op.Offered]) rfl
  have charged : (withGuestFile.db.users.find? 2).map User.usedBytes = some 2 := by decide
  have credit : creditOf withGuestFile.db 10 2 = 2 := by decide
  apply And.intro ⟨_, history⟩
  rcases permanentDelete_contract withGuestFile_tree withGuestFile_versions workTrashed_mem rfl rfl
    with ⟨_, after, _, runs, _⟩
  have users := permanentDelete_subtracts withGuestFile_tree withGuestFile_versions workTrashed_mem
    rfl rfl runs
  have kept : after.db.users.find? 2 = withGuestFile.db.users.find? 2 := by
    rw [users]
    exact QuotaService.find_charged_other (by decide)
  apply Exists.intro after
  apply And.intro runs
  apply And.intro credit
  rw [kept]
  apply And.intro charged
  intro credits
  rcases Option.map_eq_some_iff.mp charged with ⟨user, found, used⟩
  rcases credits 2 user found with ⟨now, isNow, balance⟩
  rw [kept, found] at isNow
  cases isNow
  rw [credit] at balance
  omega

end GuestFile

end TrashService

end CloudDrive
