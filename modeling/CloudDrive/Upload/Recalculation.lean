import CloudDrive.Upload.UsedBytes

/-! # Recalculating the counter

`recalculate_used_bytes` adds up the versions of the files that are not in the trash, while
the counter keeps the bytes of a trashed file until the file is deleted for good. -/

namespace CloudDrive

open Outcome Relational Execution

namespace QuotaService

section Recalculation

variable [Platform]

/-- `SELECT id FROM drive_items WHERE owner_id = user_id AND is_deleted IS FALSE`. -/
def liveItemIds (db : Database) (userId : Uuid) : List Uuid :=
  (db.items.rows.filter fun item => decide (item.ownerId = userId) && !item.isDeleted).map
    DriveItem.id

def recalculateUsedBytes (userId : Uuid) (sys : System) : Nat × System :=
  let total := (sys.db.versions.filter fun version =>
    decide (version.fileId ∈ liveItemIds sys.db userId)).total FileVersion.sizeBytes
  (total, changeUsedBytes userId (fun _ => total) sys)

/-- The counter of the user is what it was. -/
def LeavesUsedBytes (userId : Uuid) (before after : Database) : Prop :=
  ∀ user, before.users.find? userId = some user →
    ∃ now, after.users.find? userId = some now ∧ now.usedBytes = user.usedBytes

/-- No bytes belong to a file that is itself marked deleted. -/
def TrashedFilesEmpty (db : Database) : Prop :=
  ∀ item ∈ db.items, item.isDeleted = true →
    ∀ version ∈ db.versions, version.fileId = item.id → version.sizeBytes = 0

instance (db : Database) : Decidable (TrashedFilesEmpty db) :=
  inferInstanceAs (Decidable (∀ item ∈ db.items.rows, _ → ∀ version ∈ db.versions.rows, _ → _))

theorem recalculated_users (userId : Uuid) (sys : System) :
    (recalculateUsedBytes userId sys).2.db.users =
      charged userId (fun _ => (recalculateUsedBytes userId sys).1) sys.db.users :=
  rfl

theorem mem_liveItemIds {db : Database} {userId itemId : Uuid} :
    itemId ∈ liveItemIds db userId ↔
      ∃ item ∈ db.items, item.id = itemId ∧ item.ownerId = userId ∧ item.isDeleted = false := by
  rw [liveItemIds, List.mem_map]
  constructor
  · intro among
    rcases among with ⟨item, kept, sameId⟩
    rcases List.mem_filter.mp kept with ⟨member, passes⟩
    rw [Bool.and_eq_true, decide_eq_true_eq, Bool.not_eq_true'] at passes
    exact ⟨item, member, sameId, passes.1, passes.2⟩
  · intro found
    rcases found with ⟨item, member, sameId, owned, live⟩
    apply Exists.intro item
    apply And.intro _ sameId
    apply List.mem_filter.mpr
    apply And.intro member
    rw [decide_eq_true owned, live]
    rfl

/-- What the sum leaves out are the versions of the files that are marked deleted. -/
theorem dropped_eq_zero_iff {db : Database} {ownerId : Uuid} (files : VersionsOfFiles db)
    (sole : SoleOwner ownerId db) :
    (db.versions.filter fun version => !decide (version.fileId ∈ liveItemIds db ownerId)).total
        FileVersion.sizeBytes = 0 ↔ TrashedFilesEmpty db := by
  rw [Table.total_eq_zero_iff]
  constructor
  · intro nothing item member trashed version versionMem sameId
    apply nothing version
    apply Table.mem_filter.mpr
    apply And.intro versionMem
    rw [Bool.not_eq_true', decide_eq_false_iff_not, mem_liveItemIds]
    intro found
    rcases found with ⟨live, liveMem, liveId, _, isLive⟩
    have same : live = item := ItemTable.eq_of_id_eq liveMem member (liveId.trans sameId)
    rw [same, trashed] at isLive
    cases isLive
  · intro empty version dropped
    rcases Table.mem_filter.mp dropped with ⟨versionMem, notLive⟩
    rw [Bool.not_eq_true', decide_eq_false_iff_not, mem_liveItemIds] at notLive
    rcases files version versionMem with ⟨item, member, sameId, _⟩
    apply empty item member _ version versionMem sameId.symm
    by_contra live
    exact notLive ⟨item, member, sameId, sole item member, Bool.eq_false_iff.mpr live⟩

theorem recalculated_iff {ownerId : Uuid} {sys : System}
    (accounted : Accounted ownerId sys.db) (sole : SoleOwner ownerId sys.db) {user : User}
    (found : sys.db.users.find? ownerId = some user) :
    (recalculateUsedBytes ownerId sys).1 = user.usedBytes ↔ TrashedFilesEmpty sys.db := by
  have parts := Table.total_filter sys.db.versions
    (fun version => decide (version.fileId ∈ liveItemIds sys.db ownerId)) FileVersion.sizeBytes
  rw [← dropped_eq_zero_iff accounted.files sole, accounted.used user found, ← parts]
  show _ = (recalculateUsedBytes ownerId sys).1 + _ ↔ _
  omega

/-- From an empty drive on, as long as all items have one owner, a recalculation leaves the
counter as it is exactly when no file with bytes is itself marked deleted. -/
theorem recalculateUsedBytes_iff {ownerId : Uuid} {start final : System}
    {events : List (Event System Op)} (run : Run Op.Commits start events final)
    (noRestore : ∀ event ∈ events, event.action.NoSnapshotRestore)
    (noItems : start.db.items = .empty) (noVersions : start.db.versions = .empty)
    (nothingUsed : ∀ user, start.db.users.find? ownerId = some user → user.usedBytes = 0)
    (sole : ∀ event ∈ events, SoleOwner ownerId event.after.db)
    {user : User} (found : final.db.users.find? ownerId = some user) :
    LeavesUsedBytes ownerId final.db (recalculateUsedBytes ownerId final).2.db ↔
      TrashedFilesEmpty final.db := by
  rcases accounted_run run noRestore noItems noVersions nothingUsed sole with
    ⟨accounted, soleFinal⟩
  have recalculated : (recalculateUsedBytes ownerId final).2.db.users.find? ownerId =
      some { user with usedBytes := (recalculateUsedBytes ownerId final).1 } :=
    by
    rw [recalculated_users, find_charged_self found]
  rw [← recalculated_iff accounted soleFinal found, LeavesUsedBytes]
  constructor
  · intro leaves
    rcases leaves user found with ⟨now, isNow, same⟩
    rw [recalculated, Option.some.injEq] at isNow
    rw [← same, ← isNow]
  · intro same other isOther
    rw [found, Option.some.injEq] at isOther
    exact ⟨_, recalculated, same.trans (congrArg User.usedBytes isOther)⟩

end Recalculation

/-! ## A folder and a file in the trash

A file in a trashed folder is not marked itself and still counts. -/

section InTheTrash

attribute [local instance] smallPlatform

private def trashesFolder : List Op :=
  [.createFolder 1 none "Work", .uploadSimple 1 (some 10) "a" [[65, 66]] 2 none, .trashItem 1 10]

private def trashesFile : List Op :=
  [.uploadSimple 1 none "a" [[65, 66]] 2 none, .trashItem 1 11]

theorem recalculateUsedBytes_iff_trashedFolder :
    ∃ final, Op.commitAll trashesFolder firstDay = .ok final ∧ TrashedFilesEmpty final.db ∧
      LeavesUsedBytes 1 final.db (recalculateUsedBytes 1 final).2.db := by
  cases runs : Op.commitAll trashesFolder firstDay with
  | error => cases runs
  | ok final =>
      apply Exists.intro final
      apply And.intro rfl
      have run := Op.run_trace (by simp [trashesFolder, Op.Offered]) runs
      have noRestore : ∀ event ∈ Op.trace trashesFolder firstDay,
          event.action.NoSnapshotRestore := by
        intro event member
        have isOne := Op.action_mem_of_trace member
        simp only [trashesFolder, List.mem_cons, List.not_mem_nil, or_false] at isOne
        rcases isOne with isOne | isOne | isOne <;> rw [isOne] <;> trivial
      have nothingUsed : ∀ user, firstDay.db.users.find? 1 = some user → user.usedBytes = 0 := by
        intro user found
        cases found
        rfl
      have empty : TrashedFilesEmpty final.db := by
        cases runs
        decide
      apply And.intro empty
      cases search : final.db.users.find? 1 with
      | none =>
          cases runs
          cases search
      | some user =>
          exact (recalculateUsedBytes_iff run noRestore rfl rfl nothingUsed (by decide)
            search).mpr empty

/-- Two bytes are uploaded and the file is trashed: the counter falls from two to zero. -/
theorem trashed_uncounted :
    ∃ final, Op.commitAll trashesFile firstDay = .ok final ∧
      (∀ user, final.db.users.find? 1 = some user → user.usedBytes = 2) ∧
      (recalculateUsedBytes 1 final).1 = 0 ∧
      ¬ LeavesUsedBytes 1 final.db (recalculateUsedBytes 1 final).2.db := by
  cases runs : Op.commitAll trashesFile firstDay with
  | error => cases runs
  | ok final =>
      apply Exists.intro final
      apply And.intro rfl
      cases runs
      constructor
      · intro user found
        cases found
        rfl
      · apply And.intro rfl
        intro leaves
        rcases leaves _ rfl with ⟨now, isNow, same⟩
        cases isNow
        exact absurd same (by decide)

end InTheTrash

end QuotaService

end CloudDrive
