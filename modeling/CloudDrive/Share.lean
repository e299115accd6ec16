import CloudDrive.Drive
import CloudDrive.Users

/-! # Sharing with users

`share_item` and `remove_share` of `app/share`. -/

namespace CloudDrive

open Outcome

variable [Platform]

namespace ShareService

def assertOwner (userId itemId : Uuid) (sys : System) : Except ServiceError DriveItem := do
  let item ← orRaise (sys.db.items.find? itemId) (.notFound "Item not found")
  require (item.ownerId = userId) (.forbidden "Only the owner can manage shares")
  pure item

/-- The row `share_item` leaves: an existing share keeps its owner and age. -/
def granted (sys : System) (actorId itemId targetId : Uuid) (permission : Permission)
    (notOwner : permission ≠ .owner) : Share :=
  match PermissionService.getByItemAndUser sys.db itemId targetId with
  | some existing =>
      { existing with permission := permission, updatedAt := sys.now, notOwner := notOwner }
  | none => {
      itemId := itemId
      ownerId := actorId
      targetUserId := targetId
      permission := permission
      createdAt := sys.now
      updatedAt := sys.now
      notOwner := notOwner }

def shareItem (actorId itemId : Uuid) (targetEmail : String) (permission : Permission)
    (sys : System) : Except ServiceError System := do
  let _ ← assertOwner actorId itemId sys
  let target ← UserService.getByEmail sys.db targetEmail
  require (target.id ≠ actorId) (.invalidOperation "Cannot share with yourself")
  if notOwner : permission ≠ .owner then
    pure (sys.withShares
      (sys.db.shares.save (granted sys actorId itemId target.id permission notOwner)))
  else
    .error .integrityError

def removeShare (actorId itemId targetUserId : Uuid) (sys : System) :
    Except ServiceError System := do
  let _ ← assertOwner actorId itemId sys
  let share ← orRaise (PermissionService.getByItemAndUser sys.db itemId targetUserId)
    (.notFound "Share not found")
  pure (sys.withShares (sys.db.shares.filter fun row =>
    decide ((row.itemId, row.targetUserId) ≠ (share.itemId, share.targetUserId))))

/-- `userId` owns the item with id `itemId`. -/
def Owns (sys : System) (userId itemId : Uuid) : Prop :=
  ∃ item ∈ sys.db.items, item.id = itemId ∧ item.ownerId = userId

theorem assertOwner_ok {userId itemId : Uuid} {sys : System} {item : DriveItem}
    (passed : assertOwner userId itemId sys = .ok item) : Owns sys userId itemId := by
  simp only [assertOwner, bind_eq_ok, orRaise_eq_ok, require_eq_ok, pure_eq_ok] at passed
  rcases passed with ⟨row, found, _, owned, rfl⟩
  rcases ItemTable.find?_eq_some.mp found with ⟨member, sameId⟩
  exact ⟨row, member, sameId, owned⟩

theorem granted_fields (sys : System) (actorId itemId targetId : Uuid)
    (permission : Permission) (notOwner : permission ≠ .owner) :
    (granted sys actorId itemId targetId permission notOwner).itemId = itemId ∧
    (granted sys actorId itemId targetId permission notOwner).targetUserId = targetId ∧
    (granted sys actorId itemId targetId permission notOwner).permission = permission := by
  rw [granted]
  cases found : PermissionService.getByItemAndUser sys.db itemId targetId with
  | none => exact ⟨rfl, rfl, rfl⟩
  | some existing =>
      rcases PermissionService.find_share.mp found with ⟨_, sameItem, sameTarget⟩
      exact ⟨sameItem, sameTarget, rfl⟩

theorem shareItem_ok {actorId itemId : Uuid} {targetEmail : String}
    {permission : Permission} {sys after : System}
    (runs : shareItem actorId itemId targetEmail permission sys = .ok after) :
    Owns sys actorId itemId ∧ ∃ target share,
      UserService.getByEmail sys.db targetEmail = .ok target ∧ target.id ≠ actorId ∧
      share.itemId = itemId ∧ share.targetUserId = target.id ∧
      share.permission = permission ∧
      after = sys.withShares (sys.db.shares.save share) := by
  simp only [shareItem, bind_eq_ok, require_eq_ok] at runs
  rcases runs with ⟨_, owner, target, found, _, different, runs⟩
  split at runs
  · rename_i notOwner
    rcases granted_fields sys actorId itemId target.id permission notOwner with
      ⟨onItem, toTarget, level⟩
    exact ⟨assertOwner_ok owner, target, _, found, different, onItem, toTarget, level,
      (pure_eq_ok.mp runs).symm⟩
  · cases runs

theorem removeShare_ok {actorId itemId targetUserId : Uuid} {sys after : System}
    (runs : removeShare actorId itemId targetUserId sys = .ok after) :
    Owns sys actorId itemId ∧
      after = sys.withShares (sys.db.shares.filter fun row =>
        decide ((row.itemId, row.targetUserId) ≠ (itemId, targetUserId))) := by
  simp only [removeShare, bind_eq_ok, orRaise_eq_ok, pure_eq_ok] at runs
  rcases runs with ⟨_, owner, share, found, rfl⟩
  rcases PermissionService.find_share.mp found with ⟨_, rfl, rfl⟩
  exact ⟨assertOwner_ok owner, rfl⟩

end ShareService

end CloudDrive
