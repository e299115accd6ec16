import CloudDrive.Drive.Tree

/-! # What a permission resolves to

The walk up the tree stops at the first node the user owns and otherwise keeps the best
share it has met. The result depends on the nodes of the chain, not on their order. -/

namespace CloudDrive

open Outcome Forest Relational

namespace PermissionService

theorem levelOf_le_owner (perm : Option Permission) : levelOf perm ≤ levelOf (some .owner) := by
  rcases perm with _ | _ | _ | _ | _ <;> decide

theorem levelOf_injective {left right : Option Permission} (same : levelOf left = levelOf right) :
    left = right := by
  rcases left with _ | _ | _ | _ | _ <;> rcases right with _ | _ | _ | _ | _ <;>
    first | rfl | cases same

section Resolution

variable [Platform] {db : Database} {userId : Uuid} {item : DriveItem} {result : Option Permission}

/-! ## The specification -/

/-- The user owns the item or an ancestor of it. -/
def OwnsAbove (db : Database) (userId : Uuid) (item : DriveItem) : Prop :=
  ∃ top ∈ db.items, AtOrAbove db.items.parentOf item.id top.id ∧ top.ownerId = userId

/-- The share gives the user a permission on the item or on an ancestor of it. -/
def SharedAbove (db : Database) (userId : Uuid) (item : DriveItem) (share : Share) : Prop :=
  share ∈ db.shares ∧ share.targetUserId = userId ∧
    AtOrAbove db.items.parentOf item.id share.itemId

/-- An owner, else the best of the shares, else nothing. -/
structure Resolves (db : Database) (userId : Uuid) (item : DriveItem)
    (result : Option Permission) : Prop where
  owner : OwnsAbove db userId item → result = some .owner
  best : ¬ OwnsAbove db userId item → ∀ share, SharedAbove db userId item share →
    share.permission.level ≤ levelOf result
  attained : ¬ OwnsAbove db userId item → (∃ share, SharedAbove db userId item share) →
    ∃ share, SharedAbove db userId item share ∧ result = some share.permission
  nothing : ¬ OwnsAbove db userId item → (∀ share, ¬ SharedAbove db userId item share) →
    result = none

/-- Whoever has more above them has no lower permission. -/
theorem Resolves.mono {wider : Database} {below : DriveItem} {lower higher : Option Permission}
    (first : Resolves db userId item lower) (second : Resolves wider userId below higher)
    (owns : OwnsAbove db userId item → OwnsAbove wider userId below)
    (shared : ∀ share, SharedAbove db userId item share → SharedAbove wider userId below share) :
    levelOf lower ≤ levelOf higher := by
  by_cases ownsBelow : OwnsAbove wider userId below
  · rw [second.owner ownsBelow]
    exact levelOf_le_owner lower
  · have ownsNothing := mt owns ownsBelow
    by_cases any : ∃ share, SharedAbove db userId item share
    · rcases first.attained ownsNothing any with ⟨share, isShared, rfl⟩
      exact second.best ownsBelow share (shared share isShared)
    · rw [first.nothing ownsNothing (not_exists.mp any)]
      exact Nat.zero_le _

/-- The specification has one result. -/
theorem Resolves.unique {other : Option Permission} (first : Resolves db userId item result)
    (second : Resolves db userId item other) : result = other :=
  levelOf_injective (Nat.le_antisymm (first.mono second id fun _ => id)
    (second.mono first id fun _ => id))

/-! ## The walk -/

theorem grantedOn_iff (member : item ∈ db.items) {share : Share} :
    GrantedOn db userId item share ↔ SharedAbove db userId item share := by
  constructor
  · intro granted
    rcases granted with ⟨inTable, target, top, chain, onTop⟩
    rw [SharedAbove, onTop]
    exact ⟨inTable, target, ((onChain_iff member).mp chain).2⟩
  · intro shared
    rcases shared with ⟨inTable, target, above⟩
    rcases ItemTable.atOrAbove_mem member above with ⟨top, topMem, isTop⟩
    rw [← isTop] at above
    exact ⟨inTable, target, top, (onChain_iff member).mpr ⟨topMem, above⟩, isTop.symm⟩

theorem ownsAbove_iff (member : item ∈ db.items) :
    (∃ top, OnChain db.items item top ∧ top.ownerId = userId) ↔ OwnsAbove db userId item := by
  constructor
  · intro owns
    rcases owns with ⟨top, chain, owned⟩
    rcases (onChain_iff member).mp chain with ⟨topMem, above⟩
    exact ⟨top, topMem, above, owned⟩
  · intro owns
    rcases owns with ⟨top, topMem, above, owned⟩
    exact ⟨top, (onChain_iff member).mpr ⟨topMem, above⟩, owned⟩

/-- What the walk computes is what the specification says. -/
theorem resolves_of_getPermission (member : item ∈ db.items)
    (runs : getPermission db userId item = .ok result) : Resolves db userId item result := by
  have effective := getPermission_effective runs
  have isOwner := effective.owner.trans (ownsAbove_iff member)
  constructor
  case owner => exact isOwner.mpr
  case best =>
    intro _ share shared
    exact effective.best share ((grantedOn_iff member).mpr shared)
  case attained =>
    intro notOwner any
    rcases effective.granted with none | owned | ⟨share, granted, same⟩
    · rcases any with ⟨share, shared⟩
      have least := effective.best share ((grantedOn_iff member).mpr shared)
      rw [none] at least
      cases perm : share.permission <;> rw [perm] at least <;> cases least
    · exact absurd (isOwner.mp owned) notOwner
    · exact ⟨share, (grantedOn_iff member).mp granted, same⟩
  case nothing =>
    intro notOwner noShare
    rcases effective.granted with none | owned | ⟨share, granted, _⟩
    · exact none
    · exact absurd (isOwner.mp owned) notOwner
    · exact absurd ((grantedOn_iff member).mp granted) (noShare share)

/-- A tree with more shares resolves to permissions that are no lower. -/
structure MoreShares (db wider : Database) : Prop where
  items : wider.items = db.items
  shares : ∀ share ∈ db.shares, share ∈ wider.shares

/-- In a forest every permission resolves to what the specification says, a child's is no
lower than its parent's, and more shares lower none. -/
theorem getPermission_resolves (acyclic : Acyclic db.items.parentOf) (userId : Uuid) :
    (∀ item ∈ db.items, ∃ result, getPermission db userId item = .ok result ∧
      Resolves db userId item result) ∧
    (∀ child ∈ db.items, ∀ parent ∈ db.items, child.parentId = some parent.id →
      ∀ lower higher, getPermission db userId parent = .ok lower →
        getPermission db userId child = .ok higher → levelOf lower ≤ levelOf higher) ∧
    ∀ wider, MoreShares db wider → ∀ item ∈ db.items,
      ∀ lower higher, getPermission db userId item = .ok lower →
        getPermission wider userId item = .ok higher → levelOf lower ≤ levelOf higher := by
  constructor
  · intro item member
    rcases getPermission_ends acyclic userId member with ⟨result, runs⟩
    exact ⟨result, runs, resolves_of_getPermission member runs⟩
  constructor
  · intro child childMem parent parentMem hangs lower higher runsParent runsChild
    have step : Up db.items.parentOf child.id parent.id :=
      (ItemTable.parentOf_id childMem).trans hangs
    apply (resolves_of_getPermission parentMem runsParent).mono
      (resolves_of_getPermission childMem runsChild)
    · intro owns
      rcases owns with ⟨top, topMem, above, owned⟩
      exact ⟨top, topMem, .head step above, owned⟩
    · intro share shared
      exact ⟨shared.1, shared.2.1, .head step shared.2.2⟩
  · intro wider more item member lower higher runs runsWider
    have memberWider : item ∈ wider.items := more.items ▸ member
    apply (resolves_of_getPermission member runs).mono
      (resolves_of_getPermission memberWider runsWider)
    · rw [OwnsAbove, OwnsAbove, more.items]
      exact id
    · intro share shared
      rw [SharedAbove, more.items]
      exact ⟨more.shares share shared.1, shared.2⟩

end Resolution

/-! ## A shared folder

User 1 shares `Work` with user 2. -/

section SharedFolder

attribute [local instance] smallPlatform

private def shareWork : System :=
  afterFirstDay [.createFolder 1 none "Work", .createFolder 1 (some 10) "a",
    .shareItem 1 10 "b@example.org" .viewer]

private theorem shareWork_acyclic : Acyclic shareWork.db.items.parentOf :=
  Table.parentBy_acyclic id (by decide)

theorem getPermission_resolves_shareWork :
    (∀ item ∈ shareWork.db.items, ∃ result, getPermission shareWork.db 2 item = .ok result ∧
      Resolves shareWork.db 2 item result) ∧
    (∀ child ∈ shareWork.db.items, ∀ parent ∈ shareWork.db.items,
      child.parentId = some parent.id →
      ∀ lower higher, getPermission shareWork.db 2 parent = .ok lower →
        getPermission shareWork.db 2 child = .ok higher → levelOf lower ≤ levelOf higher) ∧
    ∀ wider, MoreShares shareWork.db wider → ∀ item ∈ shareWork.db.items,
      ∀ lower higher, getPermission shareWork.db 2 item = .ok lower →
        getPermission wider 2 item = .ok higher → levelOf lower ≤ levelOf higher :=
  getPermission_resolves shareWork_acyclic 2

end SharedFolder

end PermissionService

end CloudDrive
