import CloudDrive.Names

/-! # Effective permissions

`app/permission`: the walk from an item to the root of its tree, and what it
computes over the whole chain. -/

namespace CloudDrive

open Outcome Forest

variable [Platform]

/-- `_LEVELS`. -/
def Permission.level : Permission → Nat
  | .viewer => 1
  | .downloader => 2
  | .editor => 3
  | .owner => 4

/-- No permission lies below every level. -/
def levelOf : Option Permission → Nat
  | none => 0
  | some permission => permission.level

def hasAtLeast (perm : Option Permission) (required : Permission) : Bool :=
  match perm with
  | none => false
  | some perm => decide (required.level ≤ perm.level)

omit [Platform] in
theorem hasAtLeast_iff {perm : Option Permission} {required : Permission} :
    hasAtLeast perm required = true ↔ required.level ≤ levelOf perm := by
  cases perm with
  | none => cases required <;> simp [hasAtLeast, levelOf, Permission.level]
  | some perm => simp [hasAtLeast, levelOf]

namespace PermissionService

/-- `get_by_item_and_user`. -/
def getByItemAndUser (db : Database) (itemId userId : Uuid) : Option Share :=
  db.shares.find? (itemId, userId)

/-- `candidate` replaces `best` when it is more permissive. -/
def improve (best : Option Permission) (share : Option Share) : Option Permission :=
  match share with
  | none => best
  | some share =>
      if best = none ∨ levelOf best < share.permission.level then
        some share.permission
      else
        best

/-- The loop of `get_permission`, one node of the parent chain a round. -/
def walk (db : Database) (userId : Uuid) :
    Nat → Option Permission → DriveItem → Except ServiceError (Option Permission)
  | 0, _, _ => .error .diverged
  | fuel + 1, best, current =>
      if current.ownerId = userId then
        .ok (some .owner)
      else
        let best := improve best (getByItemAndUser db current.id userId)
        match current.parentId with
        | none => .ok best
        | some parentId =>
            match db.items.find? parentId with
            | none => .ok best
            | some parent => walk db userId fuel best parent

def getPermission (db : Database) (userId : Uuid) (item : DriveItem) :
    Except ServiceError (Option Permission) :=
  walk db userId (db.items.rows.length + 1) none item

def assertCanView (db : Database) (userId : Uuid) (item : DriveItem) :
    Except ServiceError Unit := do
  let perm ← getPermission db userId item
  require (hasAtLeast perm .viewer) (.forbidden "Forbidden")

def assertCanEdit (db : Database) (userId : Uuid) (item : DriveItem) :
    Except ServiceError Unit := do
  let perm ← getPermission db userId item
  require (hasAtLeast perm .editor) (.forbidden "Forbidden")

/-! ## The chain of an item -/

/-- `top` is met when walking up from `item`. -/
inductive OnChain (items : ItemTable) : DriveItem → DriveItem → Prop
  | here (item : DriveItem) : OnChain items item item
  | up {item parent top : DriveItem} {parentId : Uuid} :
      item.parentId = some parentId → items.find? parentId = some parent →
      OnChain items parent top → OnChain items item top

theorem onChain_iff {items : ItemTable} {item top : DriveItem} (member : item ∈ items) :
    OnChain items item top ↔
      top ∈ items ∧ AtOrAbove items.parentOf item.id top.id := by
  constructor
  · intro chain
    induction chain with
    | here item => exact ⟨member, .refl⟩
    | up step found _ induction =>
        rcases ItemTable.find?_eq_some.mp found with ⟨parentMem, rfl⟩
        rcases induction parentMem with ⟨topMem, above⟩
        exact ⟨topMem, .head ((ItemTable.parentOf_id member).trans step) above⟩
  · rintro ⟨topMem, above⟩
    generalize start : item.id = itemId at above
    induction above using Relation.ReflTransGen.head_induction_on generalizing item with
    | refl =>
        rw [ItemTable.eq_of_id_eq member topMem start]
        exact .here top
    | @head _ middle step _ induction =>
        subst start
        have points : item.parentId = some middle :=
          (ItemTable.parentOf_id member).symm.trans step
        rcases ItemTable.parent_mem member points with ⟨parent, parentMem, rfl⟩
        exact .up points (ItemTable.find?_id parentMem) (induction parentMem rfl)

/-- The share by which `userId` has `share.permission` on a node of the chain. -/
def GrantedOn (db : Database) (userId : Uuid) (item : DriveItem) (share : Share) : Prop :=
  share ∈ db.shares ∧ share.targetUserId = userId ∧
    ∃ top, OnChain db.items item top ∧ share.itemId = top.id

/-- What `get_permission` is for: owners of a node of the chain are owners of
the item, everybody else has the best share on the chain. -/
structure Effective (db : Database) (userId : Uuid) (item : DriveItem)
    (result : Option Permission) : Prop where
  owner : result = some .owner ↔
    ∃ top, OnChain db.items item top ∧ top.ownerId = userId
  best : ∀ share, GrantedOn db userId item share →
    share.permission.level ≤ levelOf result
  granted : result = none ∨ result = some .owner ∨
    ∃ share, GrantedOn db userId item share ∧ result = some share.permission

theorem find_share {db : Database} {itemId userId : Uuid} {share : Share} :
    getByItemAndUser db itemId userId = some share ↔
      share ∈ db.shares ∧ share.itemId = itemId ∧ share.targetUserId = userId := by
  rw [getByItemAndUser, Relational.Table.find?_eq_some, Share.key_eq, Prod.mk.injEq]

omit [Platform] in
theorem improve_cases (best : Option Permission) (share : Option Share) :
    levelOf best ≤ levelOf (improve best share) ∧
    (∀ given ∈ share, given.permission.level ≤ levelOf (improve best share)) ∧
    (improve best share = best ∨
      ∃ given ∈ share, improve best share = some given.permission) := by
  cases share with
  | none => simp [improve]
  | some share =>
      by_cases better : best = none ∨ levelOf best < share.permission.level
      · have improved : improve best (some share) = some share.permission := by
          simp only [improve, better, if_true]
        rw [improved]
        refine ⟨?_, by simp [levelOf], .inr ⟨share, rfl, rfl⟩⟩
        rcases better with rfl | better
        · exact Nat.zero_le _
        · exact better.le
      · have kept : improve best (some share) = best := by
          simp only [improve, better, if_false]
        rw [kept]
        have notBetter := not_lt.mp (not_or.mp better).2
        exact ⟨le_rfl, by simpa using notBetter, .inl rfl⟩

/-- One run of the loop: what the rest of the chain adds to `best`. -/
private theorem walk_spec {db : Database} {userId : Uuid} :
    ∀ {fuel : Nat} {best result : Option Permission} {item : DriveItem},
      best ≠ some .owner → walk db userId fuel best item = .ok result →
      (result = some .owner ↔
        ∃ top, OnChain db.items item top ∧ top.ownerId = userId) ∧
      levelOf best ≤ levelOf result ∧
      (∀ share, GrantedOn db userId item share →
        share.permission.level ≤ levelOf result) ∧
      (result = best ∨ result = some .owner ∨
        ∃ share, GrantedOn db userId item share ∧ result = some share.permission)
  | 0, _, _, _, _, runs => by cases runs
  | fuel + 1, best, result, item, notOwner, runs => by
      rw [walk] at runs
      by_cases owned : item.ownerId = userId
      · simp only [owned, if_true, Except.ok.injEq] at runs
        subst runs
        refine ⟨⟨fun _ => ⟨item, .here item, owned⟩, fun _ => rfl⟩, ?_, ?_, .inr (.inl rfl)⟩
        · rcases best with _ | _ | _ | _ | _ <;> simp [levelOf, Permission.level]
        · intro share _
          cases share.permission <;> simp [levelOf, Permission.level]
      · simp only [owned, if_false] at runs
        rcases improve_cases best (getByItemAndUser db item.id userId) with
          ⟨bestLe, shareLe, source⟩
        have here : ∀ share, share ∈ getByItemAndUser db item.id userId →
            GrantedOn db userId item share := by
          intro share found
          rcases find_share.mp found with ⟨shareMem, onItem, target⟩
          exact ⟨shareMem, target, item, .here item, onItem⟩
        have improvedNotOwner :
            improve best (getByItemAndUser db item.id userId) ≠ some .owner := by
          rcases source with kept | ⟨share, _, improved⟩
          · rwa [kept]
          · rw [improved]
            exact fun equal => share.notOwner (Option.some.inj equal)
        -- The chain ends at `item`: nothing above it is consulted.
        have ends : (∀ parentId parent, item.parentId = some parentId →
              db.items.find? parentId ≠ some parent) →
            result = improve best (getByItemAndUser db item.id userId) →
            (result = some .owner ↔
              ∃ top, OnChain db.items item top ∧ top.ownerId = userId) ∧
            levelOf best ≤ levelOf result ∧
            (∀ share, GrantedOn db userId item share →
              share.permission.level ≤ levelOf result) ∧
            (result = best ∨ result = some .owner ∨
              ∃ share, GrantedOn db userId item share ∧
                result = some share.permission) := by
          intro noParent same
          subst same
          have onlyItem : ∀ top, OnChain db.items item top → top = item := by
            intro top chain
            cases chain with
            | here => rfl
            | up step found => exact absurd found (noParent _ _ step)
          refine ⟨⟨fun equal => absurd equal improvedNotOwner, ?_⟩, bestLe, ?_, ?_⟩
          · rintro ⟨top, chain, ownedTop⟩
            rw [onlyItem top chain] at ownedTop
            exact absurd ownedTop owned
          · rintro share ⟨shareMem, target, top, chain, onTop⟩
            rw [onlyItem top chain] at onTop
            exact shareLe share (find_share.mpr ⟨shareMem, onTop, target⟩)
          · rcases source with kept | ⟨share, found, improved⟩
            · exact .inl kept
            · exact .inr (.inr ⟨share, here share found, improved⟩)
        cases step : item.parentId with
        | none =>
            simp only [step, Except.ok.injEq] at runs
            exact ends (by simp [step]) runs.symm
        | some parentId =>
            cases found : db.items.find? parentId with
            | none =>
                simp only [step, found, Except.ok.injEq] at runs
                refine ends ?_ runs.symm
                intro other parent same foundOther
                cases step.symm.trans same
                cases found.symm.trans foundOther
            | some parent =>
                simp only [step, found] at runs
                rcases walk_spec improvedNotOwner runs with
                  ⟨ownerIff, improvedLe, parentLe, parentSource⟩
                refine ⟨ownerIff.trans ⟨?_, ?_⟩, bestLe.trans improvedLe, ?_, ?_⟩
                · rintro ⟨top, chain, ownedTop⟩
                  exact ⟨top, .up step found chain, ownedTop⟩
                · rintro ⟨top, chain, ownedTop⟩
                  cases chain with
                  | here => exact absurd ownedTop owned
                  | up stepOther foundOther chain =>
                      cases step.symm.trans stepOther
                      cases found.symm.trans foundOther
                      exact ⟨top, chain, ownedTop⟩
                · rintro share ⟨shareMem, target, top, chain, onTop⟩
                  cases chain with
                  | here =>
                      exact (shareLe share (find_share.mpr ⟨shareMem, onTop, target⟩)).trans
                        improvedLe
                  | up stepOther foundOther chain =>
                      cases step.symm.trans stepOther
                      cases found.symm.trans foundOther
                      exact parentLe share ⟨shareMem, target, top, chain, onTop⟩
                · rcases parentSource with kept | isOwner | ⟨share, granted, same⟩
                  · rcases source with keptHere | ⟨share, foundShare, improved⟩
                    · exact .inl (kept.trans keptHere)
                    · exact .inr (.inr ⟨share, here share foundShare, kept.trans improved⟩)
                  · exact .inr (.inl isOwner)
                  · rcases granted with ⟨shareMem, target, top, chain, onTop⟩
                    exact .inr (.inr ⟨share,
                      ⟨shareMem, target, top, .up step found chain, onTop⟩, same⟩)

theorem getPermission_effective {db : Database} {userId : Uuid} {item : DriveItem}
    {result : Option Permission} (runs : getPermission db userId item = .ok result) :
    Effective db userId item result := by
  rcases walk_spec (by simp) runs with ⟨ownerIff, _, shareLe, source⟩
  exact ⟨ownerIff, shareLe, source⟩

private theorem walk_ends {db : Database} {userId : Uuid} :
    ∀ {fuel : Nat} {best : Option Permission} {item : DriveItem}, item ∈ db.items →
      ancestor db.items.parentOf fuel item.id = none →
      ∃ result, walk db userId fuel best item = .ok result
  | 0, _, _, _, ends => by cases ends
  | fuel + 1, best, item, member, ends => by
      rw [walk]
      by_cases owned : item.ownerId = userId
      · exact ⟨some .owner, by simp [owned]⟩
      · simp only [owned, if_false]
        cases step : item.parentId with
        | none => exact ⟨_, rfl⟩
        | some parentId =>
            cases found : db.items.find? parentId with
            | none =>
                simp only [found]
                exact ⟨_, rfl⟩
            | some parent =>
                simp only [found]
                rcases ItemTable.find?_eq_some.mp found with ⟨parentMem, rfl⟩
                refine walk_ends parentMem ?_
                rw [ancestor, ItemTable.parentOf_id member, step] at ends
                exact ends

/-- In a forest the walk ends. -/
theorem getPermission_ends {db : Database} (acyclic : Acyclic db.items.parentOf)
    (userId : Uuid) {item : DriveItem} (member : item ∈ db.items) :
    ∃ result, getPermission db userId item = .ok result :=
  walk_ends member (Relational.Table.chain_ends acyclic item.id)

end PermissionService

end CloudDrive
