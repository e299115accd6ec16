import CloudDrive.Operation
import CloudDrive.Drive.Tree
import CloudDrive.PublicShare

/-! # What a guest can reach

Guest writes run as the owner of the shared item, so only the resolution of the
ids keeps them inside its subtree. -/

namespace CloudDrive

open Outcome Relational Forest Relation Execution DriveService

namespace PublicShareService

section Guests

variable [Platform]

/-! ## Requests -/

inductive GuestOp where
  | createFolder (parentId : Uuid) (name : String)
  | rename (itemId : Uuid) (newName : String)
  | move (itemId newParentId : Uuid)
  | trash (itemId : Uuid)
  | upload (parentId : Uuid) (filename : String) (stream : List Content) (sizeBytes : Nat)
      (mimeType : Option String)

/-- The state that a write of an authorised guest commits. -/
def GuestOp.commit (auth : Authorized) : GuestOp → System → Except ShareError System
  | .createFolder parentId name, sys => do
      let (_, sys) ← PublicShareService.createFolder auth parentId name sys
      pure sys
  | .rename itemId newName, sys => do
      let (_, sys) ← PublicShareService.rename auth itemId newName sys
      pure sys
  | .move itemId newParentId, sys => do
      let (_, sys) ← PublicShareService.move auth itemId newParentId sys
      pure sys
  | .trash itemId, sys => PublicShareService.trash auth itemId sys
  | .upload parentId filename stream sizeBytes mimeType, sys => do
      let (_, sys) ← PublicShareService.upload auth parentId filename stream sizeBytes
        mimeType sys
      pure sys

/-- A guest write: the credential, the links and the time it is checked at, and
what it asks for. -/
structure GuestRequest where
  token : ShareAccessToken
  links : Table ShareLink
  now : Instant
  op : GuestOp

/-- The state that the request commits. -/
def GuestRequest.serve (request : GuestRequest) (sys : System) : Except ShareError System := do
  let auth ← authorize request.links sys.db.items request.now request.token
  request.op.commit auth sys

/-- The request comes with a credential of the link on `rootId`, and commits. -/
structure GuestCommits (linkId rootId : Uuid) (request : GuestRequest)
    (before after : System) : Prop where
  ofLink : request.token.sub = linkId
  onRoot : ∀ link ∈ request.links, link.id = linkId → link.itemId = rootId
  commits : request.serve before = .ok after

/-! ## The subtree -/

/-- `itemId` is the shared item or below it. -/
def Inside (items : ItemTable) (rootId itemId : Uuid) : Prop :=
  AtOrAbove items.parentOf itemId rootId

theorem subtreeWalk_inside {items : ItemTable} {rootId : Uuid} :
    ∀ {fuel : Nat} {item : DriveItem}, item ∈ items →
      subtreeWalk items rootId fuel (some item) = true → Inside items rootId item.id
  | 0, _, _, found => by cases found
  | fuel + 1, item, member, found => by
      rw [subtreeWalk] at found
      split at found
      · rename_i same
        exact same ▸ .refl
      · split at found
        · cases found
        · rename_i parentId points
          have step := (ItemTable.parentOf_id member).trans points
          cases isParent : items.find? parentId with
          | none =>
              rw [isParent] at found
              cases fuel <;> cases found
          | some parent =>
              rw [isParent] at found
              rcases ItemTable.find?_eq_some.mp isParent with ⟨parentMem, rfl⟩
              exact .head step (subtreeWalk_inside parentMem found)

theorem resolveInSubtree_ok {rootId itemId : Uuid} {items : ItemTable} {item : DriveItem}
    (resolved : resolveInSubtree rootId itemId items = .ok item) :
    item ∈ items ∧ item.id = itemId ∧ Inside items rootId itemId := by
  simp only [resolveInSubtree, bind_eq_ok, orRaise_eq_ok, require_eq_ok, pure_eq_ok] at resolved
  rcases resolved with ⟨row, found, _, _, _, walked, rfl⟩
  rcases ItemTable.find?_eq_some.mp found with ⟨member, rfl⟩
  exact ⟨member, rfl, subtreeWalk_inside member walked⟩

theorem guestFolder_ok {auth : Authorized} {folderId : Uuid} {kindMessage : String}
    {sys : System} {folder : DriveItem}
    (resolved : guestFolder auth folderId kindMessage sys = .ok folder) :
    folder.id = folderId ∧ Inside sys.db.items auth.root.id folderId := by
  simp only [guestFolder, bind_eq_ok, require_eq_ok, pure_eq_ok] at resolved
  rcases resolved with ⟨row, found, _, _, rfl⟩
  rcases resolveInSubtree_ok found with ⟨_, sameId, inside⟩
  exact ⟨sameId, inside⟩

/-! ## What stays as it was -/

/-- Between two states of the drive nothing outside the subtree changed, nothing
left or entered it, and only into it came new items. -/
structure Confines (rootId : Uuid) (before after : ItemTable) : Prop where
  outside : ∀ row ∈ before, ¬ Inside before rootId row.id → row ∈ after
  root : ∀ row ∈ before, row.id = rootId →
    ∃ now ∈ after, now.id = rootId ∧ now.parentId = row.parentId ∧
      now.isDeleted = row.isDeleted
  members : ∀ row ∈ before, (∃ now ∈ after, now.id = row.id) ∧
    (Inside after rootId row.id ↔ Inside before rootId row.id)
  added : ∀ row ∈ after, (∀ old ∈ before, old.id ≠ row.id) → Inside after rootId row.id

namespace Confines

variable {rootId : Uuid} {before middle after : ItemTable}

theorem refl (rootId : Uuid) (items : ItemTable) : Confines rootId items items where
  outside _ member _ := member
  root row member isRoot := ⟨row, member, isRoot, rfl, rfl⟩
  members row member := ⟨⟨row, member, rfl⟩, Iff.rfl⟩
  added row member fresh := absurd rfl (fresh row member)

theorem trans (first : Confines rootId before middle) (second : Confines rootId middle after) :
    Confines rootId before after where
  outside row member apart :=
    second.outside row (first.outside row member apart)
      (mt (first.members row member).2.mp apart)
  root row member isRoot := by
    rcases first.root row member isRoot with ⟨now, nowMem, nowRoot, sameParent, sameState⟩
    rcases second.root now nowMem nowRoot with ⟨last, lastMem, lastRoot, parent, state⟩
    exact ⟨last, lastMem, lastRoot, parent.trans sameParent, state.trans sameState⟩
  members row member := by
    rcases first.members row member with ⟨⟨now, nowMem, sameId⟩, sameMembers⟩
    rcases second.members now nowMem with ⟨⟨last, lastMem, lastId⟩, lastMembers⟩
    rw [sameId] at lastMembers lastId
    exact ⟨⟨last, lastMem, lastId⟩, lastMembers.trans sameMembers⟩
  added row member fresh := by
    by_cases between : ∃ now ∈ middle, now.id = row.id
    · rcases between with ⟨now, nowMem, sameId⟩
      rw [← sameId] at fresh ⊢
      exact (second.members now nowMem).2.mpr (first.added now nowMem fresh)
    · exact second.added row member fun now nowMem sameId => between ⟨now, nowMem, sameId⟩

/-- A row inside was rewritten; it stays where it is, or it is not the root and
moves to another place inside. -/
theorem of_replaced (acyclic : Acyclic before.parentOf) {old new : DriveItem}
    (replaced : ItemTable.Replaced before after old new) (inside : Inside before rootId old.id)
    (parent : new.parentId = old.parentId ∨ (old.id ≠ rootId ∧ ∃ target,
      new.parentId = some target ∧ Inside before rootId target ∧
        ¬ AtOrAbove before.parentOf target old.id))
    (root : old.id = rootId → new.isDeleted = old.isDeleted) :
    Confines rootId before after := by
  have members : ∀ itemId, Inside after rootId itemId ↔ Inside before rootId itemId := by
    intro itemId
    rw [Inside, Inside, replaced.parentOf]
    rcases parent with same | ⟨_, target, hangs, targetIn, apart⟩
    · rw [same, ← ItemTable.parentOf_id replaced.member]
      have identical : reparent before.parentOf old.id (before.parentOf old.id) =
          before.parentOf := by
        funext node
        by_cases isOld : node = old.id
        · simp [reparent, isOld]
        · simp [reparent, isOld]
      rw [identical]
    · rw [hangs]
      exact atOrAbove_reparent_within acyclic inside targetIn apart
  constructor
  case outside =>
    intro row member apart
    apply (replaced.rows row).mpr
    exact .inr ⟨member, fun same => apart (same ▸ inside)⟩
  case root =>
    intro row member isRoot
    by_cases same : row.id = old.id
    · have isOld := ItemTable.eq_of_id_eq member replaced.member same
      rw [isOld] at isRoot ⊢
      refine ⟨new, replaced.newMem, replaced.sameId.trans isRoot, ?_, root isRoot⟩
      rcases parent with kept | ⟨notRoot, _⟩
      · exact kept
      · exact absurd isRoot notRoot
    · exact ⟨row, (replaced.rows row).mpr (.inr ⟨member, same⟩), isRoot, rfl, rfl⟩
  case members =>
    intro row member
    refine ⟨?_, members row.id⟩
    by_cases same : row.id = old.id
    · exact ⟨new, replaced.newMem, replaced.sameId.trans same.symm⟩
    · exact ⟨row, (replaced.rows row).mpr (.inr ⟨member, same⟩), rfl⟩
  case added =>
    intro row member fresh
    rcases (replaced.rows row).mp member with rfl | ⟨earlier, _⟩
    · exact absurd replaced.sameId.symm (fresh old replaced.member)
    · exact absurd rfl (fresh row earlier)

/-- A new row was added below an item inside. -/
theorem of_added {item : DriveItem} (rows : ∀ row, row ∈ after ↔ row ∈ before ∨ row = item)
    (fresh : ∀ row ∈ before, row.id ≠ item.id) {target : Uuid}
    (hangs : item.parentId = some target) (folder : IsFolder before target)
    (inside : Inside before rootId target) : Confines rootId before after := by
  have edges : ∀ {node above}, Up before.parentOf node above → Up after.parentOf node above := by
    intro node above step
    rcases ItemTable.parentOf_eq_some.mp step with ⟨row, member, sameId, points⟩
    exact ItemTable.parentOf_eq_some.mpr ⟨row, (rows row).mpr (.inl member), sameId, points⟩
  have keeps : ∀ {itemId}, Inside before rootId itemId → Inside after rootId itemId :=
    fun path => ReflTransGen.mono (fun _ _ step => edges step) _ _ path
  have itemIn : Inside after rootId item.id :=
    .head ((ItemTable.parentOf_id ((rows item).mpr (.inr rfl))).trans hangs) (keeps inside)
  constructor
  case outside => exact fun row member _ => (rows row).mpr (.inl member)
  case root =>
    exact fun row member isRoot => ⟨row, (rows row).mpr (.inl member), isRoot, rfl, rfl⟩
  case members =>
    intro row member
    refine ⟨⟨row, (rows row).mpr (.inl member), rfl⟩, ?_, keeps⟩
    intro path
    rw [Inside, ItemTable.add_parentOf rows fresh, hangs] at path
    have targetOld : ∀ top, some target = some top → ¬ AtOrAbove before.parentOf top item.id := by
      intro top same back
      cases same
      rcases folder with ⟨row, rowMem, rfl, _⟩
      rcases atOrAbove_iff.mp back with isItem | above
      · exact fresh row rowMem isItem
      · exact not_above_fresh fresh above
    rcases atOrAbove_reparent targetOld path with old | ⟨toItem, _⟩
    · exact old
    · rcases atOrAbove_iff.mp toItem with same | above
      · exact absurd same (fresh row member)
      · exact absurd above (not_above_fresh fresh)
  case added =>
    intro row member isNew
    rcases (rows row).mp member with earlier | rfl
    · exact absurd rfl (isNew row earlier)
    · exact itemIn

end Confines

/-! ## One request -/

theorem authorize_root {links : Table ShareLink} {items : ItemTable} {now : Instant}
    {token : ShareAccessToken} {auth : Authorized} {linkId rootId : Uuid}
    (accepted : authorize links items now token = .ok auth) (ofLink : token.sub = linkId)
    (onRoot : ∀ link ∈ links, link.id = linkId → link.itemId = rootId) :
    auth.root.id = rootId := by
  rcases (authorize_eq_ok.mp accepted).2 with ⟨link, found, _, _, root, isRoot, _, rfl⟩
  rcases Table.find?_eq_some.mp found with ⟨member, sameId⟩
  rw [(ItemTable.find?_eq_some.mp isRoot).2]
  exact onRoot link member (sameId.trans ofLink)

theorem GuestOp.confines {auth : Authorized} {op : GuestOp} {before after : System}
    (tree : FolderTree before.db.items) (commits : op.commit auth before = .ok after) :
    Confines auth.root.id before.db.items after.db.items ∧ FolderTree after.db.items := by
  cases op with
  | createFolder parentId name =>
      simp only [GuestOp.commit, PublicShareService.createFolder, bind_eq_ok, pure_eq_ok,
        downstream_eq_ok] at commits
      rcases commits with ⟨⟨_, _⟩, ⟨_, _, parent, resolved, ⟨created, _⟩, runs, _, _, same⟩, rfl⟩
      cases same
      rcases guestFolder_ok resolved with ⟨sameId, inside⟩
      rcases createFolder_ok runs with ⟨writable, _, rfl, items, added, rfl⟩
      have folder := (writable parent.id rfl).isFolder
      have fresh := ItemTable.fresh_of_add added
      have rows : ∀ row, row ∈ items ↔ _ := fun row => ItemTable.mem_of_add added
      exact ⟨.of_added rows fresh rfl folder (sameId ▸ inside),
        tree.of_added rows fresh fun top named => Option.some.inj named ▸ folder⟩
  | rename itemId newName =>
      simp only [GuestOp.commit, PublicShareService.rename, bind_eq_ok, pure_eq_ok,
        downstream_eq_ok] at commits
      rcases commits with ⟨⟨_, _⟩, ⟨_, _, item, resolved, _, runs, _, _, same⟩, rfl⟩
      cases same
      rcases resolveInSubtree_ok resolved with ⟨_, rfl, inside⟩
      rcases rename_ok runs with rfl | ⟨old, editable, sameId, _, items, changed, rfl⟩
      · exact ⟨.refl _ _, tree⟩
      · rw [← sameId] at changed inside
        have replaced := ItemTable.change_replaced editable.member rfl changed
        exact ⟨.of_replaced tree.acyclic replaced inside (.inl rfl) fun _ => rfl,
          tree.of_replaced replaced ⟨rfl, rfl, rfl, rfl, rfl⟩
            (tree.hung_in_place editable.member (.inl rfl))⟩
  | move itemId newParentId =>
      simp only [GuestOp.commit, PublicShareService.move, bind_eq_ok, pure_eq_ok,
        downstream_eq_ok] at commits
      rcases commits with ⟨⟨_, _⟩, ⟨_, _, item, resolved, parent, target, _, runs, _, _, same⟩, rfl⟩
      cases same
      rcases resolveInSubtree_ok resolved with ⟨_, rfl, inside⟩
      rcases guestFolder_ok target with ⟨rfl, targetIn⟩
      have apart := tree.move_outside runs parent.id rfl
      refine ⟨?_, tree.of_move runs⟩
      rcases move_ok runs with ⟨old, editable, sameId, _, items, changed, rfl⟩
      rw [← sameId] at changed inside apart
      have notRoot : old.id ≠ auth.root.id := fun isRoot => apart (isRoot ▸ targetIn)
      have replaced := ItemTable.change_replaced editable.member rfl changed
      exact .of_replaced tree.acyclic replaced inside
        (.inr ⟨notRoot, parent.id, rfl, targetIn, apart⟩) fun _ => rfl
  | trash itemId =>
      simp only [GuestOp.commit, PublicShareService.trash, bind_eq_ok, require_eq_ok,
        downstream_eq_ok] at commits
      rcases commits with ⟨_, _, item, resolved, _, notRoot, runs⟩
      rcases resolveInSubtree_ok resolved with ⟨_, rfl, inside⟩
      rcases TrashService.trashItem_ok runs with ⟨old, member, sameId, _, _, items, changed, rfl⟩
      rw [← sameId] at changed inside notRoot
      have replaced := ItemTable.change_replaced member rfl changed
      exact ⟨.of_replaced tree.acyclic replaced inside (.inl rfl) fun isRoot =>
          absurd isRoot notRoot,
        tree.of_replaced replaced ⟨rfl, rfl, rfl, rfl, rfl⟩
          (tree.hung_in_place member (.inl rfl))⟩
  | upload parentId filename stream sizeBytes mimeType =>
      simp only [GuestOp.commit, PublicShareService.upload, bind_eq_ok, pure_eq_ok,
        downstream_eq_ok] at commits
      rcases commits with ⟨⟨_, _⟩, ⟨_, _, parent, resolved, ⟨created, _⟩, runs, _, _, same⟩, rfl⟩
      cases same
      rcases guestFolder_ok resolved with ⟨sameId, inside⟩
      rcases UploadService.uploadSimple_ok runs with ⟨writable, file, _, isFile⟩
      have folder := (writable parent.id rfl).isFolder
      refine ⟨.of_added isFile.items isFile.fresh.items isFile.parentId folder (sameId ▸ inside),
        tree.of_added isFile.items isFile.fresh.items ?_⟩
      rw [isFile.parentId]
      exact fun top named => Option.some.inj named ▸ folder

/-! ## Every run -/

/-- Whatever a guest of an editor link does, everything outside the subtree of
the shared item stays as it is, and so does what belongs to the subtree. -/
theorem guest_confined {linkId rootId : Uuid} {start final : System}
    {events : List (Event System GuestRequest)} (tree : FolderTree start.db.items)
    (run : Run (GuestCommits linkId rootId) start events final) :
    Confines rootId start.db.items final.db.items := by
  have kept : Confines rootId start.db.items final.db.items ∧ FolderTree final.db.items := by
    induction run with
    | nothing => exact ⟨.refl rootId start.db.items, tree⟩
    | @next past middle final request run taken induction =>
        rcases bind_eq_ok.mp taken.commits with ⟨auth, accepted, commits⟩
        rcases GuestOp.confines induction.2 commits with ⟨confines, stillTree⟩
        rw [authorize_root accepted taken.ofLink taken.onRoot] at confines
        exact ⟨induction.1.trans confines, stillTree⟩
  exact kept.1

end Guests

/-! ## A move inside the shared folder -/

section MoveInside

attribute [local instance] smallPlatform

private def makeShared : List Op :=
  [.createFolder 1 none "Shared", .createFolder 1 (some 10) "Old",
    .createFolder 1 (some 10) "New", .createFolder 1 none "Private"]

private def shared : System := afterFirstDay makeShared

private def editorLink : Table ShareLink where
  rows := [{
    id := 20
    itemId := 10
    tokenHash := ""
    permission := .editor
    passwordHash := none
    expiresAt := none
    isActive := true
    attemptWindowStart := none
    attemptCount := 0
    lockedUntil := none }]
  nodup := List.nodup_singleton _

private def moveRequest : GuestRequest where
  token := { sub := 20, itm := 10, prm := .editor, cst := 0, iat := 0, exp := 900 }
  links := editorLink
  now := minute
  op := .move 11 12

private def guest : Authorized where
  claims := { linkId := 20, rootItemId := 10, permission := .editor, chainStartedAt := 0 }
  root := DriveItemRepository.newItem firstDay 1 none .folder "Shared" 1
  permission := .editor

private def moved : System :=
  match moveRequest.op.commit guest shared with
  | .ok sys => sys
  | .error _ => shared

private theorem moveRequest_serve : moveRequest.serve shared = .ok moved := by
  have accepted : authorize editorLink shared.db.items minute moveRequest.token = .ok guest :=
    authorize_eq_ok.mpr ⟨⟨by decide, by decide⟩, _, rfl, rfl, rfl, _, rfl, rfl, rfl⟩
  exact bind_eq_ok.mpr ⟨guest, accepted, rfl⟩

theorem guest_confined_moveInside : Confines 10 shared.db.items moved.db.items := by
  have allowed : ∀ event ∈ Op.trace makeShared firstDay, event.action.NoSnapshotRestore := by
    have each : ∀ op ∈ makeShared, op.NoSnapshotRestore := by
      simp [makeShared, Op.NoSnapshotRestore]
    exact fun event member => each _ (Op.action_mem_of_trace member)
  have history : History firstDay (Op.trace makeShared firstDay) shared :=
    firstDay_trace (by simp [makeShared, Op.Offered]) rfl
  have onRoot : ∀ link ∈ editorLink.rows, link.id = 20 → link.itemId = 10 := by decide
  exact guest_confined (history.treeShaped allowed).folderTree
    (Run.single (⟨rfl, onRoot, moveRequest_serve⟩ : GuestCommits 20 10 moveRequest shared moved))

example : (moved.db.items.find? 11).bind DriveItem.parentId = some 12 := by decide

end MoveInside

end PublicShareService

end CloudDrive
