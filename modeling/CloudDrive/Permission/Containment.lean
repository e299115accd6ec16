import CloudDrive.Drive.Tree

/-! # Access to another user's items

Permissions follow the parent chain across owners, and editors may move items. A
user's access to the items of one owner stays within what that owner has shared
as long as no such item gets under a folder of the user. -/

namespace CloudDrive

open Outcome Relational Forest Relation Execution
open DriveService ShareService PermissionService

section Containment

variable [Platform]

/-! ## What happens in a run -/

/-- The user a request is made for. -/
def Op.actor : Op → Option Uuid
  | .createFolder userId .. => some userId
  | .rename userId .. => some userId
  | .move userId .. => some userId
  | .trashItem userId _ => some userId
  | .restoreItem userId _ => some userId
  | .permanentDelete userId _ => some userId
  | .emptyTrash userId _ => some userId
  | .shareItem actorId .. => some actorId
  | .removeShare actorId .. => some actorId
  | .uploadSimple userId .. => some userId
  | .createSession userId .. => some userId
  | .uploadChunk userId .. => some userId
  | .completeSession userId _ => some userId
  | .cancelSession userId _ => some userId
  | .cleanupExpired => none
  | .createSnapshot userId .. => some userId
  | .updateSettings userId .. => some userId
  | .pruneSnapshots userId => some userId
  | .restoreSnapshot userId .. => some userId
  | .collectGarbage _ => none
  | .tick _ => none

/-- `ownerId` shares the item with `userId`. -/
def Grants (ownerId userId : Uuid) (event : Event System Op) (itemId : Uuid)
    (permission : Permission) : Prop :=
  ∃ email target, event.action = .shareItem ownerId itemId email permission ∧
    UserService.getByEmail event.before.db email = .ok target ∧ target.id = userId

/-- By a request of `ownerId` the item gets under the folder, directly or further
down. -/
def Places (ownerId : Uuid) (event : Event System Op) (itemId folderId : Uuid) : Prop :=
  event.action.actor = some ownerId ∧
    ¬ AtOrAbove event.before.db.items.parentOf itemId folderId ∧
    AtOrAbove event.after.db.items.parentOf itemId folderId

/-- `ownerId` has shared at this level or a higher one the item itself or a folder
that it has put the item under. -/
def Entitled (ownerId userId : Uuid) (past : List (Event System Op)) (itemId : Uuid)
    (level : Nat) : Prop :=
  ∃ event ∈ past, ∃ sharedId permission, Grants ownerId userId event sharedId permission ∧
    level ≤ permission.level ∧
    (sharedId = itemId ∨ ∃ placing ∈ past, Places ownerId placing itemId sharedId)

theorem Entitled.mono {ownerId userId itemId : Uuid} {level : Nat}
    {past longer : List (Event System Op)} (sub : past ⊆ longer)
    (entitled : Entitled ownerId userId past itemId level) :
    Entitled ownerId userId longer itemId level := by
  rcases entitled with ⟨event, member, sharedId, permission, grants, enough, placed⟩
  refine ⟨event, sub member, sharedId, permission, grants, enough, ?_⟩
  rcases placed with same | ⟨placing, placingMem, places⟩
  · exact .inl same
  · exact .inr ⟨placing, sub placingMem, places⟩

/-- Whatever share `userId` reaches an item of `ownerId` by is on an item of
`ownerId`. -/
def OnlyOwnerShares (ownerId userId : Uuid) (sys : System) : Prop :=
  ∀ item ∈ sys.db.items, item.ownerId = ownerId → ∀ share,
    GrantedOn sys.db userId item share → Owns sys ownerId share.itemId

/-! ## The steps that could let an item out -/

/-- The request puts items of `ownerId` into the folder: new ones, or what it
moves. -/
def PutsInto (ownerId : Uuid) (event : Event System Op) (folderId : Uuid) : Prop :=
  match event.action with
  | .createFolder userId parentId _ => userId = ownerId ∧ parentId = some folderId
  | .uploadSimple userId parentId .. => userId = ownerId ∧ parentId = some folderId
  | .completeSession userId sessionId => userId = ownerId ∧
      ∃ session ∈ event.before.db.sessions, session.id = sessionId ∧
        session.parentId = some folderId
  | .move _ movedId newParentId => newParentId = some folderId ∧
      ∃ itemId, Owns event.before ownerId itemId ∧
        AtOrAbove event.before.db.items.parentOf itemId movedId
  | _ => False

/-- An editor share of `userId` is on the item or above it. -/
def EditorShared (sys : System) (userId itemId : Uuid) : Prop :=
  ∃ item ∈ sys.db.items, item.id = itemId ∧
    ∃ share, GrantedOn sys.db userId item share ∧ share.permission = .editor

/-- No item of `ownerId` is put under a folder of `userId`; and when a third user
moves items of `ownerId` under a folder of `ownerId` that was not above them,
`userId` has an editor share on what is moved or never gets that folder shared. -/
structure Contained (ownerId userId : Uuid) (whole : List (Event System Op))
    (event : Event System Op) : Prop where
  apart : ∀ folderId, PutsInto ownerId event folderId → ∀ top,
    AtOrAbove event.before.db.items.parentOf folderId top → ¬ Owns event.before userId top
  moves : ∀ mover movedId folderId, event.action = .move mover movedId (some folderId) →
    mover ≠ ownerId → mover ≠ userId → PutsInto ownerId event folderId → ∀ top,
    AtOrAbove event.before.db.items.parentOf folderId top → Owns event.before ownerId top →
    AtOrAbove event.before.db.items.parentOf movedId top ∨
      EditorShared event.before userId movedId ∨
      ∀ later ∈ whole, ∀ permission, ¬ Grants ownerId userId later top permission

/-! ## The invariant -/

/-- What a share on `topId` may give `userId` on the item below it is accounted
for. -/
def Covered (ownerId userId : Uuid) (whole past : List (Event System Op))
    (itemId topId : Uuid) : Prop :=
  topId = itemId ∨ (∃ placing ∈ past, Places ownerId placing itemId topId) ∨
    Entitled ownerId userId past itemId Permission.editor.level ∨
    ∀ event ∈ whole, ∀ permission, ¬ Grants ownerId userId event topId permission

theorem Covered.mono {ownerId userId itemId topId : Uuid}
    {whole past longer : List (Event System Op)} (sub : past ⊆ longer)
    (covered : Covered ownerId userId whole past itemId topId) :
    Covered ownerId userId whole longer itemId topId := by
  rcases covered with same | ⟨placing, member, places⟩ | entitled | never
  · exact .inl same
  · exact .inr (.inl ⟨placing, sub member, places⟩)
  · exact .inr (.inr (.inl (entitled.mono sub)))
  · exact .inr (.inr (.inr never))

structure Confined (ownerId userId : Uuid) (whole past : List (Event System Op))
    (sys : System) : Prop where
  apart : ∀ itemId topId, Owns sys ownerId itemId →
    AtOrAbove sys.db.items.parentOf itemId topId → ¬ Owns sys userId topId
  covered : ∀ itemId topId, Owns sys ownerId itemId → Owns sys ownerId topId →
    AtOrAbove sys.db.items.parentOf itemId topId →
    Covered ownerId userId whole past itemId topId
  granted : ∀ share ∈ sys.db.shares, share.targetUserId = userId →
    Owns sys ownerId share.itemId →
    ∃ event ∈ past, Grants ownerId userId event share.itemId share.permission

/-- Items and shares only went. -/
structure Shrinks (before after : System) : Prop where
  items : ∀ row ∈ after.db.items, row ∈ before.db.items
  shares : ∀ share ∈ after.db.shares, share ∈ before.db.shares

theorem Shrinks.refl (sys : System) : Shrinks sys sys :=
  ⟨fun _ member => member, fun _ member => member⟩

theorem Shrinks.trans {before middle after : System} (first : Shrinks before middle)
    (second : Shrinks middle after) : Shrinks before after :=
  ⟨fun row member => first.items row (second.items row member),
    fun share member => first.shares share (second.shares share member)⟩

theorem Shrinks.of_permanentDelete {userId itemId : Uuid} {before after : System}
    (runs : TrashService.permanentDelete userId itemId before = .ok after) :
    Shrinks before after := by
  rcases TrashService.permanentDelete_ok runs with
    ⟨_, _, _, _, _, _, _, reclaimed, middle, erased, _, rfl⟩
  rcases TrashService.settle_eq userId reclaimed middle with ⟨users, same⟩
  rw [same]
  exact ⟨fun row member => ((erased.items row).mp member).1,
    fun share member => ((erased.shares share).mp member).1⟩

namespace Confined

variable {ownerId userId : Uuid} {whole past : List (Event System Op)} {sys : System}

/-- Every share that `userId` reaches an item of `ownerId` by stays within what
`ownerId` has shared. -/
theorem share_entitled (confined : Confined ownerId userId whole past sys)
    (within : past ⊆ whole) (onlyOwner : OnlyOwnerShares ownerId userId sys)
    {item : DriveItem} (member : item ∈ sys.db.items) (owned : item.ownerId = ownerId)
    {share : Share} (granted : GrantedOn sys.db userId item share) :
    Entitled ownerId userId past item.id share.permission.level := by
  have onOwned := onlyOwner item member owned share granted
  rcases granted with ⟨shareMem, target, top, chain, onTop⟩
  rcases confined.granted share shareMem target onOwned with ⟨event, eventMem, grants⟩
  rcases (onChain_iff member).mp chain with ⟨_, above⟩
  rw [← onTop] at above
  rcases confined.covered item.id share.itemId ⟨item, member, rfl, owned⟩ onOwned above with
    same | placed | ⟨editing, editingMem, sharedId, permission, grantsEditor, enough, placed⟩ |
    never
  · exact ⟨event, eventMem, _, _, grants, le_rfl, .inl same⟩
  · exact ⟨event, eventMem, _, _, grants, le_rfl, .inr placed⟩
  · refine ⟨editing, editingMem, sharedId, permission, grantsEditor, ?_, placed⟩
    have notOwner := share.notOwner
    revert enough notOwner
    cases share.permission <;> cases permission <;> simp [Permission.level]
  · exact absurd grants (never event (within eventMem) share.permission)

theorem toItem {moved item : DriveItem} (movedMem : moved ∈ sys.db.items)
    (member : item ∈ sys.db.items) (below : AtOrAbove sys.db.items.parentOf item.id moved.id)
    {top : DriveItem} (chain : OnChain sys.db.items moved top) :
    OnChain sys.db.items item top := by
  rcases (onChain_iff movedMem).mp chain with ⟨topMem, above⟩
  exact (onChain_iff member).mpr ⟨topMem, below.trans above⟩

/-- With an editor share on the moved item, `ownerId` has shared editing of
everything of its own at or below that item. -/
theorem editor_entitled (confined : Confined ownerId userId whole past sys)
    (within : past ⊆ whole) (onlyOwner : OnlyOwnerShares ownerId userId sys)
    {movedId : Uuid} (editor : EditorShared sys userId movedId) {itemId : Uuid}
    (owned : Owns sys ownerId itemId)
    (below : AtOrAbove sys.db.items.parentOf itemId movedId) :
    Entitled ownerId userId past itemId Permission.editor.level := by
  rcases editor with ⟨moved, movedMem, rfl, share, ⟨shareMem, target, top, chain, onTop⟩, isEditor⟩
  rcases owned with ⟨item, member, rfl, owned⟩
  have entitled := confined.share_entitled within onlyOwner member owned
    ⟨shareMem, target, top, toItem movedMem member below chain, onTop⟩
  rw [isEditor] at entitled
  exact entitled

/-- Where `userId` may edit, that comes from an editor share as long as none of
its folders is above an item of `ownerId`. -/
theorem editorShared_of_editor (confined : Confined ownerId userId whole past sys)
    {moved : DriveItem} (movedMem : moved ∈ sys.db.items) {itemId : Uuid}
    (owned : Owns sys ownerId itemId)
    (below : AtOrAbove sys.db.items.parentOf itemId moved.id) {perm : Option Permission}
    (runs : getPermission sys.db userId moved = .ok perm)
    (enough : hasAtLeast perm .editor = true) : EditorShared sys userId moved.id := by
  rcases owned with ⟨item, member, rfl, owned⟩
  rw [hasAtLeast_iff] at enough
  have effective := getPermission_effective runs
  rcases effective.granted with rfl | rfl | ⟨share, granted, rfl⟩
  · simp [levelOf, Permission.level] at enough
  · rcases effective.owner.mp rfl with ⟨top, chain, ownedTop⟩
    rcases (onChain_iff member).mp (toItem movedMem member below chain) with ⟨topMem, above⟩
    exact absurd ⟨top, topMem, rfl, ownedTop⟩
      (confined.apart item.id top.id ⟨item, member, rfl, owned⟩ above)
  · refine ⟨moved, movedMem, rfl, share, granted, ?_⟩
    have notOwner := share.notOwner
    revert enough notOwner
    cases share.permission <;> simp [levelOf, Permission.level]

/-! ## Steps -/

theorem replaced_owns {items : ItemTable} {old new : DriveItem}
    (replaced : ItemTable.Replaced sys.db.items items old new) (content : SameContent new old)
    {user itemId : Uuid} (owned : ∃ row ∈ items, row.id = itemId ∧ row.ownerId = user) :
    Owns sys user itemId := by
  rcases owned with ⟨row, member, rfl, owned⟩
  rcases (replaced.rows row).mp member with rfl | ⟨earlier, _⟩
  · exact ⟨old, replaced.member, replaced.sameId.symm, content.ownerId.symm.trans owned⟩
  · exact ⟨row, earlier, rfl, owned⟩

variable (event : Event System Op)

/-- No item is new, and every path to a new place is accounted for. -/
theorem of_kept (confined : Confined ownerId userId whole past event.before)
    (owns : ∀ user itemId, Owns event.after user itemId → Owns event.before user itemId)
    (paths : ∀ itemId topId, Owns event.before ownerId itemId →
      AtOrAbove event.after.db.items.parentOf itemId topId →
      AtOrAbove event.before.db.items.parentOf itemId topId ∨
        (¬ Owns event.before userId topId ∧ (Owns event.before ownerId topId →
          Covered ownerId userId whole (past ++ [event]) itemId topId)))
    (shares : ∀ share ∈ event.after.db.shares, share.targetUserId = userId →
      Owns event.before ownerId share.itemId → share ∈ event.before.db.shares ∨
        Grants ownerId userId event share.itemId share.permission) :
    Confined ownerId userId whole (past ++ [event]) event.after := by
  have sub : past ⊆ past ++ [event] := List.subset_append_left _ _
  constructor
  case apart =>
    intro itemId topId owned path ownedTop
    rcases paths itemId topId (owns _ _ owned) path with old | ⟨apart, _⟩
    · exact confined.apart itemId topId (owns _ _ owned) old (owns _ _ ownedTop)
    · exact apart (owns _ _ ownedTop)
  case covered =>
    intro itemId topId owned ownedTop path
    rcases paths itemId topId (owns _ _ owned) path with old | ⟨_, covered⟩
    · exact (confined.covered itemId topId (owns _ _ owned) (owns _ _ ownedTop) old).mono sub
    · exact covered (owns _ _ ownedTop)
  case granted =>
    intro share member target owned
    rcases shares share member target (owns _ _ owned) with old | grants
    · rcases confined.granted share old target (owns _ _ owned) with ⟨earlier, earlierMem, grants⟩
      exact ⟨earlier, sub earlierMem, grants⟩
    · exact ⟨event, by simp, grants⟩

/-- Neither items nor shares were added, and nothing moved to a new place. -/
theorem of_smaller (confined : Confined ownerId userId whole past event.before)
    (owns : ∀ user itemId, Owns event.after user itemId → Owns event.before user itemId)
    (paths : ∀ itemId topId, AtOrAbove event.after.db.items.parentOf itemId topId →
      AtOrAbove event.before.db.items.parentOf itemId topId)
    (shares : ∀ share ∈ event.after.db.shares, share ∈ event.before.db.shares) :
    Confined ownerId userId whole (past ++ [event]) event.after :=
  confined.of_kept event owns (fun itemId topId _ path => .inl (paths itemId topId path))
    fun share member _ _ => .inl (shares share member)

theorem of_rewritten (confined : Confined ownerId userId whole past event.before)
    {items : ItemTable} {old new : DriveItem}
    (replaced : ItemTable.Replaced event.before.db.items items old new)
    (content : SameContent new old)
    (parent : new.parentId = old.parentId ∨ new.parentId = none)
    (after : event.after = event.before.withItems items) :
    Confined ownerId userId whole (past ++ [event]) event.after := by
  have sameItems : event.after.db.items = items := by rw [after]; rfl
  apply confined.of_smaller event
  · exact fun user itemId owned => replaced_owns replaced content (sameItems ▸ owned)
  · intro itemId topId path
    rw [sameItems, replaced.parentOf] at path
    apply ReflTransGen.mono _ _ _ path
    intro node up step
    by_cases same : node = old.id
    · subst same
      have named : new.parentId = some up := by simpa [Up, reparent] using step
      rcases parent with kept | root
      · exact (ItemTable.parentOf_id replaced.member).trans (kept.symm.trans named)
      · rw [root] at named
        cases named
    · simpa [Up, reparent, same] using step
  · intro share member
    rw [after] at member
    exact member

theorem of_moved (confined : Confined ownerId userId whole past event.before)
    (shaped : TreeShaped event.before) (within : past ⊆ whole)
    (onlyOwner : OnlyOwnerShares ownerId userId event.before)
    (contained : Contained ownerId userId whole event)
    {mover movedId : Uuid} {newParentId : Option Uuid}
    (action : event.action = .move mover movedId newParentId)
    (runs : move mover movedId newParentId event.before = .ok event.after) :
    Confined ownerId userId whole (past ++ [event]) event.after := by
  have sub : past ⊆ past ++ [event] := List.subset_append_left _ _
  have outside := shaped.move_outside runs
  rcases move_ok runs with ⟨item, editable, rfl, _, items, changed, after⟩
  have replaced := ItemTable.change_replaced editable.member rfl changed
  have sameItems : event.after.db.items = items := by rw [after]; rfl
  apply confined.of_kept event
  · intro user itemId owned
    exact replaced_owns replaced ⟨rfl, rfl, rfl, rfl, rfl⟩ (sameItems ▸ owned)
  · intro itemId topId owned path
    have newPath := path
    rw [sameItems, replaced.parentOf] at newPath
    rcases atOrAbove_reparent outside newPath with old | ⟨below, folderId, named, above⟩
    · exact .inl old
    · have puts : PutsInto ownerId event folderId := by
        simp only [PutsInto, action]
        exact ⟨named, itemId, owned, below⟩
      refine .inr ⟨contained.apart folderId puts topId above, fun ownedTop => ?_⟩
      by_cases already : AtOrAbove event.before.db.items.parentOf itemId topId
      · exact (confined.covered itemId topId owned ownedTop already).mono sub
      · have entitled : EditorShared event.before userId item.id →
            Covered ownerId userId whole (past ++ [event]) itemId topId := fun editor =>
          .inr (.inr (.inl ((confined.editor_entitled within onlyOwner editor owned
            below).mono sub)))
        by_cases byOwner : mover = ownerId
        · exact .inr (.inl ⟨event, by simp, by simp [action, Op.actor, byOwner], already, path⟩)
        · by_cases byUser : mover = userId
          · rcases editable.editor with ⟨perm, runs, enough⟩
            rw [byUser] at runs
            exact entitled (confined.editorShared_of_editor editable.member owned below runs
              enough)
          · have named' : newParentId = some folderId := named
            rw [named'] at action
            rcases contained.moves mover item.id folderId action byOwner byUser puts topId above
              ownedTop with aboveMoved | editor | never
            · exact absurd (below.trans aboveMoved) already
            · exact entitled editor
            · exact .inr (.inr (.inr never))
  · intro share member _ _
    rw [after] at member
    exact .inl member

theorem of_added (confined : Confined ownerId userId whole past event.before)
    (different : ownerId ≠ userId) (contained : Contained ownerId userId whole event)
    {item : DriveItem} (fresh : ∀ row ∈ event.before.db.items, row.id ≠ item.id)
    (unshared : ∀ share ∈ event.before.db.shares, share.itemId ≠ item.id)
    (rows : ∀ row, row ∈ event.after.db.items ↔ row ∈ event.before.db.items ∨ row = item)
    (parent : ∀ top ∈ item.parentId, IsFolder event.before.db.items top)
    (byOwner : item.ownerId = ownerId → event.action.actor = some ownerId ∧
      ∀ folderId ∈ item.parentId, PutsInto ownerId event folderId)
    (shares : event.after.db.shares = event.before.db.shares) :
    Confined ownerId userId whole (past ++ [event]) event.after := by
  have sub : past ⊆ past ++ [event] := List.subset_append_left _ _
  have owns : ∀ user itemId, Owns event.after user itemId →
      Owns event.before user itemId ∨ (itemId = item.id ∧ item.ownerId = user) := by
    intro user itemId owned
    rcases owned with ⟨row, member, rfl, owned⟩
    rcases (rows row).mp member with earlier | rfl
    · exact .inl ⟨row, earlier, rfl, owned⟩
    · exact .inr ⟨rfl, owned⟩
  have notOwned : ∀ user, ¬ Owns event.before user item.id := by
    intro user owned
    rcases owned with ⟨row, member, sameId, _⟩
    exact fresh row member sameId
  have notAbove : ∀ {node}, node ≠ item.id →
      ¬ AtOrAbove event.before.db.items.parentOf node item.id := by
    intro node other path
    rcases atOrAbove_iff.mp path with same | above
    · exact other same
    · exact not_above_fresh fresh above
  have parentOld : ∀ top ∈ item.parentId, top ≠ item.id := by
    intro top named same
    rcases parent top named with ⟨row, member, sameId, _⟩
    exact fresh row member (sameId.trans same)
  -- From the new item a path leads to itself or on from its parent.
  have paths : ∀ {itemId topId}, AtOrAbove event.after.db.items.parentOf itemId topId →
      (itemId ≠ item.id → AtOrAbove event.before.db.items.parentOf itemId topId) ∧
      (itemId = item.id → topId = item.id ∨ ∃ folderId ∈ item.parentId,
        AtOrAbove event.before.db.items.parentOf folderId topId) := by
    intro itemId topId path
    rw [ItemTable.add_parentOf rows fresh] at path
    rcases atOrAbove_reparent (fun top named => notAbove (parentOld top named)) path with
      old | ⟨below, folderId, named, above⟩
    · refine ⟨fun _ => old, fun isNew => .inl ?_⟩
      rcases ReflTransGen.cases_head old with same | ⟨up, step, _⟩
      · exact same.symm.trans isNew
      · rcases ItemTable.parentOf_eq_some.mp step with ⟨row, member, sameId, _⟩
        exact absurd (sameId.trans isNew) (fresh row member)
    · exact ⟨fun other => absurd below (notAbove other), fun _ => .inr ⟨folderId, named, above⟩⟩
  have topOld : ∀ {folderId topId}, folderId ∈ item.parentId →
      AtOrAbove event.before.db.items.parentOf folderId topId → topId ≠ item.id := by
    intro folderId topId named above same
    exact notAbove (parentOld folderId named) (same ▸ above)
  constructor
  case apart =>
    intro itemId topId owned path ownedTop
    rcases owns _ _ owned with old | ⟨isNew, mine⟩
    · have other : itemId ≠ item.id := fun same => notOwned _ (same ▸ old)
      have oldPath := (paths path).1 other
      rcases owns _ _ ownedTop with oldTop | ⟨topNew, _⟩
      · exact confined.apart itemId topId old oldPath oldTop
      · exact notAbove other (topNew ▸ oldPath)
    · rcases (paths path).2 isNew with topNew | ⟨folderId, named, above⟩
      · rcases owns _ _ ownedTop with oldTop | ⟨_, theirs⟩
        · exact notOwned _ (topNew ▸ oldTop)
        · exact different (mine.symm.trans theirs)
      · rcases owns _ _ ownedTop with oldTop | ⟨topNew, _⟩
        · exact contained.apart folderId ((byOwner mine).2 folderId named) topId above oldTop
        · exact topOld named above topNew
  case covered =>
    intro itemId topId owned ownedTop path
    rcases owns _ _ owned with old | ⟨isNew, mine⟩
    · have other : itemId ≠ item.id := fun same => notOwned _ (same ▸ old)
      have oldPath := (paths path).1 other
      rcases owns _ _ ownedTop with oldTop | ⟨topNew, _⟩
      · exact (confined.covered itemId topId old oldTop oldPath).mono sub
      · exact absurd (topNew ▸ oldPath) (notAbove other)
    · rcases (paths path).2 isNew with topNew | ⟨folderId, named, above⟩
      · exact .inl (topNew.trans isNew.symm)
      · refine .inr (.inl ⟨event, by simp, (byOwner mine).1, ?_, path⟩)
        intro old
        rcases ReflTransGen.cases_head old with same | ⟨up, step, _⟩
        · exact topOld named above (same.symm.trans isNew)
        · rcases ItemTable.parentOf_eq_some.mp step with ⟨row, member, sameId, _⟩
          exact fresh row member (sameId.trans isNew)
  case granted =>
    intro share member target owned
    rw [shares] at member
    rcases owns _ _ owned with old | ⟨isNew, _⟩
    · rcases confined.granted share member target old with ⟨earlier, earlierMem, grants⟩
      exact ⟨earlier, sub earlierMem, grants⟩
    · exact absurd isNew (unshared share member)

theorem of_items_eq (confined : Confined ownerId userId whole past event.before)
    (items : event.after.db.items = event.before.db.items)
    (shares : ∀ share ∈ event.after.db.shares, share ∈ event.before.db.shares) :
    Confined ownerId userId whole (past ++ [event]) event.after := by
  apply confined.of_smaller event _ _ shares
  · intro user itemId owned
    rcases owned with ⟨row, member, owned⟩
    exact ⟨row, items ▸ member, owned⟩
  · intro itemId topId path
    rw [items] at path
    exact path

theorem of_shrunk (confined : Confined ownerId userId whole past event.before)
    (shrinks : Shrinks event.before event.after) :
    Confined ownerId userId whole (past ++ [event]) event.after := by
  apply confined.of_smaller event _ _ shrinks.shares
  · intro user itemId owned
    rcases owned with ⟨row, member, owned⟩
    exact ⟨row, shrinks.items row member, owned⟩
  · intro itemId topId path
    apply ReflTransGen.mono _ _ _ path
    intro node up step
    rcases ItemTable.parentOf_eq_some.mp step with ⟨row, member, sameId, points⟩
    exact ItemTable.parentOf_eq_some.mpr ⟨row, shrinks.items row member, sameId, points⟩

theorem of_fileCreated (confined : Confined ownerId userId whole past event.before)
    (different : ownerId ≠ userId) (contained : Contained ownerId userId whole event)
    {actorId : Uuid} {parentId : Option Uuid} {file : StoredFile} {stream : List Content}
    {item : DriveItem} {middle : System}
    (created : FileCreated actorId parentId file item
      (Storage.saveStream file.key stream event.before.drawn) middle)
    (parent : ∀ top ∈ parentId, IsFolder event.before.db.items top)
    (actor : event.action.actor = some actorId)
    (puts : ∀ folderId ∈ parentId, actorId = ownerId → PutsInto ownerId event folderId)
    (items : event.after.db.items = middle.db.items)
    (shares : event.after.db.shares = middle.db.shares) :
    Confined ownerId userId whole (past ++ [event]) event.after := by
  rcases created.frame with ⟨_, _, _, frame⟩
  have sameShares : middle.db.shares = event.before.db.shares := by rw [frame]; rfl
  apply confined.of_added event different contained created.fresh.items created.fresh.shares
  · intro row
    rw [items]
    exact created.items row
  · rw [created.parentId]
    exact parent
  · intro mine
    have isOwner : actorId = ownerId := created.ownerId.symm.trans mine
    refine ⟨isOwner ▸ actor, fun folderId named => puts folderId ?_ isOwner⟩
    exact created.parentId ▸ named
  · exact shares.trans sameShares

theorem of_effect {before after : System} {op : Op}
    (confined : Confined ownerId userId whole past before) (shaped : TreeShaped before)
    (within : past ⊆ whole) (onlyOwner : OnlyOwnerShares ownerId userId before)
    (different : ownerId ≠ userId)
    (contained : Contained ownerId userId whole ⟨before, op, after⟩)
    (allowed : op.NoSnapshotRestore) (effect : op.Effect before after) :
    Confined ownerId userId whole (past ++ [⟨before, op, after⟩]) after := by
  have quiet : ∀ {op : Op} {after : System}, after.db.items = before.db.items →
      after.db.shares = before.db.shares →
      Confined ownerId userId whole (past ++ [⟨before, op, after⟩]) after := by
    intro op after items shares
    exact confined.of_items_eq ⟨before, op, after⟩ items
      fun share member => shares ▸ member
  cases effect with
  | nothing => exact quiet rfl rfl
  | @folderCreated actorId parentId name accepted items writable added =>
      apply confined.of_added ⟨before, _, _⟩ different contained
        (ItemTable.fresh_of_add added) before.uuid4_unused.shares
        (fun row => ItemTable.mem_of_add added)
        (fun top named => (writable top named).isFolder) _ rfl
      intro mine
      exact ⟨congrArg some mine, fun folderId named => ⟨mine, named⟩⟩
  | rewritten replaced content parent =>
      exact confined.of_rewritten ⟨before, _, _⟩ replaced content parent rfl
  | moved runs =>
      exact confined.of_moved ⟨before, _, _⟩ shaped within onlyOwner contained rfl runs
  | deleted runs => exact confined.of_shrunk ⟨before, _, _⟩ (.of_permanentDelete runs)
  | emptied runs =>
      exact confined.of_shrunk ⟨before, _, _⟩ (forEach_keeps (Shrinks before)
        (fun _ _ _ middle step => middle.trans (.of_permanentDelete step)) (.refl before) runs)
  | @shared actorId itemId email permission target share owns found onItem toTarget level =>
      apply confined.of_kept ⟨before, _, _⟩
      · exact fun user id owned => owned
      · exact fun id topId _ path => .inl path
      · intro other member isTarget owned
        rcases Table.mem_save.mp member with rfl | ⟨earlier, _⟩
        · have byOwner : actorId = ownerId := by
            rcases owns with ⟨row, rowMem, sameId, mine⟩
            rcases owned with ⟨row', rowMem', sameId', theirs⟩
            have same : row.id = row'.id := by rw [sameId, sameId', onItem]
            rw [← mine, ← theirs, ItemTable.eq_of_id_eq rowMem rowMem' same]
          refine .inr ⟨email, target, ?_, found, toTarget.symm.trans isTarget⟩
          simp [byOwner, onItem, level]
        · exact .inl earlier
  | unshared sub => exact confined.of_items_eq ⟨before, _, _⟩ rfl sub
  | uploaded writable _ created =>
      exact confined.of_fileCreated ⟨before, _, _⟩ different contained created
        (fun top named => (writable top named).isFolder) rfl
        (fun folderId named isOwner => ⟨isOwner, named⟩) rfl rfl
  | sessionOpened => exact quiet rfl rfl
  | sessionWorked work _ =>
      rcases work.frame with ⟨_, _, frame⟩
      exact quiet (by rw [frame]) (by rw [frame])
  | completed member sameId _ _ created work _ =>
      rcases work.frame with ⟨_, _, frame⟩
      exact confined.of_fileCreated ⟨before, _, _⟩ different contained created
        (shaped.targets _ member) rfl
        (fun folderId named isOwner => ⟨isOwner, _, member, sameId, named⟩)
        (by rw [frame]) (by rw [frame])
  | snapshotsWorked _ work =>
      rcases work.frame with ⟨_, _, _, frame⟩
      exact quiet (by rw [frame]) (by rw [frame])
  | snapshotRestored => exact allowed.elim
  | collected => exact quiet rfl rfl
  | ticked => exact quiet rfl rfl

end Confined

theorem Untouched.confined {ownerId userId : Uuid} {whole : List (Event System Op)}
    {sys : System} (untouched : Untouched sys) : Confined ownerId userId whole [] sys := by
  have nothing : ∀ {user itemId}, ¬ Owns sys user itemId := by
    intro user itemId owned
    rcases owned with ⟨row, member, _⟩
    rw [untouched.items] at member
    cases member
  exact ⟨fun _ _ owned => absurd owned nothing, fun _ _ owned => absurd owned nothing,
    fun _ _ _ owned => absurd owned nothing⟩

theorem History.confined {ownerId userId : Uuid} (different : ownerId ≠ userId)
    {whole : List (Event System Op)} {start final : System} {events : List (Event System Op)}
    (history : History start events final) (within : events ⊆ whole)
    (allowed : ∀ event ∈ events, event.action.NoSnapshotRestore)
    (onlyOwner : ∀ event ∈ events, OnlyOwnerShares ownerId userId event.before)
    (contained : ∀ event ∈ events, Contained ownerId userId whole event) :
    Confined ownerId userId whole events final := by
  rcases history with ⟨untouched, run⟩
  induction run with
  | nothing => exact untouched.confined
  | @next past middle final action run taken induction =>
      have earlier : ∀ event ∈ past, event ∈ past ++ [⟨middle, action, final⟩] :=
        fun event member => List.mem_append_left _ member
      have last : (⟨middle, action, final⟩ : Event System Op) ∈
          past ++ [⟨middle, action, final⟩] := by simp
      have pastWithin : past ⊆ whole := fun event member => within (earlier event member)
      have pastAllowed : ∀ event ∈ past, event.action.NoSnapshotRestore :=
        fun event member => allowed event (earlier event member)
      have confined := induction pastWithin pastAllowed
        (fun event member => onlyOwner event (earlier event member))
        fun event member => contained event (earlier event member)
      exact confined.of_effect (History.treeShaped ⟨untouched, run⟩ pastAllowed) pastWithin
        (onlyOwner _ last) different (contained _ last) (allowed _ last) (Op.effect taken)

/-- As long as no request lets an item of `ownerId` out, and `userId` reaches them
by shares of `ownerId` only, `userId` has on each of them at most what `ownerId`
has shared on it or on a folder it has put it under, and nothing once no share of
`ownerId` is left. -/
theorem permission_within_shares {ownerId userId : Uuid} (different : ownerId ≠ userId)
    {start final : System} {events : List (Event System Op)}
    (history : History start events final)
    (allowed : ∀ event ∈ events, event.action.NoSnapshotRestore)
    (onlyOwner : ∀ event ∈ events, OnlyOwnerShares ownerId userId event.before)
    (onlyOwnerNow : OnlyOwnerShares ownerId userId final)
    (contained : ∀ event ∈ events, Contained ownerId userId events event) :
    ∀ item ∈ final.db.items, item.ownerId = ownerId →
      ∃ perm, getPermission final.db userId item = .ok perm ∧
        (perm = none ∨ Entitled ownerId userId events item.id (levelOf perm)) ∧
        ((∀ share ∈ final.db.shares, share.targetUserId = userId →
          ¬ Owns final ownerId share.itemId) → perm = none) := by
  have confined := history.confined different (List.Subset.refl events) allowed onlyOwner
    contained
  intro item member owned
  rcases getPermission_ends (history.treeShaped allowed).acyclic userId member with
    ⟨perm, runs⟩
  have effective := getPermission_effective runs
  refine ⟨perm, runs, ?_⟩
  rcases effective.granted with rfl | rfl | ⟨share, granted, rfl⟩
  · exact ⟨.inl rfl, fun _ => rfl⟩
  · rcases effective.owner.mp rfl with ⟨top, chain, ownedTop⟩
    rcases (onChain_iff member).mp chain with ⟨topMem, above⟩
    exact absurd ⟨top, topMem, rfl, ownedTop⟩
      (confined.apart item.id top.id ⟨item, member, rfl, owned⟩ above)
  · refine ⟨.inr (confined.share_entitled (List.Subset.refl events) onlyOwnerNow member owned
      granted), fun none => ?_⟩
    exact absurd (onlyOwnerNow item member owned share granted)
      (none share granted.1 granted.2.1)

end Containment

/-! ## A moved folder -/

section TakenHome

attribute [local instance] smallPlatform

theorem OnlyOwnerShares.of_shares {ownerId userId : Uuid} {sys : System}
    (shares : ∀ share ∈ sys.db.shares.rows, share.targetUserId = userId →
      ∃ row ∈ sys.db.items.rows, row.id = share.itemId ∧ row.ownerId = ownerId) :
    OnlyOwnerShares ownerId userId sys :=
  fun _ _ _ share granted => shares share granted.1 granted.2.1

private def finalOf (ops : List Op) : System :=
  match Op.commitAll ops firstDay with
  | .ok sys => sys
  | .error _ => firstDay

/-- User 2 moves a folder of user 1 within the folder shared with them. -/
private def moveWithin : List Op :=
  [.createFolder 1 none "Plans", .shareItem 1 10 "b@example.org" .editor,
    .createFolder 1 (some 10) "Old", .createFolder 1 (some 10) "New", .move 2 11 (some 12)]

private theorem moveWithin_run : Op.commitAll moveWithin firstDay = .ok (finalOf moveWithin) :=
  rfl

private theorem moveWithin_actions :
    ∀ event ∈ Op.trace moveWithin firstDay, event.action ∈ moveWithin := by
  intro event member
  rw [← Op.trace_actions moveWithin_run]
  exact List.mem_map_of_mem member

private theorem moveWithin_onlyOwner :
    ∀ event ∈ Op.trace moveWithin firstDay, OnlyOwnerShares 1 2 event.before := by
  have shares : ∀ event ∈ Op.trace moveWithin firstDay,
      ∀ share ∈ event.before.db.shares.rows, share.targetUserId = 2 →
        ∃ row ∈ event.before.db.items.rows, row.id = share.itemId ∧ row.ownerId = 1 := by
    decide
  exact fun event member => .of_shares (shares event member)

private theorem moveWithin_contained :
    ∀ event ∈ Op.trace moveWithin firstDay,
      Contained 1 2 (Op.trace moveWithin firstDay) event := by
  have nothingOf2 : ∀ event ∈ Op.trace moveWithin firstDay,
      ∀ row ∈ event.before.db.items.rows, row.ownerId ≠ 2 := by decide
  intro event member
  constructor
  · intro folderId _ top _ owned
    rcases owned with ⟨row, rowMem, _, mine⟩
    exact nothingOf2 event member row rowMem mine
  · intro mover movedId folderId action _ other
    have listed := moveWithin_actions event member
    rw [action] at listed
    simp [moveWithin] at listed
    exact absurd listed.1 other

theorem permission_within_shares_moveWithin :
    ∃ item ∈ (finalOf moveWithin).db.items, item.id = 11 ∧ item.parentId = some 12 ∧
      ∃ perm, getPermission (finalOf moveWithin).db 2 item = .ok perm ∧
        (perm = none ∨
          Entitled 1 2 (Op.trace moveWithin firstDay) item.id (levelOf perm)) ∧
        ((∀ share ∈ (finalOf moveWithin).db.shares, share.targetUserId = 2 →
          ¬ Owns (finalOf moveWithin) 1 share.itemId) → perm = none) := by
  have there : ∃ item ∈ (finalOf moveWithin).db.items.rows,
      item.id = 11 ∧ item.parentId = some 12 ∧ item.ownerId = 1 := by decide
  have allowed : ∀ event ∈ Op.trace moveWithin firstDay, event.action.NoSnapshotRestore := by
    intro event member
    have listed := moveWithin_actions event member
    revert listed
    generalize event.action = op
    simp only [moveWithin, List.mem_cons, List.not_mem_nil, or_false]
    rintro (rfl | rfl | rfl | rfl | rfl) <;> trivial
  rcases there with ⟨item, member, isOld, inNew, owned⟩
  exact ⟨item, member, isOld, inNew, permission_within_shares (by decide)
    (firstDay_trace (by simp [moveWithin, Op.Offered]) moveWithin_run) allowed
    moveWithin_onlyOwner (.of_shares (by decide)) moveWithin_contained item member owned⟩

private def takeHome : List Op :=
  [.createFolder 1 none "Plans", .shareItem 1 10 "b@example.org" .editor,
    .createFolder 2 none "Mine", .move 2 10 (some 11), .removeShare 1 10 2]

private theorem takeHome_run : Op.commitAll takeHome firstDay = .ok (finalOf takeHome) := rfl

private theorem takeHome_onlyOwner :
    ∀ event ∈ Op.trace takeHome firstDay, OnlyOwnerShares 1 2 event.before := by
  have shares : ∀ event ∈ Op.trace takeHome firstDay,
      ∀ share ∈ event.before.db.shares.rows, share.targetUserId = 2 →
        ∃ row ∈ event.before.db.items.rows, row.id = share.itemId ∧ row.ownerId = 1 := by
    decide
  exact fun event member => .of_shares (shares event member)

/-- User 1 has shared editing only, and removed the share again; user 2 is taken
for the owner. -/
theorem takeHome_escalates :
    History firstDay (Op.trace takeHome firstDay) (finalOf takeHome) ∧
      (∀ event ∈ Op.trace takeHome firstDay, OnlyOwnerShares 1 2 event.before) ∧
      (finalOf takeHome).db.shares.rows = [] ∧
      ¬ Entitled 1 2 (Op.trace takeHome firstDay) 10 Permission.owner.level ∧
      ∃ item ∈ (finalOf takeHome).db.items, item.id = 10 ∧ item.ownerId = 1 ∧
        getPermission (finalOf takeHome).db 2 item = .ok (some .owner) := by
  refine ⟨firstDay_trace (by simp [takeHome, Op.Offered]) takeHome_run, takeHome_onlyOwner,
    by decide, ?_, ?_⟩
  · intro entitled
    rcases entitled with ⟨event, member, sharedId, permission, ⟨email, _, action, _⟩, enough, _⟩
    have listed := List.mem_map_of_mem (f := Event.action) member
    rw [Op.trace_actions takeHome_run, action] at listed
    simp only [takeHome, List.mem_cons, List.not_mem_nil, or_false, reduceCtorEq, false_or,
      Op.shareItem.injEq] at listed
    rw [listed.2.2.2] at enough
    exact absurd enough (by decide)
  · show ∃ item ∈ (finalOf takeHome).db.items.rows, item.id = 10 ∧ item.ownerId = 1 ∧
      getPermission (finalOf takeHome).db 2 item = .ok (some .owner)
    decide

end TakenHome

end CloudDrive
