import CloudDrive.Operation

/-! # The folder tree over a run

In every state that a run without snapshot restores reaches, the parent graph is
a forest and only folders have children or are the target of an upload. -/

namespace CloudDrive

open Outcome Relational Forest Relation Execution DriveService TrashService

variable [Platform]

/-- Every ancestor of an item is an item. -/
theorem ItemTable.atOrAbove_mem {items : ItemTable} {item : DriveItem} {top : Uuid}
    (member : item ∈ items) (above : AtOrAbove items.parentOf item.id top) :
    ∃ row ∈ items, row.id = top := by
  induction above with
  | refl => exact ⟨item, member, rfl⟩
  | tail _ step induction =>
      rcases induction with ⟨row, rowMem, rfl⟩
      exact ItemTable.parent_mem rowMem ((ItemTable.parentOf_id rowMem).symm.trans step)

/-- The item with this id is a folder. -/
def IsFolder (items : ItemTable) (itemId : Uuid) : Prop :=
  ∃ row ∈ items, row.id = itemId ∧ row.itemType = .folder

/-- A forest in which only folders have children. -/
structure FolderTree (items : ItemTable) : Prop where
  acyclic : Acyclic items.parentOf
  parents : ∀ row ∈ items, ∀ top ∈ row.parentId, IsFolder items top

structure TreeShaped (sys : System) : Prop where
  acyclic : Acyclic sys.db.items.parentOf
  parents : ∀ row ∈ sys.db.items, ∀ top ∈ row.parentId, IsFolder sys.db.items top
  targets : ∀ session ∈ sys.db.sessions, ∀ top ∈ session.parentId, IsFolder sys.db.items top

theorem DriveService.Writable.isFolder {db : Database} {userId folderId : Uuid}
    (writable : Writable db userId folderId) : IsFolder db.items folderId := by
  rcases writable with ⟨folder, found, _, kind, _⟩
  rcases ItemTable.find?_eq_some.mp found with ⟨member, sameId⟩
  exact ⟨folder, member, sameId, kind⟩

/-- An id that no row has is not above anything. -/
theorem not_above_fresh {items : ItemTable} {itemId : Uuid}
    (fresh : ∀ row ∈ items, row.id ≠ itemId) {below : Uuid} :
    ¬ Above items.parentOf below itemId := by
  intro path
  rcases TransGen.tail'_iff.mp path with ⟨child, _, step⟩
  rcases ItemTable.parentOf_eq_some.mp step with ⟨row, rowMem, _, points⟩
  rcases ItemTable.parent_mem rowMem points with ⟨parent, parentMem, sameId⟩
  exact fresh parent parentMem sameId

namespace FolderTree

variable {before after : ItemTable}

/-- Nothing lies below an item that is not a folder. -/
theorem not_above (tree : FolderTree before) {item : DriveItem} (member : item ∈ before)
    (notFolder : item.itemType ≠ .folder) {below : Uuid} :
    ¬ Above before.parentOf below item.id := by
  intro path
  rcases TransGen.tail'_iff.mp path with ⟨child, _, step⟩
  rcases ItemTable.parentOf_eq_some.mp step with ⟨row, rowMem, _, points⟩
  rcases tree.parents row rowMem item.id points with ⟨parent, parentMem, sameId, kind⟩
  rw [ItemTable.eq_of_id_eq parentMem member sameId] at kind
  exact notFolder kind

theorem isFolder_replaced {old new : DriveItem}
    (replaced : ItemTable.Replaced before after old new) (content : SameContent new old)
    {top : Uuid} (isFolder : IsFolder before top) : IsFolder after top := by
  rcases isFolder with ⟨row, member, sameId, kind⟩
  by_cases same : row.id = old.id
  · rw [ItemTable.eq_of_id_eq member replaced.member same] at sameId kind
    exact ⟨new, replaced.newMem, replaced.sameId.trans sameId, content.itemType.trans kind⟩
  · exact ⟨row, (replaced.rows row).mpr (.inr ⟨member, same⟩), sameId, kind⟩

/-- A row was rewritten; what it hangs under now is a folder that is not below it. -/
theorem of_replaced (tree : FolderTree before) {old new : DriveItem}
    (replaced : ItemTable.Replaced before after old new) (content : SameContent new old)
    (parent : ∀ top ∈ new.parentId, IsFolder before top ∧
      ¬ AtOrAbove before.parentOf top old.id) : FolderTree after := by
  constructor
  case acyclic =>
    rw [replaced.parentOf]
    exact tree.acyclic.reparent fun top named => (parent top named).2
  case parents =>
    intro row member top named
    rcases (replaced.rows row).mp member with rfl | ⟨earlier, _⟩
    · exact isFolder_replaced replaced content (parent top named).1
    · exact isFolder_replaced replaced content (tree.parents row earlier top named)

/-- A rewritten row that keeps its parent, or goes to the root, changes nothing. -/
theorem hung_in_place (tree : FolderTree before) {old new : DriveItem}
    (member : old ∈ before) (parent : new.parentId = old.parentId ∨ new.parentId = none) :
    ∀ top ∈ new.parentId, IsFolder before top ∧ ¬ AtOrAbove before.parentOf top old.id := by
  intro top named
  rcases parent with same | root
  · rw [same] at named
    exact ⟨tree.parents old member top named,
      tree.acyclic.not_atOrAbove ((ItemTable.parentOf_id member).trans named)⟩
  · rw [root] at named
    cases named

theorem isFolder_added {item : DriveItem}
    (rows : ∀ row, row ∈ after ↔ row ∈ before ∨ row = item) {top : Uuid}
    (isFolder : IsFolder before top) : IsFolder after top := by
  rcases isFolder with ⟨row, member, sameId, kind⟩
  exact ⟨row, (rows row).mpr (.inl member), sameId, kind⟩

/-- A row with a new id was added under a folder. -/
theorem of_added (tree : FolderTree before) {item : DriveItem}
    (rows : ∀ row, row ∈ after ↔ row ∈ before ∨ row = item)
    (fresh : ∀ row ∈ before, row.id ≠ item.id)
    (parent : ∀ top ∈ item.parentId, IsFolder before top) : FolderTree after := by
  constructor
  case acyclic =>
    rw [ItemTable.add_parentOf rows fresh]
    apply tree.acyclic.reparent
    intro top named path
    rcases parent top named with ⟨row, member, rfl, _⟩
    rcases atOrAbove_iff.mp path with same | above
    · exact fresh row member same
    · exact not_above_fresh fresh above
  case parents =>
    intro row member top named
    rcases (rows row).mp member with earlier | rfl
    · exact isFolder_added rows (tree.parents row earlier top named)
    · exact isFolder_added rows (parent top named)

/-- `move` never puts an item under itself or under what lies below it. -/
theorem move_outside {before after : System} (tree : FolderTree before.db.items)
    {userId itemId : Uuid} {newParentId : Option Uuid}
    (runs : move userId itemId newParentId before = .ok after) :
    ∀ top ∈ newParentId, ¬ AtOrAbove before.db.items.parentOf top itemId := by
  rcases move_ok runs with ⟨item, editable, rfl, target, _⟩
  intro top named
  rcases target top named with ⟨writable, outside⟩
  by_cases folder : item.itemType = .folder
  · exact isDescendantOrSelf_false tree.acyclic (outside folder)
  · intro path
    rcases atOrAbove_iff.mp path with same | above
    · rcases writable.isFolder with ⟨row, member, sameId, kind⟩
      rw [ItemTable.eq_of_id_eq member editable.member (sameId.trans same)] at kind
      exact folder kind
    · exact tree.not_above editable.member folder above

theorem of_move {before after : System} (tree : FolderTree before.db.items)
    {userId itemId : Uuid} {newParentId : Option Uuid}
    (runs : move userId itemId newParentId before = .ok after) : FolderTree after.db.items := by
  have outside := tree.move_outside runs
  rcases move_ok runs with ⟨item, editable, rfl, target, items, changed, rfl⟩
  apply tree.of_replaced (ItemTable.change_replaced editable.member rfl changed)
    ⟨rfl, rfl, rfl, rfl, rfl⟩
  exact fun top named => ⟨(target top named).1.isFolder, outside top named⟩

end FolderTree

namespace TreeShaped

variable {before after : System}

theorem folderTree (shaped : TreeShaped before) : FolderTree before.db.items :=
  ⟨shaped.acyclic, shaped.parents⟩

theorem of_folderTree (tree : FolderTree after.db.items)
    (targets : ∀ session ∈ after.db.sessions, ∀ top ∈ session.parentId,
      IsFolder after.db.items top) : TreeShaped after :=
  ⟨tree.acyclic, tree.parents, targets⟩

theorem not_above (shaped : TreeShaped before) {item : DriveItem}
    (member : item ∈ before.db.items) (notFolder : item.itemType ≠ .folder) {below : Uuid} :
    ¬ Above before.db.items.parentOf below item.id :=
  shaped.folderTree.not_above member notFolder

theorem of_items_eq (shaped : TreeShaped before) (items : after.db.items = before.db.items)
    (sessions : ∀ session ∈ after.db.sessions, ∀ top ∈ session.parentId,
      (∃ old ∈ before.db.sessions, old.parentId = some top) ∨ IsFolder before.db.items top) :
    TreeShaped after where
  acyclic := items ▸ shaped.acyclic
  parents := items ▸ shaped.parents
  targets := by
    intro session member top named
    rw [items]
    rcases sessions session member top named with ⟨old, oldMem, same⟩ | isFolder
    · exact shaped.targets old oldMem top same
    · exact isFolder

theorem of_replaced (shaped : TreeShaped before) {items : ItemTable} {old new : DriveItem}
    (replaced : ItemTable.Replaced before.db.items items old new)
    (content : SameContent new old)
    (parent : ∀ top ∈ new.parentId, IsFolder before.db.items top ∧
      ¬ AtOrAbove before.db.items.parentOf top old.id) :
    TreeShaped (before.withItems items) :=
  of_folderTree (shaped.folderTree.of_replaced replaced content parent)
    fun session member top named =>
      FolderTree.isFolder_replaced replaced content (shaped.targets session member top named)

theorem of_replaced_in_place (shaped : TreeShaped before) {items : ItemTable}
    {old new : DriveItem} (replaced : ItemTable.Replaced before.db.items items old new)
    (content : SameContent new old)
    (parent : new.parentId = old.parentId ∨ new.parentId = none) :
    TreeShaped (before.withItems items) :=
  shaped.of_replaced replaced content (shaped.folderTree.hung_in_place replaced.member parent)

theorem of_added (shaped : TreeShaped before) {item : DriveItem}
    (rows : ∀ row, row ∈ after.db.items ↔ row ∈ before.db.items ∨ row = item)
    (fresh : ∀ row ∈ before.db.items, row.id ≠ item.id)
    (parent : ∀ top ∈ item.parentId, IsFolder before.db.items top)
    (sessions : ∀ session ∈ after.db.sessions,
      ∃ old ∈ before.db.sessions, old.parentId = session.parentId) :
    TreeShaped after := by
  apply of_folderTree (shaped.folderTree.of_added rows fresh parent)
  intro session member top named
  rcases sessions session member with ⟨old, oldMem, same⟩
  exact FolderTree.isFolder_added rows (shaped.targets old oldMem top (same ▸ named))

theorem of_erased (shaped : TreeShaped before) {gone : List Uuid}
    (erased : Erased gone before after) : TreeShaped after := by
  have keeps : ∀ {top}, top ∉ gone → IsFolder before.db.items top →
      IsFolder after.db.items top := by
    intro top stays isFolder
    rcases isFolder with ⟨row, member, rfl, kind⟩
    exact ⟨row, (erased.items row).mpr ⟨member, stays⟩, rfl, kind⟩
  constructor
  case acyclic =>
    apply shaped.acyclic.of_sub
    intro node top step
    rcases ItemTable.parentOf_eq_some.mp step with ⟨row, member, sameId, points⟩
    exact ItemTable.parentOf_eq_some.mpr
      ⟨row, ((erased.items row).mp member).1, sameId, points⟩
  case parents =>
    intro row member top named
    rcases ItemTable.parent_mem member named with ⟨parent, parentMem, rfl⟩
    exact keeps ((erased.items parent).mp parentMem).2
      (shaped.parents row ((erased.items row).mp member).1 parent.id named)
  case targets =>
    intro session member top named
    rw [← Table.mem_rows, erased.sessions] at member
    rcases List.mem_map.mp member with ⟨old, oldMem, rfl⟩
    rcases Option.filter_eq_some_iff.mp named with ⟨points, stays⟩
    exact keeps (of_decide_eq_true stays) (shaped.targets old oldMem top points)

/-! ## One lemma for each kind of request -/

theorem move_outside (shaped : TreeShaped before) {userId itemId : Uuid}
    {newParentId : Option Uuid} (runs : move userId itemId newParentId before = .ok after) :
    ∀ top ∈ newParentId, ¬ AtOrAbove before.db.items.parentOf top itemId :=
  shaped.folderTree.move_outside runs

theorem of_move (shaped : TreeShaped before) {userId itemId : Uuid}
    {newParentId : Option Uuid} (runs : move userId itemId newParentId before = .ok after) :
    TreeShaped after := by
  rcases move_ok runs with ⟨item, editable, rfl, _, items, changed, same⟩
  have replaced := ItemTable.change_replaced editable.member rfl changed
  apply of_folderTree (shaped.folderTree.of_move runs)
  intro session member top named
  rw [same] at member ⊢
  exact FolderTree.isFolder_replaced replaced ⟨rfl, rfl, rfl, rfl, rfl⟩
    (shaped.targets session member top named)

theorem of_permanentDelete (shaped : TreeShaped before) {userId itemId : Uuid}
    (runs : permanentDelete userId itemId before = .ok after) : TreeShaped after := by
  rcases permanentDelete_ok runs with ⟨_, _, _, _, _, _, _, reclaimed, middle, erased, _, rfl⟩
  rcases settle_eq userId reclaimed middle with ⟨users, same⟩
  have middleShaped := shaped.of_erased erased
  rw [same]
  exact middleShaped.of_items_eq rfl fun session member top named => .inl ⟨session, member, named⟩

theorem of_fileCreated (shaped : TreeShaped before) {userId : Uuid} {parentId : Option Uuid}
    {file : StoredFile} {stream : List Content} {item : DriveItem}
    (created : FileCreated userId parentId file item
      (Storage.saveStream file.key stream before.drawn) after)
    (parent : ∀ top ∈ parentId, IsFolder before.db.items top) : TreeShaped after := by
  rcases created.frame with ⟨_, _, _, frame⟩
  apply shaped.of_added created.items created.fresh.items (created.parentId ▸ parent)
  intro session member
  rw [frame] at member
  exact ⟨session, member, rfl⟩

theorem of_sessionWork (shaped : TreeShaped before)
    (work : UploadSessionService.SessionWork before after)
    (kept : UploadSessionService.SessionsKept before after) : TreeShaped after := by
  rcases work.frame with ⟨_, _, frame⟩
  apply shaped.of_items_eq (by rw [frame])
  intro session member top named
  rcases kept session member with ⟨old, oldMem, _, _, sameParent⟩
  exact .inl ⟨old, oldMem, sameParent.trans named⟩

theorem of_effect {op : Op} (shaped : TreeShaped before) (allowed : op.NoSnapshotRestore)
    (effect : op.Effect before after) : TreeShaped after := by
  have quiet : ∀ {after : System}, after.db.items = before.db.items →
      after.db.sessions = before.db.sessions → TreeShaped after := by
    intro after items sessions
    apply shaped.of_items_eq items
    intro session member top named
    exact .inl ⟨session, sessions ▸ member, named⟩
  cases effect with
  | nothing => exact shaped
  | folderCreated writable added =>
      exact shaped.of_added (fun row => ItemTable.mem_of_add added)
        (ItemTable.fresh_of_add added) (fun top named => (writable top named).isFolder)
        fun session member => ⟨session, member, rfl⟩
  | rewritten replaced content parent => exact shaped.of_replaced_in_place replaced content parent
  | moved runs => exact shaped.of_move runs
  | deleted runs => exact shaped.of_permanentDelete runs
  | emptied runs =>
      exact forEach_keeps TreeShaped (fun _ _ _ middle step => middle.of_permanentDelete step)
        shaped runs
  | shared => exact quiet rfl rfl
  | unshared => exact quiet rfl rfl
  | uploaded writable _ created =>
      exact shaped.of_fileCreated created fun top named => (writable top named).isFolder
  | @sessionOpened _ _ _ _ _ session sessions writable _ parent rows =>
      have items : (before.drawn.withSessions sessions).db.items = before.db.items := rfl
      apply shaped.of_items_eq items
      intro row member top named
      have listed : row ∈ before.db.sessions.rows ++ [session] := rows ▸ member
      rcases List.mem_append.mp listed with earlier | new
      · exact .inl ⟨row, earlier, named⟩
      · rw [List.mem_singleton.mp new, parent] at named
        exact .inr (writable top named).isFolder
  | sessionWorked work kept => exact shaped.of_sessionWork work kept
  | completed member _ _ _ created work kept =>
      exact (shaped.of_fileCreated created (shaped.targets _ member)).of_sessionWork work kept
  | snapshotsWorked _ work => exact quiet work.items work.sessions
  | snapshotRestored => exact allowed.elim
  | collected => exact quiet rfl rfl
  | ticked => exact quiet rfl rfl

end TreeShaped

theorem Untouched.treeShaped {sys : System} (untouched : Untouched sys) : TreeShaped sys := by
  have noItem : ∀ row, row ∉ sys.db.items := by
    intro row member
    rw [untouched.items] at member
    cases member
  constructor
  case acyclic =>
    intro node cycle
    rcases TransGen.head'_iff.mp cycle with ⟨top, step, _⟩
    rcases ItemTable.parentOf_eq_some.mp step with ⟨row, member, _⟩
    exact noItem row member
  case parents => exact fun row member => absurd member (noItem row)
  case targets =>
    intro session member
    rw [untouched.sessions] at member
    cases member

/-- The tree stays a forest of folders over every run without snapshot restores. -/
theorem History.treeShaped {start final : System} {events : List (Event System Op)}
    (history : History start events final)
    (allowed : ∀ event ∈ events, event.action.NoSnapshotRestore) : TreeShaped final :=
  history.2.keeps history.1.treeShaped fun event member shaped commits =>
    shaped.of_effect (allowed event member) (Op.effect commits)

end CloudDrive
