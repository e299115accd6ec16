import CloudDrive.Trash.Emptying
import CloudDrive.Upload.UsedBytes

/-! # One permanent delete, row by row

`permanent_delete` hands the rows of the subtree to `hard_delete` one after the other, the
deepest first. Here are the states in which it does so. -/

namespace CloudDrive

open Outcome Relational Forest Relation Execution

namespace TrashService

open TrashRepository

section PermanentDelete

variable [Platform]

/-! ## The calls -/

/-- What is done to a row before `hard_delete`: its versions if it is a file, its shares. -/
def beforeHardDelete (item : DriveItem) (state : Reclaimed × System) : Reclaimed × System :=
  let state := if item.itemType = .file then deleteFileVersions item state.1 state.2
    else state
  (state.1, deleteShares item.id state.2)

theorem deleteRow_eq (item : DriveItem) (state : Reclaimed × System) :
    deleteRow item state = (do
      let sys ← hardDelete item.id (beforeHardDelete item state).2
      pure ((beforeHardDelete item state).1, sys)) := rfl

/-- A call of `hard_delete`: the id and the state in which it is made. -/
structure HardDelete where
  itemId : Uuid
  sys : System

/-- The calls that the loop over `rows` makes, up to the first that raises. -/
def hardDeletes : List DriveItem → Reclaimed × System → List HardDelete
  | [], _ => []
  | item :: rest, state =>
      ⟨item.id, (beforeHardDelete item state).2⟩ ::
        match deleteRow item state with
        | .ok next => hardDeletes rest next
        | .error _ => []

/-- The foreign keys of the items and of the versions let the row go. -/
structure HardDelete.Allowed (call : HardDelete) : Prop where
  childless : ∀ row ∈ call.sys.db.items, row.parentId ≠ some call.itemId
  unversioned : ∀ version ∈ call.sys.db.versions, version.fileId ≠ call.itemId

theorem beforeHardDelete_items (item : DriveItem) (state : Reclaimed × System) :
    (beforeHardDelete item state).2.db.items = state.2.db.items := by
  unfold beforeHardDelete
  split <;> rfl

theorem beforeHardDelete_unversioned {item : DriveItem} {state : Reclaimed × System}
    (files : VersionsOfFiles state.2.db) (member : item ∈ state.2.db.items) :
    ∀ version ∈ (beforeHardDelete item state).2.db.versions, version.fileId ≠ item.id := by
  unfold beforeHardDelete
  intro version versionMem
  by_cases isFile : item.itemType = .file
  · simp only [if_pos isFile] at versionMem
    exact of_decide_eq_true (Table.mem_filter.mp versionMem).2
  · simp only [if_neg isFile] at versionMem
    intro same
    rcases files version versionMem with ⟨file, fileMem, sameId, kind⟩
    rw [ItemTable.eq_of_id_eq fileMem member (sameId.trans same)] at kind
    exact isFile kind

theorem versionsOfFiles_erased {item : DriveItem} {before after : System}
    (files : VersionsOfFiles before.db) (erased : Erased [item.id] before after) :
    VersionsOfFiles after.db := by
  intro version versionMem
  rcases (erased.versions version).mp versionMem with ⟨earlier, different⟩
  rcases files version earlier with ⟨file, fileMem, sameId, kind⟩
  exact ⟨file, (erased.items file).mpr ⟨fileMem, sameId ▸ different⟩, sameId, kind⟩

/-- In an order in which children come first, each row is called for once, when nothing
refers to it any more. -/
theorem hardDeletes_allowed : ∀ {rows : List DriveItem} {state final : Reclaimed × System},
    Deletable state.2.db.items rows → (rows.map DriveItem.id).Nodup →
    (∀ row ∈ rows, row ∈ state.2.db.items ∧ row.parentId ≠ some row.id) →
    VersionsOfFiles state.2.db → forEach deleteRow rows state = .ok final →
    (hardDeletes rows state).map HardDelete.itemId = rows.map DriveItem.id ∧
      ∀ call ∈ hardDeletes rows state, call.Allowed
  | [], _, _, _, _, _, _, _ => ⟨rfl, fun _ member => (List.not_mem_nil member).elim⟩
  | item :: rest, state, final, deletable, distinct, known, files, runs => by
      rw [forEach_cons, bind_eq_ok] at runs
      rcases runs with ⟨middle, first, later⟩
      rcases List.nodup_cons.mp distinct with ⟨notAgain, restDistinct⟩
      rcases known item List.mem_cons_self with ⟨member, notOwn⟩
      have erased := (deleteRow_ok first).1
      have restKnown : ∀ row ∈ rest, row ∈ middle.2.db.items ∧ row.parentId ≠ some row.id := by
        intro row rowMem
        rcases known row (List.mem_cons_of_mem _ rowMem) with ⟨before, rowNotOwn⟩
        apply And.intro _ rowNotOwn
        apply (erased.items row).mpr ⟨before, _⟩
        intro gone
        rw [List.mem_singleton] at gone
        exact notAgain (gone ▸ List.mem_map_of_mem rowMem)
      rcases hardDeletes_allowed (deletable.rest erased) restDistinct restKnown
        (versionsOfFiles_erased files erased) later with ⟨ids, allowed⟩
      rw [hardDeletes, first]
      constructor
      · rw [List.map_cons, List.map_cons, ids]
      · intro call among
        rcases List.mem_cons.mp among with rfl | inRest
        · constructor
          case childless =>
            intro row rowMem named
            rw [beforeHardDelete_items] at rowMem
            rcases List.mem_cons.mp (deletable.closed item List.mem_cons_self row rowMem named)
              with rfl | afterItem
            · exact notOwn named
            · exact (List.pairwise_cons.mp deletable.childrenFirst).1 row afterItem named
          case unversioned => exact beforeHardDelete_unversioned files member
        · exact allowed call inRest

/-! ## The subtree -/

theorem descendants_distinct {sys : System} (tree : FolderTree sys.db.items) {item : DriveItem}
    {below : List DriveItem} (found : descendants sys item = .ok below)
    (isBelow : ∀ row, row ∈ below ↔
      row ∈ sys.db.items ∧ Above sys.db.items.parentOf row.id item.id) :
    ((below.reverse ++ [item]).map DriveItem.id).Nodup := by
  have nodup : below.Nodup := by
    unfold descendants at found
    split at found
    · cases pure_eq_ok.mp found
      exact List.nodup_nil
    · rcases Table.breadthFirst_spec tree.acyclic item.id with ⟨final, runs, _, distinct, _⟩
      rw [getChildrenRecursive, orRaise_eq_ok] at found
      cases runs.symm.trans found
      exact distinct
  rw [List.map_append, List.nodup_append, List.map_reverse, List.nodup_reverse]
  constructor
  · apply nodup.map_on
    intro left leftMem right rightMem same
    exact ItemTable.eq_of_id_eq ((isBelow left).mp leftMem).1 ((isBelow right).mp rightMem).1 same
  apply And.intro (List.nodup_singleton _)
  intro left leftMem right rightMem same
  rcases List.mem_map.mp (List.mem_reverse.mp leftMem) with ⟨row, rowMem, rfl⟩
  have above := ((isBelow row).mp rowMem).2
  rw [List.map_singleton, List.mem_singleton] at rightMem
  rw [same, rightMem] at above
  exact tree.acyclic item.id above

theorem mem_subtree_ids {sys : System} {item : DriveItem} {below : List DriveItem}
    (isBelow : ∀ row, row ∈ below ↔
      row ∈ sys.db.items ∧ Above sys.db.items.parentOf row.id item.id) (itemId : Uuid) :
    itemId ∈ (below.reverse ++ [item]).map DriveItem.id ↔
      AtOrAbove sys.db.items.parentOf itemId item.id := by
  rw [List.map_append, List.mem_append, List.map_singleton, List.mem_singleton, atOrAbove_iff]
  constructor
  · intro either
    rcases either with among | same
    · rcases List.mem_map.mp among with ⟨other, otherMem, rfl⟩
      exact .inr ((isBelow other).mp (List.mem_reverse.mp otherMem)).2
    · exact .inl same
  · intro either
    rcases either with same | above
    · exact .inr same
    · rcases TransGen.head'_iff.mp above with ⟨up, step, _⟩
      rcases ItemTable.parentOf_eq_some.mp step with ⟨row, rowMem, rfl, _⟩
      exact .inl (List.mem_map_of_mem
        (List.mem_reverse.mpr ((isBelow row).mpr ⟨rowMem, above⟩)))

/-- What is left is everything that does not belong to the subtree of `itemId`. -/
structure SubtreeErased (itemId : Uuid) (before after : Database) : Prop where
  items : ∀ row, row ∈ after.items ↔
    row ∈ before.items ∧ ¬ AtOrAbove before.items.parentOf row.id itemId
  versions : ∀ version, version ∈ after.versions ↔
    version ∈ before.versions ∧ ¬ AtOrAbove before.items.parentOf version.fileId itemId
  shares : ∀ share, share ∈ after.shares ↔
    share ∈ before.shares ∧ ¬ AtOrAbove before.items.parentOf share.itemId itemId

/-- In a forest in which folders have the children and files have the versions, a trashed
item of the caller goes with its subtree: one call of `hard_delete` for each row of it, each
of them allowed, and nothing else is touched. -/
theorem permanentDelete_contract {userId : Uuid} {sys : System} {item : DriveItem}
    (tree : FolderTree sys.db.items) (files : VersionsOfFiles sys.db)
    (member : item ∈ sys.db.items) (owned : item.ownerId = userId)
    (trashed : item.isDeleted = true) :
    ∃ below after, descendants sys item = .ok below ∧
      permanentDelete userId item.id sys = .ok after ∧
      (∀ itemId, itemId ∈ (below.reverse ++ [item]).map DriveItem.id ↔
        AtOrAbove sys.db.items.parentOf itemId item.id) ∧
      (hardDeletes (below.reverse ++ [item]) ({ freed := 0, keys := [] }, sys)).map
        HardDelete.itemId = (below.reverse ++ [item]).map DriveItem.id ∧
      ((below.reverse ++ [item]).map DriveItem.id).Nodup ∧
      (∀ call ∈ hardDeletes (below.reverse ++ [item]) ({ freed := 0, keys := [] }, sys),
        call.Allowed) ∧
      SubtreeErased item.id sys.db after.db := by
  rcases descendants_runs tree member with ⟨below, found, isBelow, deletable⟩
  rcases deleteRows_run deletable with ⟨state, deletes⟩
  have runs : permanentDelete userId item.id sys = .ok (settle userId state.1 state.2) := by
    simp only [permanentDelete, bind_eq_ok, orRaise_eq_ok, require_eq_ok, pure_eq_ok]
    exact ⟨item, ItemTable.find?_id member, (), owned, (), trashed, below, found, state,
      deletes, rfl⟩
  have distinct := descendants_distinct tree found isBelow
  have inside := mem_subtree_ids isBelow
  have known : ∀ row ∈ below.reverse ++ [item],
      row ∈ sys.db.items ∧ row.parentId ≠ some row.id := by
    intro row among
    have rowMem : row ∈ sys.db.items := by
      rcases List.mem_append.mp among with inBelow | isItem
      · exact ((isBelow row).mp (List.mem_reverse.mp inBelow)).1
      · rw [List.mem_singleton.mp isItem]
        exact member
    apply And.intro rowMem
    intro own
    exact tree.acyclic row.id (.single ((ItemTable.parentOf_id rowMem).trans own))
  rcases hardDeletes_allowed deletable distinct known files deletes with ⟨ids, allowed⟩
  have erased := (deleteRows_ok deletes).1
  apply Exists.intro below
  apply Exists.intro _
  apply And.intro found
  apply And.intro runs
  apply And.intro inside
  apply And.intro ids
  apply And.intro distinct
  apply And.intro allowed
  rcases settle_eq userId state.1 state.2 with ⟨users, same⟩
  rw [same]
  constructor
  case items =>
    intro row
    rw [← inside]
    exact erased.items row
  case versions =>
    intro version
    rw [← inside]
    exact erased.versions version
  case shares =>
    intro share
    rw [← inside]
    exact erased.shares share

end PermanentDelete

/-! ## A folder in a folder, and a file in it -/

section Nested

attribute [local instance] smallPlatform

private def makeAndTrash : List Op :=
  [.createFolder 1 none "Old", .createFolder 1 (some 10) "Work",
    .uploadSimple 1 (some 11) "a" [[65, 66]] 2 none, .createFolder 1 none "New",
    .trashItem 1 10]

private def withOldTrashed : System := afterFirstDay makeAndTrash

private def oldTrashed : DriveItem :=
  markedDeleted firstDay (DriveItemRepository.newItem firstDay 1 none .folder "Old" 1)

private theorem withOldTrashed_tree : FolderTree withOldTrashed.db.items := by
  rcases firstDay_history (by simp [makeAndTrash, Op.Offered])
    (show Op.commitAll makeAndTrash firstDay = .ok withOldTrashed from rfl)
    with ⟨events, history, actions⟩
  have all : ∀ op ∈ events.map Event.action, op.NoSnapshotRestore := by
    rw [actions]
    simp [makeAndTrash, Op.NoSnapshotRestore]
  have shaped := history.treeShaped fun event member =>
    all event.action (List.mem_map_of_mem member)
  exact shaped.folderTree

private theorem withOldTrashed_versions : VersionsOfFiles withOldTrashed.db := by
  have found : ∀ version ∈ withOldTrashed.db.versions.rows,
      ∃ item ∈ withOldTrashed.db.items.rows,
        item.id = version.fileId ∧ item.itemType = .file := by
    decide
  intro version member
  rcases found version (Table.mem_rows.mp member) with ⟨item, itemMem, both⟩
  exact ⟨item, ItemTable.mem_rows.mp itemMem, both⟩

theorem permanentDelete_contract_oldTrashed :
    ∃ below after, descendants withOldTrashed oldTrashed = .ok below ∧
      permanentDelete 1 oldTrashed.id withOldTrashed = .ok after ∧
      (∀ itemId, itemId ∈ (below.reverse ++ [oldTrashed]).map DriveItem.id ↔
        AtOrAbove withOldTrashed.db.items.parentOf itemId oldTrashed.id) ∧
      (hardDeletes (below.reverse ++ [oldTrashed])
        ({ freed := 0, keys := [] }, withOldTrashed)).map HardDelete.itemId =
          (below.reverse ++ [oldTrashed]).map DriveItem.id ∧
      ((below.reverse ++ [oldTrashed]).map DriveItem.id).Nodup ∧
      (∀ call ∈ hardDeletes (below.reverse ++ [oldTrashed])
        ({ freed := 0, keys := [] }, withOldTrashed), call.Allowed) ∧
      SubtreeErased oldTrashed.id withOldTrashed.db after.db :=
  permanentDelete_contract withOldTrashed_tree withOldTrashed_versions
    (ItemTable.mem_rows.mp (by decide)) rfl rfl

end Nested

end TrashService

end CloudDrive
