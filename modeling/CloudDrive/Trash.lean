import CloudDrive.Share

/-! # The trash

`trash_item`, `restore`, `permanent_delete` and `empty_trash` of `app/trash`.
Trashing is shallow: only the row itself is marked. -/

namespace CloudDrive

open Outcome Relational

variable [Platform]

namespace TrashRepository

/-- The fields `mark_deleted` writes. -/
def markedDeleted (sys : System) (item : DriveItem) : DriveItem :=
  { item with isDeleted := true, deletedAt := some sys.now, updatedAt := sys.now }

/-- The fields `mark_restored` writes. -/
def markedRestored (sys : System) (item : DriveItem) : DriveItem :=
  { item with isDeleted := false, deletedAt := none, updatedAt := sys.now }

/-- The rows `get_all_deleted` selects, in the order of the table; the
database may return them in any other. -/
def getAllDeleted (sys : System) (ownerId : Uuid) : List DriveItem :=
  sys.db.items.rows.filter fun item =>
    decide (item.ownerId = ownerId ∧ item.isDeleted = true)

/-- `get_children_recursive`: every item below `itemId`, shallowest first. -/
def getChildrenRecursive (sys : System) (itemId : Uuid) :
    Except ServiceError (List DriveItem) :=
  orRaise (sys.db.items.toTable.breadthFirst DriveItem.parentId
    (sys.db.items.rows.length + 1) [itemId] []) .diverged

/-- `ON DELETE SET NULL` of the two references an upload session keeps. -/
def forgetItems (gone : List Uuid) (session : UploadSession) : UploadSession :=
  { session with
    parentId := session.parentId.filter (· ∉ gone)
    driveItemId := session.driveItemId.filter (· ∉ gone) }

/-- `DELETE FROM drive_items`, with what the foreign keys of the other tables
cascade. The self-reference does not cascade: a remaining child refuses it. -/
def hardDelete (itemId : Uuid) (sys : System) : Except ServiceError System := do
  let items ← sys.db.items.remove itemId
  pure { sys with db := { sys.db with
    items := items
    versions := sys.db.versions.filter fun row => decide (row.fileId ≠ itemId)
    shares := sys.db.shares.filter fun row => decide (row.itemId ≠ itemId)
    sessions := sys.db.sessions.map (forgetItems [itemId]) (fun _ => rfl) } }

end TrashRepository

namespace TrashService

open TrashRepository DriveItemRepository

def trashItem (userId itemId : Uuid) (sys : System) : Except ServiceError System := do
  let item ← orRaise (sys.db.items.find? itemId) (.notFound "Item not found")
  require (item.ownerId = userId) (.forbidden "Forbidden")
  require (item.isDeleted = false) (.invalidOperation "Item is already in trash")
  let items ← sys.db.items.change itemId (markedDeleted sys)
  pure (sys.withItems items)

/-- Where `restore` puts the item: at the root when its parent is gone. -/
def restoreParent (items : ItemTable) (item : DriveItem) : Option Uuid :=
  match item.parentId with
  | none => none
  | some parentId =>
      match items.find? parentId with
      | none => none
      | some parent => if parent.isDeleted then none else some parentId

def restore (userId itemId : Uuid) (sys : System) : Except ServiceError System := do
  let item ← orRaise (sys.db.items.find? itemId) (.notFound "Item not found")
  require (item.ownerId = userId) (.forbidden "Forbidden")
  require (item.isDeleted = true) (.invalidOperation "Item is not in trash")
  let parentId := restoreParent sys.db.items item
  let name ← resolveName sys.db.items parentId userId item.name
  let items ← sys.db.items.change itemId (markedRestored sys)
  let sys := sys.withItems items
  let sys ← if parentId ≠ item.parentId then updateParent itemId parentId userId sys
    else pure sys
  if name ≠ item.name then updateName itemId name userId sys else pure sys

/-- Bytes freed for the quota and blob keys that became deletion candidates. -/
structure Reclaimed where
  freed : Nat
  keys : List StorageKey

/-- `_delete_file_versions`. -/
def deleteFileVersions (item : DriveItem) (reclaimed : Reclaimed) (sys : System) :
    Reclaimed × System :=
  let versions := sys.db.versions.rows.filter fun row => decide (row.fileId = item.id)
  ({ freed := reclaimed.freed + (versions.map FileVersion.sizeBytes).sum,
     keys := reclaimed.keys ++ versions.map FileVersion.storageKey },
   sys.withVersions (sys.db.versions.filter fun row => decide (row.fileId ≠ item.id)))

/-- `ShareRepository.delete_by_item`. -/
def deleteShares (itemId : Uuid) (sys : System) : System :=
  sys.withShares (sys.db.shares.filter fun row => decide (row.itemId ≠ itemId))

/-- What happens to one row of the subtree: its versions if it is a file, its
shares, and the row. -/
def deleteRow (item : DriveItem) (state : Reclaimed × System) :
    Except ServiceError (Reclaimed × System) := do
  let state := if item.itemType = .file then deleteFileVersions item state.1 state.2
    else state
  let sys ← hardDelete item.id (deleteShares item.id state.2)
  pure (state.1, sys)

/-- `is_referenced_by_snapshot`. -/
def isReferencedBySnapshot (db : Database) (key : StorageKey) : Bool :=
  db.entries.rows.any fun entry => decide (entry.storageKey = some key)

/-- `_reclaim_blobs`: a blob that a snapshot still needs stays. -/
def reclaimBlobs (keys : List StorageKey) (sys : System) : System :=
  sys.withStorage (sys.storage.filter fun object =>
    decide (object.key ∉ keys) || isReferencedBySnapshot sys.db object.key)

/-- The blobs and the quota, once the metadata is gone. -/
def settle (userId : Uuid) (reclaimed : Reclaimed) (sys : System) : System :=
  let sys := reclaimBlobs reclaimed.keys sys
  if 0 < reclaimed.freed then QuotaService.subtractUsedBytes userId reclaimed.freed sys
  else sys

/-- The rows below a folder; a file has none. -/
def descendants (sys : System) (item : DriveItem) : Except ServiceError (List DriveItem) :=
  if item.itemType = .file then pure [] else getChildrenRecursive sys item.id

def permanentDelete (userId itemId : Uuid) (sys : System) : Except ServiceError System := do
  let item ← orRaise (sys.db.items.find? itemId) (.notFound "Item not found")
  require (item.ownerId = userId) (.forbidden "Forbidden")
  require (item.isDeleted = true)
    (.invalidOperation "Item must be trashed before permanent deletion")
  let below ← descendants sys item
  -- Deepest first, so that no row goes before a child that points at it.
  let state ← forEach deleteRow (below.reverse ++ [item]) ({ freed := 0, keys := [] }, sys)
  pure (settle userId state.1 state.2)

/-- The items `empty_trash` deletes one by one. -/
def topLevel (allDeleted : List DriveItem) : List DriveItem :=
  allDeleted.filter fun item =>
    match item.parentId with
    | none => true
    | some parentId => decide (parentId ∉ allDeleted.map DriveItem.id)

/-- `allDeleted` is the answer of `get_all_deleted`, in the order the database
gives it. -/
def emptyTrash (userId : Uuid) (allDeleted : List DriveItem) (sys : System) :
    Except ServiceError System :=
  forEach (fun item sys => permanentDelete userId item.id sys) (topLevel allDeleted) sys

/-! ## Erasing rows -/

/-- `after` is `before` without the items `gone`, and without what refers to
them by a foreign key. -/
structure Erased (gone : List Uuid) (before after : System) : Prop where
  items : ∀ row, row ∈ after.db.items ↔ row ∈ before.db.items ∧ row.id ∉ gone
  versions : ∀ row, row ∈ after.db.versions ↔ row ∈ before.db.versions ∧ row.fileId ∉ gone
  shares : ∀ row, row ∈ after.db.shares ↔ row ∈ before.db.shares ∧ row.itemId ∉ gone
  sessions : after.db.sessions.rows = before.db.sessions.rows.map (forgetItems gone)
  users : after.db.users = before.db.users
  snapshots : after.db.snapshots = before.db.snapshots
  entries : after.db.entries = before.db.entries
  settings : after.db.settings = before.db.settings
  chunks : after.db.chunks = before.db.chunks
  storage : after.storage = before.storage
  now : after.now = before.now
  seed : after.seed = before.seed

omit [Platform] in
theorem forgetItems_nil (session : UploadSession) : forgetItems [] session = session := by
  cases session with
  | mk _ _ parentId _ _ _ _ _ _ _ driveItemId _ _ _ =>
      cases parentId <;> cases driveItemId <;> simp [forgetItems]

omit [Platform] in
theorem forgetItems_append (first second : List Uuid) (session : UploadSession) :
    forgetItems second (forgetItems first session) =
      forgetItems (first ++ second) session := by
  have both : ∀ reference : Option Uuid,
      (reference.filter (· ∉ first)).filter (· ∉ second) =
        reference.filter (· ∉ first ++ second) := by
    intro reference
    cases reference with
    | none => rfl
    | some itemId => by_cases gone : itemId ∈ first <;> simp [Option.filter, gone]
  simp only [forgetItems, both]

theorem Erased.refl (sys : System) : Erased [] sys sys where
  items := by simp
  versions := by simp
  shares := by simp
  sessions := by
    rw [List.map_congr_left fun session _ => forgetItems_nil session, List.map_id']
  users := rfl
  snapshots := rfl
  entries := rfl
  settings := rfl
  chunks := rfl
  storage := rfl
  now := rfl
  seed := rfl

theorem Erased.trans {first second : List Uuid} {before middle after : System}
    (left : Erased first before middle) (right : Erased second middle after) :
    Erased (first ++ second) before after where
  items row := by
    rw [right.items, left.items, List.mem_append, not_or, and_assoc]
  versions row := by
    rw [right.versions, left.versions, List.mem_append, not_or, and_assoc]
  shares row := by
    rw [right.shares, left.shares, List.mem_append, not_or, and_assoc]
  sessions := by
    rw [right.sessions, left.sessions, List.map_map]
    exact List.map_congr_left fun session _ => forgetItems_append first second session
  users := right.users.trans left.users
  snapshots := right.snapshots.trans left.snapshots
  entries := right.entries.trans left.entries
  settings := right.settings.trans left.settings
  chunks := right.chunks.trans left.chunks
  storage := right.storage.trans left.storage
  now := right.now.trans left.now
  seed := right.seed.trans left.seed

theorem hardDelete_erased {itemId : Uuid} {sys after : System}
    (runs : hardDelete itemId sys = .ok after) : Erased [itemId] sys after := by
  simp only [hardDelete, bind_eq_ok, pure_eq_ok] at runs
  rcases runs with ⟨items, removed, rfl⟩
  constructor <;> try rfl
  case items =>
    intro row
    rw [ItemTable.mem_of_remove removed, List.mem_singleton]
  all_goals
    intro row
    simp

/-- Rows that already went do not disturb the cascade of `hard_delete`. -/
theorem Erased.after_smaller {itemId : Uuid} {before smaller after : System}
    (erased : Erased [itemId] smaller after)
    (versions : ∀ row ∈ before.db.versions, row.fileId ≠ itemId →
      row ∈ smaller.db.versions)
    (shares : ∀ row ∈ before.db.shares, row.itemId ≠ itemId → row ∈ smaller.db.shares)
    (versionsSub : ∀ row ∈ smaller.db.versions, row ∈ before.db.versions)
    (sharesSub : ∀ row ∈ smaller.db.shares, row ∈ before.db.shares)
    (same : smaller = { before with db := { before.db with
      versions := smaller.db.versions, shares := smaller.db.shares } }) :
    Erased [itemId] before after := by
  rw [same] at erased
  constructor
  case versions =>
    intro row
    rw [erased.versions, List.mem_singleton]
    exact ⟨fun kept => ⟨versionsSub row kept.1, kept.2⟩,
      fun kept => ⟨versions row kept.1 kept.2, kept.2⟩⟩
  case shares =>
    intro row
    rw [erased.shares, List.mem_singleton]
    exact ⟨fun kept => ⟨sharesSub row kept.1, kept.2⟩,
      fun kept => ⟨shares row kept.1 kept.2, kept.2⟩⟩
  case items => exact erased.items
  case sessions => exact erased.sessions
  case users => exact erased.users
  case snapshots => exact erased.snapshots
  case entries => exact erased.entries
  case settings => exact erased.settings
  case chunks => exact erased.chunks
  case storage => exact erased.storage
  case now => exact erased.now
  case seed => exact erased.seed

theorem deleteRow_ok {item : DriveItem} {reclaimed final : Reclaimed} {sys after : System}
    (runs : deleteRow item (reclaimed, sys) = .ok (final, after)) :
    Erased [item.id] sys after ∧
      ∀ key ∈ final.keys, key ∈ reclaimed.keys ∨
        ∃ version ∈ sys.db.versions, version.fileId = item.id ∧ version.storageKey = key := by
  simp only [deleteRow, bind_eq_ok, pure_eq_ok, Prod.mk.injEq] at runs
  rcases runs with ⟨_, deleted, rfl, rfl⟩
  have erased := hardDelete_erased deleted
  by_cases isFile : item.itemType = .file
  · simp only [isFile, if_true] at erased ⊢
    refine ⟨erased.after_smaller ?_ ?_ ?_ ?_ rfl, ?_⟩
    · intro row member different
      exact Table.mem_filter.mpr ⟨member, decide_eq_true different⟩
    · intro row member different
      exact Table.mem_filter.mpr ⟨member, decide_eq_true different⟩
    · intro row member
      exact (Table.mem_filter.mp member).1
    · intro row member
      exact (Table.mem_filter.mp member).1
    · intro key among
      rcases List.mem_append.mp among with earlier | own
      · exact .inl earlier
      · rcases List.mem_map.mp own with ⟨version, member, rfl⟩
        rcases List.mem_filter.mp member with ⟨versionMem, sameFile⟩
        exact .inr ⟨version, versionMem, of_decide_eq_true sameFile, rfl⟩
  · simp only [isFile, if_false] at erased ⊢
    refine ⟨erased.after_smaller ?_ ?_ ?_ ?_ rfl, fun key among => .inl among⟩
    · exact fun row member _ => member
    · intro row member different
      exact Table.mem_filter.mpr ⟨member, decide_eq_true different⟩
    · exact fun row member => member
    · intro row member
      exact (Table.mem_filter.mp member).1

theorem deleteRows_ok : ∀ {rows : List DriveItem} {reclaimed final : Reclaimed}
    {sys after : System}, forEach deleteRow rows (reclaimed, sys) = .ok (final, after) →
    Erased (rows.map DriveItem.id) sys after ∧
      ∀ key ∈ final.keys, key ∈ reclaimed.keys ∨ ∃ version ∈ sys.db.versions,
        version.fileId ∈ rows.map DriveItem.id ∧ version.storageKey = key
  | [], reclaimed, final, sys, after, runs => by
      cases runs
      exact ⟨Erased.refl sys, fun key among => .inl among⟩
  | item :: rest, reclaimed, final, sys, after, runs => by
      rw [forEach_cons, bind_eq_ok] at runs
      rcases runs with ⟨⟨middleReclaimed, middle⟩, first, later⟩
      rcases deleteRow_ok first with ⟨erased, keys⟩
      rcases deleteRows_ok later with ⟨erasedRest, keysRest⟩
      refine ⟨erased.trans erasedRest, ?_⟩
      intro key among
      rcases keysRest key among with earlier | ⟨version, member, inRest, same⟩
      · rcases keys key earlier with before | ⟨version, member, isItem, same⟩
        · exact .inl before
        · exact .inr ⟨version, member, by simp [isItem], same⟩
      · exact .inr ⟨version, ((erased.versions version).mp member).1,
          List.mem_cons_of_mem _ inRest, same⟩

theorem settle_eq (userId : Uuid) (reclaimed : Reclaimed) (sys : System) :
    ∃ users, settle userId reclaimed sys =
      { sys with
        db := { sys.db with users := users }
        storage := (reclaimBlobs reclaimed.keys sys).storage } := by
  unfold settle
  split
  · exact ⟨_, rfl⟩
  · exact ⟨sys.db.users, rfl⟩

theorem trashItem_ok {userId itemId : Uuid} {sys after : System}
    (runs : trashItem userId itemId sys = .ok after) :
    ∃ item ∈ sys.db.items, item.id = itemId ∧ item.ownerId = userId ∧
      item.isDeleted = false ∧
      ∃ items, sys.db.items.change itemId (markedDeleted sys) = .ok items ∧
        after = sys.withItems items := by
  simp only [trashItem, bind_eq_ok, orRaise_eq_ok, require_eq_ok, pure_eq_ok] at runs
  rcases runs with ⟨item, found, _, owned, _, live, items, changed, rfl⟩
  rcases ItemTable.find?_eq_some.mp found with ⟨member, sameId⟩
  exact ⟨item, member, sameId, owned, live, items, changed, rfl⟩

theorem restoreParent_cases (items : ItemTable) (item : DriveItem) :
    restoreParent items item = item.parentId ∨ restoreParent items item = none := by
  unfold restoreParent
  cases item.parentId with
  | none => exact .inr rfl
  | some parentId =>
      cases found : items.find? parentId with
      | none => simp [found]
      | some parent => cases trashed : parent.isDeleted <;> simp [found, trashed]

/-- `restore` rewrites its row two or three times; only the last state stays. -/
theorem restore_ok {userId itemId : Uuid} {sys after : System}
    (runs : restore userId itemId sys = .ok after) :
    ∃ item ∈ sys.db.items, item.id = itemId ∧ item.ownerId = userId ∧
      item.isDeleted = true ∧ ∃ items new, ItemTable.Replaced sys.db.items items item new ∧
        SameContent new item ∧ new.isDeleted = false ∧
        new.parentId = restoreParent sys.db.items item ∧
        resolveName sys.db.items new.parentId userId item.name = .ok new.name ∧
        after = sys.withItems items := by
  simp only [restore, bind_eq_ok, orRaise_eq_ok, require_eq_ok] at runs
  rcases runs with ⟨item, found, _, owned, _, trashed, name, resolved, items, changed, runs⟩
  rcases ItemTable.find?_eq_some.mp found with ⟨member, rfl⟩
  have first := ItemTable.change_replaced member rfl changed
  -- The name is written last, over the row as the other writes left it.
  have finish : ∀ {items : ItemTable} {new : DriveItem},
      ItemTable.Replaced sys.db.items items item new → SameContent new item →
      new.isDeleted = false → new.parentId = restoreParent sys.db.items item →
      new.name = item.name →
      (if name ≠ item.name then updateName item.id name userId (sys.withItems items)
        else pure (sys.withItems items)) = .ok after →
      ∃ items new, ItemTable.Replaced sys.db.items items item new ∧
        SameContent new item ∧ new.isDeleted = false ∧
        new.parentId = restoreParent sys.db.items item ∧
        resolveName sys.db.items new.parentId userId item.name = .ok new.name ∧
        after = sys.withItems items := by
    intro items new placing content live parent oldName finished
    split at finished
    · simp only [updateName, bind_eq_ok, pure_eq_ok] at finished
      rcases finished with ⟨namedItems, changedAgain, rfl⟩
      rw [← placing.sameId] at changedAgain
      have named := ItemTable.change_replaced placing.newMem rfl changedAgain
      have same : SameContent (renamed (sys.withItems items) name userId new) new :=
        ⟨rfl, rfl, rfl, rfl, rfl⟩
      have isResolved : resolveName sys.db.items new.parentId userId item.name = .ok name :=
        parent ▸ resolved
      exact ⟨_, _, placing.trans named, same.trans content, live, parent, isResolved, rfl⟩
    · rename_i keepsName
      cases pure_eq_ok.mp finished
      have isResolved : resolveName sys.db.items new.parentId userId item.name =
          .ok new.name := by
        rw [parent, oldName, resolved, not_not.mp keepsName]
      exact ⟨_, _, placing, content, live, parent, isResolved, rfl⟩
  refine ⟨item, member, rfl, owned, trashed, ?_⟩
  split at runs
  · simp only [updateParent, bind_eq_ok, pure_eq_ok] at runs
    rcases runs with ⟨_, ⟨reparentedItems, changedAgain, rfl⟩, finished⟩
    have hung := ItemTable.change_replaced first.newMem rfl changedAgain
    exact finish (first.trans hung) ⟨rfl, rfl, rfl, rfl, rfl⟩ rfl rfl rfl finished
  · rename_i stays
    simp only [bind_eq_ok, pure_eq_ok] at runs
    rcases runs with ⟨_, rfl, finished⟩
    exact finish first ⟨rfl, rfl, rfl, rfl, rfl⟩ rfl (not_not.mp stays).symm rfl finished

theorem permanentDelete_ok {userId itemId : Uuid} {sys after : System}
    (runs : permanentDelete userId itemId sys = .ok after) :
    ∃ item ∈ sys.db.items, item.id = itemId ∧ item.ownerId = userId ∧
      item.isDeleted = true ∧
      ∃ below, descendants sys item = .ok below ∧
      ∃ reclaimed middle, Erased ((below.reverse ++ [item]).map DriveItem.id) sys middle ∧
        (∀ key ∈ reclaimed.keys, ∃ version ∈ sys.db.versions,
          version.fileId ∈ (below.reverse ++ [item]).map DriveItem.id ∧
            version.storageKey = key) ∧
        after = settle userId reclaimed middle := by
  simp only [permanentDelete, bind_eq_ok, orRaise_eq_ok, require_eq_ok, pure_eq_ok] at runs
  rcases runs with
    ⟨item, found, _, owned, _, trashed, below, isBelow, ⟨reclaimed, middle⟩, deleted, rfl⟩
  rcases ItemTable.find?_eq_some.mp found with ⟨member, sameId⟩
  rcases deleteRows_ok deleted with ⟨erased, keys⟩
  refine ⟨item, member, sameId, owned, trashed, below, isBelow, reclaimed, middle, erased,
    ?_, rfl⟩
  intro key among
  rcases keys key among with initial | fromVersion
  · cases initial
  · exact fromVersion

end TrashService

end CloudDrive
