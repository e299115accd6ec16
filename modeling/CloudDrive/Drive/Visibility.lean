import CloudDrive.Drive.Browsing
import CloudDrive.PublicShare
import CloudDrive.Upload.Interrupted
import CloudDrive.Upload.DeclaredSize

/-! # What is hidden

Trashing a folder marks only the folder. An item below it is hidden from the
listed paths exactly when it is in the trash itself and no session that was opened
for it can be completed any more. -/

namespace CloudDrive

open Outcome Relational Forest Execution DriveService

/-- The match of the database on a file name and the indexed content. -/
class SearchIndex where
  textMatch : String → DriveItem → Bool

section Visibility

variable [Platform] [Collation] [SearchIndex]

namespace SearchService

/-- `base_where` of `SQLSearchRepository.search`. -/
def isHit (db : Database) (userId : Uuid) (query : String) (itemType : Option ItemType)
    (mimeType : Option String) (item : DriveItem) : Bool :=
  decide (item.isDeleted = false) &&
    (decide (item.ownerId = userId) || db.shares.rows.any fun share =>
      decide (share.targetUserId = userId ∧ share.itemId = item.id)) &&
    SearchIndex.textMatch query item &&
    itemType.all (fun wanted => decide (item.itemType = wanted)) &&
    mimeType.all fun wanted => decide (item.mimeType = some wanted)

/-- The repository's `search`: one page of the hits by name, and their number. -/
def searchRows (db : Database) (userId : Uuid) (query : String) (itemType : Option ItemType)
    (mimeType : Option String) (offset limit : Nat) : List DriveItem × Nat :=
  let hits := db.items.rows.filter (isHit db userId query itemType mimeType)
  let sorted := hits.insertionSort fun left right => Collation.before left.name right.name = true
  ((sorted.drop offset).take limit, hits.length)

/-- `" ".join(query.split())`. -/
def normalize (query : String) : String :=
  " ".intercalate ((query.splitToList isSpace).filter fun word => decide (word ≠ ""))

def search (userId : Uuid) (query : String) (itemType : Option ItemType)
    (mimeType : Option String) (page pageSize : Nat) (sys : System) :
    Except ServiceError (List DriveItem × Nat) := do
  let normalized := normalize query
  require (normalized ≠ "") (.invalidOperation "Search query cannot be empty")
  pure (searchRows sys.db userId normalized itemType mimeType ((page - 1) * pageSize) pageSize)

theorem search_live {userId : Uuid} {query : String} {itemType : Option ItemType}
    {mimeType : Option String} {page pageSize total : Nat} {sys : System}
    {rows : List DriveItem}
    (runs : search userId query itemType mimeType page pageSize sys = .ok (rows, total)) :
    ∀ row ∈ rows, row ∈ sys.db.items ∧ row.isDeleted = false := by
  simp only [search, searchRows, bind_eq_ok, require_eq_ok, pure_eq_ok, Prod.mk.injEq] at runs
  rcases runs with ⟨_, _, rfl, _⟩
  intro row member
  have sorted := List.mem_of_mem_drop (List.mem_of_mem_take member)
  rcases List.mem_filter.mp ((List.perm_insertionSort _ _).mem_iff.mp sorted) with ⟨inTable, hit⟩
  simp only [isHit, Bool.and_eq_true, decide_eq_true_eq] at hit
  exact ⟨inTable, hit.1.1.1.1⟩

end SearchService

namespace UploadSessionService

/-- The completion of the session can merge its chunks and create its file. The folder that
the session was opened for is not looked at. -/
structure Completable (sys : System) (session : UploadSession) : Prop where
  merges : CanMerge sys session.id
  creates : Creatable sys.db.items session.userId session

omit [Collation] [SearchIndex] in
theorem completeSession_succeeds_iff {sys : System} {session : UploadSession}
    (member : session ∈ sys.db.sessions)
    (parent : ∀ top ∈ session.parentId, top ∈ sys.db.items.rows.map DriveItem.id) :
    Succeeds (completeSession session.userId session.id sys) ↔ Completable sys session := by
  have found : getOr404 session.userId session.id sys = .ok session := by
    simp only [getOr404, bind_eq_ok, orRaise_eq_ok, require_eq_ok, pure_eq_ok]
    exact ⟨session, Table.find?_key member, (), rfl, rfl⟩
  have isCreated : ∀ key content, Succeeds (createItem session session.userId key content
      (Storage.saveStream key [content] sys.drawn)) ↔
        Creatable sys.db.items session.userId session :=
    fun key content => createItem_succeeds_iff parent
  constructor
  · intro completes
    rcases completes with ⟨⟨item, after⟩, runs⟩
    simp only [completeSession, found, bind_eq_ok, require_eq_ok, pure_eq_ok, Storage.concat,
      Except.ok.injEq, Prod.mk.injEq] at runs
    rcases runs with ⟨_, rfl, _, isOpen, _, complete, ⟨content, merged⟩,
      ⟨_, reads, rfl, rfl⟩, created, creates, _⟩
    constructor
    case merges => exact ⟨session, member, rfl, isOpen, complete, content, reads⟩
    case creates => exact (isCreated _ content).mp ⟨created, creates⟩
  · intro completable
    rcases completable.merges with ⟨row, rowMem, isRow, isOpen, complete, content, reads⟩
    cases Table.eq_of_key_eq rowMem member isRow
    rcases (isCreated (mergedKey session.userId sys) content).mpr completable.creates with
      ⟨created, creates⟩
    apply Exists.intro
    simp only [completeSession, found, bind_eq_ok, require_eq_ok, pure_eq_ok, Storage.concat,
      Except.ok.injEq]
    exact ⟨session, rfl, (), isOpen, (), complete, (content, _), ⟨content, reads, rfl⟩,
      created, creates, rfl⟩

end UploadSessionService

/-! ## The law -/

/-- No listed path returns the item, changes it, or puts anything into it. -/
structure Hidden (sys : System) (itemId : Uuid) : Prop where
  getItem : ∀ userId found, getItem userId itemId sys ≠ .ok found
  listed : ∀ userId parentId page pageSize sortBy order rows total,
    listItems userId parentId page pageSize sortBy order sys = .ok (rows, total) →
      itemId ∉ rows.map DriveItem.id
  opened : ∀ userId page pageSize sortBy order found,
    listItems userId (some itemId) page pageSize sortBy order sys ≠ .ok found
  rename : ∀ userId name after, rename userId itemId name sys ≠ .ok after
  move : ∀ userId target after, move userId itemId target sys ≠ .ok after
  movedInto : ∀ userId other after, DriveService.move userId other (some itemId) sys ≠ .ok after
  createFolder : ∀ userId name after, createFolder userId (some itemId) name sys ≠ .ok after
  upload : ∀ userId filename stream sizeBytes mimeType after,
    UploadService.uploadSimple userId (some itemId) filename stream sizeBytes mimeType sys ≠
      .ok after
  createSession : ∀ userId filename totalSize mimeType opened,
    UploadSessionService.createSession userId filename totalSize (some itemId) mimeType sys ≠
      .ok opened
  completeSession : ∀ userId sessionId created after,
    UploadSessionService.completeSession userId sessionId sys = .ok (created, after) →
      created.parentId ≠ some itemId
  search : ∀ userId query itemType mimeType page pageSize rows total,
    SearchService.search userId query itemType mimeType page pageSize sys = .ok (rows, total) →
      itemId ∉ rows.map DriveItem.id
  resolve : ∀ rootId found,
    PublicShareService.resolveInSubtree rootId itemId sys.db.items ≠ .ok found

/-- A proper ancestor of the item is in the trash. -/
def BelowTrash (items : ItemTable) (itemId : Uuid) : Prop :=
  ∃ top ∈ items, top.isDeleted = true ∧ Above items.parentOf itemId top.id

omit [Collation] [SearchIndex] in
/-- An owner gets every item of theirs that is not in the trash itself. -/
theorem getItem_live {sys : System} {item : DriveItem} (member : item ∈ sys.db.items)
    (live : item.isDeleted = false) : getItem item.ownerId item.id sys = .ok item := by
  have isOwner : PermissionService.getPermission sys.db item.ownerId item = .ok (some .owner) := by
    rw [PermissionService.getPermission, PermissionService.walk, if_pos rfl]
  simp only [DriveService.getItem, getViewable, PermissionService.assertCanView, bind_eq_ok,
    orRaise_eq_ok, require_eq_ok, pure_eq_ok]
  exact ⟨item, ItemTable.find?_id member, (), live, (), ⟨_, isOwner, rfl⟩, rfl⟩

omit [Collation] [SearchIndex] in
theorem not_live {sys : System} {item row : DriveItem} (member : item ∈ sys.db.items)
    (trashed : item.isDeleted = true) (rowMem : row ∈ sys.db.items) (sameId : row.id = item.id) :
    row.isDeleted ≠ false := by
  rw [ItemTable.eq_of_id_eq rowMem member sameId, trashed]
  exact Bool.noConfusion

omit [Collation] [SearchIndex] in
theorem not_writable {sys : System} {item : DriveItem} (member : item ∈ sys.db.items)
    (trashed : item.isDeleted = true) (userId : Uuid) : ¬ Writable sys.db userId item.id := by
  intro writable
  rcases writable with ⟨row, found, live, _⟩
  rcases ItemTable.find?_eq_some.mp found with ⟨rowMem, sameId⟩
  exact not_live member trashed rowMem sameId live

/-- The item is in the trash itself, and no session can still put its file into it. -/
structure ClosedOff (sys : System) (item : DriveItem) : Prop where
  trashed : item.isDeleted = true
  sessions : ∀ session ∈ sys.db.sessions, session.parentId = some item.id →
    ¬ UploadSessionService.Completable sys session

omit [Collation] [SearchIndex] in
/-- A session puts its file into the item exactly when it was opened for it and can be
completed. -/
theorem completesInto_iff {sys : System} {item : DriveItem} (member : item ∈ sys.db.items) :
    (∃ userId sessionId created after,
      UploadSessionService.completeSession userId sessionId sys = .ok (created, after) ∧
        created.parentId = some item.id) ↔
      ∃ session ∈ sys.db.sessions, session.parentId = some item.id ∧
        UploadSessionService.Completable sys session := by
  have parent : ∀ session : UploadSession, session.parentId = some item.id →
      ∀ top ∈ session.parentId, top ∈ sys.db.items.rows.map DriveItem.id := by
    intro session target top isTop
    cases target.symm.trans isTop
    exact List.mem_map_of_mem member
  constructor
  · intro completes
    rcases completes with ⟨userId, sessionId, created, after, runs, inside⟩
    rcases UploadSessionService.completeSession_ok runs with
      ⟨session, isSession, rfl, rfl, _, _, _, _, creates, _⟩
    have target := creates.parentId.symm.trans inside
    exact ⟨session, isSession, target,
      (UploadSessionService.completeSession_succeeds_iff isSession (parent session target)).mp
        ⟨_, runs⟩⟩
  · intro open_
    rcases open_ with ⟨session, isSession, target, completable⟩
    rcases (UploadSessionService.completeSession_succeeds_iff isSession
      (parent session target)).mpr completable with ⟨⟨created, after⟩, runs⟩
    rcases UploadSessionService.completeSession_ok runs with
      ⟨row, rowMem, isRow, _, _, _, _, _, creates, _⟩
    cases Table.eq_of_key_eq rowMem isSession isRow
    exact ⟨_, _, created, after, runs, creates.parentId.trans target⟩

theorem hidden_of_closedOff {sys : System} {item : DriveItem} (member : item ∈ sys.db.items)
    (closed : ClosedOff sys item) : Hidden sys item.id := by
  have trashed := closed.trashed
  have noRow : ∀ row ∈ sys.db.items, row.id = item.id → row.isDeleted = false → False :=
    fun row rowMem sameId live => not_live member trashed rowMem sameId live
  constructor
  case getItem =>
    intro userId found runs
    simp only [DriveService.getItem, getViewable, bind_eq_ok, orRaise_eq_ok, require_eq_ok] at runs
    rcases runs with ⟨row, isRow, _, live, _⟩
    rcases ItemTable.find?_eq_some.mp isRow with ⟨rowMem, sameId⟩
    exact noRow row rowMem sameId live
  case listed =>
    intro userId parentId page pageSize sortBy order rows total runs among
    simp only [listItems, bind_eq_ok, pure_eq_ok] at runs
    rcases runs with ⟨_, _, same⟩
    rcases List.mem_map.mp among with ⟨row, rowMem, sameId⟩
    have listed : row ∈ (DriveItemRepository.listChildren sys.db parentId userId sortBy order
        ((page - 1) * pageSize) pageSize).1 := by
      rw [same]
      exact rowMem
    rcases DriveItemRepository.mem_children.mp (DriveItemRepository.mem_listChildren listed) with
      ⟨inTable, _, live, _⟩
    exact noRow row inTable sameId live
  case opened =>
    intro userId page pageSize sortBy order found runs
    simp only [listItems, bind_eq_ok, whenSome_eq_ok] at runs
    rcases runs with ⟨_, opens, _⟩
    have checked := opens item.id rfl
    simp only [orRaise_eq_ok, require_eq_ok] at checked
    rcases checked with ⟨row, isRow, _, live, _⟩
    rcases ItemTable.find?_eq_some.mp isRow with ⟨rowMem, sameId⟩
    exact noRow row rowMem sameId live
  case rename =>
    intro userId name after runs
    simp only [DriveService.rename, bind_eq_ok] at runs
    rcases runs with ⟨_, _, row, found, _⟩
    rcases getEditable_ok found with ⟨sameId, editable⟩
    exact noRow row editable.member sameId editable.live
  case move =>
    intro userId target after runs
    rcases move_ok runs with ⟨row, editable, sameId, _⟩
    exact noRow row editable.member sameId editable.live
  case movedInto =>
    intro userId other after runs
    rcases move_ok runs with ⟨_, _, _, target, _⟩
    exact not_writable member trashed userId (target item.id rfl).1
  case createFolder =>
    intro userId name after runs
    exact not_writable member trashed userId ((createFolder_ok runs).1 item.id rfl)
  case upload =>
    intro userId filename stream sizeBytes mimeType after runs
    exact not_writable member trashed userId
      ((UploadService.uploadSimple_ok runs).1 item.id rfl)
  case createSession =>
    intro userId filename totalSize mimeType opened runs
    exact not_writable member trashed userId
      ((UploadSessionService.createSession_ok runs).1 item.id rfl)
  case completeSession =>
    intro userId sessionId created after runs inside
    rcases (completesInto_iff member).mp ⟨userId, sessionId, created, after, runs, inside⟩ with
      ⟨session, isSession, target, completable⟩
    exact closed.sessions session isSession target completable
  case search =>
    intro userId query itemType mimeType page pageSize rows total runs among
    rcases List.mem_map.mp among with ⟨row, rowMem, sameId⟩
    rcases SearchService.search_live runs row rowMem with ⟨inTable, live⟩
    exact noRow row inTable sameId live
  case resolve =>
    intro rootId found runs
    simp only [PublicShareService.resolveInSubtree, bind_eq_ok, orRaise_eq_ok, require_eq_ok]
      at runs
    rcases runs with ⟨row, isRow, _, live, _⟩
    rcases ItemTable.find?_eq_some.mp isRow with ⟨rowMem, sameId⟩
    exact noRow row rowMem sameId live

theorem Hidden.closedOff {sys : System} {item : DriveItem} (hidden : Hidden sys item.id)
    (member : item ∈ sys.db.items) : ClosedOff sys item := by
  constructor
  case trashed =>
    by_contra notTrashed
    have live : item.isDeleted = false := Bool.eq_false_of_not_eq_true notTrashed
    exact hidden.getItem item.ownerId item (getItem_live member live)
  case sessions =>
    intro session isSession target completable
    rcases (completesInto_iff member).mpr ⟨session, isSession, target, completable⟩ with
      ⟨userId, sessionId, created, after, runs, inside⟩
    exact hidden.completeSession userId sessionId created after runs inside

/-- An item below a trashed folder is hidden exactly when it is in the trash itself and no
session for it can be completed, in every state of the drive. -/
theorem hidden_below_trash_iff {sys : System} {item : DriveItem}
    (member : item ∈ sys.db.items) :
    (BelowTrash sys.db.items item.id → Hidden sys item.id) ↔
      (BelowTrash sys.db.items item.id → ClosedOff sys item) := by
  constructor
  · exact fun hides below => (hides below).closedOff member
  · exact fun closed below => hidden_of_closedOff member (closed below)

end Visibility

/-! ## A folder in a trashed folder

Once it is in the trash itself before the folder above is, and once it is not. -/

section Shallow

attribute [local instance] smallPlatform smallCollation

/-- Every query matches. -/
@[reducible] def smallSearchIndex : SearchIndex where
  textMatch _ _ := true

attribute [local instance] smallSearchIndex

private def foldersOldPlans : List Op :=
  [.createFolder 1 none "Old", .createFolder 1 (some 10) "Plans"]

private def trashAbove : List Op :=
  foldersOldPlans ++ [.trashItem 1 10]

private def trashBoth : List Op :=
  foldersOldPlans ++ [.trashItem 1 11, .trashItem 1 10]

private def plans : DriveItem :=
  DriveItemRepository.newItem (afterFirstDay [.createFolder 1 none "Old"]) 1 (some 10) .folder
    "Plans" 1

private theorem plans_below {day : List Op}
    (trashed : ∃ top ∈ (afterFirstDay day).db.items.rows, top.isDeleted = true ∧ top.id = 10)
    (inside : (afterFirstDay day).db.items.parentOf plans.id = some 10) :
    BelowTrash (afterFirstDay day).db.items plans.id := by
  rcases trashed with ⟨top, member, isDeleted, isOld⟩
  exact ⟨top, member, isDeleted, .single (isOld ▸ inside)⟩

theorem hidden_below_trash_iff_plans :
    History firstDay (Op.trace trashBoth firstDay) (afterFirstDay trashBoth) ∧
      BelowTrash (afterFirstDay trashBoth).db.items plans.id ∧
      Hidden (afterFirstDay trashBoth) plans.id := by
  have trashed : ∃ row ∈ (afterFirstDay trashBoth).db.items.rows,
      row.id = plans.id ∧ row.isDeleted = true := by decide
  have noSession : (afterFirstDay trashBoth).db.sessions.rows = [] := rfl
  have below : BelowTrash (afterFirstDay trashBoth).db.items plans.id :=
    plans_below (by decide) rfl
  rcases trashed with ⟨row, member, isPlans, isDeleted⟩
  refine ⟨firstDay_trace (by simp [trashBoth, foldersOldPlans, Op.Offered]) rfl, below, ?_⟩
  rw [← isPlans] at below ⊢
  apply (hidden_below_trash_iff member).mpr _ below
  intro _
  constructor
  case trashed => exact isDeleted
  case sessions =>
    intro session isSession
    have among : session ∈ (afterFirstDay trashBoth).db.sessions.rows := isSession
    rw [noSession] at among
    cases among

/-- The folder above is in the trash; its owner still gets the item. -/
theorem plans_visible :
    History firstDay (Op.trace trashAbove firstDay) (afterFirstDay trashAbove) ∧
      BelowTrash (afterFirstDay trashAbove).db.items plans.id ∧
      ¬ Hidden (afterFirstDay trashAbove) plans.id := by
  have found : getItem 1 plans.id (afterFirstDay trashAbove) = .ok plans := by decide
  refine ⟨firstDay_trace (by simp [trashAbove, foldersOldPlans, Op.Offered]) rfl, ?_, ?_⟩
  · exact plans_below (by decide) rfl
  · exact fun hidden => hidden.getItem 1 plans found

end Shallow

end CloudDrive
