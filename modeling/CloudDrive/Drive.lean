import CloudDrive.Permission

/-! # The drive service

`create_folder`, `rename` and `move` of `app/drive`. An operation takes the
committed state and returns its result with the state to commit, or raises; a
raised error rolls the request back. The activity log swallows its own failures
and is read by none of these operations, so it is left out. -/

namespace CloudDrive

open Outcome Forest PermissionService

variable [Platform]

namespace DriveItemRepository

/-- The row `create` adds. -/
def newItem (sys : System) (ownerId : Uuid) (parentId : Option Uuid)
    (itemType : ItemType) (name : String) (createdBy : Uuid) : DriveItem where
  id := sys.uuid4
  ownerId := ownerId
  parentId := parentId
  itemType := itemType
  name := name
  mimeType := none
  extension := none
  sizeBytes := 0
  storageKey := none
  checksumSha256 := none
  isStarred := false
  isDeleted := false
  deletedAt := none
  createdBy := createdBy
  updatedBy := none
  createdAt := sys.now
  updatedAt := sys.now

def create (ownerId : Uuid) (parentId : Option Uuid) (itemType : ItemType)
    (name : String) (createdBy : Uuid) (sys : System) :
    Except ServiceError (DriveItem × System) := do
  let item := newItem sys ownerId parentId itemType name createdBy
  let items ← sys.db.items.add item
  pure (item, sys.drawn.withItems items)

/-- The fields `update_name` writes. -/
def renamed (sys : System) (name : String) (userId : Uuid) (item : DriveItem) : DriveItem :=
  { item with name := name, updatedBy := some userId, updatedAt := sys.now }

def updateName (itemId : Uuid) (name : String) (updatedBy : Uuid) (sys : System) :
    Except ServiceError System := do
  let items ← sys.db.items.change itemId (renamed sys name updatedBy)
  pure (sys.withItems items)

/-- The fields `update_parent` writes. -/
def reparented (sys : System) (parentId : Option Uuid) (userId : Uuid)
    (item : DriveItem) : DriveItem :=
  { item with parentId := parentId, updatedBy := some userId, updatedAt := sys.now }

def updateParent (itemId : Uuid) (parentId : Option Uuid) (updatedBy : Uuid)
    (sys : System) : Except ServiceError System := do
  let items ← sys.db.items.change itemId (reparented sys parentId updatedBy)
  pure (sys.withItems items)

end DriveItemRepository

open DriveItemRepository

namespace DriveService

/-- `_get_editable`. -/
def getEditable (itemId userId : Uuid) (sys : System) : Except ServiceError DriveItem := do
  let item ← orRaise (sys.db.items.find? itemId) (.notFound "Item not found")
  require (item.isDeleted = false) (.notFound "Item not found")
  assertCanEdit sys.db userId item
  pure item

/-- The loop of `_is_descendant_or_self`, from `currentId` upwards. -/
def descendantWalk (items : ItemTable) (candidateId : Uuid) :
    Nat → List Uuid → Uuid → Except ServiceError Bool
  | 0, _, _ => .error .diverged
  | fuel + 1, seen, currentId =>
      if currentId = candidateId then
        .ok true
      else if currentId ∈ seen then
        .ok false
      else
        match items.find? currentId with
        | none => .ok false
        | some item =>
            match item.parentId with
            | none => .ok false
            | some parentId =>
                descendantWalk items candidateId fuel (currentId :: seen) parentId

/-- `_is_descendant_or_self`: `seen` grows in every round, so the number of
items bounds the loop. -/
def isDescendantOrSelf (items : ItemTable) (candidateId targetId : Uuid) :
    Except ServiceError Bool :=
  descendantWalk items candidateId (items.rows.length + 2) [] targetId

/-- What `create_folder` and `move` check of the folder they write into, in
the order both have. -/
def destination (userId folderId : Uuid) (missingMessage kindMessage : String)
    (sys : System) : Except ServiceError DriveItem := do
  let parent ← orRaise (sys.db.items.find? folderId) (.notFound missingMessage)
  require (parent.isDeleted = false) (.notFound missingMessage)
  assertCanEdit sys.db userId parent
  require (parent.itemType = .folder) (.invalidOperation kindMessage)
  pure parent

def createFolder (userId : Uuid) (parentId : Option Uuid) (name : String)
    (sys : System) : Except ServiceError (DriveItem × System) := do
  let name ← validateName name
  whenSome parentId fun parentId => do
    let _ ← destination userId parentId "Parent folder not found"
      "Parent must be a folder" sys
  let taken ← nameExistsInParent sys.db.items name parentId userId none
  require (taken = false) (.nameConflict s!"'{name}' already exists in this location")
  DriveItemRepository.create userId parentId .folder name userId sys

def rename (userId itemId : Uuid) (newName : String) (sys : System) :
    Except ServiceError System := do
  let newName ← validateName newName
  let item ← getEditable itemId userId sys
  if item.name = newName then
    pure sys
  else
    let taken ← nameExistsInParent sys.db.items newName item.parentId userId (some itemId)
    require (taken = false) (.nameConflict s!"'{newName}' already exists in this location")
    DriveItemRepository.updateName itemId newName userId sys

/-- The checks `move` makes on a destination that is not the root. -/
def moveTarget (userId : Uuid) (item : DriveItem) (newParentId : Uuid) (sys : System) :
    Except ServiceError Unit := do
  let _ ← destination userId newParentId "Destination folder not found"
    "Destination must be a folder" sys
  if item.itemType = .folder then
    let inside ← isDescendantOrSelf sys.db.items item.id newParentId
    require (inside = false)
      (.invalidOperation "Cannot move a folder into itself or its descendants")
  else
    pure ()

def move (userId itemId : Uuid) (newParentId : Option Uuid) (sys : System) :
    Except ServiceError System := do
  let item ← getEditable itemId userId sys
  whenSome newParentId fun newParentId => moveTarget userId item newParentId sys
  let taken ← nameExistsInParent sys.db.items item.name newParentId userId (some itemId)
  require (taken = false) (.nameConflict s!"'{item.name}' already exists in destination")
  DriveItemRepository.updateParent itemId newParentId userId sys

/-! ## What a successful operation has checked and done -/

/-- `userId` may write into `folderId`: a live folder with editor permission. -/
def Writable (db : Database) (userId folderId : Uuid) : Prop :=
  ∃ folder, db.items.find? folderId = some folder ∧ folder.isDeleted = false ∧
    folder.itemType = .folder ∧
    ∃ perm, getPermission db userId folder = .ok perm ∧ hasAtLeast perm .editor = true

def canWrite (db : Database) (userId folderId : Uuid) : Bool :=
  match db.items.find? folderId with
  | none => false
  | some folder =>
      !folder.isDeleted && decide (folder.itemType = .folder) &&
        match getPermission db userId folder with
        | .ok perm => hasAtLeast perm .editor
        | .error _ => false

theorem canWrite_iff {db : Database} {userId folderId : Uuid} :
    canWrite db userId folderId = true ↔ Writable db userId folderId := by
  rw [canWrite, Writable]
  cases db.items.find? folderId with
  | none => simp
  | some folder => cases runs : getPermission db userId folder <;> simp [runs, and_assoc]

instance (db : Database) (userId folderId : Uuid) : Decidable (Writable db userId folderId) :=
  decidable_of_iff _ canWrite_iff

/-- `userId` may change the live item `item`. -/
structure Editable (db : Database) (userId : Uuid) (item : DriveItem) : Prop where
  member : item ∈ db.items
  live : item.isDeleted = false
  editor : ∃ perm, getPermission db userId item = .ok perm ∧ hasAtLeast perm .editor = true

theorem assertCanEdit_ok {db : Database} {userId : Uuid} {item : DriveItem} {done : Unit}
    (passed : assertCanEdit db userId item = .ok done) :
    ∃ perm, getPermission db userId item = .ok perm ∧ hasAtLeast perm .editor = true := by
  simp only [assertCanEdit, bind_eq_ok, require_eq_ok] at passed
  exact passed

theorem getEditable_ok {itemId userId : Uuid} {sys : System} {item : DriveItem}
    (found : getEditable itemId userId sys = .ok item) :
    item.id = itemId ∧ Editable sys.db userId item := by
  simp only [getEditable, bind_eq_ok, orRaise_eq_ok, require_eq_ok, pure_eq_ok] at found
  rcases found with ⟨row, isRow, _, live, _, passed, rfl⟩
  rcases ItemTable.find?_eq_some.mp isRow with ⟨member, sameId⟩
  exact ⟨sameId, member, live, assertCanEdit_ok passed⟩

theorem destination_ok {userId folderId : Uuid} {missingMessage kindMessage : String}
    {sys : System} {parent : DriveItem}
    (found : destination userId folderId missingMessage kindMessage sys = .ok parent) :
    Writable sys.db userId folderId := by
  simp only [destination, bind_eq_ok, orRaise_eq_ok, require_eq_ok, pure_eq_ok] at found
  rcases found with ⟨row, isRow, _, live, _, passed, _, kind, rfl⟩
  exact ⟨row, isRow, live, kind, assertCanEdit_ok passed⟩

/-- The walk up from `currentId` has no answer `false` for a node below the
candidate: below it the chain cannot revisit a node. -/
private theorem descendantWalk_false {items : ItemTable} {candidateId : Uuid}
    (acyclic : Acyclic items.parentOf) :
    ∀ {fuel : Nat} {seen : List Uuid} {currentId : Uuid},
      (∀ node ∈ seen, Above items.parentOf node currentId) →
      descendantWalk items candidateId fuel seen currentId = .ok false →
      ¬ AtOrAbove items.parentOf currentId candidateId
  | 0, _, _, _, answer, _ => by cases answer
  | fuel + 1, seen, currentId, below, answer, above => by
      rw [descendantWalk] at answer
      split at answer
      · cases answer
      · rename_i different
        split at answer
        · rename_i again
          exact acyclic currentId (below currentId again)
        · rcases Relation.ReflTransGen.cases_head above with same | ⟨parentId, step, rest⟩
          · exact different same
          · rcases ItemTable.parentOf_eq_some.mp step with ⟨item, member, rfl, points⟩
            simp only [ItemTable.find?_id member, points] at answer
            refine descendantWalk_false acyclic ?_ answer rest
            intro node among
            rcases List.mem_cons.mp among with rfl | earlier
            · exact .single step
            · exact .tail (below node earlier) step

theorem isDescendantOrSelf_false {items : ItemTable} {candidateId targetId : Uuid}
    (acyclic : Acyclic items.parentOf)
    (answer : isDescendantOrSelf items candidateId targetId = .ok false) :
    ¬ AtOrAbove items.parentOf targetId candidateId :=
  descendantWalk_false acyclic (by simp) answer

theorem create_ok {ownerId : Uuid} {parentId : Option Uuid} {itemType : ItemType}
    {name : String} {createdBy : Uuid} {sys after : System} {item : DriveItem}
    (created : DriveItemRepository.create ownerId parentId itemType name createdBy sys =
      .ok (item, after)) :
    item = newItem sys ownerId parentId itemType name createdBy ∧
      ∃ items, sys.db.items.add item = .ok items ∧ after = sys.drawn.withItems items := by
  simp only [DriveItemRepository.create, bind_eq_ok, pure_eq_ok, Prod.mk.injEq] at created
  rcases created with ⟨items, added, rfl, rfl⟩
  exact ⟨rfl, items, added, rfl⟩

theorem createFolder_ok {userId : Uuid} {parentId : Option Uuid} {name : String}
    {sys after : System} {item : DriveItem}
    (runs : createFolder userId parentId name sys = .ok (item, after)) :
    (∀ folderId ∈ parentId, Writable sys.db userId folderId) ∧
      ∃ accepted, item =
        newItem sys userId parentId .folder accepted userId ∧
      ∃ items, sys.db.items.add item = .ok items ∧ after = sys.drawn.withItems items := by
  simp only [createFolder, bind_eq_ok, require_eq_ok, whenSome_eq_ok] at runs
  rcases runs with ⟨accepted, _, _, target, _, _, _, _, created⟩
  refine ⟨?_, accepted, create_ok created⟩
  intro folderId named
  rcases target folderId named with ⟨parent, found, _⟩
  exact destination_ok found

theorem rename_ok {userId itemId : Uuid} {newName : String} {sys after : System}
    (runs : rename userId itemId newName sys = .ok after) :
    after = sys ∨ ∃ item, Editable sys.db userId item ∧ item.id = itemId ∧
      ∃ accepted items, sys.db.items.change itemId (renamed sys accepted userId) = .ok items ∧
        after = sys.withItems items := by
  simp only [rename, bind_eq_ok] at runs
  rcases runs with ⟨accepted, _, item, found, runs⟩
  rcases getEditable_ok found with ⟨sameId, editable⟩
  split at runs
  · exact .inl (pure_eq_ok.mp runs).symm
  · simp only [bind_eq_ok, updateName, pure_eq_ok] at runs
    rcases runs with ⟨_, _, _, _, items, changed, rfl⟩
    exact .inr ⟨item, editable, sameId, accepted, items, changed, rfl⟩

theorem move_ok {userId itemId : Uuid} {newParentId : Option Uuid} {sys after : System}
    (runs : move userId itemId newParentId sys = .ok after) :
    ∃ item, Editable sys.db userId item ∧ item.id = itemId ∧
      (∀ folderId ∈ newParentId, Writable sys.db userId folderId ∧
        (item.itemType = .folder →
          isDescendantOrSelf sys.db.items itemId folderId = .ok false)) ∧
      ∃ items, sys.db.items.change itemId (reparented sys newParentId userId) = .ok items ∧
        after = sys.withItems items := by
  simp only [move, bind_eq_ok, whenSome_eq_ok, updateParent, pure_eq_ok] at runs
  rcases runs with ⟨item, found, _, target, _, _, _, _, items, changed, rfl⟩
  rcases getEditable_ok found with ⟨sameId, editable⟩
  refine ⟨item, editable, sameId, ?_, items, changed, rfl⟩
  intro folderId named
  have checked := target folderId named
  simp only [moveTarget, bind_eq_ok] at checked
  rcases checked with ⟨parent, isParent, checked⟩
  refine ⟨destination_ok isParent, ?_⟩
  intro isFolder
  simp only [isFolder, if_true, bind_eq_ok, require_eq_ok] at checked
  rcases checked with ⟨inside, answer, outside⟩
  rw [← sameId, answer, outside]

end DriveService

end CloudDrive
