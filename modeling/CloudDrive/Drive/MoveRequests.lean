import CloudDrive.Drive.Tree

/-! # Move requests, query by query

Every query of a `move` request sees what is committed when it starts, and the
update waits only for another update of its own row. While another request may
commit at any moment, a request knows of the tree what it has read. -/

namespace CloudDrive

open Outcome Relational Forest Relation Execution DriveService PermissionService
open DriveItemRepository

section Requests

variable [Platform]

/-! ## The requests -/

/-- The parameters of `move`. -/
structure MoveRequest where
  userId : Uuid
  itemId : Uuid
  newParentId : Option Uuid

/-- How far a request has come, with the rows its session has loaded. -/
inductive MoveStage where
  | reading
  | permittingItem (item : DriveItem) (best : Option Permission) (current : DriveItem)
  | findingParent (item : DriveItem)
  | permittingParent (item newParent : DriveItem) (best : Option Permission)
      (current : DriveItem)
  | walking (item newParent : DriveItem) (seen : List Uuid) (currentId : Uuid)
  | naming (item : DriveItem)
  | writing (item : DriveItem)
  | written (item : DriveItem)
  | committed
  | raised (error : ServiceError)

/-- `get_by_id` in a session that holds `loaded`: what the session knows of a row
is not refreshed by reading it again. -/
def getById (loaded : List DriveItem) (items : ItemTable) (itemId : Uuid) : Option DriveItem :=
  (items.find? itemId).map fun row =>
    (loaded.find? fun old => decide (old.id = itemId)).getD row

/-- A round of `get_permission` ends the walk or goes on with the parent. -/
inductive PermissionRound where
  | decided (perm : Option Permission)
  | goesOn (best : Option Permission) (parent : DriveItem)

def permissionRound (loaded : List DriveItem) (db : Database) (userId : Uuid)
    (best : Option Permission) (current : DriveItem) : PermissionRound :=
  if current.ownerId = userId then
    .decided (some .owner)
  else
    let best := improve best (getByItemAndUser db current.id userId)
    match current.parentId with
    | none => .decided best
    | some parentId =>
        match getById loaded db.items parentId with
        | none => .decided best
        | some parent => .goesOn best parent

/-- A session that holds nothing walks as the service does. -/
theorem walk_eq_permissionRound (db : Database) (userId : Uuid) (fuel : Nat)
    (best : Option Permission) (current : DriveItem) :
    walk db userId (fuel + 1) best current =
      match permissionRound [] db userId best current with
      | .decided perm => .ok perm
      | .goesOn best parent => walk db userId fuel best parent := by
  rw [walk, permissionRound]
  by_cases owns : current.ownerId = userId
  · simp [owns]
  · cases points : current.parentId with
    | none => simp [owns]
    | some parentId => cases found : db.items.find? parentId <;> simp [owns, getById, found]

namespace MoveRequest

/-- The next query of a request that has not written yet. -/
def read (request : MoveRequest) (sys : System) : MoveStage → MoveStage
  | .reading =>
      match getById [] sys.db.items request.itemId with
      | none => .raised (.notFound "Item not found")
      | some item =>
          if item.isDeleted then
            .raised (.notFound "Item not found")
          else
            .permittingItem item none item
  | .permittingItem item best current =>
      match permissionRound [item] sys.db request.userId best current with
      | .goesOn best parent => .permittingItem item best parent
      | .decided perm =>
          if hasAtLeast perm .editor then
            .findingParent item
          else
            .raised (.forbidden "Forbidden")
  | .findingParent item =>
      match request.newParentId with
      | none => .naming item
      | some newParentId =>
          match getById [item] sys.db.items newParentId with
          | none => .raised (.notFound "Destination folder not found")
          | some newParent =>
              if newParent.isDeleted then
                .raised (.notFound "Destination folder not found")
              else
                .permittingParent item newParent none newParent
  | .permittingParent item newParent best current =>
      match permissionRound [item, newParent] sys.db request.userId best current with
      | .goesOn best parent => .permittingParent item newParent best parent
      | .decided perm =>
          if hasAtLeast perm .editor then
            if newParent.itemType = .folder then
              if item.itemType = .folder then
                .walking item newParent [] newParent.id
              else
                .naming item
            else
              .raised (.invalidOperation "Destination must be a folder")
          else
            .raised (.forbidden "Forbidden")
  | .walking item newParent seen currentId =>
      if currentId = request.itemId then
        .raised (.invalidOperation "Cannot move a folder into itself or its descendants")
      else if currentId ∈ seen then
        .naming item
      else
        match getById [item, newParent] sys.db.items currentId with
        | none => .naming item
        | some row =>
            match row.parentId with
            | none => .naming item
            | some parentId => .walking item newParent (currentId :: seen) parentId
  | .naming item =>
      match nameExistsInParent sys.db.items item.name request.newParentId request.userId
          (some request.itemId) with
      | .error error => .raised error
      | .ok true =>
          .raised (.nameConflict s!"'{item.name}' already exists in destination")
      | .ok false => .writing item
  | stage => stage

end MoveRequest

/-- A column keeps its stored value when the session believes to know the new one. -/
def dirty {α : Type} [DecidableEq α] (known new stored : α) : α :=
  if known = new then stored else new

/-- The columns that the update of `update_parent` sets. -/
def parentWritten (item : DriveItem) (parentId : Option Uuid) (userId : Uuid)
    (now : Timestamp) (row : DriveItem) : DriveItem :=
  { row with
    parentId := dirty item.parentId parentId row.parentId
    updatedBy := dirty item.updatedBy (some userId) row.updatedBy
    updatedAt := dirty item.updatedAt now row.updatedAt }

/-- What is committed, and the rows that an update not yet committed has locked. -/
structure SharedItems where
  sys : System
  rowLocks : List Uuid

/-- The next action of a request: a query, the update, which waits for the lock of
its row, or the commit. A name another request has taken in the meantime is
refused by the unique index. -/
def MoveRequest.act (request : MoveRequest) (shared : SharedItems) :
    MoveStage → Option (SharedItems × MoveStage)
  | .writing item =>
      if request.itemId ∈ shared.rowLocks then
        none
      else
        some ({ shared with rowLocks := request.itemId :: shared.rowLocks }, .written item)
  | .written item =>
      let rowLocks := shared.rowLocks.erase request.itemId
      match shared.sys.db.items.change request.itemId
          (parentWritten item request.newParentId request.userId shared.sys.now) with
      | .ok items => some (⟨shared.sys.withItems items, rowLocks⟩, .committed)
      | .error error => some (⟨shared.sys, rowLocks⟩, .raised error)
  | .committed => none
  | .raised _ => none
  | stage => some (shared, request.read shared.sys stage)

/-! ## What a request knows

`moved` are the items that the other request has moved since. The parents of all
others are those of the start. -/

def HasKind (items : ItemTable) (itemId : Uuid) (kind : ItemType) : Prop :=
  ∃ row ∈ items, row.id = itemId ∧ row.itemType = kind

theorem hasKind_unique {items : ItemTable} {itemId : Uuid} {one two : ItemType}
    (first : HasKind items itemId one) (second : HasKind items itemId two) : one = two := by
  rcases first with ⟨row, member, sameId, rfl⟩
  rcases second with ⟨other, otherMem, otherId, rfl⟩
  rw [ItemTable.eq_of_id_eq member otherMem (sameId.trans otherId.symm)]

/-- The committed items, seen from one request. -/
structure Agrees (start items : ItemTable) (moved : Uuid → Prop) : Prop where
  kinds : ∀ itemId kind, HasKind items itemId kind ↔ HasKind start itemId kind
  parents : ∀ itemId, ¬ moved itemId → items.parentOf itemId = start.parentOf itemId

/-- A row as a request has read it. -/
structure Seen (start : ItemTable) (moved : Uuid → Prop) (row : DriveItem) : Prop where
  kind : HasKind start row.id row.itemType
  parent : ¬ moved row.id → row.parentId = start.parentOf row.id

/-- The part of the starting tree that no read of the request has seen change. -/
def Steady (start : ItemTable) (moved : Uuid → Prop) (graph : Uuid → Option Uuid) : Prop :=
  ∀ node top, graph node = some top → start.parentOf node = some top ∧ ¬ moved node

/-- The walk up from the destination is still on every steady path to the item. -/
def OnTheWay (start : ItemTable) (moved : Uuid → Prop) (fromId toId : Uuid)
    (seen : List Uuid) (currentId : Uuid) : Prop :=
  ∀ graph, Steady start moved graph → AtOrAbove graph fromId toId →
    AtOrAbove graph currentId toId ∧ ∀ node ∈ seen, Above graph node currentId

/-- No steady path leads from the destination to the item. -/
def MoveRequest.Outside (request : MoveRequest) (start : ItemTable) (moved : Uuid → Prop) :
    Prop :=
  ∀ top, request.newParentId = some top → ∀ graph, Steady start moved graph →
    ¬ AtOrAbove graph top request.itemId

def MoveRequest.Holds (request : MoveRequest) (start : ItemTable) (moved : Uuid → Prop)
    (item : DriveItem) : Prop :=
  item.id = request.itemId ∧ Seen start moved item

def MoveRequest.Aims (request : MoveRequest) (start : ItemTable) (moved : Uuid → Prop)
    (newParent : DriveItem) : Prop :=
  request.newParentId = some newParent.id ∧ Seen start moved newParent

/-- What a request knows at each stage. -/
def MoveRequest.Knows (request : MoveRequest) (start : ItemTable) (moved : Uuid → Prop) :
    MoveStage → Prop
  | .reading | .committed | .raised _ => True
  | .permittingItem item _ _ | .findingParent item => request.Holds start moved item
  | .permittingParent item newParent _ _ =>
      request.Holds start moved item ∧ request.Aims start moved newParent
  | .walking item newParent seen currentId =>
      request.Holds start moved item ∧ request.Aims start moved newParent ∧
        OnTheWay start moved newParent.id request.itemId seen currentId
  | .naming item | .writing item | .written item =>
      request.Holds start moved item ∧ request.Outside start moved

section Knowledge

variable {start items : ItemTable} {moved movedNow : Uuid → Prop} {request : MoveRequest}

theorem Agrees.find_steady (agrees : Agrees start items moved) {graph : Uuid → Option Uuid}
    (steady : Steady start moved graph) {node top : Uuid} (step : graph node = some top) :
    ∃ row, items.find? node = some row ∧ row.parentId = some top := by
  rcases steady node top step with ⟨points, stays⟩
  rw [← agrees.parents node stays] at points
  rcases ItemTable.parentOf_eq_some.mp points with ⟨row, member, rfl, parent⟩
  exact ⟨row, ItemTable.find?_id member, parent⟩

theorem Agrees.seen_member (agrees : Agrees start items moved) {row : DriveItem}
    (member : row ∈ items) : Seen start moved row where
  kind := (agrees.kinds _ _).mp ⟨row, member, rfl, rfl⟩
  parent stays := by
    rw [← agrees.parents _ stays, ItemTable.parentOf_id member]

/-- What `get_by_id` returns has been read at some point. -/
theorem Agrees.seen_getById (agrees : Agrees start items moved) {loaded : List DriveItem}
    (known : ∀ row ∈ loaded, Seen start moved row) {itemId : Uuid} {row : DriveItem}
    (found : getById loaded items itemId = some row) : row.id = itemId ∧ Seen start moved row := by
  rcases Option.map_eq_some_iff.mp found with ⟨stored, isStored, rfl⟩
  cases again : loaded.find? fun old => decide (old.id = itemId) with
  | none =>
      rcases ItemTable.find?_eq_some.mp isStored with ⟨member, sameId⟩
      exact ⟨sameId, agrees.seen_member member⟩
  | some old =>
      have sameId : old.id = itemId := by simpa using List.find?_some again
      exact ⟨sameId, known old (List.mem_of_find?_eq_some again)⟩

theorem Agrees.getById_steady (agrees : Agrees start items moved) {loaded : List DriveItem}
    (known : ∀ row ∈ loaded, Seen start moved row) {graph : Uuid → Option Uuid}
    (steady : Steady start moved graph) {node top : Uuid} (step : graph node = some top) :
    ∃ row, getById loaded items node = some row ∧ row.parentId = some top := by
  rcases agrees.find_steady steady step with ⟨stored, isStored, _⟩
  rcases Option.isSome_iff_exists.mp (show (getById loaded items node).isSome by
    simp [getById, isStored]) with ⟨row, found⟩
  rcases agrees.seen_getById known found with ⟨rfl, seen⟩
  rcases steady row.id top step with ⟨points, stays⟩
  exact ⟨row, found, (seen.parent stays).trans points⟩

theorem Steady.sub {graph : Uuid → Option Uuid} (steady : Steady start moved graph)
    {node top : Uuid} (path : AtOrAbove graph node top) : AtOrAbove start.parentOf node top :=
  ReflTransGen.mono (fun _ _ step => (steady _ _ step).1) _ _ path

theorem Steady.earlier {graph : Uuid → Option Uuid} (steady : Steady start movedNow graph)
    (grows : ∀ node, moved node → movedNow node) : Steady start moved graph :=
  fun node top step => ⟨(steady node top step).1, fun isMoved =>
    (steady node top step).2 (grows node isMoved)⟩

theorem Seen.later {row : DriveItem} (seen : Seen start moved row)
    (grows : ∀ node, moved node → movedNow node) : Seen start movedNow row :=
  ⟨seen.kind, fun stays => seen.parent fun isMoved => stays (grows _ isMoved)⟩

/-- What a request knows stays true when the other request commits. -/
theorem MoveRequest.Knows.later {stage : MoveStage} (knows : request.Knows start moved stage)
    (grows : ∀ node, moved node → movedNow node) : request.Knows start movedNow stage := by
  have outside : request.Outside start moved → request.Outside start movedNow :=
    fun outside top named graph steady => outside top named graph (steady.earlier grows)
  cases stage with
  | reading => trivial
  | committed => trivial
  | raised => trivial
  | permittingItem => exact ⟨knows.1, knows.2.later grows⟩
  | findingParent => exact ⟨knows.1, knows.2.later grows⟩
  | permittingParent =>
      exact ⟨⟨knows.1.1, knows.1.2.later grows⟩, knows.2.1, knows.2.2.later grows⟩
  | walking =>
      exact ⟨⟨knows.1.1, knows.1.2.later grows⟩, ⟨knows.2.1.1, knows.2.1.2.later grows⟩,
        fun graph steady => knows.2.2 graph (steady.earlier grows)⟩
  | naming => exact ⟨⟨knows.1.1, knows.1.2.later grows⟩, outside knows.2⟩
  | writing => exact ⟨⟨knows.1.1, knows.1.2.later grows⟩, outside knows.2⟩
  | written => exact ⟨⟨knows.1.1, knows.1.2.later grows⟩, outside knows.2⟩

/-- A file has nothing below it, and the destination is a folder. -/
theorem MoveRequest.outside_of_file (tree : FolderTree start) {item newParent : DriveItem}
    (holds : request.Holds start moved item) (aims : request.Aims start moved newParent)
    (isFile : item.itemType ≠ .folder) (isFolder : newParent.itemType = .folder) :
    request.Outside start moved := by
  intro top named graph steady path
  cases aims.1.symm.trans named
  rcases holds with ⟨sameId, seen⟩
  rw [← sameId] at path
  rcases atOrAbove_iff.mp (steady.sub path) with same | above
  · have kinds := hasKind_unique (same ▸ aims.2.kind) seen.kind
    exact isFile (kinds.symm.trans isFolder)
  · rcases seen.kind with ⟨row, member, isItem, kind⟩
    rw [← isItem] at above
    exact tree.not_above member (fun folder => isFile (kind.symm.trans folder)) above

/-- A round of the walk leaves it on the way, or shows that there is no way. -/
theorem OnTheWay.next (tree : FolderTree start) (agrees : Agrees start items moved)
    {loaded : List DriveItem} (known : ∀ row ∈ loaded, Seen start moved row)
    {fromId toId currentId : Uuid} {seen : List Uuid}
    (way : OnTheWay start moved fromId toId seen currentId) (notYet : currentId ≠ toId)
    {graph : Uuid → Option Uuid} (steady : Steady start moved graph)
    (path : AtOrAbove graph fromId toId) :
    currentId ∉ seen ∧ ∃ row parentId, getById loaded items currentId = some row ∧
      row.parentId = some parentId ∧ AtOrAbove graph parentId toId ∧
      ∀ node ∈ currentId :: seen, Above graph node parentId := by
  rcases way graph steady path with ⟨onward, below⟩
  rcases ReflTransGen.cases_head onward with same | ⟨parentId, step, rest⟩
  · exact absurd same notYet
  · constructor
    · intro again
      have cycle : Above start.parentOf currentId currentId :=
        TransGen.mono (fun _ _ step => (steady _ _ step).1) _ _ (below currentId again)
      exact tree.acyclic currentId cycle
    · rcases agrees.getById_steady known steady step with ⟨row, found, points⟩
      apply Exists.intro row
      apply Exists.intro parentId
      constructor
      · exact found
      · constructor
        · exact points
        · constructor
          · exact rest
          · intro node among
            rcases List.mem_cons.mp among with rfl | earlier
            · exact .single step
            · exact .tail (below node earlier) step

theorem MoveRequest.Knows.readItem {sys : CloudDrive.System}
    (agrees : Agrees start sys.db.items moved) :
    request.Knows start moved (request.read sys .reading) := by
  rw [MoveRequest.read]
  cases found : getById [] sys.db.items request.itemId with
  | none => trivial
  | some item =>
      have holds : request.Holds start moved item :=
        agrees.seen_getById (fun _ member => absurd member List.not_mem_nil) found
      by_cases deleted : item.isDeleted = true
      · simp only [deleted, if_true]
        trivial
      · simp only [deleted]
        exact holds

theorem MoveRequest.Knows.readParent {sys : CloudDrive.System}
    (agrees : Agrees start sys.db.items moved) {item : DriveItem}
    (holds : request.Holds start moved item) :
    request.Knows start moved (request.read sys (.findingParent item)) := by
  rw [MoveRequest.read]
  cases named : request.newParentId with
  | none =>
      apply And.intro holds
      intro top isTop
      cases named.symm.trans isTop
  | some newParentId =>
      have known : ∀ row ∈ [item], Seen start moved row := by
        intro row member
        rw [List.mem_singleton.mp member]
        exact holds.2
      cases found : getById [item] sys.db.items newParentId with
      | none =>
          simp only [found]
          trivial
      | some newParent =>
          rcases agrees.seen_getById known found with ⟨rfl, seen⟩
          by_cases deleted : newParent.isDeleted = true
          · simp only [found, deleted, if_true]
            trivial
          · simp only [found, deleted]
            exact ⟨holds, named, seen⟩

theorem MoveRequest.Knows.permitItem {sys : CloudDrive.System} {item current : DriveItem}
    {best : Option Permission} (holds : request.Holds start moved item) :
    request.Knows start moved (request.read sys (.permittingItem item best current)) := by
  rw [MoveRequest.read]
  cases permissionRound [item] sys.db request.userId best current with
  | goesOn => exact holds
  | decided perm =>
      by_cases allowed : hasAtLeast perm .editor = true
      · simp only [allowed, if_true]
        exact holds
      · simp only [allowed]
        trivial

theorem MoveRequest.Knows.permitParent {sys : CloudDrive.System} (tree : FolderTree start)
    {item newParent current : DriveItem} {best : Option Permission}
    (holds : request.Holds start moved item) (aims : request.Aims start moved newParent) :
    request.Knows start moved
      (request.read sys (.permittingParent item newParent best current)) := by
  rw [MoveRequest.read]
  cases permissionRound [item, newParent] sys.db request.userId best current with
  | goesOn => exact ⟨holds, aims⟩
  | decided perm =>
      by_cases allowed : hasAtLeast perm .editor = true
      · by_cases isFolder : newParent.itemType = .folder
        · by_cases folder : item.itemType = .folder
          · simp only [allowed, isFolder, folder, if_true]
            exact ⟨holds, aims, fun _ _ path => ⟨path, fun _ member =>
              absurd member List.not_mem_nil⟩⟩
          · simp only [allowed, isFolder, folder, if_true, if_false]
            exact ⟨holds, request.outside_of_file tree holds aims folder isFolder⟩
        · simp only [allowed, isFolder, if_true, if_false]
          trivial
      · simp only [allowed]
        trivial

theorem MoveRequest.Knows.walk {sys : CloudDrive.System} (tree : FolderTree start)
    (agrees : Agrees start sys.db.items moved) {item newParent : DriveItem}
    {seen : List Uuid} {currentId : Uuid} (holds : request.Holds start moved item)
    (aims : request.Aims start moved newParent)
    (way : OnTheWay start moved newParent.id request.itemId seen currentId) :
    request.Knows start moved (request.read sys (.walking item newParent seen currentId)) := by
  have known : ∀ row ∈ [item, newParent], Seen start moved row := by
    intro row member
    rcases List.mem_cons.mp member with rfl | second
    · exact holds.2
    · rw [List.mem_singleton.mp second]
      exact aims.2
  -- Whatever ends the walk contradicts a steady path from the destination.
  have ends : (∀ graph, Steady start moved graph →
      ¬ AtOrAbove graph newParent.id request.itemId) → request.Outside start moved := by
    intro noPath top named graph steady
    cases aims.1.symm.trans named
    exact noPath graph steady
  rw [MoveRequest.read]
  by_cases there : currentId = request.itemId
  · rw [if_pos there]
    trivial
  · rw [if_neg there]
    have next : ∀ graph, Steady start moved graph →
        AtOrAbove graph newParent.id request.itemId → _ :=
      fun graph steady path => way.next tree agrees known there steady path
    by_cases again : currentId ∈ seen
    · rw [if_pos again]
      apply And.intro holds
      apply ends
      intro graph steady path
      exact (next graph steady path).1 again
    · rw [if_neg again]
      cases found : getById [item, newParent] sys.db.items currentId with
      | none =>
          apply And.intro holds
          apply ends
          intro graph steady path
          rcases (next graph steady path).2 with ⟨row, _, isRow, _⟩
          cases found.symm.trans isRow
      | some row =>
          cases points : row.parentId with
          | none =>
              simp only [points]
              apply And.intro holds
              apply ends
              intro graph steady path
              rcases (next graph steady path).2 with ⟨other, _, isRow, otherPoints, _⟩
              cases found.symm.trans isRow
              cases points.symm.trans otherPoints
          | some parentId =>
              simp only [points]
              apply And.intro holds
              apply And.intro aims
              intro graph steady path
              rcases (next graph steady path).2 with ⟨other, _, isRow, otherPoints, onward⟩
              cases found.symm.trans isRow
              cases points.symm.trans otherPoints
              exact onward

/-- A query keeps what the request knows. -/
theorem MoveRequest.Knows.read {sys : CloudDrive.System} (tree : FolderTree start)
    (agrees : Agrees start sys.db.items moved) {stage : MoveStage}
    (knows : request.Knows start moved stage) :
    request.Knows start moved (request.read sys stage) := by
  cases stage with
  | reading => exact .readItem agrees
  | permittingItem => exact .permitItem knows
  | findingParent => exact .readParent agrees knows
  | permittingParent => exact .permitParent tree knows.1 knows.2
  | walking => exact .walk tree agrees knows.1 knows.2.1 knows.2.2
  | naming item =>
      rw [MoveRequest.read]
      cases nameExistsInParent sys.db.items item.name request.newParentId request.userId
        (some request.itemId) with
      | error => trivial
      | ok taken =>
          cases taken with
          | true => trivial
          | false => exact knows
  | writing => exact knows
  | written => exact knows
  | committed => trivial
  | raised => trivial

end Knowledge

end Requests

end CloudDrive
