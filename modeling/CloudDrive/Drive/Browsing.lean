import CloudDrive.Drive.Tree

/-! # Reading the drive

`get_item`, `list_items` and `collect_folder_descendants` of `app/drive`, and
what the walk of `_is_descendant_or_self` answers. -/

namespace CloudDrive

open Outcome Relational Forest Relation Execution DriveService

/-- The order in which the database sorts texts. -/
class Collation where
  before : String → String → Bool

inductive DriveItemSortField where
  | name
  | createdAt
  | updatedAt
  | sizeBytes
  deriving DecidableEq, Repr

inductive SortOrder where
  | asc
  | desc
  deriving DecidableEq, Repr

section Reading

variable [Platform] [Collation]

namespace DriveItemRepository

def columnBefore (sortBy : DriveItemSortField) (left right : DriveItem) : Bool :=
  match sortBy with
  | .name => Collation.before left.name right.name
  | .createdAt => decide (left.createdAt ≤ right.createdAt)
  | .updatedAt => decide (left.updatedAt ≤ right.updatedAt)
  | .sizeBytes => decide (left.sizeBytes ≤ right.sizeBytes)

/-- `order_by(folder_first, direction(sort_col))`. -/
def sortsBefore (sortBy : DriveItemSortField) (order : SortOrder)
    (left right : DriveItem) : Bool :=
  if left.itemType = right.itemType then
    match order with
    | .asc => columnBefore sortBy left right
    | .desc => columnBefore sortBy right left
  else
    decide (left.itemType = .folder)

/-- The rows that `list_children` counts and pages through. -/
def children (db : Database) (parentId : Option Uuid) (ownerId : Uuid) : List DriveItem :=
  db.items.rows.filter fun item =>
    decide (item.ownerId = ownerId ∧ item.isDeleted = false ∧ item.parentId = parentId)

def listChildren (db : Database) (parentId : Option Uuid) (ownerId : Uuid)
    (sortBy : DriveItemSortField) (order : SortOrder) (offset limit : Nat) :
    List DriveItem × Nat :=
  let rows := (children db parentId ownerId).insertionSort fun left right =>
    sortsBefore sortBy order left right = true
  ((rows.drop offset).take limit, (children db parentId ownerId).length)

omit [Collation] in
theorem mem_children {db : Database} {parentId : Option Uuid} {ownerId : Uuid}
    {item : DriveItem} : item ∈ children db parentId ownerId ↔
      item ∈ db.items ∧ item.ownerId = ownerId ∧ item.isDeleted = false ∧
        item.parentId = parentId := by
  simp [children]

theorem mem_listChildren {db : Database} {parentId : Option Uuid} {ownerId : Uuid}
    {sortBy : DriveItemSortField} {order : SortOrder} {offset limit : Nat} {item : DriveItem}
    (member : item ∈ (listChildren db parentId ownerId sortBy order offset limit).1) :
    item ∈ children db parentId ownerId := by
  have sorted := List.mem_of_mem_drop (List.mem_of_mem_take member)
  exact (List.perm_insertionSort _ _).mem_iff.mp sorted

end DriveItemRepository

open DriveItemRepository

namespace DriveService

/-- `_get_viewable`. -/
def getViewable (itemId userId : Uuid) (sys : System) : Except ServiceError DriveItem := do
  let item ← orRaise (sys.db.items.find? itemId) (.notFound "Item not found")
  require (item.isDeleted = false) (.notFound "Item not found")
  PermissionService.assertCanView sys.db userId item
  pure item

def getItem (userId itemId : Uuid) (sys : System) : Except ServiceError DriveItem :=
  getViewable itemId userId sys

/-- The rows of one page and the number of all. -/
def listItems (userId : Uuid) (parentId : Option Uuid) (page pageSize : Nat)
    (sortBy : DriveItemSortField) (order : SortOrder) (sys : System) :
    Except ServiceError (List DriveItem × Nat) := do
  whenSome parentId fun parentId => do
    let parent ← orRaise (sys.db.items.find? parentId) (.notFound "Folder not found")
    require (parent.isDeleted = false) (.notFound "Folder not found")
    PermissionService.assertCanView sys.db userId parent
  pure (listChildren sys.db parentId userId sortBy order ((page - 1) * pageSize) pageSize)

/-! ## Collecting a subtree -/

/-- The rows `visit` yields for each item, in order. -/
def visitEach {α : Type} (visit : DriveItem → Except ServiceError (List α)) :
    List DriveItem → Except ServiceError (List α)
  | [] => .ok []
  | item :: rest => do
      let found ← visit item
      let later ← visitEach visit rest
      pure (found ++ later)

/-- The paging loop of `_walk` over the children of one folder. -/
def visitPages {α : Type} (visit : DriveItem → Except ServiceError (List α))
    (page : Nat → List DriveItem × Nat) : Nat → Nat → Except ServiceError (List α)
  | 0, _ => .error .diverged
  | fuel + 1, offset =>
      let (items, total) := page offset
      if items = [] then
        .ok []
      else do
        let found ← visitEach visit items
        if total ≤ offset + items.length then
          pure found
        else do
          let later ← visitPages visit page fuel (offset + items.length)
          pure (found ++ later)

def relative (above name : String) : String :=
  if above = "" then name else above ++ "/" ++ name

/-- `_walk` of `collect_folder_descendants`: `fuel` bounds the depth, the number
of items the pages. -/
def collectWalk (userId : Uuid) (sys : System) :
    Nat → Uuid → String → Except ServiceError (List (String × DriveItem))
  | 0, _, _ => .error .diverged
  | fuel + 1, parentId, above =>
      visitPages
        (fun item => do
          let path := relative above item.name
          let below ← if item.itemType = .folder then
              collectWalk userId sys fuel item.id path
            else
              pure []
          pure ((path, item) :: below))
        (fun offset => listChildren sys.db (some parentId) userId .name .asc offset 500)
        (sys.db.items.rows.length + 1) 0

def collectFolderDescendants (userId folderId : Uuid) (sys : System) :
    Except ServiceError (List (String × DriveItem)) :=
  collectWalk userId sys (sys.db.items.rows.length + 1) folderId ""

/-! ## The walks end -/

omit [Platform] [Collation] in
theorem visitEach_ends {α : Type} {visit : DriveItem → Except ServiceError (List α)} :
    ∀ {items : List DriveItem}, (∀ item ∈ items, ∃ found, visit item = .ok found) →
      ∃ found, visitEach visit items = .ok found
  | [], _ => ⟨[], rfl⟩
  | item :: rest, visits => by
      rcases visits item List.mem_cons_self with ⟨found, first⟩
      rcases visitEach_ends fun other member => visits other (List.mem_cons_of_mem _ member)
        with ⟨later, others⟩
      refine ⟨found ++ later, ?_⟩
      simp only [visitEach, bind_eq_ok, pure_eq_ok]
      exact ⟨found, first, later, others, rfl⟩

omit [Platform] [Collation] in
/-- Every round of the paging loop passes at least one of the children. -/
theorem visitPages_ends {α : Type} {visit : DriveItem → Except ServiceError (List α)}
    {page : Nat → List DriveItem × Nat} (total : Nat) (counts : ∀ offset, (page offset).2 = total)
    (visits : ∀ offset, ∀ item ∈ (page offset).1, ∃ found, visit item = .ok found) :
    ∀ {fuel offset : Nat}, total + 1 ≤ fuel + offset → 0 < fuel →
      ∃ found, visitPages visit page fuel offset = .ok found
  | 0, _, _, positive => absurd positive (Nat.lt_irrefl 0)
  | fuel + 1, offset, bound, _ => by
      rw [visitPages]
      by_cases empty : (page offset).1 = []
      · exact ⟨[], by simp only [if_pos empty]⟩
      · rcases visitEach_ends (visits offset) with ⟨found, visited⟩
        have progress : 0 < (page offset).1.length := List.length_pos_iff.mpr empty
        by_cases last : total ≤ offset + (page offset).1.length
        · refine ⟨found, ?_⟩
          simp only [if_neg empty, counts, if_pos last, visited]
          rfl
        · have more : 0 < fuel := by omega
          have enough : total + 1 ≤ fuel + (offset + (page offset).1.length) := by omega
          rcases visitPages_ends total counts visits enough more with ⟨later, runs⟩
          refine ⟨found ++ later, ?_⟩
          simp only [if_neg empty, counts, if_neg last, visited, runs]
          rfl

theorem collectWalk_ends {userId : Uuid} {sys : System} :
    ∀ {fuel : Nat} {parentId : Uuid} {above : String},
      (∀ itemId, ancestor sys.db.items.parentOf fuel itemId ≠ some parentId) →
      ∃ found, collectWalk userId sys fuel parentId above = .ok found
  | 0, parentId, _, shallow => absurd rfl (shallow parentId)
  | fuel + 1, parentId, above, shallow => by
      rw [collectWalk]
      apply visitPages_ends (children sys.db (some parentId) userId).length
      · intro offset
        rfl
      · intro offset item member
        rcases mem_children.mp (mem_listChildren member) with ⟨itemMem, _, _, hung⟩
        by_cases isFolder : item.itemType = .folder
        · have shallower : ∀ itemId,
              ancestor sys.db.items.parentOf fuel itemId ≠ some item.id := by
            intro itemId reached
            apply shallow itemId
            rw [ancestor_succ, reached, Option.bind_some, ItemTable.parentOf_id itemMem, hung]
          have inside : ∃ below, collectWalk userId sys fuel item.id (relative above item.name) =
              .ok below := collectWalk_ends shallower
          rcases inside with ⟨below, runs⟩
          refine ⟨(relative above item.name, item) :: below, ?_⟩
          simp only [if_pos isFolder, runs]
          rfl
        · exact ⟨[(relative above item.name, item)], by simp only [if_neg isFolder]; rfl⟩
      · have fewer : (children sys.db (some parentId) userId).length ≤
            sys.db.items.rows.length := List.length_filter_le _ _
        omega
      · exact Nat.succ_pos _

/-- In a forest the subtree below any folder is collected. -/
theorem collectFolderDescendants_ends {sys : System} (acyclic : Acyclic sys.db.items.parentOf)
    (userId folderId : Uuid) :
    ∃ found, collectFolderDescendants userId folderId sys = .ok found := by
  apply collectWalk_ends
  intro itemId reached
  have ends : ancestor sys.db.items.parentOf (sys.db.items.rows.length + 1) itemId = none :=
    Table.chain_ends acyclic itemId
  rw [ends] at reached
  cases reached

/-! ## What the walks find -/

/-- `item` is live, owned by `userId` and hangs below the folder `parentId` by the
folders of these names and its own. -/
inductive Below (db : Database) (userId : Uuid) : Uuid → List String → DriveItem → Prop where
  | child {parentId : Uuid} {item : DriveItem} :
      item ∈ children db (some parentId) userId → Below db userId parentId [item.name] item
  | deeper {parentId : Uuid} {folder item : DriveItem} {names : List String} :
      folder ∈ children db (some parentId) userId → folder.itemType = .folder →
      Below db userId folder.id names item →
      Below db userId parentId (folder.name :: names) item

omit [Collation] in
theorem Below.member {db : Database} {userId parentId : Uuid} {names : List String}
    {item : DriveItem} (below : Below db userId parentId names item) : item ∈ db.items := by
  induction below with
  | child among => exact (mem_children.mp among).1
  | deeper _ _ _ induction => exact induction

omit [Collation] in
theorem Below.names_ne_nil {db : Database} {userId parentId : Uuid} {names : List String}
    {item : DriveItem} (below : Below db userId parentId names item) : names ≠ [] := by
  cases below <;> exact List.cons_ne_nil _ _

omit [Collation] in
/-- The names on the way are names of rows. -/
theorem Below.named {db : Database} {userId parentId : Uuid} {names : List String}
    {item : DriveItem} (below : Below db userId parentId names item) :
    ∀ name ∈ names, ∃ row ∈ db.items, row.name = name := by
  induction below with
  | child among =>
      intro name member
      rw [List.mem_singleton.mp member]
      exact ⟨_, (mem_children.mp among).1, rfl⟩
  | deeper among _ _ induction =>
      intro name member
      rcases List.mem_cons.mp member with rfl | later
      · exact ⟨_, (mem_children.mp among).1, rfl⟩
      · exact induction name later

omit [Collation] in
/-- Every place on the way, short of the item itself, is a folder. -/
theorem Below.folder_above {db : Database} {userId parentId : Uuid} {names : List String}
    {item : DriveItem} (below : Below db userId parentId names item) :
    ∀ part, part <+: names → part ≠ [] → part = names ∨
      ∃ folder, Below db userId parentId part folder ∧ folder.itemType = .folder := by
  induction below with
  | child _ =>
      intro part isPrefix nonempty
      rcases List.prefix_cons_iff.mp isPrefix with rfl | ⟨rest, rfl, ends⟩
      · exact absurd rfl nonempty
      · rw [List.prefix_nil.mp ends]
        exact .inl rfl
  | deeper among isFolder _ induction =>
      intro part isPrefix nonempty
      rcases List.prefix_cons_iff.mp isPrefix with rfl | ⟨rest, rfl, restPrefix⟩
      · exact absurd rfl nonempty
      · by_cases ends : rest = []
        · rw [ends]
          exact .inr ⟨_, .child among, isFolder⟩
        · rcases induction rest restPrefix ends with rfl | ⟨folder, further, kind⟩
          · exact .inl rfl
          · exact .inr ⟨folder, .deeper among isFolder further, kind⟩

/-- Every item was visited, and nothing else was found. -/
structure Visited {α : Type} (visit : DriveItem → Except ServiceError (List α))
    (items : List DriveItem) (found : List α) : Prop where
  each : ∀ item ∈ items, ∃ part, visit item = .ok part
  mem : ∀ {value}, value ∈ found ↔ ∃ item ∈ items, ∃ part, visit item = .ok part ∧ value ∈ part

omit [Platform] [Collation] in
theorem Visited.append {α : Type} {visit : DriveItem → Except ServiceError (List α)}
    {items later : List DriveItem} {found rest : List α} (first : Visited visit items found)
    (second : Visited visit later rest) : Visited visit (items ++ later) (found ++ rest) := by
  constructor
  case each =>
    intro item member
    rcases List.mem_append.mp member with early | late
    · exact first.each item early
    · exact second.each item late
  case mem =>
    intro value
    rw [List.mem_append, first.mem, second.mem]
    constructor
    · intro either
      rcases either with ⟨item, member, isIn⟩ | ⟨item, member, isIn⟩
      · exact ⟨item, List.mem_append_left _ member, isIn⟩
      · exact ⟨item, List.mem_append_right _ member, isIn⟩
    · intro among
      rcases among with ⟨item, member, isIn⟩
      rcases List.mem_append.mp member with early | late
      · exact .inl ⟨item, early, isIn⟩
      · exact .inr ⟨item, late, isIn⟩

omit [Platform] [Collation] in
theorem visitEach_visited {α : Type} {visit : DriveItem → Except ServiceError (List α)} :
    ∀ {items : List DriveItem} {found : List α}, visitEach visit items = .ok found →
      Visited visit items found
  | [], found, runs => by
      cases runs
      exact ⟨by simp, by simp⟩
  | item :: rest, found, runs => by
      simp only [visitEach, bind_eq_ok, pure_eq_ok] at runs
      rcases runs with ⟨first, visited, later, others, rfl⟩
      have alone : Visited visit [item] first := by
        constructor
        case each =>
          intro other member
          rw [List.mem_singleton.mp member]
          exact ⟨first, visited⟩
        case mem =>
          intro value
          simp [visited]
      exact alone.append (visitEach_visited others)

omit [Platform] [Collation] in
/-- The pages show every row once. -/
theorem visitPages_visited {α : Type} {visit : DriveItem → Except ServiceError (List α)}
    {page : Nat → List DriveItem × Nat} {rows : List DriveItem} {limit : Nat}
    (positive : 0 < limit)
    (pages : ∀ offset, page offset = ((rows.drop offset).take limit, rows.length)) :
    ∀ {fuel offset : Nat} {found : List α}, visitPages visit page fuel offset = .ok found →
      Visited visit (rows.drop offset) found
  | 0, _, _, runs => by cases runs
  | fuel + 1, offset, found, runs => by
      simp only [visitPages, pages] at runs
      split at runs
      · rename_i empty
        cases runs
        have none : rows.drop offset = [] := by
          rcases List.take_eq_nil_iff.mp empty with zero | nothing
          · omega
          · exact nothing
        rw [none]
        exact ⟨by simp, by simp⟩
      · simp only [bind_eq_ok] at runs
        rcases runs with ⟨first, visited, runs⟩
        have now := visitEach_visited visited
        have split : rows.drop offset = (rows.drop offset).take limit ++
            rows.drop (offset + ((rows.drop offset).take limit).length) := by
          rw [← List.drop_drop, List.length_take]
          by_cases whole : limit ≤ (rows.drop offset).length
          · rw [Nat.min_eq_left whole, List.take_append_drop]
          · have short : (rows.drop offset).length ≤ limit := by omega
            rw [Nat.min_eq_right short, List.drop_length, List.take_of_length_le short,
              List.append_nil]
        split at runs
        · rename_i last
          cases runs
          rw [split, List.drop_eq_nil_of_le last, List.append_nil]
          exact now
        · simp only [bind_eq_ok, pure_eq_ok] at runs
          rcases runs with ⟨later, others, rfl⟩
          rw [split]
          exact now.append (visitPages_visited positive pages others)

private theorem visit_ok {userId : Uuid} {sys : System} {fuel : Nat} {above : String}
    {item : DriveItem} {part : List (String × DriveItem)} :
    (do
      let path := relative above item.name
      let below ← if item.itemType = .folder then
          collectWalk userId sys fuel item.id path
        else
          pure []
      pure ((path, item) :: below)) = Except.ok part ↔
      ∃ below, part = (relative above item.name, item) :: below ∧
        if item.itemType = .folder then
          collectWalk userId sys fuel item.id (relative above item.name) = .ok below
        else below = [] := by
  by_cases isFolder : item.itemType = .folder
  · simp only [if_pos isFolder, bind_eq_ok, pure_eq_ok]
    constructor
    · intro ran
      rcases ran with ⟨below, inside, rfl⟩
      exact ⟨below, rfl, inside⟩
    · intro ran
      rcases ran with ⟨below, rfl, inside⟩
      exact ⟨below, inside, rfl⟩
  · simp only [if_neg isFolder, pure_bind, pure_eq_ok, exists_eq_right]
    exact eq_comm

/-- The rows of the walk are those below the folder, each with its path. -/
theorem mem_collectWalk {userId : Uuid} {sys : System} :
    ∀ {fuel : Nat} {parentId : Uuid} {above : String} {found : List (String × DriveItem)},
      collectWalk userId sys fuel parentId above = .ok found →
      ∀ {path : String} {item : DriveItem}, (path, item) ∈ found ↔
        ∃ names, Below sys.db userId parentId names item ∧ path = names.foldl relative above
  | 0, _, _, _, runs, _, _ => by cases runs
  | fuel + 1, parentId, above, found, runs, path, item => by
      rw [collectWalk] at runs
      have sorted := List.perm_insertionSort
        (fun left right => sortsBefore .name .asc left right = true)
        (children sys.db (some parentId) userId)
      have positive : 0 < 500 := by decide
      have visited := visitPages_visited positive
        (fun offset => by rw [listChildren, sorted.length_eq]) runs
      rw [List.drop_zero] at visited
      rw [visited.mem]
      constructor
      · intro among
        rcases among with ⟨child, member, part, ran, isIn⟩
        have isChild := sorted.mem_iff.mp member
        rcases visit_ok.mp ran with ⟨below, rfl, inside⟩
        rcases List.mem_cons.mp isIn with same | further
        · cases same
          exact ⟨[item.name], .child isChild, rfl⟩
        · split at inside
          · rename_i isFolder
            rcases (mem_collectWalk inside).mp further with ⟨names, hangs, rfl⟩
            exact ⟨child.name :: names, .deeper isChild isFolder hangs, rfl⟩
          · cases inside
            cases further
      · intro among
        rcases among with ⟨names, hangs, rfl⟩
        cases hangs with
        | child isChild =>
            have member := sorted.mem_iff.mpr isChild
            rcases visited.each item member with ⟨part, ran⟩
            apply Exists.intro item
            apply And.intro member
            apply Exists.intro part
            apply And.intro ran
            rcases visit_ok.mp ran with ⟨below, rfl, _⟩
            exact List.mem_cons_self
        | deeper isChild isFolder further =>
            rename_i folder names
            have member := sorted.mem_iff.mpr isChild
            rcases visited.each folder member with ⟨part, ran⟩
            apply Exists.intro folder
            apply And.intro member
            apply Exists.intro part
            apply And.intro ran
            rcases visit_ok.mp ran with ⟨below, rfl, inside⟩
            rw [if_pos isFolder] at inside
            exact List.mem_cons_of_mem _ ((mem_collectWalk inside).mpr ⟨names, further, rfl⟩)

theorem mem_collectFolderDescendants {userId folderId : Uuid} {sys : System}
    {found : List (String × DriveItem)}
    (runs : collectFolderDescendants userId folderId sys = .ok found) {path : String}
    {item : DriveItem} : (path, item) ∈ found ↔
      ∃ names, Below sys.db userId folderId names item ∧ path = names.foldl relative "" :=
  mem_collectWalk runs

end DriveService

end Reading

/-! ## Descendants -/

namespace DriveService

variable [Platform]

private theorem descendantWalk_true {items : ItemTable} {candidateId : Uuid} :
    ∀ {fuel : Nat} {seen : List Uuid} {currentId : Uuid},
      descendantWalk items candidateId fuel seen currentId = .ok true →
      AtOrAbove items.parentOf currentId candidateId
  | 0, _, _, answer => by cases answer
  | fuel + 1, seen, currentId, answer => by
      rw [descendantWalk] at answer
      split at answer
      · rename_i same
        rw [same]
      · split at answer
        · cases answer
        · split at answer
          · cases answer
          · rename_i item found
            split at answer
            · cases answer
            · rename_i parentId points
              rcases ItemTable.find?_eq_some.mp found with ⟨member, rfl⟩
              exact .head ((ItemTable.parentOf_id member).trans points)
                (descendantWalk_true answer)

/-- The walk ends where the chain of parents does. -/
private theorem descendantWalk_ends {items : ItemTable} {candidateId : Uuid} :
    ∀ {fuel : Nat} {seen : List Uuid} {currentId : Uuid},
      ancestor items.parentOf fuel currentId = none →
      ∃ answer, descendantWalk items candidateId fuel seen currentId = .ok answer
  | 0, _, _, ends => by cases ends
  | fuel + 1, seen, currentId, ends => by
      rw [descendantWalk]
      split
      · exact ⟨true, rfl⟩
      · split
        · exact ⟨false, rfl⟩
        · split
          · exact ⟨false, rfl⟩
          · rename_i item found
            split
            · exact ⟨false, rfl⟩
            · rename_i parentId points
              rcases ItemTable.find?_eq_some.mp found with ⟨member, rfl⟩
              rw [ancestor, ItemTable.parentOf_id member, points] at ends
              exact descendantWalk_ends ends

theorem isDescendantOrSelf_ends {items : ItemTable} (acyclic : Acyclic items.parentOf)
    (candidateId targetId : Uuid) :
    ∃ answer, isDescendantOrSelf items candidateId targetId = .ok answer := by
  apply descendantWalk_ends
  have ends : ancestor items.parentOf (items.rows.length + 1) targetId = none :=
    Table.chain_ends acyclic targetId
  rw [ancestor_succ, ends]
  rfl

/-- In a forest the answer is exact. -/
theorem isDescendantOrSelf_iff {items : ItemTable} (acyclic : Acyclic items.parentOf)
    (candidateId targetId : Uuid) :
    isDescendantOrSelf items candidateId targetId = .ok true ↔
      AtOrAbove items.parentOf targetId candidateId := by
  constructor
  · exact descendantWalk_true
  · intro above
    rcases isDescendantOrSelf_ends acyclic candidateId targetId with ⟨answer, runs⟩
    cases answer with
    | true => exact runs
    | false => exact absurd above (isDescendantOrSelf_false acyclic runs)

end DriveService

/-! ## Every run -/

/-- In every state that a run without snapshot restores reaches, parents are
folders, the parent graph is a forest, and the walks over it end with the right
answer. -/
theorem History.tree_walkable [Platform] [Collation] {start final : System}
    {events : List (Event System Op)} (history : History start events final)
    (allowed : ∀ event ∈ events, event.action.NoSnapshotRestore) :
    (∀ row ∈ final.db.items, ∀ top ∈ row.parentId, IsFolder final.db.items top) ∧
    Acyclic final.db.items.parentOf ∧
    (∀ candidateId targetId, ∃ answer,
      isDescendantOrSelf final.db.items candidateId targetId = .ok answer ∧
        (answer = true ↔ AtOrAbove final.db.items.parentOf targetId candidateId)) ∧
    (∀ userId, ∀ item ∈ final.db.items, ∃ perm,
      PermissionService.getPermission final.db userId item = .ok perm) ∧
    (∀ itemId, ∃ below, TrashRepository.getChildrenRecursive final itemId = .ok below) ∧
    ∀ userId folderId, ∃ found, collectFolderDescendants userId folderId final = .ok found := by
  have shaped := history.treeShaped allowed
  refine ⟨shaped.parents, shaped.acyclic, ?_, ?_, ?_, ?_⟩
  · intro candidateId targetId
    rcases isDescendantOrSelf_ends shaped.acyclic candidateId targetId with ⟨answer, runs⟩
    refine ⟨answer, runs, ?_⟩
    rw [← isDescendantOrSelf_iff shaped.acyclic candidateId targetId, runs, Except.ok.injEq]
  · exact fun userId item member =>
      PermissionService.getPermission_ends shaped.acyclic userId member
  · intro itemId
    rcases Table.breadthFirst_spec shaped.acyclic itemId with ⟨below, ends, _⟩
    refine ⟨below, ?_⟩
    rw [TrashRepository.getChildrenRecursive, orRaise_eq_ok]
    exact ends
  · exact collectFolderDescendants_ends shaped.acyclic

section Nested

attribute [local instance] smallPlatform

/-- Texts sorted by code points. -/
@[reducible] def smallCollation : Collation where
  before left right := decide (left ≤ right)

attribute [local instance] smallCollation

private def nestAndMove : List Op :=
  [.createFolder 1 none "Plans", .createFolder 1 (some 10) "Drafts",
    .createFolder 1 none "Old", .move 1 10 (some 12)]

theorem History.tree_walkable_nestAndMove :
    ∃ answer, isDescendantOrSelf (afterFirstDay nestAndMove).db.items 12 11 = .ok answer ∧
      (answer = true ↔ AtOrAbove (afterFirstDay nestAndMove).db.items.parentOf 11 12) := by
  have allowed : ∀ event ∈ Op.trace nestAndMove firstDay, event.action.NoSnapshotRestore := by
    have each : ∀ op ∈ nestAndMove, op.NoSnapshotRestore := by
      simp [nestAndMove, Op.NoSnapshotRestore]
    exact fun event member => each _ (Op.action_mem_of_trace member)
  have history : History firstDay (Op.trace nestAndMove firstDay) (afterFirstDay nestAndMove) :=
    firstDay_trace (by simp [nestAndMove, Op.Offered]) rfl
  exact (History.tree_walkable history allowed).2.2.1 12 11

example : isDescendantOrSelf (afterFirstDay nestAndMove).db.items 12 11 = .ok true := by decide

end Nested

end CloudDrive
