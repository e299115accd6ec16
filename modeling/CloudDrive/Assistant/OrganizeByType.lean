import CloudDrive.Download.Names
import CloudDrive.Drive.Numbering
import CloudDrive.Drive.UniqueNames
import CloudDrive.Snapshot.SiblingNames
import CloudDrive.Upload.RoundTrip

/-! # Organizing the root by type

The skill `organize_by_type` of `app/assistant/skills/builtin/write.py`: one page of the
root is listed, and every file on it is moved into the folder of its extension, which is
created when the page has none of that name. -/

namespace CloudDrive

open Outcome Relational DriveItemRepository DriveService

/-- `str.lower`. -/
class CaseMapping where
  lower : String → String

namespace OrganizeByType

section Organize

variable [Platform] [Collation] [CaseMapping]

/-! ## The skill -/

/-- `f"{ext}-files"`, where an extension that is empty or missing is `other`. -/
def folderName (item : DriveItem) : String :=
  let ext := match item.extension with
    | some ext => if ext ≠ "" then ext else "other"
    | none => "other"
  CaseMapping.lower ext ++ "-files"

/-- The dictionary `folders`, newest entry first. -/
abbrev Folders := List (String × Uuid)

structure Summary where
  movedFiles : Nat
  folders : List String
  deriving DecidableEq

/-- `folders.get(folder_name)`, or the folder that is created for it. -/
def folderFor (userId : Uuid) (name : String) (folders : Folders) (sys : System) :
    Except ServiceError (Folders × Uuid × System) :=
  match folders.lookup name with
  | some folderId => .ok (folders, folderId, sys)
  | none => do
      let (folder, sys) ← createFolder userId none name sys
      pure ((name, folder.id) :: folders, folder.id, sys)

/-- The loop over the items of the page. -/
def organizeEach (userId : Uuid) :
    List DriveItem → Folders → Nat → List String → System →
      Except ServiceError (Summary × System)
  | [], _, moved, used, sys =>
      .ok ({ movedFiles := moved, folders := used.insertionSort (· ≤ ·) }, sys)
  | item :: rest, folders, moved, used, sys =>
      if item.itemType ≠ .file then
        organizeEach userId rest folders moved used sys
      else do
        let (folders, folderId, sys) ← folderFor userId (folderName item) folders sys
        let sys ← move userId item.id (some folderId) sys
        organizeEach userId rest folders (moved + 1) (used.insert (folderName item)) sys

/-- `{i.name: i for i in items if i.item_type == "FOLDER"}`. -/
def foldersOf (items : List DriveItem) : Folders :=
  (items.filter fun item => decide (item.itemType = .folder)).foldl
    (fun folders item => (item.name, item.id) :: folders) []

def organizeByType (userId : Uuid) (sys : System) : Except ServiceError (Summary × System) := do
  let (items, _) ← listItems userId none 1 200 .name .asc sys
  organizeEach userId items (foldersOf items) 0 [] sys

/-! ## The law -/

/-- The live items of the user in the root, folders first. -/
def rootItems (userId : Uuid) (sys : System) : List DriveItem :=
  (children sys.db none userId).insertionSort fun left right =>
    sortsBefore .name .asc left right = true

def rootFiles (userId : Uuid) (sys : System) : List DriveItem :=
  (rootItems userId sys).filter fun item => decide (item.itemType = .file)

def rootFolders (userId : Uuid) (sys : System) : List DriveItem :=
  (rootItems userId sys).filter fun item => decide (item.itemType = .folder)

/-- The skill succeeds, no file remains in the root, every file of the root is in the root
folder of its extension, and nothing else has changed. -/
def Organized (userId : Uuid) (sys : System) : Prop :=
  ∃ summary after, organizeByType userId sys = .ok (summary, after) ∧
    rootFiles userId after = [] ∧
    (∀ file ∈ rootFiles userId sys, ∃ row ∈ after.db.items, row.id = file.id ∧
      row.isDeleted = false ∧ ∃ folder ∈ rootFolders userId after,
        row.parentId = some folder.id ∧ folder.name = folderName file) ∧
    ∀ row ∈ sys.db.items, row ∉ rootFiles userId sys → row ∈ after.db.items

/-- No folder of the root has the name. -/
def Lacks (userId : Uuid) (sys : System) (name : String) : Prop :=
  ∀ folder ∈ rootFolders userId sys, folder.name ≠ name

/-- What the skill needs of the root, with its files in the order of the listing. -/
structure Organizable (userId : Uuid) (sys : System) : Prop where
  /-- The root fits on one page, unless it has no file. -/
  paged : rootFiles userId sys = [] ∨ (rootItems userId sys).length ≤ 200
  /-- A missing folder can be created under its name when the first file of its extension
  is reached: no file that is still in the root has that name. -/
  creatable : ∀ before file rest, rootFiles userId sys = before ++ file :: rest →
    (∀ earlier ∈ before, folderName earlier ≠ folderName file) →
    Lacks userId sys (folderName file) →
    validateName (folderName file) = .ok (folderName file) ∧
      ∀ later ∈ file :: rest, later.name ≠ folderName file
  /-- A folder that exists has no live item with the name of a file to be moved into it. -/
  free : ∀ file ∈ rootFiles userId sys, ∀ folder ∈ rootFolders userId sys,
    folder.name = folderName file → ∀ other ∈ children sys.db (some folder.id) userId,
      Platform.lower other.name ≠ Platform.lower file.name
  /-- No two files of one folder have one name in lower case. -/
  apart : (rootFiles userId sys).Pairwise fun left right =>
    folderName left = folderName right → Platform.lower left.name ≠ Platform.lower right.name

end Organize

/-! ## The listing -/

section Listing

variable [Platform] [Collation] {userId : Uuid} {sys : System}

theorem mem_rootItems {item : DriveItem} :
    item ∈ rootItems userId sys ↔ item ∈ sys.db.items ∧ item.ownerId = userId ∧
      item.isDeleted = false ∧ item.parentId = none := by
  rw [rootItems, (List.perm_insertionSort _ _).mem_iff, mem_children]

theorem mem_rootFiles {item : DriveItem} :
    item ∈ rootFiles userId sys ↔ (item ∈ sys.db.items ∧ item.ownerId = userId ∧
      item.isDeleted = false ∧ item.parentId = none) ∧ item.itemType = .file := by
  rw [rootFiles, List.mem_filter, mem_rootItems]
  simp

theorem mem_rootFolders {item : DriveItem} :
    item ∈ rootFolders userId sys ↔ (item ∈ sys.db.items ∧ item.ownerId = userId ∧
      item.isDeleted = false ∧ item.parentId = none) ∧ item.itemType = .folder := by
  rw [rootFolders, List.mem_filter, mem_rootItems]
  simp

theorem nodup_rootItems (userId : Uuid) (sys : System) : (rootItems userId sys).Nodup :=
  (List.perm_insertionSort _ _).nodup_iff.mpr (sys.db.items.nodup.of_map.filter _)

theorem nodup_rootFiles (userId : Uuid) (sys : System) : (rootFiles userId sys).Nodup :=
  (nodup_rootItems userId sys).filter _

omit [Platform] in
/-- Inserting keeps the folders in front of the files. -/
theorem folders_first_insert {item : DriveItem} : ∀ {items : List DriveItem},
    items.Pairwise (fun left right => left.itemType = .file → right.itemType = .file) →
    (items.orderedInsert (fun left right => sortsBefore .name .asc left right = true)
      item).Pairwise (fun left right => left.itemType = .file → right.itemType = .file)
  | [], _ => by simp
  | first :: rest, sorted => by
      rw [List.pairwise_cons] at sorted
      rw [List.orderedInsert]
      split_ifs with before
      · rw [List.pairwise_cons]
        refine ⟨?_, List.pairwise_cons.mpr sorted⟩
        intro other member isFile
        have firstFile : first.itemType = .file := by
          by_contra isFolder
          simp [sortsBefore, isFile, Ne.symm isFolder] at before
        rcases List.mem_cons.mp member with rfl | later
        · exact firstFile
        · exact sorted.1 other later firstFile
      · rw [List.pairwise_cons]
        refine ⟨?_, folders_first_insert sorted.2⟩
        intro other member isFile
        rcases List.mem_cons.mp ((List.perm_orderedInsert _ item rest).mem_iff.mp member) with
          rfl | later
        · cases kind : other.itemType with
          | file => rfl
          | folder => simp [sortsBefore, isFile, kind] at before
        · exact sorted.1 other later isFile

theorem folders_first (userId : Uuid) (sys : System) : (rootItems userId sys).Pairwise
    fun left right => left.itemType = .file → right.itemType = .file := by
  rw [rootItems]
  generalize children sys.db none userId = items
  induction items with
  | nil => exact .nil
  | cons first rest induction => exact folders_first_insert induction

/-- The page of the listing that the skill reads. -/
def page (userId : Uuid) (sys : System) : List DriveItem :=
  (rootItems userId sys).take 200

/-- The files of a list. -/
def filesOf (items : List DriveItem) : List DriveItem :=
  items.filter fun item => decide (item.itemType = .file)

/-- Where the root does not fit, one of its files is not on the page. -/
theorem exists_off_page (some : rootFiles userId sys ≠ [])
    (long : 200 < (rootItems userId sys).length) :
    ∃ file ∈ rootFiles userId sys, file ∉ page userId sys := by
  rcases List.exists_mem_of_ne_nil _ some with ⟨file, isFile⟩
  by_cases onPage : file ∈ page userId sys
  · have split := List.take_append_drop 200 (rootItems userId sys)
    have order := folders_first userId sys
    have nodup := nodup_rootItems userId sys
    rw [← split, List.pairwise_append] at order
    rw [← split, List.nodup_append] at nodup
    have nonempty : (rootItems userId sys).drop 200 ≠ [] := by
      rw [ne_eq, List.drop_eq_nil_iff]
      omega
    rcases List.exists_mem_of_ne_nil _ nonempty with ⟨later, isLater⟩
    refine ⟨later, ?_, fun inPage => nodup.2.2 later inPage later isLater rfl⟩
    refine List.mem_filter.mpr ⟨List.mem_of_mem_drop isLater, ?_⟩
    exact decide_eq_true (order.2.2 file onPage later isLater (mem_rootFiles.mp isFile).2)
  · exact ⟨file, isFile, onPage⟩

/-- Where the root fits, the page has all of its files, and all of its folders if a file
needs one. -/
theorem page_of_paged
    (paged : rootFiles userId sys = [] ∨ (rootItems userId sys).length ≤ 200) :
    filesOf (page userId sys) = rootFiles userId sys ∧
      (rootFiles userId sys ≠ [] → page userId sys = rootItems userId sys) := by
  rcases paged with none | fits
  · constructor
    · rw [none, filesOf, List.filter_eq_nil_iff]
      intro item member isFile
      have among : item ∈ rootFiles userId sys :=
        List.mem_filter.mpr ⟨List.mem_of_mem_take member, isFile⟩
      rw [none] at among
      cases among
    · exact fun some => absurd none some
  · have whole : page userId sys = rootItems userId sys := List.take_of_length_le fits
    exact ⟨by rw [whole]; rfl, fun _ => whole⟩

end Listing

/-! ## One file -/

section Steps

variable [Platform] {userId : Uuid} {sys now middle after : System}
  {folders next : Folders} {folderId : Uuid} {name : String}

/-- The folder of a name is known, or it is created in the root. -/
theorem folderFor_ok (runs : folderFor userId name folders now = .ok (next, folderId, middle)) :
    (folders.lookup name = some folderId ∧ next = folders ∧ middle = now) ∨
      (folders.lookup name = none ∧ next = (name, folderId) :: folders ∧
        folderId = now.uuid4 ∧ middle.now = now.now ∧ ∃ accepted,
          validateName name = .ok accepted ∧
          nameExistsInParent now.db.items accepted none userId none = .ok false ∧
          ∀ row, row ∈ middle.db.items ↔
            row ∈ now.db.items ∨ row = newItem now userId none .folder accepted userId) := by
  rw [folderFor] at runs
  cases found : folders.lookup name with
  | some known =>
      simp only [found, Except.ok.injEq, Prod.mk.injEq] at runs
      rcases runs with ⟨rfl, rfl, rfl⟩
      exact .inl ⟨rfl, rfl, rfl⟩
  | none =>
      simp only [found, bind_eq_ok, pure_eq_ok, Prod.exists, Prod.mk.injEq] at runs
      rcases runs with ⟨item, state, created, rfl, rfl, rfl⟩
      rcases createFolder_created created with ⟨accepted, valid, _, free, rfl, clock, rows⟩
      exact .inr ⟨rfl, rfl, rfl, clock, accepted, valid, free, rows⟩

theorem folderFor_rows (runs : folderFor userId name folders now = .ok (next, folderId, middle))
    {row : DriveItem} (member : row ∈ now.db.items) : row ∈ middle.db.items := by
  rcases folderFor_ok runs with ⟨_, _, rfl⟩ | ⟨_, _, _, _, _, _, _, rows⟩
  · exact member
  · exact (rows row).mpr (.inl member)

/-- A move rewrites one row. -/
theorem move_replaced {itemId : Uuid} {target : Option Uuid}
    (runs : move userId itemId target now = .ok after) :
    after.now = now.now ∧ ∃ item ∈ now.db.items, item.id = itemId ∧
      ItemTable.Replaced now.db.items after.db.items item (reparented now target userId item) := by
  rcases move_ok runs with ⟨item, editable, rfl, _, items, changed, rfl⟩
  exact ⟨rfl, item, editable.member, rfl, ItemTable.change_replaced editable.member rfl changed⟩

theorem getPermission_own {item : DriveItem} (owned : item.ownerId = userId) :
    PermissionService.getPermission now.db userId item = .ok (some .owner) := by
  rw [PermissionService.getPermission, PermissionService.walk, if_pos owned]

theorem assertCanEdit_own {item : DriveItem} (owned : item.ownerId = userId) :
    PermissionService.assertCanEdit now.db userId item = .ok () := by
  have enough : hasAtLeast (some .owner) .editor = true := by decide
  simp [PermissionService.assertCanEdit, getPermission_own owned, enough]

/-- An own file can be moved into an own folder that has no such name in lower case. -/
theorem move_succeeds {file folder : DriveItem} (fileMem : file ∈ now.db.items)
    (fileOwned : file.ownerId = userId) (fileLive : file.isDeleted = false)
    (isFile : file.itemType = .file) (folderMem : folder ∈ now.db.items)
    (folderOwned : folder.ownerId = userId) (folderLive : folder.isDeleted = false)
    (isFolder : folder.itemType = .folder)
    (free : ∀ other ∈ now.db.items, other.ownerId = userId → other.isDeleted = false →
      other.parentId = some folder.id → other.id ≠ file.id →
      Platform.lower other.name ≠ Platform.lower file.name) :
    ∃ after, move userId file.id (some folder.id) now = .ok after := by
  have found : getEditable file.id userId now = .ok file := by
    simp [getEditable, ItemTable.find?_id fileMem, fileLive, assertCanEdit_own fileOwned, orRaise]
  have target : moveTarget userId file folder.id now = .ok () := by
    simp [moveTarget, destination, ItemTable.find?_id folderMem, folderLive, isFolder, isFile,
      assertCanEdit_own folderOwned, orRaise]
  have noSibling : sameName now.db.items file.name (some folder.id) userId (some file.id) = [] := by
    rw [sameName, List.filter_eq_nil_iff]
    intro other member selected
    simp only [decide_eq_true_eq] at selected
    rcases selected with ⟨owned, live, named, there, different⟩
    refine free other member owned live there ?_ (congrArg Platform.lower named)
    exact fun same => different (congrArg some same.symm)
  have taken : nameExistsInParent now.db.items file.name (some folder.id) userId (some file.id) =
      .ok false := by
    rw [nameExistsInParent, noSibling]
  have rewritten : ∃ items, now.db.items.change file.id
      (reparented now (some folder.id) userId) = .ok items := by
    apply (ItemTable.change_taken fileMem rfl).mpr
    refine ⟨now.db.items.fits file fileMem, ?_, ?_⟩
    · rintro other member different ⟨live, _, owned, _, there, sameLower⟩
      exact free other member (owned.trans fileOwned) live there different sameLower
    · intro top isTop
      cases isTop
      exact List.mem_map_of_mem folderMem
  rcases rewritten with ⟨items, changed⟩
  exact ⟨now.withItems items, by simp [move, found, target, taken, updateParent, changed]⟩

/-- A folder whose name no live item of the root has can be created there. -/
theorem createFolder_succeeds (valid : validateName name = .ok name)
    (free : ∀ other ∈ now.db.items, other.ownerId = userId → other.isDeleted = false →
      other.parentId = none → other.name ≠ name) :
    ∃ folder after, createFolder userId none name now = .ok (folder, after) := by
  have noSibling : sameName now.db.items name none userId none = [] := by
    rw [sameName, List.filter_eq_nil_iff]
    intro other member selected
    simp only [decide_eq_true_eq] at selected
    exact free other member selected.1 selected.2.1 selected.2.2.2.1 selected.2.2.1
  have taken : nameExistsInParent now.db.items name none userId none = .ok false := by
    rw [nameExistsInParent, noSibling]
  have added : ∃ items, now.db.items.add (newItem now userId none .folder name userId) =
      .ok items := by
    apply flush_eq_ok_iff.mpr
    apply (ItemTable.consistent_append now.uuid4_unused.items).mpr
    refine ⟨⟨(checkName_ok valid).2.short, by simp [newItem], by simp [newItem]⟩, ?_, ?_⟩
    · rintro old _ ⟨_, _, _, nested, sameParent, _⟩
      exact nested sameParent
    · simp [newItem]
  rcases added with ⟨items, added⟩
  refine ⟨newItem now userId none .folder name userId, now.drawn.withItems items, ?_⟩
  simp [createFolder, valid, whenSome, taken, DriveItemRepository.create, added]

end Steps

/-! ## The loop -/

section Loop

variable [Platform] [Collation] [CaseMapping] {userId : Uuid} {sys now middle after : System}
  {folders next : Folders} {folderId : Uuid} {name : String}

/-- The files `done` of `sys` have been moved, and `folders` knows the folders in use. -/
structure Organizing (userId : Uuid) (sys : System) (done : List DriveItem) (folders : Folders)
    (now : System) : Prop where
  among : ∀ file ∈ done, file ∈ rootFiles userId sys
  clock : now.now = sys.now
  kept : ∀ row ∈ sys.db.items, row ∉ done → row ∈ now.db.items
  moved : ∀ file ∈ done, ∃ folderId, folders.lookup (folderName file) = some folderId ∧
    reparented sys (some folderId) userId file ∈ now.db.items
  rows : ∀ row ∈ now.db.items, (row ∈ sys.db.items ∧ row ∉ done) ∨
    (∃ file ∈ done, ∃ folderId, folders.lookup (folderName file) = some folderId ∧
      row = reparented sys (some folderId) userId file) ∨
    ∃ name, folders.lookup name = some row.id
  folder : ∀ name folderId, folders.lookup name = some folderId → ∃ folder ∈ now.db.items,
    folder.id = folderId ∧ folder.ownerId = userId ∧ folder.isDeleted = false ∧
    folder.itemType = .folder ∧ folder.parentId = none ∧
    ((folder ∈ sys.db.items ∧ folder.name = name) ∨
      ((∀ old ∈ sys.db.items, old.id ≠ folderId) ∧ Lacks userId sys name ∧
        validateName name = .ok folder.name))
  known : ∀ folder ∈ rootFolders userId sys, folders.lookup folder.name = some folder.id
  distinct : ∀ left right folderId, folders.lookup left = some folderId →
    folders.lookup right = some folderId → left = right

variable {done : List DriveItem} {file : DriveItem}

theorem Organizing.exists_row (state : Organizing userId sys done folders now) {old : DriveItem}
    (member : old ∈ sys.db.items) : ∃ row ∈ now.db.items, row.id = old.id := by
  by_cases isDone : old ∈ done
  · rcases state.moved old isDone with ⟨folderId, _, isRow⟩
    exact ⟨_, isRow, rfl⟩
  · exact ⟨old, state.kept old member isDone, rfl⟩

/-- The folder that is looked up or created is known from then on. -/
theorem Organizing.withFolder (state : Organizing userId sys done folders now)
    (runs : folderFor userId name folders now = .ok (next, folderId, middle)) :
    Organizing userId sys done next middle ∧ next.lookup name = some folderId ∧
      ∀ other id, folders.lookup other = some id → next.lookup other = some id := by
  rcases folderFor_ok runs with ⟨found, rfl, rfl⟩ |
    ⟨missing, rfl, isId, clock, accepted, valid, free, rows⟩
  · exact ⟨state, found, fun _ _ known => known⟩
  · have carried : ∀ other id, folders.lookup other = some id →
        List.lookup other ((name, folderId) :: folders) = some id := by
      intro other id known
      rw [lookup_cons_of_ne, known]
      rintro rfl
      rw [missing] at known
      cases known
    have unused : ∀ row ∈ now.db.items, row.id ≠ folderId := by
      rw [isId]
      exact now.uuid4_unused.items
    refine ⟨?_, List.lookup_cons_self, carried⟩
    constructor
    case among => exact state.among
    case clock => exact clock.trans state.clock
    case kept =>
      exact fun row member notDone => (rows row).mpr (.inl (state.kept row member notDone))
    case moved =>
      intro earlier member
      rcases state.moved earlier member with ⟨id, known, isRow⟩
      exact ⟨id, carried _ id known, (rows _).mpr (.inl isRow)⟩
    case rows =>
      intro row member
      rcases (rows row).mp member with old | rfl
      · rcases state.rows row old with initial | ⟨earlier, isDone, id, known, isRow⟩ | ⟨key, known⟩
        · exact .inl initial
        · exact .inr (.inl ⟨earlier, isDone, id, carried _ id known, isRow⟩)
        · exact .inr (.inr ⟨key, carried key _ known⟩)
      · refine .inr (.inr ⟨name, ?_⟩)
        rw [List.lookup_cons_self, isId]
        rfl
    case folder =>
      intro other id known
      by_cases same : other = name
      · subst same
        rw [List.lookup_cons_self] at known
        cases known
        refine ⟨_, (rows _).mpr (.inr rfl), isId.symm, rfl, rfl, rfl, rfl, .inr ⟨?_, ?_, valid⟩⟩
        · intro old isOld
          rcases state.exists_row isOld with ⟨row, isRow, sameId⟩
          exact sameId ▸ unused row isRow
        · intro folder isFolder named
          have known := state.known folder isFolder
          rw [named, missing] at known
          cases known
      · rw [lookup_cons_of_ne same] at known
        rcases state.folder other id known with ⟨folder, isRow, facts⟩
        exact ⟨folder, (rows folder).mpr (.inl isRow), facts⟩
    case known => exact fun folder isFolder => carried _ _ (state.known folder isFolder)
    case distinct =>
      have notNew : ∀ other, other ≠ name →
          List.lookup other ((name, folderId) :: folders) ≠ some folderId := by
        intro other different known
        rw [lookup_cons_of_ne different] at known
        rcases state.folder other folderId known with ⟨folder, isRow, sameId, _⟩
        exact unused folder isRow sameId
      intro left right id leftKnown rightKnown
      by_cases leftNew : left = name <;> by_cases rightNew : right = name
      · exact leftNew.trans rightNew.symm
      · subst leftNew
        rw [List.lookup_cons_self] at leftKnown
        cases leftKnown
        exact absurd rightKnown (notNew right rightNew)
      · subst rightNew
        rw [List.lookup_cons_self] at rightKnown
        cases rightKnown
        exact absurd leftKnown (notNew left leftNew)
      · rw [lookup_cons_of_ne leftNew] at leftKnown
        rw [lookup_cons_of_ne rightNew] at rightKnown
        exact state.distinct left right id leftKnown rightKnown

/-- The file is moved into the folder of its extension. -/
theorem Organizing.withFile (state : Organizing userId sys done folders now)
    (isFile : file ∈ rootFiles userId sys) (isNew : file ∉ done)
    (known : folders.lookup (folderName file) = some folderId)
    (runs : move userId file.id (some folderId) now = .ok after) :
    Organizing userId sys (file :: done) folders after := by
  rcases mem_rootFiles.mp isFile with ⟨⟨initial, _, _, _⟩, kind⟩
  have isRow : file ∈ now.db.items := state.kept file initial isNew
  rcases move_replaced runs with ⟨clock, item, isItem, sameId, replaced⟩
  cases ItemTable.eq_of_id_eq isItem isRow sameId
  have sameTime : reparented now (some folderId) userId file =
      reparented sys (some folderId) userId file := by
    rw [reparented, reparented, state.clock]
  rw [sameTime] at replaced
  have apart : ∀ old ∈ sys.db.items, old ≠ file → old.id ≠ file.id := by
    intro old isOld different same
    exact different (ItemTable.eq_of_id_eq isOld initial same)
  constructor
  case among =>
    intro other member
    rcases List.mem_cons.mp member with rfl | isDone
    · exact isFile
    · exact state.among other isDone
  case clock => exact clock.trans state.clock
  case kept =>
    intro row member notDone
    rw [List.mem_cons, not_or] at notDone
    exact (replaced.rows row).mpr (.inr ⟨state.kept row member notDone.2,
      apart row member notDone.1⟩)
  case moved =>
    intro other member
    rcases List.mem_cons.mp member with rfl | isDone
    · exact ⟨folderId, known, (replaced.rows _).mpr (.inl rfl)⟩
    · rcases state.moved other isDone with ⟨id, otherKnown, otherRow⟩
      have otherMem := (mem_rootFiles.mp (state.among other isDone)).1.1
      have different : other.id ≠ file.id := apart other otherMem fun same => isNew (same ▸ isDone)
      exact ⟨id, otherKnown, (replaced.rows _).mpr (.inr ⟨otherRow, different⟩)⟩
  case rows =>
    intro row member
    rcases (replaced.rows row).mp member with rfl | ⟨old, different⟩
    · exact .inr (.inl ⟨file, List.mem_cons_self, folderId, known, rfl⟩)
    · rcases state.rows row old with
        ⟨isOld, notDone⟩ | ⟨other, isDone, id, otherKnown, same⟩ | named
      · refine .inl ⟨isOld, ?_⟩
        rw [List.mem_cons, not_or]
        exact ⟨fun same => different (congrArg DriveItem.id same), notDone⟩
      · exact .inr (.inl ⟨other, List.mem_cons_of_mem _ isDone, id, otherKnown, same⟩)
      · exact .inr (.inr named)
  case folder =>
    intro other id otherKnown
    rcases state.folder other id otherKnown with
      ⟨folder, folderRow, sameId, owned, live, isFolder, rest⟩
    refine ⟨folder, (replaced.rows folder).mpr (.inr ⟨folderRow, ?_⟩), sameId, owned, live,
      isFolder, rest⟩
    intro same
    rw [ItemTable.eq_of_id_eq folderRow isRow same, kind] at isFolder
    cases isFolder
  case known => exact state.known
  case distinct => exact state.distinct

omit [Collation] in
/-- The loop does nothing for a folder. -/
theorem organizeEach_files : ∀ (items : List DriveItem) (folders : Folders) (moved : Nat)
    (used : List String) (now : System), organizeEach userId items folders moved used now =
      organizeEach userId (filesOf items) folders moved used now
  | [], _, _, _, _ => rfl
  | item :: rest, folders, moved, used, now => by
      cases kind : item.itemType with
      | folder =>
          rw [organizeEach, filesOf, List.filter_cons_of_neg (by simp [kind])]
          simp only [kind, ne_eq, reduceCtorEq, not_false_eq_true, if_true]
          exact organizeEach_files rest folders moved used now
      | file =>
          rw [organizeEach, filesOf, List.filter_cons_of_pos (by simp [kind]), organizeEach]
          simp only [kind, ne_eq, not_true_eq_false, if_false]
          congr 1
          funext placed
          congr 1
          funext after
          exact organizeEach_files rest _ _ _ _

omit [Collation] in
theorem organizeEach_cons {rest : List DriveItem} {moved : Nat} {used : List String}
    {result : Summary × System} (kind : file.itemType = .file) :
    organizeEach userId (file :: rest) folders moved used now = .ok result ↔
      ∃ next folderId middle after,
        folderFor userId (folderName file) folders now = .ok (next, folderId, middle) ∧
        move userId file.id (some folderId) middle = .ok after ∧
        organizeEach userId rest next (moved + 1) (used.insert (folderName file)) after =
          .ok result := by
  rw [organizeEach]
  simp [kind]

omit [Collation] in
/-- What is not in the list stays as it is. -/
theorem organizeEach_keeps {row : DriveItem} : ∀ {files : List DriveItem} {folders : Folders}
    {moved : Nat} {used : List String} {now after : System} {summary : Summary},
    (∀ file ∈ files, file.itemType = .file ∧ file.id ≠ row.id) →
    organizeEach userId files folders moved used now = .ok (summary, after) →
    row ∈ now.db.items → row ∈ after.db.items
  | [], _, _, _, _, _, _, _, runs, member => by
      cases runs
      exact member
  | file :: rest, folders, moved, used, now, after, summary, others, runs, member => by
      rcases others file List.mem_cons_self with ⟨kind, different⟩
      rcases (organizeEach_cons kind).mp runs with
        ⟨next, folderId, middle, placed, ensured, moves, later⟩
      apply organizeEach_keeps (fun other isLater => others other (List.mem_cons_of_mem _ isLater))
        later
      rcases move_replaced moves with ⟨_, item, _, sameId, replaced⟩
      refine (replaced.rows row).mpr (.inr ⟨folderFor_rows ensured member, ?_⟩)
      rw [sameId]
      exact Ne.symm different

omit [CaseMapping] in
/-- Without the first file the rest is still to be moved. -/
theorem pending_next {first : DriveItem} {others : List DriveItem}
    (nodup : (first :: others).Nodup)
    (pending : ∀ file ∈ first :: others, file ∈ rootFiles userId sys ∧ file ∉ done) :
    ∀ file ∈ others, file ∈ rootFiles userId sys ∧ file ∉ first :: done := by
  intro file member
  rcases pending file (List.mem_cons_of_mem _ member) with ⟨isOther, notDone⟩
  refine ⟨isOther, ?_⟩
  rw [List.mem_cons, not_or]
  exact ⟨fun same => (List.nodup_cons.mp nodup).1 (same ▸ member), notDone⟩

/-- The rest of the loop, and what the first file of a missing folder has met. -/
theorem Organizing.run : ∀ {files done : List DriveItem} {folders : Folders} {moved : Nat}
    {used : List String} {now after : System} {summary : Summary},
    Organizing userId sys done folders now → files.Nodup →
    (∀ file ∈ files, file ∈ rootFiles userId sys ∧ file ∉ done) →
    organizeEach userId files folders moved used now = .ok (summary, after) →
    ∃ final, Organizing userId sys (files.reverse ++ done) final after ∧
      ∀ before file rest, files = before ++ file :: rest →
        (∀ earlier ∈ before, folderName earlier ≠ folderName file) →
        folders.lookup (folderName file) = none →
        ∃ accepted, validateName (folderName file) = .ok accepted ∧
          ∀ later ∈ file :: rest, later.name ≠ accepted
  | [], done, folders, moved, used, now, after, summary, state, _, _, runs => by
      cases runs
      refine ⟨folders, state, ?_⟩
      intro before file rest split
      cases before <;> cases split
  | first :: others, done, folders, moved, used, now, after, summary, state, nodup, pending,
      runs => by
      rcases pending first List.mem_cons_self with ⟨isFile, isNew⟩
      rcases (organizeEach_cons (mem_rootFiles.mp isFile).2).mp runs with
        ⟨next, folderId, middle, placed, ensured, moves, later⟩
      rcases state.withFolder ensured with ⟨foldered, known, _⟩
      have filed := foldered.withFile isFile isNew known moves
      rcases Organizing.run filed (List.nodup_cons.mp nodup).2 (pending_next nodup pending)
        later with ⟨final, finished, firsts⟩
      refine ⟨final, ?_, ?_⟩
      · rw [List.reverse_cons, List.append_assoc]
        exact finished
      · intro before file rest split earlier missing
        cases before with
        | nil =>
            cases split
            rcases folderFor_ok ensured with ⟨found, _⟩ |
              ⟨_, _, _, _, accepted, valid, free, _⟩
            · rw [missing] at found
              cases found
            · refine ⟨accepted, valid, ?_⟩
              intro other isOther named
              rcases pending other isOther with ⟨otherFile, notDone⟩
              rcases (mem_rootFiles.mp otherFile).1 with ⟨initial, owned, live, there⟩
              cases nameExists_free free (state.kept other initial notDone) owned live named there
        | cons head front =>
            rcases List.cons_eq_cons.mp split with ⟨rfl, tail⟩
            apply firsts front file rest tail
            · exact fun other member => earlier other (List.mem_cons_of_mem _ member)
            · have different := earlier first List.mem_cons_self
              rcases folderFor_ok ensured with ⟨_, rfl, _⟩ | ⟨_, rfl, _⟩
              · exact missing
              · rw [lookup_cons_of_ne (Ne.symm different)]
                exact missing

/-- No live item of the root has the name of a missing folder. -/
theorem Organizing.root_free (state : Organizing userId sys done folders now)
    (named : ∀ other, folders.lookup other ≠ none → Lacks userId sys other →
      validateName other = .ok other)
    (filesFree : ∀ file ∈ rootFiles userId sys, file ∉ done → file.name ≠ name)
    (missing : folders.lookup name = none) {row : DriveItem} (member : row ∈ now.db.items)
    (owned : row.ownerId = userId) (live : row.isDeleted = false) (there : row.parentId = none) :
    row.name ≠ name := by
  intro sameName
  rcases state.rows row member with ⟨initial, notDone⟩ | ⟨_, _, _, _, rfl⟩ | ⟨key, known⟩
  · cases kind : row.itemType with
    | file =>
        have isFile := mem_rootFiles.mpr ⟨⟨initial, owned, live, there⟩, kind⟩
        exact filesFree row isFile notDone sameName
    | folder =>
        have known := state.known row (mem_rootFolders.mpr ⟨⟨initial, owned, live, there⟩, kind⟩)
        rw [sameName, missing] at known
        cases known
  · cases there
  · rcases state.folder key row.id known with ⟨folder, isRow, sameId, _, _, _, _, origin⟩
    cases ItemTable.eq_of_id_eq isRow member sameId
    have sameKey : row.name = key := by
      rcases origin with ⟨_, sameKey⟩ | ⟨_, lacks, valid⟩
      · exact sameKey
      · have used : folders.lookup key ≠ none := by
          rw [known]
          exact Option.some_ne_none _
        exact (Except.ok.inj ((named key used lacks).symm.trans valid)).symm
    rw [← sameKey, sameName, missing] at known
    cases known

/-- The folder of the next file is known or can be created. -/
theorem Organizing.ensures (state : Organizing userId sys done folders now)
    (named : ∀ other, folders.lookup other ≠ none → Lacks userId sys other →
      validateName other = .ok other)
    (creatable : folders.lookup name = none → validateName name = .ok name ∧
      ∀ file ∈ rootFiles userId sys, file ∉ done → file.name ≠ name) :
    ∃ next folderId middle, folderFor userId name folders now = .ok (next, folderId, middle) ∧
      ∀ other, next.lookup other ≠ none → Lacks userId sys other →
        validateName other = .ok other := by
  cases found : folders.lookup name with
  | some folderId => exact ⟨folders, folderId, now, by simp [folderFor, found], named⟩
  | none =>
      rcases creatable found with ⟨valid, filesFree⟩
      rcases createFolder_succeeds valid fun row member owned live there =>
        state.root_free named filesFree found member owned live there with
        ⟨folder, after, created⟩
      refine ⟨(name, folder.id) :: folders, folder.id, after, ?_, ?_⟩
      · simp [folderFor, found, created]
      · intro other used lacks
        by_cases same : other = name
        · rw [same]
          exact valid
        · rw [lookup_cons_of_ne same] at used
          exact named other used lacks

/-- The next file can be moved into its folder. -/
theorem Organizing.moves (state : Organizing userId sys done folders now)
    (isFile : file ∈ rootFiles userId sys) (isNew : file ∉ done)
    (known : folders.lookup (folderName file) = some folderId)
    (free : ∀ folder ∈ rootFolders userId sys, folder.name = folderName file →
      ∀ other ∈ children sys.db (some folder.id) userId,
        Platform.lower other.name ≠ Platform.lower file.name)
    (apart : ∀ old ∈ done, folderName old = folderName file →
      Platform.lower old.name ≠ Platform.lower file.name) :
    ∃ after, move userId file.id (some folderId) now = .ok after := by
  rcases mem_rootFiles.mp isFile with ⟨⟨initial, owned, live, there⟩, kind⟩
  rcases state.folder _ folderId known with
    ⟨folder, isRow, rfl, folderOwned, folderLive, isFolder, inRoot, origin⟩
  apply move_succeeds (state.kept file initial isNew) owned live kind isRow folderOwned folderLive
    isFolder
  intro other member otherOwned otherLive inside _
  rcases state.rows other member with
    ⟨isOld, _⟩ | ⟨old, isDone, id, oldKnown, rfl⟩ | ⟨key, keyKnown⟩
  · rcases origin with ⟨folderInitial, sameName⟩ | ⟨fresh, _⟩
    · exact free folder (mem_rootFolders.mpr
        ⟨⟨folderInitial, folderOwned, folderLive, inRoot⟩, isFolder⟩) sameName other
        (mem_children.mpr ⟨isOld, otherOwned, otherLive, inside⟩)
    · rcases ItemTable.parent_mem isOld inside with ⟨parent, isParent, sameId⟩
      exact absurd sameId (fresh parent isParent)
  · have sameId : id = folder.id := Option.some.inj inside
    rw [sameId] at oldKnown
    exact apart old isDone (state.distinct _ _ _ oldKnown known)
  · rcases state.folder key other.id keyKnown with ⟨named, namedRow, sameId, _, _, _, atRoot, _⟩
    cases ItemTable.eq_of_id_eq namedRow member sameId
    rw [atRoot] at inside
    cases inside

/-- The files that are still to be moved, and what makes their moves possible. -/
structure Remaining (userId : Uuid) (sys : System) (done : List DriveItem) (folders : Folders)
    (files : List DriveItem) : Prop where
  nodup : files.Nodup
  pending : ∀ file ∈ files, file ∈ rootFiles userId sys ∧ file ∉ done
  covers : ∀ file ∈ rootFiles userId sys, file ∈ done ∨ file ∈ files
  named : ∀ other, folders.lookup other ≠ none → Lacks userId sys other →
    validateName other = .ok other
  creatable : ∀ before file rest, files = before ++ file :: rest →
    (∀ earlier ∈ before, folderName earlier ≠ folderName file) →
    folders.lookup (folderName file) = none →
    validateName (folderName file) = .ok (folderName file) ∧
      ∀ later ∈ file :: rest, later.name ≠ folderName file
  apartDone : ∀ old ∈ done, ∀ file ∈ files, folderName old = folderName file →
    Platform.lower old.name ≠ Platform.lower file.name
  apart : files.Pairwise fun left right => folderName left = folderName right →
    Platform.lower left.name ≠ Platform.lower right.name

/-- The name of the first remaining file's folder is free while the folder is missing. -/
theorem Remaining.nameFree {others : List DriveItem}
    (remaining : Remaining userId sys done folders (file :: others))
    (missing : folders.lookup (folderName file) = none) :
    validateName (folderName file) = .ok (folderName file) ∧
      ∀ other ∈ rootFiles userId sys, other ∉ done → other.name ≠ folderName file := by
  rcases remaining.creatable [] file others rfl (by simp) missing with ⟨valid, filesFree⟩
  refine ⟨valid, fun other member notDone => filesFree other ?_⟩
  exact (remaining.covers other member).resolve_left notDone

theorem Remaining.afterFirst {others : List DriveItem}
    (remaining : Remaining userId sys done folders (file :: others))
    (known : next.lookup (folderName file) = some folderId)
    (carried : ∀ other id, folders.lookup other = some id → next.lookup other = some id)
    (named : ∀ other, next.lookup other ≠ none → Lacks userId sys other →
      validateName other = .ok other) : Remaining userId sys (file :: done) next others := by
  constructor
  case nodup => exact (List.nodup_cons.mp remaining.nodup).2
  case pending => exact pending_next remaining.nodup remaining.pending
  case covers =>
    intro other member
    rcases remaining.covers other member with isDone | isPending
    · exact .inl (List.mem_cons_of_mem _ isDone)
    · rcases List.mem_cons.mp isPending with rfl | isLater
      · exact .inl List.mem_cons_self
      · exact .inr isLater
  case named => exact named
  case creatable =>
    intro before later rest split earlier missing
    have different : folderName file ≠ folderName later := by
      intro same
      rw [← same, known] at missing
      cases missing
    apply remaining.creatable (file :: before) later rest (by rw [split]; rfl)
    · intro other member
      rcases List.mem_cons.mp member with rfl | isEarlier
      · exact different
      · exact earlier other isEarlier
    · cases found : folders.lookup (folderName later) with
      | none => rfl
      | some id =>
          rw [carried _ id found] at missing
          cases missing
  case apartDone =>
    intro old isDone other member same
    rcases List.mem_cons.mp isDone with rfl | isOld
    · exact (List.pairwise_cons.mp remaining.apart).1 other member same
    · exact remaining.apartDone old isOld other (List.mem_cons_of_mem _ member) same
  case apart => exact (List.pairwise_cons.mp remaining.apart).2

/-- The loop over the rest of the files succeeds. -/
theorem Organizing.succeeds (free : ∀ file ∈ rootFiles userId sys,
      ∀ folder ∈ rootFolders userId sys, folder.name = folderName file →
        ∀ other ∈ children sys.db (some folder.id) userId,
          Platform.lower other.name ≠ Platform.lower file.name) :
    ∀ {files done : List DriveItem} {folders : Folders} {moved : Nat} {used : List String}
      {now : System}, Organizing userId sys done folders now →
    Remaining userId sys done folders files →
    ∃ result, organizeEach userId files folders moved used now = .ok result
  | [], _, _, _, _, _, _, _ => ⟨_, rfl⟩
  | first :: others, done, folders, moved, used, now, state, remaining => by
      rcases remaining.pending first List.mem_cons_self with ⟨isFile, isNew⟩
      rcases state.ensures remaining.named remaining.nameFree with
        ⟨next, folderId, middle, ensured, named⟩
      rcases state.withFolder ensured with ⟨foldered, known, carried⟩
      rcases foldered.moves isFile isNew known (free first isFile) (fun old isDone =>
        remaining.apartDone old isDone first List.mem_cons_self) with ⟨after, moves⟩
      have filed := foldered.withFile isFile isNew known moves
      rcases Organizing.succeeds free filed (remaining.afterFirst known carried named) with
        ⟨result, continues⟩
      exact ⟨result, (organizeEach_cons (mem_rootFiles.mp isFile).2).mpr
        ⟨next, folderId, middle, after, ensured, moves, continues⟩⟩

end Loop

/-! ## When the skill organizes the root -/

theorem mem_foldersOf {items : List DriveItem} {entry : String × Uuid} :
    entry ∈ foldersOf items ↔
      ∃ folder ∈ items, folder.itemType = .folder ∧ (folder.name, folder.id) = entry := by
  rw [foldersOf, List.foldl_flip_cons_eq_append, List.append_nil, List.mem_reverse, List.mem_map]
  simp [and_assoc]

theorem lookup_foldersOf {items : List DriveItem} {name : String} {folderId : Uuid}
    (known : (foldersOf items).lookup name = some folderId) : ∃ folder ∈ items,
    folder.itemType = .folder ∧ folder.name = name ∧ folder.id = folderId := by
  rcases List.lookup_eq_some_iff.mp known with ⟨front, back, split, _⟩
  have member : (name, folderId) ∈ foldersOf items := by simp [split]
  rcases mem_foldersOf.mp member with ⟨folder, among, kind, same⟩
  exact ⟨folder, among, kind, congrArg Prod.fst same, congrArg Prod.snd same⟩

theorem exists_lookup_foldersOf {items : List DriveItem} {folder : DriveItem}
    (member : folder ∈ items) (kind : folder.itemType = .folder) :
    ∃ folderId, (foldersOf items).lookup folder.name = some folderId := by
  apply Option.isSome_iff_exists.mp
  rw [List.lookup_isSome_iff]
  exact ⟨_, mem_foldersOf.mpr ⟨folder, member, kind, rfl⟩, by simp⟩

section Result

variable [Platform] [Collation] [CaseMapping] {userId : Uuid} {sys after : System}
  {summary : Summary}

theorem organizeByType_eq (userId : Uuid) (sys : System) : organizeByType userId sys =
    organizeEach userId (filesOf (page userId sys)) (foldersOf (page userId sys)) 0 [] sys := by
  have listed : listItems userId none 1 200 .name .asc sys =
      .ok (page userId sys, (children sys.db none userId).length) := by
    simp [listItems, whenSome, listChildren, page, rootItems, pure, Except.pure]
  rw [← organizeEach_files, organizeByType, listed]
  rfl

/-- Before the first file the folders of the root are known. -/
theorem Organizing.initial (distinct : DistinctSiblings sys.db.items)
    (whole : page userId sys = rootItems userId sys) :
    Organizing userId sys [] (foldersOf (page userId sys)) sys := by
  have origin : ∀ name folderId, (foldersOf (page userId sys)).lookup name = some folderId →
      ∃ folder ∈ rootFolders userId sys, folder.name = name ∧ folder.id = folderId := by
    intro name folderId known
    rw [whole] at known
    rcases lookup_foldersOf known with ⟨folder, member, kind, named, sameId⟩
    exact ⟨folder, mem_rootFolders.mpr ⟨mem_rootItems.mp member, kind⟩, named, sameId⟩
  constructor
  case among => simp
  case clock => rfl
  case kept => exact fun row member _ => member
  case moved => simp
  case rows => exact fun row member => .inl ⟨member, List.not_mem_nil⟩
  case folder =>
    intro name folderId known
    rcases origin name folderId known with ⟨folder, isFolder, named, sameId⟩
    rcases mem_rootFolders.mp isFolder with ⟨⟨member, owned, live, there⟩, kind⟩
    exact ⟨folder, member, sameId, owned, live, kind, there, .inl ⟨member, named⟩⟩
  case known =>
    intro folder isFolder
    rcases mem_rootFolders.mp isFolder with ⟨facts, kind⟩
    have onPage : folder ∈ page userId sys := by
      rw [whole]
      exact mem_rootItems.mpr facts
    rcases exists_lookup_foldersOf onPage kind with ⟨folderId, known⟩
    rcases origin folder.name folderId known with ⟨other, isOther, named, sameId⟩
    rcases (mem_rootFolders.mp isOther).1 with ⟨member, owned, live, there⟩
    rcases facts with ⟨folderMem, folderOwned, folderLive, folderThere⟩
    have same := distinct other member folder folderMem live folderLive
      (owned.trans folderOwned.symm) (there.trans folderThere.symm) named
    rw [known, ← sameId, same]
  case distinct =>
    intro left right folderId leftKnown rightKnown
    rcases origin left folderId leftKnown with ⟨leftFolder, isLeft, leftName, leftId⟩
    rcases origin right folderId rightKnown with ⟨rightFolder, isRight, rightName, rightId⟩
    have same := ItemTable.eq_of_id_eq (mem_rootFolders.mp isLeft).1.1
      (mem_rootFolders.mp isRight).1.1 (leftId.trans rightId.symm)
    rw [← leftName, ← rightName, same]

/-- A file that is not on the page stays in the root. -/
theorem paged_of_organized (organized : Organized userId sys) :
    rootFiles userId sys = [] ∨ (rootItems userId sys).length ≤ 200 := by
  by_contra neither
  rw [not_or, Nat.not_le] at neither
  rcases exists_off_page neither.1 neither.2 with ⟨file, isFile, offPage⟩
  rcases organized with ⟨summary, after, runs, noFile, _⟩
  rcases mem_rootFiles.mp isFile with ⟨⟨member, owned, live, there⟩, kind⟩
  rw [organizeByType_eq] at runs
  have stays : file ∈ after.db.items := by
    apply organizeEach_keeps _ runs member
    intro other isOther
    rcases List.mem_filter.mp isOther with ⟨onPage, isKind⟩
    refine ⟨by simpa using isKind, ?_⟩
    intro sameId
    have otherMem := (mem_rootItems.mp (List.mem_of_mem_take onPage)).1
    rw [ItemTable.eq_of_id_eq otherMem member sameId] at onPage
    exact offPage onPage
  have remains := mem_rootFiles.mpr ⟨⟨stays, owned, live, there⟩, kind⟩
  rw [noFile] at remains
  cases remains

omit [Platform] [Collation] in
/-- The first file of the list with the folder of a file. -/
theorem exists_first {files : List DriveItem} {file : DriveItem} (member : file ∈ files) :
    ∃ before first rest, files = before ++ first :: rest ∧
      folderName first = folderName file ∧
      ∀ earlier ∈ before, folderName earlier ≠ folderName file := by
  have found : (files.find? fun other => decide (folderName other = folderName file)).isSome := by
    rw [List.find?_isSome]
    exact ⟨file, member, by simp⟩
  rcases Option.isSome_iff_exists.mp found with ⟨first, isFirst⟩
  rcases List.find?_eq_some_iff_append.mp isFirst with ⟨same, before, rest, split, earlier⟩
  exact ⟨before, first, rest, split, by simpa using same, by simpa using earlier⟩

/-- The end of the loop, when every file has been moved and the missing folders have been
created under their names. -/
theorem Organizing.organized {done : List DriveItem} {final : Folders}
    (state : Organizing userId sys done final after)
    (covers : ∀ file, file ∈ done ↔ file ∈ rootFiles userId sys)
    (valid : ∀ file ∈ rootFiles userId sys, Lacks userId sys (folderName file) →
      validateName (folderName file) = .ok (folderName file)) :
    rootFiles userId after = [] ∧
      (∀ file ∈ rootFiles userId sys, ∃ row ∈ after.db.items, row.id = file.id ∧
        row.isDeleted = false ∧ ∃ folder ∈ rootFolders userId after,
          row.parentId = some folder.id ∧ folder.name = folderName file) ∧
      ∀ row ∈ sys.db.items, row ∉ rootFiles userId sys → row ∈ after.db.items := by
  refine ⟨?_, ?_, ?_⟩
  · rw [List.eq_nil_iff_forall_not_mem]
    intro row isFile
    rcases mem_rootFiles.mp isFile with ⟨⟨member, owned, live, there⟩, kind⟩
    rcases state.rows row member with ⟨initial, notDone⟩ | ⟨_, _, _, _, rfl⟩ | ⟨key, known⟩
    · exact notDone ((covers row).mpr (mem_rootFiles.mpr ⟨⟨initial, owned, live, there⟩, kind⟩))
    · cases there
    · rcases state.folder key row.id known with ⟨folder, isRow, sameId, _, _, isFolder, _⟩
      rw [ItemTable.eq_of_id_eq isRow member sameId, kind] at isFolder
      cases isFolder
  · intro file isFile
    rcases state.moved file ((covers file).mpr isFile) with ⟨folderId, known, isRow⟩
    rcases state.folder _ folderId known with
      ⟨folder, folderRow, rfl, owned, live, isFolder, inRoot, origin⟩
    refine ⟨_, isRow, rfl, (mem_rootFiles.mp isFile).1.2.2.1, folder,
      mem_rootFolders.mpr ⟨⟨folderRow, owned, live, inRoot⟩, isFolder⟩, rfl, ?_⟩
    rcases origin with ⟨_, sameName⟩ | ⟨_, lacks, accepted⟩
    · exact sameName
    · exact (Except.ok.inj ((valid file isFile lacks).symm.trans accepted)).symm
  · exact fun row member notFile => state.kept row member fun isDone =>
      notFile ((covers row).mp isDone)

/-- At the start only the folders of the root are known. -/
theorem Organizing.missing {folders : Folders} {name : String}
    (state : Organizing userId sys [] folders sys) (lacks : Lacks userId sys name) :
    folders.lookup name = none := by
  rw [Option.eq_none_iff_forall_ne_some]
  intro folderId known
  rcases state.folder name folderId known with
    ⟨folder, isRow, rfl, owned, live, kind, there, ⟨initial, named⟩ | ⟨fresh, _⟩⟩
  · exact lacks folder (mem_rootFolders.mpr ⟨⟨initial, owned, live, there⟩, kind⟩) named
  · exact fresh folder isRow rfl

/-- What the end of the loop says of the root, when each file has reached the folder of its
extension. -/
theorem Organizing.organizable {done : List DriveItem} {final : Folders}
    (state : Organizing userId sys done final after)
    (covers : ∀ file, file ∈ done ↔ file ∈ rootFiles userId sys)
    (paged : rootFiles userId sys = [] ∨ (rootItems userId sys).length ≤ 200)
    (placed : ∀ file ∈ rootFiles userId sys, ∃ row ∈ after.db.items, row.id = file.id ∧
      row.isDeleted = false ∧ ∃ folder ∈ rootFolders userId after,
        row.parentId = some folder.id ∧ folder.name = folderName file)
    (firsts : ∀ before file rest, rootFiles userId sys = before ++ file :: rest →
      (∀ earlier ∈ before, folderName earlier ≠ folderName file) →
      Lacks userId sys (folderName file) →
      ∃ accepted, validateName (folderName file) = .ok accepted ∧
        ∀ later ∈ file :: rest, later.name ≠ accepted) : Organizable userId sys := by
  have moved : ∀ file ∈ rootFiles userId sys, ∀ folderId,
      final.lookup (folderName file) = some folderId →
      reparented sys (some folderId) userId file ∈ after.db.items := by
    intro file isFile folderId known
    rcases state.moved file ((covers file).mpr isFile) with ⟨other, otherKnown, isRow⟩
    cases known.symm.trans otherKnown
    exact isRow
  constructor
  case paged => exact paged
  case creatable =>
    intro before file rest split earlier lacks
    have isFile : file ∈ rootFiles userId sys := by simp [split]
    rcases firsts before file rest split earlier lacks with ⟨accepted, valid, later⟩
    rcases placed file isFile with ⟨row, isRow, sameId, _, folder, isFolder, inside, named⟩
    rcases state.moved file ((covers file).mpr isFile) with ⟨folderId, known, movedRow⟩
    cases ItemTable.eq_of_id_eq isRow movedRow sameId
    have isTarget : folderId = folder.id := Option.some.inj inside
    rcases state.folder _ folderId known with ⟨other, otherRow, otherId, owned, live, kind, there,
      origin⟩
    cases ItemTable.eq_of_id_eq otherRow (mem_rootFolders.mp isFolder).1.1
      (otherId.trans isTarget)
    rcases origin with ⟨initial, sameName⟩ | ⟨_, _, acceptedName⟩
    · exact absurd sameName (lacks _ (mem_rootFolders.mpr ⟨⟨initial, owned, live, there⟩, kind⟩))
    · rw [named] at acceptedName
      cases acceptedName.symm.trans valid
      exact ⟨valid, later⟩
  case free =>
    intro file isFile folder isFolder named other isOther sameLower
    rcases mem_rootFiles.mp isFile with ⟨⟨member, owned, live, there⟩, _⟩
    rcases mem_children.mp isOther with ⟨otherMem, otherOwned, otherLive, inside⟩
    have known := state.known folder isFolder
    rw [named] at known
    have different : other ≠ file := by
      rintro rfl
      rw [there] at inside
      cases inside
    have stays : other ∈ after.db.items := by
      apply state.kept other otherMem
      intro isDone
      rw [(mem_rootFiles.mp ((covers other).mp isDone)).1.2.2.2] at inside
      cases inside
    have sameId := (SnapshotService.slotsFree_iff after.db.items.nodup).mp
      after.db.items.slotsFree other stays _ (moved file isFile folder.id known)
      ⟨otherLive, live, otherOwned.trans owned.symm, by simp [inside], inside, sameLower⟩
    exact different (ItemTable.eq_of_id_eq otherMem member sameId)
  case apart =>
    apply (nodup_rootFiles userId sys).pairwise_of_forall_ne
    intro left isLeft right isRight different sameFolder sameLower
    rcases mem_rootFiles.mp isLeft with ⟨⟨leftMem, leftOwned, leftLive, _⟩, _⟩
    rcases mem_rootFiles.mp isRight with ⟨⟨rightMem, rightOwned, rightLive, _⟩, _⟩
    rcases state.moved left ((covers left).mpr isLeft) with ⟨folderId, known, leftRow⟩
    have rightRow := moved right isRight folderId (sameFolder ▸ known)
    have sameId := (SnapshotService.slotsFree_iff after.db.items.nodup).mp
      after.db.items.slotsFree _ leftRow _ rightRow
      ⟨leftLive, rightLive, leftOwned.trans rightOwned.symm, by simp [reparented], rfl,
        sameLower⟩
    exact different (ItemTable.eq_of_id_eq leftMem rightMem sameId)

/-- The page of a root that fits: all of its files, and with a file all of its folders. -/
theorem Organizable.organized (distinct : DistinctSiblings sys.db.items)
    (root : Organizable userId sys) : Organized userId sys := by
  rcases page_of_paged root.paged with ⟨files, folders⟩
  by_cases none : rootFiles userId sys = []
  · refine ⟨{ movedFiles := 0, folders := [] }, sys, ?_, none, ?_, fun _ member _ => member⟩
    · rw [organizeByType_eq, files, none]
      rfl
    · simp [none]
  · have state := Organizing.initial distinct (folders none)
    have lacking : ∀ name, (foldersOf (page userId sys)).lookup name = .none →
        Lacks userId sys name := by
      intro name missing folder isFolder named
      have known := state.known folder isFolder
      rw [named, missing] at known
      cases known
    have remaining : Remaining userId sys [] (foldersOf (page userId sys))
        (rootFiles userId sys) := by
      constructor
      case nodup => exact nodup_rootFiles userId sys
      case pending => exact fun file member => ⟨member, List.not_mem_nil⟩
      case covers => exact fun file member => .inr member
      case named => exact fun other used lacks => absurd (state.missing lacks) used
      case creatable =>
        exact fun before file rest split earlier missing =>
          root.creatable before file rest split earlier (lacking _ missing)
      case apartDone => simp
      case apart => exact root.apart
    rcases @Organizing.succeeds _ _ _ userId sys root.free _ _ _ 0 [] _ state remaining with
      ⟨⟨summary, after⟩, runs⟩
    rcases Organizing.run state (nodup_rootFiles userId sys)
      (fun file member => ⟨member, List.not_mem_nil⟩) runs with ⟨final, finished, _⟩
    refine ⟨summary, after, by rw [organizeByType_eq, files, runs], ?_⟩
    apply finished.organized (by simp)
    intro file member lacks
    rcases exists_first member with ⟨before, first, rest, split, same, earlier⟩
    rw [← same] at lacks earlier ⊢
    exact (root.creatable before first rest split earlier lacks).1

/-- Under unique sibling names the skill organizes the root exactly when the root fits on
a page, every missing folder can be created under its name and no two names meet in a
folder. -/
theorem organizeByType_organized_iff (distinct : DistinctSiblings sys.db.items) :
    Organized userId sys ↔ Organizable userId sys := by
  constructor
  · intro organized
    have paged := paged_of_organized organized
    rcases page_of_paged paged with ⟨files, folders⟩
    by_cases none : rootFiles userId sys = []
    · refine ⟨paged, ?_, by simp [none], by simp [none]⟩
      intro before file rest split
      simp [none] at split
    · have state := Organizing.initial distinct (folders none)
      rcases organized with ⟨summary, after, runs, _, placed, _⟩
      rw [organizeByType_eq, files] at runs
      rcases Organizing.run state (nodup_rootFiles userId sys)
        (fun file member => ⟨member, List.not_mem_nil⟩) runs with ⟨final, finished, firsts⟩
      apply finished.organizable (by simp) paged placed
      exact fun before file rest split earlier lacks =>
        firsts before file rest split earlier (state.missing lacks)
  · exact Organizable.organized distinct

end Result

/-! ## A root that fits and one that does not -/

section Examples

attribute [local instance] smallPlatform smallCollation

@[reducible] def smallCaseMapping : CaseMapping where
  lower text := String.ofList (text.toList.map Char.toLower)

attribute [local instance] smallCaseMapping

private def looseFiles : List Op :=
  [.createFolder 1 none "pdf-files", .uploadSimple 1 none "b.TXT" [] 0 none]

theorem organizeByType_organized_looseFiles : Organized 1 (afterFirstDay looseFiles) := by
  have distinct : DistinctSiblings (afterFirstDay looseFiles).db.items := by
    have each : ∀ left ∈ (afterFirstDay looseFiles).db.items.rows,
        ∀ right ∈ (afterFirstDay looseFiles).db.items.rows, left.isDeleted = false →
          right.isDeleted = false → left.ownerId = right.ownerId →
          left.parentId = right.parentId → left.name = right.name → left = right := by
      decide +kernel
    exact each
  apply (organizeByType_organized_iff distinct).mpr
  have one : (rootFiles 1 (afterFirstDay looseFiles)).length = 1 := by decide +kernel
  constructor
  case paged => exact .inr (by decide +kernel)
  case creatable =>
    intro before file rest split _ _
    have valid : ∀ file ∈ rootFiles 1 (afterFirstDay looseFiles),
        validateName (folderName file) = .ok (folderName file) ∧ file.name ≠ folderName file := by
      decide +kernel
    rw [split, List.length_append, List.length_cons] at one
    have last : rest = [] := List.eq_nil_of_length_eq_zero (by omega)
    have facts := valid file (by simp [split])
    exact ⟨facts.1, by simpa [last] using facts.2⟩
  case free => decide +kernel
  case apart => decide +kernel

/-- A text file in the root whose name has `number + 1` letters. -/
private def looseFile (number : Nat) : DriveItem where
  id := number
  ownerId := 1
  parentId := none
  itemType := .file
  name := String.ofList (List.replicate (number + 1) 'a')
  mimeType := none
  extension := some "txt"
  sizeBytes := 0
  storageKey := none
  checksumSha256 := none
  isStarred := false
  isDeleted := false
  deletedAt := none
  createdBy := 1
  updatedBy := none
  createdAt := 100
  updatedAt := 100

private theorem mem_looseFiles {row : DriveItem}
    (member : row ∈ (List.range 201).map looseFile) : ∃ number < 201, looseFile number = row := by
  rcases List.mem_map.mp member with ⟨number, inRange, same⟩
  exact ⟨number, List.mem_range.mp inRange, same⟩

private def crowdedTable : ItemTable where
  rows := (List.range 201).map looseFile
  nodup := by
    rw [List.map_map]
    exact (List.map_id (List.range 201)).symm ▸ List.nodup_range
  fits := by
    intro row member
    rcases mem_looseFiles member with ⟨number, small, rfl⟩
    have short : (looseFile number).name.length = number + 1 := by simp [looseFile]
    have shortExtension : "txt".length ≤ 50 := by decide
    exact ⟨by omega, by simp [looseFile], by simpa [looseFile] using shortExtension⟩
  slotsFree := by
    apply List.pairwise_map.mpr
    apply List.pairwise_of_forall
    rintro left right ⟨_, _, _, nested, _⟩
    exact nested rfl
  parentsExist := by
    intro row member top isParent
    rcases mem_looseFiles member with ⟨number, _, rfl⟩
    cases isParent

private def crowdedRoot : System := firstDay.withItems crowdedTable

/-- One of 201 files stays in the root. -/
theorem organizeByType_leaves_file :
    DistinctSiblings crowdedRoot.db.items ∧ ¬ Organized 1 crowdedRoot := by
  constructor
  · intro left leftMem right rightMem _ _ _ _ sameName
    rcases mem_looseFiles leftMem with ⟨first, _, rfl⟩
    rcases mem_looseFiles rightMem with ⟨second, _, rfl⟩
    have lengths := congrArg String.length sameName
    simp [looseFile] at lengths
    rw [lengths]
  · intro organized
    have live : children crowdedRoot.db none 1 = (List.range 201).map looseFile := by
      apply List.filter_eq_self.mpr
      intro row member
      rcases mem_looseFiles member with ⟨number, _, rfl⟩
      simp [looseFile]
    have size : (rootItems 1 crowdedRoot).length = 201 := by
      rw [rootItems, List.length_insertionSort, live]
      simp
    have isFile : looseFile 0 ∈ rootFiles 1 crowdedRoot := by
      refine mem_rootFiles.mpr ⟨⟨?_, rfl, rfl, rfl⟩, rfl⟩
      exact List.mem_map_of_mem (List.mem_range.mpr (by omega))
    rcases paged_of_organized organized with none | fits
    · rw [none] at isFile
      cases isFile
    · omega

end Examples

end OrganizeByType

end CloudDrive
