import CloudDrive.Download
import CloudDrive.Permission.Resolution

/-! # The walk of an archive

`_collect_folder` packs the files that the pages of the folders show. For whoever may
download the folder, no file on the way is refused. -/

namespace CloudDrive

open Outcome Relational Forest Relation DriveItemRepository DriveService

namespace PermissionService

variable [Platform]

/-- The user has at least downloader permission on the item. -/
def CanDownload (db : Database) (userId : Uuid) (item : DriveItem) : Prop :=
  ∃ perm, getPermission db userId item = .ok perm ∧ Permission.downloader.level ≤ levelOf perm

theorem assertCanDownload_ok {db : Database} {userId : Uuid} {item : DriveItem} :
    assertCanDownload db userId item = .ok () ↔ CanDownload db userId item := by
  simp only [assertCanDownload, bind_eq_ok, require_eq_ok, hasAtLeast_iff, CanDownload]

/-- Who may download a folder may download what lies in it. -/
theorem CanDownload.child {db : Database} {userId : Uuid} {folder child : DriveItem}
    (can : CanDownload db userId folder) (acyclic : Acyclic db.items.parentOf)
    (folderMem : folder ∈ db.items) (childMem : child ∈ db.items)
    (hangs : child.parentId = some folder.id) : CanDownload db userId child := by
  rcases can with ⟨lower, runs, enough⟩
  rcases getPermission_resolves acyclic userId with ⟨ends, inherits, _⟩
  rcases ends child childMem with ⟨higher, runsChild, _⟩
  have atLeast := inherits child childMem folder folderMem hangs lower higher runs runsChild
  exact ⟨higher, runsChild, enough.trans atLeast⟩

/-- An owner of an item or of an ancestor may download it. -/
theorem CanDownload.of_owner {db : Database} {userId : Uuid} {item : DriveItem}
    (acyclic : Acyclic db.items.parentOf) (member : item ∈ db.items)
    (owns : OwnsAbove db userId item) : CanDownload db userId item := by
  rcases (getPermission_resolves acyclic userId).1 item member with ⟨perm, runs, resolves⟩
  rw [resolves.owner owns] at runs
  exact ⟨some .owner, runs, by decide⟩

end PermissionService

namespace DriveService

variable {α : Type} {visit : DriveItem → Except ServiceError (List α)}

theorem visitEach_eq_flatMap {found : DriveItem → List α} : ∀ {items : List DriveItem},
    (∀ item ∈ items, visit item = .ok (found item)) →
      visitEach visit items = .ok (items.flatMap found)
  | [], _ => rfl
  | item :: rest, visits => by
      simp only [visitEach, bind_eq_ok, pure_eq_ok, List.flatMap_cons]
      exact ⟨_, visits item List.mem_cons_self, _,
        visitEach_eq_flatMap fun other member => visits other (List.mem_cons_of_mem _ member), rfl⟩

theorem visitEach_append : ∀ (items later : List DriveItem),
    visitEach visit (items ++ later) = (do
      let found ← visitEach visit items
      let rest ← visitEach visit later
      pure (found ++ rest))
  | [], later => by
      simp only [List.nil_append, visitEach, ok_bind]
      cases visitEach visit later <;> rfl
  | item :: rest, later => by
      simp only [List.cons_append, visitEach, visitEach_append rest later, bind_assoc, pure_bind,
        List.append_assoc]

/-- Page by page the loop visits the blocks, each cut out of a listing of its own. -/
theorem visitPages_eq {listings : Nat → List DriveItem} {size length : Nat} (positive : 0 < size)
    (lengths : ∀ offset, (listings offset).length = length) : ∀ {fuel page : Nat},
    length + 1 ≤ fuel + page * size → 0 < fuel →
      visitPages visit (fun offset => DownloadService.listChildrenOf (listings offset) offset size)
          fuel (page * size) =
        visitEach visit ((List.range' page (Blocks.count size length - page)).flatMap fun page =>
          Blocks.block size (listings (page * size)) page)
  | 0, _, _, more => absurd more (Nat.lt_irrefl 0)
  | fuel + 1, page, enough, _ => by
      have isBlock : ((listings (page * size)).drop (page * size)).take size =
          Blocks.block size (listings (page * size)) page := rfl
      have blockLength := Blocks.length_block size (listings (page * size)) page
      have isCount := Blocks.lt_count_iff positive length page
      have isNext := Blocks.lt_count_iff positive length (page + 1)
      rw [lengths] at blockLength
      simp only [visitPages, DownloadService.listChildrenOf, isBlock, lengths]
      by_cases within : page < Blocks.count size length
      · have starts := isCount.mp within
        have nonempty : Blocks.block size (listings (page * size)) page ≠ [] := by
          apply List.ne_nil_of_length_pos
          omega
        have split : Blocks.count size length - page =
            Blocks.count size length - (page + 1) + 1 := by omega
        rw [if_neg nonempty, split, List.range'_succ, List.flatMap_cons, visitEach_append]
        by_cases last : length ≤ page * size +
            (Blocks.block size (listings (page * size)) page).length
        · have noMore : Blocks.count size length - (page + 1) = 0 := by
            rw [Nat.succ_mul] at isNext
            omega
          simp only [if_pos last, noMore, List.range'_zero, List.flatMap_nil, visitEach, ok_bind,
            List.append_nil]
        · have whole : page * size + (Blocks.block size (listings (page * size)) page).length =
              (page + 1) * size := by
            rw [Nat.succ_mul]
            omega
          have further : length + 1 ≤ fuel + (page + 1) * size := by
            rw [Nat.succ_mul]
            omega
          have moreFuel : 0 < fuel := by omega
          have later := visitPages_eq positive lengths further moreFuel
          simp only [DownloadService.listChildrenOf, lengths] at later
          rw [whole] at last
          simp only [whole, if_neg last, later]
      · have beyond : length ≤ page * size := by omega
        have empty : Blocks.block size (listings (page * size)) page = [] := by
          apply List.eq_nil_of_length_eq_zero
          omega
        have none : Blocks.count size length - page = 0 := by omega
        rw [if_pos empty, none, List.range'_zero, List.flatMap_nil, visitEach]

end DriveService

namespace DownloadService

/-! ## Names at the top -/

theorem firstUnused_ok {used : List String} {base suffix name : String} :
    ∀ {fuel i : Nat}, firstUnused used base suffix fuel i = .ok name →
      name ∉ used ∧ ∃ number, name = numberedName base number suffix
  | 0, _, found => by cases found
  | fuel + 1, i, found => by
      simp only [firstUnused] at found
      split at found
      · rename_i unused
        cases found
        exact ⟨unused, i, rfl⟩
      · exact firstUnused_ok found

theorem firstUnused_error {used : List String} {base suffix : String} {error : ServiceError} :
    ∀ {fuel i : Nat}, firstUnused used base suffix fuel i = .error error →
      ∀ round < fuel, numberedName base (i + round) suffix ∈ used
  | 0, _, _, round, short => absurd short (Nat.not_lt_zero round)
  | fuel + 1, i, failed, round, short => by
      simp only [firstUnused] at failed
      split at failed
      · cases failed
      · rename_i taken
        cases round with
        | zero => exact not_not.mp taken
        | succ round =>
            have later := firstUnused_error failed round (Nat.lt_of_succ_lt_succ short)
            rwa [Nat.add_assoc, Nat.add_comm 1] at later

/-- One of the first candidates is unused, as there are more of them than used names. -/
theorem firstUnused_ends (used : List String) (base suffix : String) :
    ∃ name, firstUnused used base suffix (used.length + 1) 1 = .ok name := by
  cases failed : firstUnused used base suffix (used.length + 1) 1 with
  | ok name => exact ⟨name, rfl⟩
  | error error =>
      exfalso
      have taken := firstUnused_error failed
      have distinct : ((List.range (used.length + 1)).map fun round =>
          numberedName base (1 + round) suffix).Nodup := by
        apply List.Nodup.map_on _ List.nodup_range
        intro first _ second _ same
        have numbers := numberedName_inj same
        omega
      have sub : (List.range (used.length + 1)).map (fun round =>
          numberedName base (1 + round) suffix) ⊆ used := by
        intro name member
        rcases List.mem_map.mp member with ⟨round, inRange, rfl⟩
        exact taken round (List.mem_range.mp inRange)
      have fewer := (List.subperm_of_subset distinct sub).length_le
      rw [List.length_map, List.length_range] at fewer
      omega

theorem dedupe_ends (used : List String) (name : String) : ∃ top, dedupe used name = .ok top := by
  rw [dedupe]
  split
  · exact ⟨name, rfl⟩
  · exact firstUnused_ends used _ _

theorem rpartition_chars {name stem ext : String} (splits : rpartition name = some (stem, ext)) :
    (∀ char ∈ stem.toList, char ∈ name.toList) ∧ ∀ char ∈ ext.toList, char ∈ name.toList := by
  rw [rpartition] at splits
  split at splits
  · cases splits
    rw [String.toList_ofList, String.toList_ofList]
    constructor
    · exact fun char member => List.mem_of_mem_take member
    · intro char member
      have within := (List.takeWhile_sublist _).subset (List.mem_reverse.mp member)
      exact List.mem_reverse.mp within
  · cases splits

/-- The name with a number in it. -/
def Numbered (name top : String) : Prop :=
  ∃ base number suffix, top = numberedName base number suffix ∧
    ∀ char ∈ base.toList ++ suffix.toList, char ∈ name.toList ∨ char = '.'

/-- A name is kept when it is new, and numbered otherwise. -/
theorem dedupe_ok {used : List String} {name top : String} (found : dedupe used name = .ok top) :
    top ∉ used ∧ (name ∉ used ∧ top = name ∨ name ∈ used ∧ Numbered name top) := by
  rw [dedupe] at found
  split at found
  · rename_i unused
    cases found
    exact ⟨unused, .inl ⟨unused, rfl⟩⟩
  · rename_i taken
    apply And.intro (firstUnused_ok found).1
    apply Or.inr
    apply And.intro (not_not.mp taken)
    rcases firstUnused_ok found with ⟨_, number, isTop⟩
    refine ⟨_, number, _, isTop, ?_⟩
    intro char member
    cases splits : rpartition name with
    | none =>
        rw [splits] at member
        exact .inl (by simpa using member)
    | some parts =>
        rcases parts with ⟨stem, ext⟩
        rw [splits] at member
        rcases rpartition_chars splits with ⟨stemChars, extChars⟩
        rcases List.mem_append.mp member with inStem | inSuffix
        · exact .inl (stemChars char inStem)
        · rw [String.toList_append, List.mem_append] at inSuffix
          rcases inSuffix with isDot | inExt
          · exact .inr (List.mem_singleton.mp isDot)
          · exact .inl (extChars char inExt)

section Walk

variable [Platform] [Collation] {sys : System} {listings : Listings} {folder : DriveItem}

/-- Every query lists the live children that the owner of the folder owns, in the order of
their names. -/
def ListsChildren (listings : Listings) (db : Database) : Prop :=
  ∀ folder ∈ db.items, ∀ offset, Pages.Listing (sortsBefore .name .asc)
    (children db (some folder.id) folder.ownerId) (listings folder.id offset)

/-- The children that the pages of a folder show, one page after the other. -/
def readChildren (listings : Listings) (db : Database) (folder : DriveItem) : List DriveItem :=
  Pages.readPages folderPage (fun page => listings folder.id (page * folderPage))
    (Blocks.count folderPage (children db (some folder.id) folder.ownerId).length)

omit [Platform] [Collation] in
/-- The item has a blob that exists. -/
def hasBlob (sys : System) (item : DriveItem) : Bool :=
  item.storageKey.any fun key => (sys.storage.find? key).isSome

/-- The files with a blob at or below a child, each with the names on the way. -/
def childFiles (sys : System) (child : DriveItem) (below : List (List String × DriveItem)) :
    List (List String × DriveItem) :=
  if child.itemType = .file then
    if hasBlob sys child then [([child.name], child)] else []
  else
    below.map fun found => (child.name :: found.1, found.2)

/-- The files with a blob that the walk meets. -/
def filesBelow (listings : Listings) (sys : System) :
    Nat → DriveItem → List (List String × DriveItem)
  | 0, _ => []
  | fuel + 1, folder => (readChildren listings sys.db folder).flatMap fun child =>
      childFiles sys child (filesBelow listings sys fuel child)

/-- The arcname of what lies at `names` below `above`. -/
def arcname (above : String) (names : List String) : String :=
  names.foldl (fun path name => path ++ "/" ++ name) above

omit [Collation] in
theorem maybeAdd_none {item : DriveItem} (missing : hasBlob sys item = false) (path : String) :
    maybeAdd sys path item = [] := by
  rw [maybeAdd]
  rw [hasBlob] at missing
  cases isKey : item.storageKey with
  | none => rfl
  | some key =>
      rw [isKey, Option.any_some] at missing
      simp only [missing, Bool.false_eq_true, if_false]

omit [Collation] in
theorem maybeAdd_some {item : DriveItem} (stored : hasBlob sys item = true) (path : String) :
    ∃ key, item.storageKey = some key ∧ maybeAdd sys path item = [⟨path, key, item⟩] := by
  rw [hasBlob] at stored
  cases isKey : item.storageKey with
  | none =>
      rw [isKey] at stored
      cases stored
  | some key =>
      rw [isKey, Option.any_some] at stored
      exact ⟨key, rfl, by simp only [maybeAdd, isKey, stored, if_true]⟩

theorem readChildren_mem (lists : ListsChildren listings sys.db) (member : folder ∈ sys.db.items)
    {child : DriveItem} (read : child ∈ readChildren listings sys.db folder) :
    child ∈ children sys.db (some folder.id) folder.ownerId := by
  rcases List.mem_flatMap.mp read with ⟨page, _, among⟩
  exact (lists folder member _).perm.mem_iff.mp
    (List.mem_of_mem_drop (List.mem_of_mem_take among))

/-- The loop over the pages of a folder visits the children that they show. -/
theorem visitPages_children {α : Type} {visit : DriveItem → Except ServiceError (List α)}
    (lists : ListsChildren listings sys.db) (member : folder ∈ sys.db.items) :
    visitPages visit
        (fun offset => listChildrenOf (listings folder.id offset) offset folderPage)
        (sys.db.items.rows.length + 1) 0 =
      visitEach visit (readChildren listings sys.db folder) := by
  have positive : 0 < folderPage := by decide
  have fewer : (children sys.db (some folder.id) folder.ownerId).length ≤
      sys.db.items.rows.length := List.length_filter_le _ _
  have enough : (children sys.db (some folder.id) folder.ownerId).length + 1 ≤
      sys.db.items.rows.length + 1 + 0 * folderPage := by omega
  have visits : visitPages visit
      (fun offset => listChildrenOf (listings folder.id offset) offset folderPage)
      (sys.db.items.rows.length + 1) (0 * folderPage) = _ :=
    visitPages_eq positive (fun offset => (lists folder member offset).perm.length_eq) enough
      (Nat.succ_pos _)
  rw [Nat.zero_mul, Nat.sub_zero, ← List.range_eq_range'] at visits
  exact visits

/-- Who may download the folder gets the files that the walk meets. -/
theorem collectFolder_ok {userId : Uuid} (acyclic : Acyclic sys.db.items.parentOf)
    (lists : ListsChildren listings sys.db) : ∀ {fuel : Nat} {folder : DriveItem} {above : String},
    folder ∈ sys.db.items → PermissionService.CanDownload sys.db userId folder →
    (∀ itemId, ancestor sys.db.items.parentOf fuel itemId ≠ some folder.id) →
      collectFolder listings userId sys fuel folder above =
        .ok ((filesBelow listings sys fuel folder).flatMap fun found =>
          maybeAdd sys (arcname above found.1) found.2)
  | 0, folder, _, _, _, shallow => absurd rfl (shallow folder.id)
  | fuel + 1, folder, above, member, can, shallow => by
      rw [collectFolder, visitPages_children lists member, filesBelow, List.flatMap_assoc]
      apply visitEach_eq_flatMap
      intro child read
      rcases mem_children.mp (readChildren_mem lists member read) with
        ⟨childMem, _, _, hangs⟩
      have canChild := can.child acyclic member childMem hangs
      rw [childFiles]
      by_cases isFile : child.itemType = .file
      · simp only [if_pos isFile, PermissionService.assertCanDownload_ok.mpr canChild, ok_bind]
        by_cases stored : hasBlob sys child = true
        · rw [if_pos stored, List.flatMap_singleton]
          rfl
        · rw [if_neg stored, List.flatMap_nil,
            maybeAdd_none (Bool.eq_false_iff.mpr stored)]
          rfl
      · have shallower : ∀ itemId,
            ancestor sys.db.items.parentOf fuel itemId ≠ some child.id := by
          intro itemId reached
          apply shallow itemId
          rw [ancestor_succ, reached, Option.bind_some, ItemTable.parentOf_id childMem, hangs]
        simp only [if_neg isFile, collectFolder_ok acyclic lists childMem canChild shallower]
        rw [List.flatMap_map]
        rfl

/-! ## The loop over the selection -/

/-- What a round adds for the item under its top name. -/
def partOf (listings : Listings) (sys : System) (selected : DriveItem) (top : String) :
    List ArchiveEntry :=
  if selected.itemType = .file then
    maybeAdd sys top selected
  else
    (filesBelow listings sys (sys.db.items.rows.length + 1) selected).flatMap fun found =>
      maybeAdd sys (arcname top found.1) found.2

/-- The item exists, is live, and the user may download it. -/
def Entitled (sys : System) (userId itemId : Uuid) : Prop :=
  ∃ selected, sys.db.items.find? itemId = some selected ∧ selected.isDeleted = false ∧
    PermissionService.CanDownload sys.db userId selected

omit [Collation] in
theorem shallow_of_acyclic (acyclic : Acyclic sys.db.items.parentOf) (topId : Uuid) :
    ∀ itemId, ancestor sys.db.items.parentOf (sys.db.items.rows.length + 1) itemId ≠
      some topId := by
  intro itemId reached
  have ends : ancestor sys.db.items.parentOf (sys.db.items.rows.length + 1) itemId = none :=
    Table.chain_ends acyclic itemId
  rw [ends] at reached
  cases reached

theorem collectItem_ok {userId : Uuid} {selected : DriveItem} {top : String}
    (acyclic : Acyclic sys.db.items.parentOf) (lists : ListsChildren listings sys.db)
    (member : selected ∈ sys.db.items)
    (can : PermissionService.CanDownload sys.db userId selected) :
    collectItem listings userId sys selected top = .ok (partOf listings sys selected top) := by
  rw [collectItem, partOf]
  by_cases isFile : selected.itemType = .file
  · rw [if_pos isFile, if_pos isFile]
  · rw [if_neg isFile, if_neg isFile]
    exact collectFolder_ok acyclic lists member can (shallow_of_acyclic acyclic selected.id)

theorem packItem_ok {userId itemId : Uuid} {packing next : Packing}
    (acyclic : Acyclic sys.db.items.parentOf) (lists : ListsChildren listings sys.db)
    (packs : packItem listings userId sys itemId packing = .ok next) :
    ∃ selected top, sys.db.items.find? itemId = some selected ∧ selected.isDeleted = false ∧
      dedupe packing.usedTop selected.name = .ok top ∧
      next.files = packing.files ++ partOf listings sys selected top ∧
      next.usedTop = packing.usedTop ++ [top] := by
  simp only [packItem, bind_eq_ok, orRaise_eq_ok, require_eq_ok, pure_eq_ok] at packs
  rcases packs with ⟨selected, isSelected, _, live, _, asserts, top, isTop, found, adds, rfl⟩
  have member := (ItemTable.find?_eq_some.mp isSelected).1
  have can := PermissionService.assertCanDownload_ok.mp asserts
  rw [collectItem_ok acyclic lists member can] at adds
  cases adds
  exact ⟨selected, top, isSelected, live, isTop, rfl, rfl⟩

theorem packItem_ends {userId itemId : Uuid} (acyclic : Acyclic sys.db.items.parentOf)
    (lists : ListsChildren listings sys.db) (entitled : Entitled sys userId itemId)
    (packing : Packing) : ∃ next, packItem listings userId sys itemId packing = .ok next := by
  rcases entitled with ⟨selected, isSelected, live, can⟩
  rcases dedupe_ends packing.usedTop selected.name with ⟨top, isTop⟩
  have member := (ItemTable.find?_eq_some.mp isSelected).1
  simp only [packItem, bind_eq_ok, orRaise_eq_ok, require_eq_ok, pure_eq_ok]
  exact ⟨_, selected, isSelected, (), live, (), PermissionService.assertCanDownload_ok.mpr can,
    top, isTop, _, collectItem_ok acyclic lists member can, rfl⟩

end Walk

end DownloadService

end CloudDrive
