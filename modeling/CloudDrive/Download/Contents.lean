import CloudDrive.Download.Walk
import CloudDrive.PublicShare.Resolution

/-! # What an archive holds

The query for the children of a folder asks for those of the folder's owner, and each page
is a query of its own. -/

namespace CloudDrive

open Outcome Relational Forest Relation DriveItemRepository DriveService

namespace DownloadService

/-! ## The specification -/

section Specification

variable [Platform]

/-- The item is live and hangs below `top` by live folders, whoever owns them. -/
inductive LiveBelow (items : ItemTable) : Uuid → DriveItem → Prop where
  | child {top : Uuid} {item : DriveItem} : item ∈ items → item.parentId = some top →
      item.isDeleted = false → LiveBelow items top item
  | deeper {top : Uuid} {folder item : DriveItem} : folder ∈ items →
      folder.parentId = some top → folder.isDeleted = false → folder.itemType = .folder →
      LiveBelow items folder.id item → LiveBelow items top item

/-- A file with a blob that exists. -/
def PackableFile (sys : System) (item : DriveItem) : Prop :=
  item.itemType = .file ∧ hasBlob sys item = true

/-- What an archive of the selected item is to hold. -/
def Packable (sys : System) (selected item : DriveItem) : Prop :=
  PackableFile sys item ∧ (item = selected ∨ LiveBelow sys.db.items selected.id item)

/-- The entries are those of the files to be packed, one for each. -/
structure Corresponds (sys : System) (selected : DriveItem) (part : List ArchiveEntry) :
    Prop where
  once : (part.map ArchiveEntry.item).Nodup
  packed : ∀ item, item ∈ part.map ArchiveEntry.item ↔ Packable sys selected item
  keys : ∀ entry ∈ part, entry.item.storageKey = some entry.storageKey

/-- The rounds of the loop of `archive`, with what each of them adds. -/
inductive Rounds (listings : Listings) (userId : Uuid) (sys : System) :
    Packing → List Uuid → List (List ArchiveEntry) → Packing → Prop where
  | done {packing : Packing} : Rounds listings userId sys packing [] [] packing
  | next {packing middle final : Packing} {itemId : Uuid} {itemIds : List Uuid}
      {part : List ArchiveEntry} {parts : List (List ArchiveEntry)} :
      packItem listings userId sys itemId packing = .ok middle →
      middle.files = packing.files ++ part →
      Rounds listings userId sys middle itemIds parts final →
      Rounds listings userId sys packing (itemId :: itemIds) (part :: parts) final

/-- Every round adds what the archive is to hold of its selected item, and the zip holds all
that was added; of nothing there is no zip. -/
def Exact {ε : Type} (listings : Listings) (userId : Uuid) (itemIds : List Uuid) (sys : System)
    (outcome : Except ε ArchiveResult) (nothing : ε) : Prop :=
  ∃ parts final, Rounds listings userId sys ⟨[], [], none⟩ itemIds parts final ∧
    List.Forall₂ (fun itemId part => ∃ selected, sys.db.items.find? itemId = some selected ∧
      Corresponds sys selected part) itemIds parts ∧
    (parts.flatten = [] → outcome = .error nothing) ∧
    (parts.flatten ≠ [] → ∃ result, outcome = .ok result ∧ result.files = parts.flatten)

/-- The error of an archive without files. -/
def noFiles : ServiceError :=
  .invalidOperation "Selection contains no downloadable files"

end Specification

/-! ## The condition -/

section Condition

variable [Platform] [Collation]

/-- The files below the item hang by items of its owner. -/
def OneOwner (sys : System) (selected : DriveItem) : Prop :=
  ∀ item, PackableFile sys item → LiveBelow sys.db.items selected.id item →
    ∃ names, Below sys.db selected.ownerId selected.id names item

/-- `folder` is `top` or a folder below it that the owner of `top` owns, with all between. -/
def Walked (db : Database) (top folder : DriveItem) : Prop :=
  folder = top ∨ ∃ names, Below db top.ownerId top.id names folder ∧ folder.itemType = .folder

/-- The item is a file to be packed, or has one of its owner below it. -/
def CarriesFiles (sys : System) (item : DriveItem) : Prop :=
  PackableFile sys item ∨
    ∃ names file, Below sys.db item.ownerId item.id names file ∧ PackableFile sys file

/-- No page of a walked folder ends between places where a child that matters can stand. -/
def PagesKeep (sys : System) (selected : DriveItem) : Prop :=
  ∀ folder, Walked sys.db selected folder →
    ∀ child ∈ children sys.db (some folder.id) folder.ownerId, CarriesFiles sys child →
      ∀ page, Pages.Fixed (sortsBefore .name .asc)
        (children sys.db (some folder.id) folder.ownerId) (page * folderPage) child

end Condition

/-! ## Chains of parents -/

section Chains

variable [Platform] [Collation] {sys : System}

omit [Collation] in
theorem liveBelow_of_below {db : Database} {ownerId top : Uuid} {names : List String}
    {item : DriveItem} (below : Below db ownerId top names item) :
    LiveBelow db.items top item := by
  induction below with
  | child among =>
      rcases mem_children.mp among with ⟨member, _, live, hangs⟩
      exact .child member hangs live
  | deeper among isFolder _ induction =>
      rcases mem_children.mp among with ⟨member, _, live, hangs⟩
      exact .deeper member hangs live isFolder induction

omit [Collation] in
theorem LiveBelow.above {items : ItemTable} {top : Uuid} {item : DriveItem}
    (below : LiveBelow items top item) : item ∈ items ∧ Above items.parentOf item.id top := by
  induction below with
  | child member hangs _ =>
      exact ⟨member, .single ((ItemTable.parentOf_id member).trans hangs)⟩
  | deeper member hangs _ _ _ induction =>
      exact ⟨induction.1, induction.2.tail ((ItemTable.parentOf_id member).trans hangs)⟩

omit [Collation] in
/-- What hangs by items of an owner is the owner's. -/
theorem owner_of_below {db : Database} {ownerId top : Uuid} {names : List String}
    {item : DriveItem} (below : Below db ownerId top names item) : item.ownerId = ownerId := by
  induction below with
  | child among => exact (mem_children.mp among).2.1
  | deeper _ _ _ induction => exact induction

omit [Collation] in
/-- Two children of one folder have nothing in common. -/
theorem same_child {items : ItemTable} (acyclic : Acyclic items.parentOf)
    {left right : DriveItem} {top itemId : Uuid} (leftMem : left ∈ items) (rightMem : right ∈ items)
    (leftHangs : left.parentId = some top) (rightHangs : right.parentId = some top)
    (underLeft : AtOrAbove items.parentOf itemId left.id)
    (underRight : AtOrAbove items.parentOf itemId right.id) : left = right := by
  rcases atOrAbove_iff_ancestor.mp underLeft with ⟨first, toLeft⟩
  rcases atOrAbove_iff_ancestor.mp underRight with ⟨second, toRight⟩
  have leftTop : ancestor items.parentOf (first + 1) itemId = some top := by
    rw [ancestor_succ, toLeft, Option.bind_some, ItemTable.parentOf_id leftMem, leftHangs]
  have rightTop : ancestor items.parentOf (second + 1) itemId = some top := by
    rw [ancestor_succ, toRight, Option.bind_some, ItemTable.parentOf_id rightMem, rightHangs]
  have same := acyclic.ancestor_injective leftTop rightTop
  have sameSteps : first = second := by omega
  rw [sameSteps, toRight, Option.some.injEq] at toLeft
  exact ItemTable.eq_of_id_eq leftMem rightMem toLeft.symm

omit [Collation] in
/-- What hangs below a child of its owner hangs below the folder. -/
theorem Walked.of_child {db : Database} {top child folder : DriveItem}
    (among : child ∈ children db (some top.id) top.ownerId) (isFolder : child.itemType = .folder)
    (walked : Walked db child folder) : Walked db top folder := by
  have owned := (mem_children.mp among).2.1
  rcases walked with rfl | ⟨names, below, kind⟩
  · exact .inr ⟨[folder.name], .child among, isFolder⟩
  · rw [owned] at below
    exact .inr ⟨child.name :: names, .deeper among isFolder below, kind⟩

theorem PagesKeep.child {top child : DriveItem} (keeps : PagesKeep sys top)
    (among : child ∈ children sys.db (some top.id) top.ownerId)
    (isFolder : child.itemType = .folder) : PagesKeep sys child :=
  fun folder walked => keeps folder (walked.of_child among isFolder)

end Chains

/-! ## The files that the walk meets -/

section Files

variable [Platform] [Collation] {sys : System} {listings : Listings}

omit [Platform] [Collation] in
theorem isFolder_of_not_file {item : DriveItem} (notFile : ¬ item.itemType = .file) :
    item.itemType = .folder := by
  cases kind : item.itemType with
  | folder => rfl
  | file => exact absurd kind notFile

omit [Collation] in
theorem mem_childFiles {child item : DriveItem} {names : List String}
    {below : List (List String × DriveItem)} :
    (names, item) ∈ childFiles sys child below ↔
      (PackableFile sys child ∧ names = [child.name] ∧ item = child) ∨
      (child.itemType = .folder ∧ ∃ rest, names = child.name :: rest ∧ (rest, item) ∈ below) := by
  rw [childFiles]
  by_cases isFile : child.itemType = .file
  · rw [if_pos isFile, PackableFile, isFile]
    by_cases stored : hasBlob sys child = true
    · simp [stored]
    · simp [stored]
  · rw [if_neg isFile, PackableFile, isFolder_of_not_file isFile, List.mem_map]
    constructor
    · intro found
      rcases found with ⟨⟨rest, file⟩, member, same⟩
      cases same
      exact .inr ⟨rfl, rest, rfl, member⟩
    · intro either
      rcases either with ⟨⟨isFile, _⟩, _⟩ | ⟨_, rest, rfl, member⟩
      · cases isFile
      · exact ⟨(rest, item), member, rfl⟩

omit [Collation] in
theorem mem_filesBelow_succ {fuel : Nat} {folder item : DriveItem} {names : List String} :
    (names, item) ∈ filesBelow listings sys (fuel + 1) folder ↔
      ∃ child ∈ readChildren listings sys.db folder,
        (PackableFile sys child ∧ names = [child.name] ∧ item = child) ∨
        (child.itemType = .folder ∧ ∃ rest, names = child.name :: rest ∧
          (rest, item) ∈ filesBelow listings sys fuel child) := by
  rw [filesBelow, List.mem_flatMap]
  exact exists_congr fun child => and_congr_right' mem_childFiles

theorem filesBelow_sound (lists : ListsChildren listings sys.db) :
    ∀ {fuel : Nat} {folder item : DriveItem} {names : List String}, folder ∈ sys.db.items →
      (names, item) ∈ filesBelow listings sys fuel folder →
      Below sys.db folder.ownerId folder.id names item ∧ PackableFile sys item
  | 0, _, _, _, _, found => absurd found List.not_mem_nil
  | fuel + 1, folder, item, names, member, found => by
      rcases mem_filesBelow_succ.mp found with ⟨child, read, here | ⟨isFolder, rest, rfl, deeper⟩⟩
      · rcases here with ⟨packable, rfl, rfl⟩
        exact ⟨.child (readChildren_mem lists member read), packable⟩
      · have among := readChildren_mem lists member read
        rcases mem_children.mp among with ⟨childMem, owned, _, _⟩
        rcases filesBelow_sound lists childMem deeper with ⟨below, packable⟩
        rw [owned] at below
        exact ⟨.deeper among isFolder below, packable⟩

variable [LawfulCollation]

theorem read_once (lists : ListsChildren listings sys.db) {folder child : DriveItem}
    (member : folder ∈ sys.db.items) (keeps : PagesKeep sys folder)
    (among : child ∈ children sys.db (some folder.id) folder.ownerId)
    (carries : CarriesFiles sys child) : (readChildren listings sys.db folder).count child = 1 :=
  Pages.count_readPages (sys.db.items.nodup.of_map.filter _)
    (fun row => (sortsBefore_total row row).elim id id) (by decide) among
    (keeps folder (.inl rfl) child among carries) fun page => lists folder member _

theorem filesBelow_complete (lists : ListsChildren listings sys.db) :
    ∀ {fuel : Nat} {folder item : DriveItem} {names : List String}, folder ∈ sys.db.items →
      (∀ itemId, ancestor sys.db.items.parentOf fuel itemId ≠ some folder.id) →
      PagesKeep sys folder → Below sys.db folder.ownerId folder.id names item →
      PackableFile sys item → (names, item) ∈ filesBelow listings sys fuel folder
  | 0, folder, _, _, _, shallow, _, _, _ => absurd rfl (shallow folder.id)
  | fuel + 1, folder, item, names, member, shallow, keeps, below, packable => by
      apply mem_filesBelow_succ.mpr
      cases below with
      | child among =>
          have once := read_once lists member keeps among (.inl packable)
          apply Exists.intro item
          apply And.intro (List.count_pos_iff.mp (once ▸ Nat.one_pos))
          exact .inl ⟨packable, rfl, rfl⟩
      | deeper among isFolder further =>
          rename_i child rest
          rcases mem_children.mp among with ⟨childMem, owned, _, hangs⟩
          rw [← owned] at further
          have once := read_once lists member keeps among (.inr ⟨rest, item, further, packable⟩)
          have shallower : ∀ itemId,
              ancestor sys.db.items.parentOf fuel itemId ≠ some child.id := by
            intro itemId reached
            apply shallow itemId
            rw [ancestor_succ, reached, Option.bind_some, ItemTable.parentOf_id childMem, hangs]
          apply Exists.intro child
          apply And.intro (List.count_pos_iff.mp (once ▸ Nat.one_pos))
          exact .inr ⟨isFolder, rest, rfl, filesBelow_complete lists childMem shallower
            (keeps.child among isFolder) further packable⟩

omit [Platform] [Collation] [LawfulCollation] in
/-- What does not count may stand in the list twice. -/
theorem pairwise_of_count {α : Type} [DecidableEq α] {Counts : α → Prop} : ∀ {elements : List α},
    (∀ element ∈ elements, Counts element → elements.count element = 1) →
      elements.Pairwise fun left right => left = right → ¬ Counts left
  | [], _ => List.Pairwise.nil
  | element :: rest, once => by
      apply List.Pairwise.cons
      · intro other member same counts
        have one := once element List.mem_cons_self counts
        rw [List.count_cons_self, same] at one
        have some := List.count_pos_iff.mpr member
        omega
      · apply pairwise_of_count
        intro other member counts
        have one := once other (List.mem_cons_of_mem _ member) counts
        have some := List.count_pos_iff.mpr member
        have most := List.count_le_count_cons (a := other) (b := element) (l := rest)
        omega

omit [LawfulCollation] in
/-- What is found at a child lies at or below it, so the child carries files. -/
theorem childFiles_at (lists : ListsChildren listings sys.db) {fuel : Nat}
    {child item : DriveItem} (childMem : child ∈ sys.db.items)
    (found : item ∈ (childFiles sys child (filesBelow listings sys fuel child)).map Prod.snd) :
    AtOrAbove sys.db.items.parentOf item.id child.id ∧ CarriesFiles sys child := by
  rcases List.mem_map.mp found with ⟨⟨names, file⟩, member, rfl⟩
  rcases mem_childFiles.mp member with ⟨packable, _, rfl⟩ | ⟨_, rest, _, deeper⟩
  · exact ⟨.refl, .inl packable⟩
  · rcases filesBelow_sound lists childMem deeper with ⟨below, packable⟩
    exact ⟨(liveBelow_of_below below).above.2.to_reflTransGen, .inr ⟨rest, file, below, packable⟩⟩

theorem filesBelow_nodup (acyclic : Acyclic sys.db.items.parentOf)
    (lists : ListsChildren listings sys.db) : ∀ {fuel : Nat} {folder : DriveItem},
    folder ∈ sys.db.items → PagesKeep sys folder →
      ((filesBelow listings sys fuel folder).map Prod.snd).Nodup
  | 0, _, _, _ => List.nodup_nil
  | fuel + 1, folder, member, keeps => by
      rw [filesBelow, List.map_flatMap]
      apply List.nodup_flatMap.mpr
      constructor
      · intro child read
        have among := readChildren_mem lists member read
        rw [childFiles]
        by_cases isFile : child.itemType = .file
        · rw [if_pos isFile]
          by_cases stored : hasBlob sys child = true
          · rw [if_pos stored]
            exact List.nodup_singleton child
          · rw [if_neg stored]
            exact List.nodup_nil
        · rw [if_neg isFile, List.map_map]
          exact filesBelow_nodup acyclic lists (mem_children.mp among).1
            (keeps.child among (isFolder_of_not_file isFile))
      · have apart := pairwise_of_count (fun child (read : child ∈ readChildren listings sys.db
          folder) => read_once lists member keeps (readChildren_mem lists member read))
        apply apart.imp_of_mem
        intro left right readLeft readRight different item inLeft inRight
        rcases mem_children.mp (readChildren_mem lists member readLeft) with
          ⟨leftMem, _, _, leftHangs⟩
        rcases mem_children.mp (readChildren_mem lists member readRight) with
          ⟨rightMem, _, _, rightHangs⟩
        rcases childFiles_at lists leftMem inLeft with ⟨underLeft, carries⟩
        rcases childFiles_at lists rightMem inRight with ⟨underRight, _⟩
        exact different (same_child acyclic leftMem rightMem leftHangs rightHangs underLeft
          underRight) carries

/-! ## A child that no page shows -/

omit [LawfulCollation] in
/-- What is found below a folder was reached through children that were read. -/
theorem read_of_found (acyclic : Acyclic sys.db.items.parentOf)
    (lists : ListsChildren listings sys.db) {owner child : DriveItem}
    (ownerMem : owner ∈ sys.db.items) (childMem : child ∈ sys.db.items)
    (hangs : child.parentId = some owner.id) :
    ∀ {fuel : Nat} {folder item : DriveItem} {names : List String}, folder ∈ sys.db.items →
      AtOrAbove sys.db.items.parentOf owner.id folder.id →
      AtOrAbove sys.db.items.parentOf item.id child.id →
      (names, item) ∈ filesBelow listings sys fuel folder →
      child ∈ readChildren listings sys.db owner
  | 0, _, _, _, _, _, _, found => absurd found List.not_mem_nil
  | fuel + 1, folder, item, names, member, inside, under, found => by
      rcases mem_filesBelow_succ.mp found with ⟨next, read, either⟩
      rcases mem_children.mp (readChildren_mem lists member read) with
        ⟨nextMem, _, _, nextHangs⟩
      have underNext : AtOrAbove sys.db.items.parentOf item.id next.id := by
        rcases either with ⟨_, _, rfl⟩ | ⟨_, rest, _, deeper⟩
        · exact .refl
        · have below := (filesBelow_sound lists nextMem deeper).1
          exact (liveBelow_of_below below).above.2.to_reflTransGen
      rcases atOrAbove_iff.mp inside with here | above
      · have same : owner = folder := ItemTable.eq_of_id_eq ownerMem member here
        rw [same] at hangs ⊢
        rwa [same_child acyclic childMem nextMem hangs nextHangs under underNext]
      · -- The folder above `owner` on the way is the child that was read.
        rcases TransGen.tail'_iff.mp above with ⟨middle, upTo, step⟩
        have throughChild : AtOrAbove sys.db.items.parentOf item.id middle :=
          (under.tail ((ItemTable.parentOf_id childMem).trans hangs)).trans upTo
        rcases ItemTable.atOrAbove_mem ownerMem upTo with ⟨row, rowMem, rfl⟩
        have rowHangs : row.parentId = some folder.id :=
          (ItemTable.parentOf_id rowMem).symm.trans step
        have same : row = next :=
          same_child acyclic rowMem nextMem rowHangs nextHangs throughChild underNext
        rw [same] at upTo
        rcases either with ⟨_, _, isNext⟩ | ⟨_, rest, _, deeper⟩
        · -- A file that was read cannot have the child below it.
          rw [isNext] at under
          have step : Up sys.db.items.parentOf child.id owner.id :=
            (ItemTable.parentOf_id childMem).trans hangs
          exact absurd (TransGen.head' step (upTo.trans under)) (acyclic child.id)
        · exact read_of_found acyclic lists ownerMem childMem hangs nextMem upTo under deeper

end Files

/-! ## The part of one selected item -/

section Part

variable [Platform] [Collation] {sys : System} {listings : Listings} {selected : DriveItem}
  {top : String}

omit [Collation] in
theorem maybeAdd_items {item : DriveItem} (path : String) :
    (maybeAdd sys path item).map ArchiveEntry.item = if hasBlob sys item then [item] else [] := by
  by_cases stored : hasBlob sys item = true
  · rcases maybeAdd_some stored path with ⟨key, _, adds⟩
    rw [adds, if_pos stored]
    rfl
  · rw [maybeAdd_none (Bool.eq_false_iff.mpr stored), if_neg stored]
    rfl

theorem partOf_items (lists : ListsChildren listings sys.db) (member : selected ∈ sys.db.items) :
    (partOf listings sys selected top).map ArchiveEntry.item =
      if selected.itemType = .file then
        if hasBlob sys selected then [selected] else []
      else
        (filesBelow listings sys (sys.db.items.rows.length + 1) selected).map Prod.snd := by
  rw [partOf]
  by_cases isFile : selected.itemType = .file
  · rw [if_pos isFile, if_pos isFile, maybeAdd_items]
  · rw [if_neg isFile, if_neg isFile, List.map_flatMap, ← List.flatMap_singleton' (List.map _ _),
      List.flatMap_map]
    apply List.flatMap_congr
    intro found among
    have stored := (filesBelow_sound lists member among).2.2
    rw [maybeAdd_items, if_pos stored]

omit [Collation] in
theorem maybeAdd_keys {item : DriveItem} {path : String} :
    ∀ entry ∈ maybeAdd sys path item, entry.item.storageKey = some entry.storageKey := by
  intro entry among
  by_cases stored : hasBlob sys item = true
  · rcases maybeAdd_some stored path with ⟨key, isKey, adds⟩
    rw [adds] at among
    rw [List.mem_singleton.mp among]
    exact isKey
  · rw [maybeAdd_none (Bool.eq_false_iff.mpr stored)] at among
    cases among

omit [Collation] in
theorem partOf_keys :
    ∀ entry ∈ partOf listings sys selected top, entry.item.storageKey = some entry.storageKey := by
  intro entry among
  rw [partOf] at among
  split at among
  · exact maybeAdd_keys entry among
  · rcases List.mem_flatMap.mp among with ⟨found, _, added⟩
    exact maybeAdd_keys entry added

omit [Collation] in
theorem LiveBelow.trans {items : ItemTable} {topId : Uuid} {folder item : DriveItem}
    (upper : LiveBelow items topId folder) (isFolder : folder.itemType = .folder)
    (lower : LiveBelow items folder.id item) : LiveBelow items topId item := by
  induction upper with
  | child member hangs live => exact .deeper member hangs live isFolder lower
  | deeper member hangs live kind _ induction =>
      exact .deeper member hangs live kind (induction isFolder lower)

omit [Collation] in
theorem LiveBelow.ne {items : ItemTable} (acyclic : Acyclic items.parentOf) {item : DriveItem}
    (below : LiveBelow items selected.id item) : item ≠ selected := by
  intro same
  have above := below.above.2
  rw [same] at above
  exact acyclic selected.id above

omit [Collation] in
/-- Only folders have something below them. -/
theorem LiveBelow.isFolder {items : ItemTable} (tree : FolderTree items)
    (member : selected ∈ items) {item : DriveItem} (below : LiveBelow items selected.id item) :
    selected.itemType = .folder := by
  rcases TransGen.tail'_iff.mp below.above.2 with ⟨middle, upTo, step⟩
  rcases ItemTable.atOrAbove_mem below.above.1 upTo with ⟨row, rowMem, rfl⟩
  have hangs := (ItemTable.parentOf_id rowMem).symm.trans step
  rcases tree.parents row rowMem selected.id hangs with ⟨parent, parentMem, sameId, isFolder⟩
  rwa [ItemTable.eq_of_id_eq parentMem member sameId] at isFolder

/-- The part of an item holds nothing else. -/
theorem packable_of_partOf (lists : ListsChildren listings sys.db)
    (member : selected ∈ sys.db.items) {entry : ArchiveEntry}
    (among : entry ∈ partOf listings sys selected top) : Packable sys selected entry.item := by
  have isItem := List.mem_map_of_mem (f := ArchiveEntry.item) among
  rw [partOf_items lists member] at isItem
  split at isItem
  · rename_i isFile
    split at isItem
    · rename_i stored
      rw [List.mem_singleton.mp isItem]
      exact ⟨⟨isFile, stored⟩, .inl rfl⟩
    · cases isItem
  · rcases List.mem_map.mp isItem with ⟨⟨names, file⟩, found, isFile⟩
    rcases filesBelow_sound lists member found with ⟨below, packable⟩
    rw [← isFile]
    exact ⟨packable, .inr (liveBelow_of_below below)⟩

theorem partOf_once [LawfulCollation] (acyclic : Acyclic sys.db.items.parentOf)
    (lists : ListsChildren listings sys.db) (member : selected ∈ sys.db.items)
    (keeps : PagesKeep sys selected) :
    ((partOf listings sys selected top).map ArchiveEntry.item).Nodup := by
  rw [partOf_items lists member]
  split
  · split
    · exact List.nodup_singleton selected
    · exact List.nodup_nil
  · exact filesBelow_nodup acyclic lists member keeps

/-- The part of an item whose files are its owner's and are kept by the pages is complete. -/
theorem corresponds_of [LawfulCollation] (tree : FolderTree sys.db.items)
    (lists : ListsChildren listings sys.db) (member : selected ∈ sys.db.items)
    (oneOwner : OneOwner sys selected) (keeps : PagesKeep sys selected) :
    Corresponds sys selected (partOf listings sys selected top) := by
  constructor
  case keys => exact partOf_keys
  case once => exact partOf_once tree.acyclic lists member keeps
  case packed =>
    intro item
    rw [partOf_items lists member]
    by_cases isFile : selected.itemType = .file
    · -- A file has nothing below it.
      have alone : ¬ LiveBelow sys.db.items selected.id item := by
        intro below
        have isFolder := below.isFolder tree member
        rw [isFile] at isFolder
        cases isFolder
      rw [if_pos isFile, Packable, PackableFile, or_iff_left alone]
      by_cases stored : hasBlob sys selected = true
      · rw [if_pos stored, List.mem_singleton]
        constructor
        · intro same
          exact ⟨⟨same ▸ isFile, same ▸ stored⟩, same⟩
        · exact fun packable => packable.2
      · rw [if_neg stored]
        constructor
        · exact fun none => absurd none List.not_mem_nil
        · intro packable
          exact absurd (packable.2 ▸ packable.1.2) stored
    · rw [if_neg isFile, List.mem_map]
      constructor
      · intro found
        rcases found with ⟨⟨names, file⟩, among, rfl⟩
        rcases filesBelow_sound lists member among with ⟨below, packable⟩
        exact ⟨packable, .inr (liveBelow_of_below below)⟩
      · intro packable
        rcases packable with ⟨packableFile, rfl | below⟩
        · exact absurd packableFile.1 isFile
        · rcases oneOwner item packableFile below with ⟨names, owned⟩
          exact ⟨(names, item), filesBelow_complete lists member
            (shallow_of_acyclic tree.acyclic selected.id) keeps owned packableFile, rfl⟩

/-- A complete part holds a file below the item because the walk met it. -/
theorem found_of_corresponds (acyclic : Acyclic sys.db.items.parentOf)
    (lists : ListsChildren listings sys.db) (member : selected ∈ sys.db.items)
    (corresponds : Corresponds sys selected (partOf listings sys selected top))
    {item : DriveItem} (packable : PackableFile sys item)
    (below : LiveBelow sys.db.items selected.id item) :
    ∃ names, (names, item) ∈ filesBelow listings sys (sys.db.items.rows.length + 1) selected := by
  have among := (corresponds.packed item).mpr ⟨packable, .inr below⟩
  rw [partOf_items lists member] at among
  split at among
  · split at among
    · exact absurd (List.mem_singleton.mp among) (below.ne acyclic)
    · cases among
  · rcases List.mem_map.mp among with ⟨⟨names, file⟩, found, rfl⟩
    exact ⟨names, found⟩

/-- All queries see the rows in the order of one sort. -/
def sortedListings (db : Database) : Listings := fun folderId _ =>
  match db.items.find? folderId with
  | some folder => (children db (some folder.id) folder.ownerId).insertionSort
      fun left right => sortsBefore .name .asc left right = true
  | none => []

theorem sortedListings_lists [LawfulCollation] (db : Database) :
    ListsChildren (sortedListings db) db := by
  intro folder member offset
  simp only [sortedListings, ItemTable.find?_id member]
  exact Pages.listing_insertionSort sortsBefore_total sortsBefore_trans _

/-- The database can list the children in such a way that a child on two sides of a cut is
shown on no page. -/
theorem exists_unread [LawfulCollation] {folder child : DriveItem}
    (among : child ∈ children sys.db (some folder.id) folder.ownerId) {page : Nat}
    (cut : ¬ Pages.Fixed (sortsBefore .name .asc)
      (children sys.db (some folder.id) folder.ownerId) (page * folderPage) child)
    (folderMem : folder ∈ sys.db.items) :
    ∃ listings, ListsChildren listings sys.db ∧ child ∉ readChildren listings sys.db folder := by
  rcases Pages.exists_lost (sys.db.items.nodup.of_map.filter _) sortsBefore_total
    sortsBefore_trans among cut with ⟨losing, listing, lost⟩
  let listings : Listings := fun folderId offset =>
    if folderId = folder.id then losing (offset / folderPage)
    else sortedListings sys.db folderId offset
  apply Exists.intro listings
  constructor
  · intro other otherMem offset
    by_cases isFolder : other.id = folder.id
    · rw [ItemTable.eq_of_id_eq otherMem folderMem isFolder]
      simp only [listings, if_pos]
      exact listing _
    · simp only [listings, if_neg isFolder]
      exact sortedListings_lists sys.db other otherMem offset
  · intro read
    rcases List.mem_flatMap.mp read with ⟨number, _, inBlock⟩
    apply lost number
    have isPage : number * folderPage / folderPage = number :=
      Nat.mul_div_cancel number (by decide)
    simpa only [listings, if_pos, isPage] using inBlock

/-- The part is complete however the database lists the children, exactly when the files
below the item are its owner's and no page ends where one of them can be missed. -/
theorem corresponds_iff [LawfulCollation] (tree : FolderTree sys.db.items)
    (member : selected ∈ sys.db.items) :
    (∀ listings, ListsChildren listings sys.db →
      ∃ top, Corresponds sys selected (partOf listings sys selected top)) ↔
      OneOwner sys selected ∧ PagesKeep sys selected := by
  constructor
  · intro complete
    constructor
    · intro item packable below
      have lists := sortedListings_lists sys.db
      rcases complete _ lists with ⟨top, corresponds⟩
      rcases found_of_corresponds tree.acyclic lists member corresponds packable below with
        ⟨names, found⟩
      exact ⟨names, (filesBelow_sound lists member found).1⟩
    · intro folder walked child among carries page
      by_contra cut
      rcases mem_children.mp among with ⟨childMem, _, live, hangs⟩
      have reached : folder ∈ sys.db.items ∧
          AtOrAbove sys.db.items.parentOf folder.id selected.id := by
        rcases walked with rfl | ⟨names, below, _⟩
        · exact ⟨member, .refl⟩
        · have path := (liveBelow_of_below below).above
          exact ⟨path.1, path.2.to_reflTransGen⟩
      rcases exists_unread among cut reached.1 with ⟨listings, lists, unread⟩
      rcases complete listings lists with ⟨top, corresponds⟩
      -- The file that the child carries.
      have carried : ∃ file, PackableFile sys file ∧ LiveBelow sys.db.items selected.id file ∧
          AtOrAbove sys.db.items.parentOf file.id child.id := by
        have childBelow : LiveBelow sys.db.items selected.id child := by
          rcases walked with rfl | ⟨names, below, isFolder⟩
          · exact .child childMem hangs live
          · exact (liveBelow_of_below below).trans isFolder (.child childMem hangs live)
        rcases carries with packable | ⟨names, file, below, packable⟩
        · exact ⟨child, packable, childBelow, .refl⟩
        · have further := liveBelow_of_below below
          exact ⟨file, packable, childBelow.trans (further.isFolder tree childMem) further,
            further.above.2.to_reflTransGen⟩
      rcases carried with ⟨file, packable, below, under⟩
      rcases found_of_corresponds tree.acyclic lists member corresponds packable below with
        ⟨names, found⟩
      exact unread (read_of_found tree.acyclic lists reached.1 childMem hangs member reached.2
        under found)
  · intro condition listings lists
    exact ⟨"", corresponds_of tree lists member condition.1 condition.2⟩

end Part

/-! ## The whole archive -/

section Archive

variable [Platform] [Collation] {sys : System} {listings : Listings} {userId : Uuid}

omit [Collation] in
theorem Rounds.runs {packing final : Packing} {itemIds : List Uuid}
    {parts : List (List ArchiveEntry)}
    (rounds : Rounds listings userId sys packing itemIds parts final) :
    forEach (packItem listings userId sys) itemIds packing = .ok final ∧
      final.files = packing.files ++ parts.flatten := by
  induction rounds with
  | done => exact ⟨rfl, (List.append_nil _).symm⟩
  | next packs adds _ induction =>
      rw [forEach_cons, packs, List.flatten_cons, ← List.append_assoc, ← adds]
      exact induction

theorem Rounds.parts (acyclic : Acyclic sys.db.items.parentOf)
    (lists : ListsChildren listings sys.db) {packing final : Packing} {itemIds : List Uuid}
    {parts : List (List ArchiveEntry)}
    (rounds : Rounds listings userId sys packing itemIds parts final) :
    List.Forall₂ (fun itemId part => ∃ selected top, sys.db.items.find? itemId = some selected ∧
      part = partOf listings sys selected top) itemIds parts := by
  induction rounds with
  | done => exact .nil
  | next packs adds _ induction =>
      rcases packItem_ok acyclic lists packs with ⟨selected, top, isSelected, _, _, files, _⟩
      exact .cons ⟨selected, top, isSelected, List.append_cancel_left (adds.symm.trans files)⟩
        induction

theorem rounds_end (acyclic : Acyclic sys.db.items.parentOf)
    (lists : ListsChildren listings sys.db) : ∀ {itemIds : List Uuid} (packing : Packing),
    (∀ itemId ∈ itemIds, Entitled sys userId itemId) →
      ∃ parts final, Rounds listings userId sys packing itemIds parts final
  | [], packing, _ => ⟨[], packing, .done⟩
  | itemId :: rest, packing, entitled => by
      rcases packItem_ends acyclic lists (entitled itemId List.mem_cons_self) packing with
        ⟨middle, packs⟩
      rcases packItem_ok acyclic lists packs with ⟨selected, top, _, _, _, files, _⟩
      rcases rounds_end acyclic lists middle
        (fun other member => entitled other (List.mem_cons_of_mem _ member)) with
        ⟨parts, final, rounds⟩
      exact ⟨_, final, .next packs files rounds⟩

omit [Collation] in
/-- The zip holds what the rounds have added. -/
theorem archive_of_rounds {final : Packing} {itemIds : List Uuid}
    {parts : List (List ArchiveEntry)} (nonempty : itemIds ≠ [])
    (rounds : Rounds listings userId sys ⟨[], [], none⟩ itemIds parts final) :
    (parts.flatten = [] → archive listings userId itemIds sys = .error noFiles) ∧
      (parts.flatten ≠ [] → ∃ result, archive listings userId itemIds sys = .ok result ∧
        result.files = parts.flatten) := by
  rcases rounds.runs with ⟨runs, files⟩
  rw [List.nil_append] at files
  have selected : require (itemIds ≠ [])
      (ServiceError.invalidOperation "No items selected to download") = .ok () :=
    require_eq_ok.mpr nonempty
  simp only [archive, selected, runs, ok_bind, files]
  constructor
  · intro empty
    rw [require, if_neg (not_not.mpr empty)]
    rfl
  · intro some
    rw [require, if_pos some]
    exact ⟨_, rfl, rfl⟩

omit [Platform] [Collation] in
theorem forall₂_both {α β : Type} {First Second : α → β → Prop} :
    ∀ {left : List α} {right : List β},
    List.Forall₂ First left right → List.Forall₂ Second left right →
      ∀ element ∈ left, ∃ other, First element other ∧ Second element other
  | _, _, .nil, .nil, _, member => absurd member List.not_mem_nil
  | _, _, .cons first firsts, .cons second seconds, element, member => by
      rcases List.mem_cons.mp member with rfl | later
      · exact ⟨_, first, second⟩
      · exact forall₂_both firsts seconds element later

omit [Platform] [Collation] in
theorem forall₂_of_mem {α β : Type} {First Second : α → β → Prop} :
    ∀ {left : List α} {right : List β}, List.Forall₂ First left right →
      (∀ element ∈ left, ∀ other, First element other → Second element other) →
      List.Forall₂ Second left right
  | _, _, .nil, _ => .nil
  | _, _, .cons first firsts, implies =>
      .cons (implies _ List.mem_cons_self _ first)
        (forall₂_of_mem firsts fun other member => implies other (List.mem_cons_of_mem _ member))

theorem exact_iff [LawfulCollation] (tree : FolderTree sys.db.items) {itemIds : List Uuid}
    (nonempty : itemIds ≠ []) (entitled : ∀ itemId ∈ itemIds, Entitled sys userId itemId) :
    (∀ listings, ListsChildren listings sys.db →
      Exact listings userId itemIds sys (archive listings userId itemIds sys) noFiles) ↔
      ∀ itemId ∈ itemIds, ∀ selected, sys.db.items.find? itemId = some selected →
        OneOwner sys selected ∧ PagesKeep sys selected := by
  constructor
  · intro exact_ itemId among selected isSelected
    apply (corresponds_iff tree (ItemTable.find?_eq_some.mp isSelected).1).mp
    intro listings lists
    rcases exact_ listings lists with ⟨parts, final, rounds, correspond, _⟩
    rcases forall₂_both correspond (rounds.parts tree.acyclic lists) itemId among with
      ⟨part, ⟨first, isFirst, corresponds⟩, second, top, isSecond, isPart⟩
    cases isFirst.symm.trans isSelected
    cases isSecond.symm.trans isSelected
    exact ⟨top, isPart ▸ corresponds⟩
  · intro condition listings lists
    rcases rounds_end tree.acyclic lists ⟨[], [], none⟩ entitled with ⟨parts, final, rounds⟩
    refine ⟨parts, final, rounds, ?_, archive_of_rounds nonempty rounds⟩
    have areParts := rounds.parts tree.acyclic lists
    apply forall₂_of_mem areParts
    intro itemId among part isPart
    rcases isPart with ⟨selected, top, isSelected, rfl⟩
    rcases condition itemId among selected isSelected with ⟨oneOwner, keeps⟩
    exact ⟨selected, isSelected, corresponds_of tree lists
      (ItemTable.find?_eq_some.mp isSelected).1 oneOwner keeps⟩

/-- Nothing stands in the zip but files that it is to hold of a selected item. -/
theorem archive_packable (acyclic : Acyclic sys.db.items.parentOf)
    (lists : ListsChildren listings sys.db) {itemIds : List Uuid} {result : ArchiveResult}
    (packs : archive listings userId itemIds sys = .ok result) :
    ∀ entry ∈ result.files, ∃ itemId ∈ itemIds, ∃ selected,
      sys.db.items.find? itemId = some selected ∧ Packable sys selected entry.item := by
  simp only [archive, bind_eq_ok, require_eq_ok, pure_eq_ok] at packs
  rcases packs with ⟨_, _, packing, runs, _, _, rfl⟩
  have held : ∀ entry ∈ packing.files, ∃ itemId ∈ itemIds, ∃ selected,
      sys.db.items.find? itemId = some selected ∧ Packable sys selected entry.item := by
    apply forEach_keeps_mem (fun packing => ∀ entry ∈ packing.files, ∃ itemId ∈ itemIds,
      ∃ selected, sys.db.items.find? itemId = some selected ∧
        Packable sys selected entry.item) _ _ runs
    · intro itemId among before after earlier round entry member
      rcases packItem_ok acyclic lists round with ⟨selected, top, isSelected, _, _, files, _⟩
      rw [files] at member
      rcases List.mem_append.mp member with old | added
      · exact earlier entry old
      · have selectedMem := (ItemTable.find?_eq_some.mp isSelected).1
        exact ⟨itemId, among, selected, isSelected, packable_of_partOf lists selectedMem added⟩
    · exact fun _ member => absurd member List.not_mem_nil
  exact held

end Archive

end DownloadService

/-! ## Public links -/

namespace PublicShareService

open DownloadService

variable [Platform] [Collation] {sys : System}

/-- The items that a guest asks for: without a list, the shared item itself. -/
def selection (auth : Authorized) (itemIds : Option (List Uuid)) : List Uuid :=
  itemIds.getD [auth.root.id]

/-- The link allows downloads, and all that is asked for lies in its subtree. -/
structure MayArchive (auth : Authorized) (itemIds : Option (List Uuid)) (sys : System) :
    Prop where
  permission : auth.permission ≠ .viewer
  nonempty : selection auth itemIds ≠ []
  resolves : ∀ itemId ∈ selection auth itemIds, ∃ item,
    resolveInSubtree auth.root.id itemId sys.db.items = .ok item

omit [Collation] in
theorem authorize_root_mem {links : Table ShareLink} {items : ItemTable} {now : Instant}
    {accessToken : ShareAccessToken} {auth : Authorized}
    (authorized : authorize links items now accessToken = .ok auth) : auth.root ∈ items := by
  simp only [authorize, bind_eq_ok, orRaise_eq_ok, require_eq_ok, pure_eq_ok] at authorized
  rcases authorized with ⟨_, _, _, _, _, _, _, _, root, found, _, _, rfl⟩
  exact (ItemTable.find?_eq_some.mp found).1

omit [Collation] in
theorem resolveInSubtree_inside {items : ItemTable} {rootId itemId : Uuid} {item : DriveItem}
    (resolved : resolveInSubtree rootId itemId items = .ok item) :
    items.find? itemId = some item ∧ item.isDeleted = false ∧
      AtOrAbove items.parentOf item.id rootId := by
  simp only [resolveInSubtree, bind_eq_ok, orRaise_eq_ok, require_eq_ok, pure_eq_ok] at resolved
  rcases resolved with ⟨row, found, _, live, _, walked, rfl⟩
  rcases (subtreeWalk_iff (ItemTable.find?_eq_some.mp found).1).mp walked with ⟨_, _, reached⟩
  exact ⟨found, live, atOrAbove_of_ancestor reached⟩

omit [Collation] in
/-- What the link allows is handed on to the packer, as the owner of the root. -/
theorem archive_eq {listings : Listings} {links : Table ShareLink} {now : Instant}
    {accessToken : ShareAccessToken} {auth : Authorized} {itemIds : Option (List Uuid)}
    (authorized : authorize links sys.db.items now accessToken = .ok auth)
    (may : MayArchive auth itemIds sys) :
    archive listings links now accessToken itemIds sys =
      downstream (DownloadService.archive listings auth.root.ownerId
        (selection auth itemIds) sys) := by
  have allowed : assertCanDownload auth = .ok () := require_eq_ok.mpr may.permission
  simp only [archive, authorized, ok_bind, archiveOf, allowed]
  cases itemIds with
  | none => rfl
  | some itemIds =>
      have nonempty : require (itemIds ≠ [])
          (ShareError.invalidOperation "No items selected to download") = .ok () :=
        require_eq_ok.mpr may.nonempty
      have resolves : Succeeds (itemIds.mapM fun itemId =>
          resolveInSubtree auth.root.id itemId sys.db.items) :=
        succeeds_mapM_iff.mpr may.resolves
      rcases resolves with ⟨items, resolved⟩
      simp only [nonempty, resolved, ok_bind]
      rfl

omit [Collation] in
theorem exact_downstream {listings : Listings} {userId : Uuid} {itemIds : List Uuid}
    {outcome : Except ServiceError ArchiveResult} {nothing : ServiceError} :
    Exact listings userId itemIds sys (downstream outcome) (.service nothing) ↔
      Exact listings userId itemIds sys outcome nothing := by
  cases outcome <;> simp [Exact, downstream]

end PublicShareService

namespace DownloadService

section Archives

variable [Platform] [Collation] {sys : System}

end Archives

/-! ## A guest's file in a shared folder

User 1 shares `Work` with user 2, and each of them uploads a file into it. -/

section GuestFile

attribute [local instance] smallPlatform smallCollation

private def uploadsBoth : List Op :=
  [.createFolder 1 none "Work", .shareItem 1 10 "b@example.org" .editor,
    .uploadSimple 1 (some 10) "a" [[65]] 1 none, .uploadSimple 2 (some 10) "b" [[66]] 1 none]

private def bothUploaded : System := afterFirstDay uploadsBoth

private def sharedFolder : DriveItem :=
  DriveItemRepository.newItem firstDay 1 none .folder "Work" 1

private instance smallCollation_total : LawfulCollation where
  total left right := by simpa [Collation.before] using le_total left right
  trans first second := by
    simp only [Collation.before, decide_eq_true_eq] at first second ⊢
    exact le_trans first second

private theorem bothUploaded_tree : FolderTree bothUploaded.db.items where
  acyclic := Table.parentBy_acyclic id (by decide)
  parents := by
    have hung : ∀ row ∈ bothUploaded.db.items.rows, ∀ top ∈ row.parentId,
        ∃ folder ∈ bothUploaded.db.items.rows, folder.id = top ∧ folder.itemType = .folder := by
      decide
    exact hung

private theorem owner_entitled : ∀ itemId ∈ [10], Entitled bothUploaded 1 itemId := by
  intro itemId member
  rw [List.mem_singleton.mp member]
  exact ⟨sharedFolder, rfl, rfl, some .owner, rfl, by decide⟩

private def downloadLinks : Table ShareLink :=
  ⟨[{ id := 1, itemId := 10, tokenHash := "", permission := .downloader, passwordHash := none,
      expiresAt := none, isActive := true, attemptWindowStart := none, attemptCount := 0,
      lockedUntil := none }], by decide⟩

private def downloadToken : ShareAccessToken :=
  ⟨1, 10, .downloader, 0, 0, 10⟩

private def downloadAuth : Authorized :=
  ⟨⟨1, 10, .downloader, 0⟩, sharedFolder, .downloader⟩

/-- Nothing lies below the file of user 1. -/
private theorem ownFile_keeps : ∀ itemId ∈ [12], ∀ selected,
    bothUploaded.db.items.find? itemId = some selected →
      OneOwner bothUploaded selected ∧ PagesKeep bothUploaded selected := by
  have childless : ∀ row ∈ bothUploaded.db.items.rows, row.parentId ≠ some 12 := by decide
  intro itemId member selected found
  have isFile : selected.id = 12 :=
    (ItemTable.find?_eq_some.mp found).2.trans (List.mem_singleton.mp member)
  constructor
  · intro item _ below
    rw [isFile] at below
    cases below with
    | child rowMem hung => exact absurd hung (childless _ rowMem)
    | deeper rowMem hung => exact absurd hung (childless _ rowMem)
  · intro folder walked child among
    rcases mem_children.mp among with ⟨rowMem, _, _, hung⟩
    rcases walked with rfl | ⟨names, below, _⟩
    · exact absurd (isFile ▸ hung) (childless _ rowMem)
    · rw [isFile] at below
      cases below with
      | child first =>
          rcases mem_children.mp first with ⟨firstMem, _, _, inFile⟩
          exact absurd inFile (childless _ firstMem)
      | deeper first =>
          rcases mem_children.mp first with ⟨firstMem, _, _, inFile⟩
          exact absurd inFile (childless _ firstMem)

end GuestFile

end DownloadService

end CloudDrive
