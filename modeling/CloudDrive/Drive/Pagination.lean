import CloudDrive.Drive.Listing
import CloudDrive.Foundation.Pages

/-! # Paging through a folder

The order of `list_children` leaves rows of the same kind with the same key together.
The database lists them in any order, and every page is a query of its own. -/

namespace CloudDrive

open Outcome DriveItemRepository

/-- The order of texts is a linear preorder. -/
class LawfulCollation [Collation] : Prop where
  total : ∀ left right, Collation.before left right = true ∨ Collation.before right left = true
  trans : ∀ {left middle right}, Collation.before left middle = true →
    Collation.before middle right = true → Collation.before left right = true

section Order

variable [Collation] {sortBy : DriveItemSortField} {order : SortOrder}

/-- Folders come before files. -/
theorem sortsBefore_apart {left right : DriveItem} (apart : left.itemType ≠ right.itemType) :
    sortsBefore sortBy order left right = true ↔ left.itemType = .folder := by
  rw [show sortsBefore sortBy order left right = decide (left.itemType = .folder) from
    if_neg apart, decide_eq_true_eq]

theorem sortsBefore_asc {left right : DriveItem} (same : left.itemType = right.itemType) :
    sortsBefore sortBy .asc left right = columnBefore sortBy left right := if_pos same

theorem sortsBefore_desc {left right : DriveItem} (same : left.itemType = right.itemType) :
    sortsBefore sortBy .desc left right = columnBefore sortBy right left := if_pos same

theorem columnBefore_total [LawfulCollation] (left right : DriveItem) :
    columnBefore sortBy left right = true ∨ columnBefore sortBy right left = true := by
  cases sortBy with
  | name => exact LawfulCollation.total left.name right.name
  | createdAt => simpa [columnBefore] using Nat.le_total left.createdAt right.createdAt
  | updatedAt => simpa [columnBefore] using Nat.le_total left.updatedAt right.updatedAt
  | sizeBytes => simpa [columnBefore] using Nat.le_total left.sizeBytes right.sizeBytes

theorem columnBefore_trans [LawfulCollation] {left middle right : DriveItem}
    (first : columnBefore sortBy left middle = true)
    (second : columnBefore sortBy middle right = true) :
    columnBefore sortBy left right = true := by
  cases sortBy with
  | name => exact LawfulCollation.trans first second
  | createdAt | updatedAt | sizeBytes =>
      simp only [columnBefore, decide_eq_true_eq] at first second ⊢
      exact Nat.le_trans first second

theorem sortsBefore_total [LawfulCollation] (left right : DriveItem) :
    sortsBefore sortBy order left right = true ∨ sortsBefore sortBy order right left = true := by
  by_cases same : left.itemType = right.itemType
  · cases order with
    | asc =>
        rw [sortsBefore_asc same, sortsBefore_asc same.symm]
        exact columnBefore_total left right
    | desc =>
        rw [sortsBefore_desc same, sortsBefore_desc same.symm]
        exact columnBefore_total right left
  · rw [sortsBefore_apart same, sortsBefore_apart (Ne.symm same)]
    cases isLeft : left.itemType with
    | folder => exact .inl rfl
    | file =>
        cases isRight : right.itemType with
        | folder => exact .inr rfl
        | file => exact absurd (isLeft.trans isRight.symm) same

theorem sortsBefore_trans [LawfulCollation] {left middle right : DriveItem}
    (first : sortsBefore sortBy order left middle = true)
    (second : sortsBefore sortBy order middle right = true) :
    sortsBefore sortBy order left right = true := by
  by_cases sameFirst : left.itemType = middle.itemType
  · by_cases sameSecond : middle.itemType = right.itemType
    · have same := sameFirst.trans sameSecond
      cases order with
      | asc =>
          rw [sortsBefore_asc sameFirst] at first
          rw [sortsBefore_asc sameSecond] at second
          rw [sortsBefore_asc same]
          exact columnBefore_trans first second
      | desc =>
          rw [sortsBefore_desc sameFirst] at first
          rw [sortsBefore_desc sameSecond] at second
          rw [sortsBefore_desc same]
          exact columnBefore_trans second first
    · rw [sortsBefore_apart sameSecond] at second
      rw [sortsBefore_apart (sameFirst ▸ sameSecond)]
      exact sameFirst.trans second
  · rw [sortsBefore_apart sameFirst] at first
    by_cases sameSecond : middle.itemType = right.itemType
    · rw [sortsBefore_apart (sameSecond ▸ sameFirst)]
      exact first
    · -- No file comes before a folder.
      rw [sortsBefore_apart sameSecond] at second
      exact absurd (first.trans second.symm) sameFirst

end Order

namespace DriveService

/-! ## Requests -/

/-- `Page`. -/
structure Page where
  items : List DriveItem
  total : Nat
  page : Nat
  pageSize : Nat
  pages : Nat

/-- `Page.create`. -/
def Page.create (items : List DriveItem) (total page pageSize : Nat) : Page where
  items := items
  total := total
  page := page
  pageSize := pageSize
  pages := if 0 < pageSize then Blocks.count pageSize total else 0

section Pagination

variable [Platform] [Collation] {sys : System} {userId : Uuid} {parentId : Option Uuid}
  {sortBy : DriveItemSortField} {order : SortOrder} {page pageSize : Nat}

omit [Platform] [Collation] in
theorem Page.create_pages (items : List DriveItem) (total page pageSize : Nat) :
    (Page.create items total page pageSize).pages = Blocks.count pageSize total := by
  by_cases positive : 0 < pageSize
  · exact if_pos positive
  · have zero : pageSize = 0 := Nat.eq_zero_of_not_pos positive
    rw [Page.create, if_neg positive, zero, Blocks.count, Nat.div_zero]

/-- `list_items` when the database lists the children in this order. -/
def listItemsOf (listed : List DriveItem) (userId : Uuid) (parentId : Option Uuid)
    (page pageSize : Nat) (sys : System) : Except ServiceError Page := do
  whenSome parentId fun parentId => do
    let parent ← orRaise (sys.db.items.find? parentId) (.notFound "Folder not found")
    require (parent.isDeleted = false) (.notFound "Folder not found")
    PermissionService.assertCanView sys.db userId parent
  let offset := (page - 1) * pageSize
  pure (Page.create ((listed.drop offset).take pageSize) listed.length page pageSize)

/-- Pages 1 up to `number`, the items of one after those of the other. -/
def readUpTo (listings : Nat → List DriveItem) (userId : Uuid) (parentId : Option Uuid)
    (pageSize : Nat) (sys : System) : Nat → Except ServiceError (List DriveItem)
  | 0 => .ok []
  | number + 1 => do
      let earlier ← readUpTo listings userId parentId pageSize sys number
      let next ← listItemsOf (listings number) userId parentId (number + 1) pageSize sys
      pure (earlier ++ next.items)

/-- All pages: the first one tells how many there are. -/
def readAll (listings : Nat → List DriveItem) (userId : Uuid) (parentId : Option Uuid)
    (pageSize : Nat) (sys : System) : Except ServiceError (List DriveItem) := do
  let first ← listItemsOf (listings 0) userId parentId 1 pageSize sys
  readUpTo listings userId parentId pageSize sys first.pages

/-! ## What is read -/

/-- Listing in the order of the sort is one of the ways. -/
theorem listItemsOf_sorted (userId : Uuid) (parentId : Option Uuid) (page pageSize : Nat)
    (sortBy : DriveItemSortField) (order : SortOrder) (sys : System) :
    (listItemsOf ((children sys.db parentId userId).insertionSort fun left right =>
        sortsBefore sortBy order left right = true) userId parentId page pageSize sys >>=
      fun found => .ok (found.items, found.total)) =
      listItems userId parentId page pageSize sortBy order sys := by
  rw [listItemsOf, listItems, listChildren, bind_assoc]
  apply bind_congr
  intro _
  simp only [Page.create, List.length_insertionSort]
  rfl

theorem listItemsOf_eq {found : List DriveItem × Nat}
    (readable : listItems userId parentId page pageSize sortBy order sys = .ok found)
    (listed : List DriveItem) (number size : Nat) :
    listItemsOf listed userId parentId number size sys =
      .ok (Page.create ((listed.drop ((number - 1) * size)).take size) listed.length number
        size) := by
  simp only [listItems, bind_eq_ok] at readable
  rcases readable with ⟨_, passes, _⟩
  simp only [listItemsOf, passes]
  rfl

theorem readUpTo_eq {found : List DriveItem × Nat}
    (readable : listItems userId parentId page pageSize sortBy order sys = .ok found)
    (listings : Nat → List DriveItem) (size : Nat) : ∀ number,
    readUpTo listings userId parentId size sys number = .ok (Pages.readPages size listings number)
  | 0 => rfl
  | number + 1 => by
      rw [readUpTo, readUpTo_eq readable listings size number, listItemsOf_eq readable]
      rw [Pages.readPages, Pages.readPages, List.range_succ, List.flatMap_append,
        List.flatMap_singleton]
      rfl

theorem readAll_eq {found : List DriveItem × Nat}
    (readable : listItems userId parentId page pageSize sortBy order sys = .ok found)
    (listings : Nat → List DriveItem) (size : Nat) :
    readAll listings userId parentId size sys =
      .ok (Pages.readPages size listings (Blocks.count size (listings 0).length)) := by
  rw [readAll, listItemsOf_eq readable, ok_bind, Page.create_pages, readUpTo_eq readable]

/-- All pages together hold every child of the caller that is not deleted once, in whatever
order the database lists children with equal keys for each page, exactly when no page ends
between such children. -/
theorem readAll_complete_iff [LawfulCollation] {found : List DriveItem × Nat}
    (readable : listItems userId parentId page pageSize sortBy order sys = .ok found)
    (positive : 0 < pageSize) :
    (∀ listings : Nat → List DriveItem, (∀ number, Pages.Listing (sortsBefore sortBy order)
        (children sys.db parentId userId) (listings number)) →
      ∃ items, readAll listings userId parentId pageSize sys = .ok items ∧
        items.Perm (children sys.db parentId userId)) ↔
      ∀ number, Pages.Uncut (sortsBefore sortBy order) (children sys.db parentId userId)
        (number * pageSize) := by
  have distinct : (children sys.db parentId userId).Nodup :=
    sys.db.items.nodup.of_map.filter _
  have reads : ∀ listings : Nat → List DriveItem,
      (∀ number, Pages.Listing (sortsBefore sortBy order) (children sys.db parentId userId)
        (listings number)) →
      readAll listings userId parentId pageSize sys =
        .ok (Pages.readPages pageSize listings
          (Blocks.count pageSize (children sys.db parentId userId).length)) := by
    intro listings listing
    rw [readAll_eq readable, (listing 0).perm.length_eq]
  rw [← Pages.complete_iff distinct sortsBefore_total sortsBefore_trans positive]
  constructor
  · intro complete listings listing
    rcases complete listings listing with ⟨items, read, perm⟩
    cases (reads listings listing).symm.trans read
    exact perm
  · intro complete listings listing
    exact ⟨_, reads listings listing, complete listings listing⟩

end Pagination

/-! ## Two folders of the same size -/

section TwoFolders

attribute [local instance] smallPlatform smallCollation

private def twoFolders : List Op :=
  [.createFolder 1 none "a", .createFolder 1 none "b"]

private def withFolders : System := afterFirstDay twoFolders

private instance smallCollation_lawful : LawfulCollation where
  total left right := by simpa [Collation.before] using le_total left right
  trans first second := by
    simp only [Collation.before, decide_eq_true_eq] at first second ⊢
    exact le_trans first second

private theorem root_readable : listItems 1 none 1 1 .sizeBytes .asc withFolders =
    .ok (listChildren withFolders.db none 1 .sizeBytes .asc 0 1) := rfl

theorem readAll_complete_iff_twoFolders :
    (∀ listings : Nat → List DriveItem, (∀ number, Pages.Listing (sortsBefore .sizeBytes .asc)
        (children withFolders.db none 1) (listings number)) →
      ∃ items, readAll listings 1 none 1 withFolders = .ok items ∧
        items.Perm (children withFolders.db none 1)) ↔
      ∀ number, Pages.Uncut (sortsBefore .sizeBytes .asc) (children withFolders.db none 1)
        (number * 1) :=
  readAll_complete_iff root_readable Nat.one_pos

/-- Both pages hold `a` when the folders change places between the queries. -/
theorem readAll_misses_b :
    ∃ listings : Nat → List DriveItem, (∀ number, Pages.Listing (sortsBefore .sizeBytes .asc)
        (children withFolders.db none 1) (listings number)) ∧
      (children withFolders.db none 1).map DriveItem.name = ["a", "b"] ∧
      ∃ items, readAll listings 1 none 1 withFolders = .ok items ∧
        items.map DriveItem.name = ["a", "a"] ∧
        ¬ items.Perm (children withFolders.db none 1) := by
  let inOrder := children withFolders.db none 1
  have swapped : Pages.Listing (sortsBefore .sizeBytes .asc) inOrder inOrder.reverse :=
    ⟨List.reverse_perm _, by decide⟩
  have sorted : Pages.Listing (sortsBefore .sizeBytes .asc) inOrder inOrder :=
    ⟨.refl _, by decide⟩
  let listings : Nat → List DriveItem := fun number =>
    if number = 0 then inOrder else inOrder.reverse
  apply Exists.intro listings
  constructor
  · intro number
    by_cases first : number = 0
    · simpa only [listings, if_pos first] using sorted
    · simpa only [listings, if_neg first] using swapped
  · apply And.intro (by decide)
    apply Exists.intro _
    apply And.intro (readAll_eq root_readable listings 1)
    apply And.intro (by decide)
    intro perm
    have names := perm.map DriveItem.name
    revert names
    decide

end TwoFolders

end DriveService

end CloudDrive
