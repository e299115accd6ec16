import CloudDrive.Foundation.Blocks
import CloudDrive.Drive.Browsing

/-! # The pages of a folder

`list_items` checks the permission on the folder, which goes down to its children
whoever owns them, and then lists the children that the caller owns. -/

namespace CloudDrive

open Outcome DriveItemRepository

namespace DriveService

section Listing

variable [Platform] [Collation] {sys : System} {userId : Uuid} {folder : DriveItem}
  {sortBy : DriveItemSortField} {order : SortOrder} {pageSize : Nat}

/-- The items of the first pages, one page after the other. -/
def readPages (userId folderId : Uuid) (pageSize : Nat) (sortBy : DriveItemSortField)
    (order : SortOrder) (sys : System) : Nat → Except ServiceError (List DriveItem)
  | 0 => .ok []
  | pages + 1 => do
      let earlier ← readPages userId folderId pageSize sortBy order sys pages
      let (items, _) ← listItems userId (some folderId) (pages + 1) pageSize sortBy order sys
      pure (earlier ++ items)

/-- The items in a folder that are not deleted, whoever owns them. -/
def liveChildren (db : Database) (folderId : Uuid) : List DriveItem :=
  db.items.rows.filter fun item =>
    decide (item.isDeleted = false ∧ item.parentId = some folderId)

/-- `user_id` has at least viewer permission on the folder. -/
def CanView (db : Database) (userId : Uuid) (folder : DriveItem) : Prop :=
  ∃ perm, PermissionService.getPermission db userId folder = .ok perm ∧
    Permission.viewer.level ≤ levelOf perm

omit [Collation] in
theorem CanView.asserts (views : CanView sys.db userId folder) :
    PermissionService.assertCanView sys.db userId folder = .ok () := by
  rcases views with ⟨perm, runs, enough⟩
  simp only [PermissionService.assertCanView, bind_eq_ok, require_eq_ok]
  exact ⟨perm, runs, hasAtLeast_iff.mpr enough⟩

/-- A page that a viewer asks for is the block of the caller's children. -/
theorem listItems_page (member : folder ∈ sys.db.items) (live : folder.isDeleted = false)
    (views : CanView sys.db userId folder) (page : Nat) :
    listItems userId (some folder.id) (page + 1) pageSize sortBy order sys =
      .ok (Blocks.block pageSize
        ((children sys.db (some folder.id) userId).insertionSort fun left right =>
          sortsBefore sortBy order left right = true) page,
        (children sys.db (some folder.id) userId).length) := by
  simp only [listItems, whenSome, bind_eq_ok, orRaise_eq_ok, require_eq_ok, pure_eq_ok]
  exact ⟨(), ⟨folder, ItemTable.find?_id member, (), live, views.asserts⟩, rfl⟩

theorem readPages_eq (member : folder ∈ sys.db.items) (live : folder.isDeleted = false)
    (views : CanView sys.db userId folder) : ∀ pages,
    readPages userId folder.id pageSize sortBy order sys pages =
      .ok (((children sys.db (some folder.id) userId).insertionSort fun left right =>
        sortsBefore sortBy order left right = true).take (pages * pageSize))
  | 0 => by rw [Nat.zero_mul, List.take_zero, readPages]
  | pages + 1 => by
      simp only [readPages, readPages_eq member live views pages, listItems_page member live views,
        bind_eq_ok, pure_eq_ok]
      apply Exists.intro _
      apply And.intro rfl
      apply Exists.intro _
      apply And.intro rfl
      rw [← Blocks.flatMap_block, ← Blocks.flatMap_block, List.range_succ, List.flatMap_append,
        List.flatMap_singleton]

omit [Collation] in
theorem children_perm_iff {folderId : Uuid} :
    (children sys.db (some folderId) userId).Perm (liveChildren sys.db folderId) ↔
      ∀ item ∈ liveChildren sys.db folderId, item.ownerId = userId := by
  constructor
  · intro perm item member
    exact (mem_children.mp (perm.mem_iff.mpr member)).2.1
  · intro owned
    have same : children sys.db (some folderId) userId = liveChildren sys.db folderId := by
      apply List.filter_congr
      intro item member
      rw [Bool.eq_iff_iff, decide_eq_true_iff, decide_eq_true_iff]
      constructor
      · exact fun all => all.2
      · intro both
        have listed : item ∈ liveChildren sys.db folderId :=
          List.mem_filter.mpr ⟨member, decide_eq_true both⟩
        exact ⟨owned item listed, both⟩
    rw [same]

end Listing

/-! ## A shared folder

User 1 shares `Work` with user 2, and both have a folder in it. -/

section SharedFolder

attribute [local instance] smallPlatform smallCollation

private def shareWork : List Op :=
  [.createFolder 1 none "Work", .createFolder 1 (some 10) "a",
    .shareItem 1 10 "b@example.org" .editor, .createFolder 2 (some 10) "b"]

private def sharedWork : System := afterFirstDay shareWork

private def workFolder : DriveItem :=
  newItem firstDay 1 none .folder "Work" 1

private theorem guest_views : CanView sharedWork.db 2 workFolder := ⟨some .editor, rfl, by decide⟩

end SharedFolder

end DriveService

end CloudDrive
