import CloudDrive.Drive.Numbering

/-! # Taking an item out of the trash

`restore` decides on the parent and the name before it writes, and then writes in up to
three flushes: the item comes to life under its old name in its old folder, is moved, and is
renamed. The first of them is where the unique index may refuse. -/

namespace CloudDrive

open Outcome Relational

namespace TrashService

open TrashRepository DriveItemRepository

section Recovery

variable [Platform]

/-! ## What is promised -/

/-- The item is live again, in its old folder if that is live and at the root otherwise,
under the first of its numbered names that no live item of its owner bears there. -/
structure Recovered (items after : ItemTable) (item : DriveItem) : Prop where
  row : ∃ new, ItemTable.Replaced items after item new ∧ SameContent new item ∧
    new.isDeleted = false ∧
    (∀ folder ∈ items, item.parentId = some folder.id → folder.isDeleted = false →
      new.parentId = item.parentId) ∧
    ((∀ folder ∈ items, item.parentId = some folder.id → folder.isDeleted = true) →
      new.parentId = none) ∧
    ∃ round, new.name = variant item.name round ∧
      NotTaken items new.parentId item.ownerId new.name ∧
      ∀ earlier < round, ¬ NotTaken items new.parentId item.ownerId (variant item.name earlier)

/-- The restore passes every flush and keeps the promise. -/
def Restores (userId : Uuid) (item : DriveItem) (sys : System) : Prop :=
  ∃ items, restore userId item.id sys = .ok (sys.withItems items) ∧
    Recovered sys.db.items items item

/-- No live item has the old place of the item, up to case. -/
def OldPlaceFree (items : ItemTable) (item : DriveItem) : Prop :=
  ∀ row ∈ items.rows, row.isDeleted = false → row.ownerId = item.ownerId →
    item.parentId ≠ none → row.parentId = item.parentId →
    Platform.lower row.name ≠ Platform.lower item.name

/-- The old place is free, also when the item does not return to it, and the numbering
stops at a name that fits its column. -/
structure Recoverable (items : ItemTable) (item : DriveItem) : Prop where
  oldPlace : OldPlaceFree items item
  named : ∃ round, StopsAt items (restoreParent items item) item.ownerId item.name round ∧
    (variant item.name round).length ≤ 512

/-! ## The parent -/

theorem restoreParent_live {items : ItemTable} {item folder : DriveItem}
    (member : folder ∈ items) (inside : item.parentId = some folder.id)
    (live : folder.isDeleted = false) : restoreParent items item = item.parentId := by
  rw [restoreParent, inside]
  simp [ItemTable.find?_id member, live]

theorem restoreParent_gone {items : ItemTable} {item : DriveItem}
    (gone : ∀ folder ∈ items, item.parentId = some folder.id → folder.isDeleted = true) :
    restoreParent items item = none := by
  rw [restoreParent]
  cases inside : item.parentId with
  | none => rfl
  | some parentId =>
      cases found : items.find? parentId with
      | none => simp [found]
      | some folder =>
          rcases ItemTable.find?_eq_some.mp found with ⟨member, rfl⟩
          simp [found, gone folder member inside]

/-! ## The three flushes -/

/-- At the root the index refuses nothing. -/
theorem indexAllows_root {items : ItemTable} {row : DriveItem} (atRoot : row.parentId = none) :
    items.IndexAllows row := by
  intro other _ _ same
  rcases same with ⟨_, _, _, nested, sameParent, _⟩
  rw [sameParent] at nested
  exact nested atRoot

theorem indexAllows_markedRestored {sys : System} {item : DriveItem}
    (member : item ∈ sys.db.items) (trashed : item.isDeleted = true) :
    sys.db.items.IndexAllows (markedRestored sys item) ↔ OldPlaceFree sys.db.items item := by
  constructor
  · intro allows row rowMem live owned nested sameParent sameName
    have different : row.id ≠ item.id := by
      intro sameId
      rw [ItemTable.eq_of_id_eq rowMem member sameId, trashed] at live
      cases live
    exact allows row rowMem different
      ⟨live, rfl, owned, sameParent ▸ nested, sameParent, sameName⟩
  · intro free other otherMem _ same
    rcases same with ⟨live, _, owned, nested, sameParent, sameName⟩
    have inside : other.parentId = item.parentId := sameParent
    exact free other otherMem live owned (inside ▸ nested) inside sameName

/-- Beside a free old place the name of an item that goes back there is free. -/
theorem round_eq_zero {items : ItemTable} {item : DriveItem}
    (oldPlace : OldPlaceFree items item) (returns : restoreParent items item = item.parentId)
    (nested : item.parentId ≠ none) {round : Nat}
    (stops : StopsAt items (restoreParent items item) item.ownerId item.name round) :
    round = 0 := by
  by_contra later
  have taken := stops.1 0 (Nat.pos_of_ne_zero later)
  rcases List.length_eq_one_iff.mp taken with ⟨row, found⟩
  have selected : row ∈ sameName items (variant item.name 0) (restoreParent items item)
      item.ownerId none := by
    rw [found]
    exact List.mem_singleton_self row
  rcases List.mem_filter.mp selected with ⟨member, fields⟩
  rcases of_decide_eq_true fields with ⟨owned, live, named, inside, _⟩
  have sameName : row.name = item.name := named
  exact oldPlace row member live owned nested (inside.trans returns)
    (congrArg Platform.lower sameName)

/-- The move of an item that has come to life, to the root if it moves at all. -/
theorem rehang_succeeds (userId : Uuid) {sys : System} {item revived : DriveItem}
    {parentId : Option Uuid} {first : ItemTable}
    (returns : parentId = item.parentId ∨ parentId = none)
    (replaced : ItemTable.Replaced sys.db.items first item revived)
    (sameParent : revived.parentId = item.parentId) (sameName : revived.name = item.name) :
    ∃ second hung,
      (if parentId ≠ item.parentId then
        updateParent item.id parentId userId (sys.withItems first)
        else pure (sys.withItems first)) = .ok (sys.withItems second) ∧
      ItemTable.Replaced sys.db.items second item hung ∧ hung.parentId = parentId ∧
      hung.name = item.name := by
  by_cases moves : parentId ≠ item.parentId
  · have root := returns.resolve_left moves
    have rehangs : ∃ second, first.change revived.id
        (reparented (sys.withItems first) parentId userId) = .ok second := by
      apply (ItemTable.change_taken_iff replaced.newMem rfl _ _).mpr
      · exact indexAllows_root root
      · exact first.fits revived replaced.newMem
      · intro top isParent
        have atRoot : (reparented (sys.withItems first) parentId userId revived).parentId =
            none := root
        rw [atRoot] at isParent
        cases isParent
    rcases rehangs with ⟨second, changed⟩
    have hung := ItemTable.change_replaced replaced.newMem rfl changed
    rw [replaced.sameId] at changed
    rw [if_pos moves]
    apply Exists.intro second
    apply Exists.intro _
    apply And.intro _ ⟨replaced.trans hung, rfl, sameName⟩
    simp only [updateParent, bind_eq_ok, pure_eq_ok]
    exact ⟨second, changed, rfl⟩
  · rw [if_neg moves]
    exact ⟨first, revived, rfl, replaced, sameParent.trans (not_not.mp moves).symm, sameName⟩

theorem rename_succeeds (userId : Uuid) {sys : System} {item hung : DriveItem} {name : String}
    {second : ItemTable} (replaced : ItemTable.Replaced sys.db.items second item hung)
    (short : name.length ≤ 512) (root : hung.parentId = none) :
    ∃ after, updateName item.id name userId (sys.withItems second) = .ok after := by
  have renames : ∃ third, second.change hung.id
      (renamed (sys.withItems second) name userId) = .ok third := by
    apply (ItemTable.change_taken_iff replaced.newMem rfl _ _).mpr
    · exact indexAllows_root root
    · exact ⟨short, (second.fits hung replaced.newMem).2⟩
    · exact second.parentsExist hung replaced.newMem
  rcases renames with ⟨third, changed⟩
  rw [replaced.sameId] at changed
  simp only [updateName, bind_eq_ok, pure_eq_ok]
  exact ⟨_, third, changed, rfl⟩

theorem restore_succeeds_iff {userId : Uuid} {sys : System} {item : DriveItem}
    (member : item ∈ sys.db.items) (owned : item.ownerId = userId)
    (trashed : item.isDeleted = true) :
    (∃ after, restore userId item.id sys = .ok after) ↔ Recoverable sys.db.items item := by
  have found := ItemTable.find?_id member
  have parentsExist := sys.db.items.parentsExist item member
  constructor
  · intro restores
    rcases restores with ⟨after, runs⟩
    rcases restore_ok runs with ⟨old, oldMem, sameId, _, _, items, new, replaced, _, _, parent,
      resolved, _⟩
    cases ItemTable.eq_of_id_eq oldMem member sameId
    constructor
    case oldPlace =>
      simp only [restore, found, bind_eq_ok, orRaise_eq_ok] at runs
      rcases runs with ⟨_, isItem, _, _, _, _, _, _, first, marked, _⟩
      cases isItem
      apply (indexAllows_markedRestored member trashed).mp
      exact ((ItemTable.change_taken member rfl).mp ⟨first, marked⟩).2.1
    case named =>
      rcases resolveName_eq_ok_iff.mp resolved with ⟨round, isName, stops⟩
      rw [parent, ← owned] at stops
      apply Exists.intro round
      apply And.intro stops
      rw [← isName]
      exact (items.fits new replaced.newMem).1
  · intro recoverable
    rcases recoverable.named with ⟨round, stops, short⟩
    have resolved : resolveName sys.db.items (restoreParent sys.db.items item) userId item.name =
        .ok (variant item.name round) :=
      resolveName_eq_ok_iff.mpr ⟨round, rfl, owned ▸ stops⟩
    have revives : ∃ first, sys.db.items.change item.id (markedRestored sys) = .ok first :=
      (ItemTable.change_taken_iff member rfl (sys.db.items.fits item member) parentsExist).mpr
        ((indexAllows_markedRestored member trashed).mpr recoverable.oldPlace)
    rcases revives with ⟨first, marked⟩
    have revived := ItemTable.change_replaced member rfl marked
    rcases rehang_succeeds userId (restoreParent_cases sys.db.items item) revived rfl rfl with
      ⟨second, hung, rehangs, replaced, hungParent, hungName⟩
    have renames : ∃ after, (if variant item.name round ≠ item.name then
        updateName item.id (variant item.name round) userId (sys.withItems second)
        else pure (sys.withItems second)) = .ok after := by
      split
      · rename_i changes
        apply rename_succeeds userId replaced short
        rw [hungParent]
        rcases restoreParent_cases sys.db.items item with returns | root
        · rw [returns]
          by_contra nested
          rw [round_eq_zero recoverable.oldPlace returns nested stops] at changes
          exact changes rfl
        · exact root
      · exact ⟨_, rfl⟩
    rcases renames with ⟨after, renames⟩
    apply Exists.intro after
    simp only [restore, bind_eq_ok, orRaise_eq_ok, require_eq_ok]
    refine ⟨item, found, (), owned, (), trashed, _, resolved, first, marked, ?_⟩
    by_cases moves : restoreParent sys.db.items item ≠ item.parentId
    · rw [if_pos moves] at rehangs ⊢
      rw [rehangs]
      exact renames
    · rw [if_neg moves] at rehangs ⊢
      rw [rehangs]
      exact renames

theorem not_free_of_taken {items : ItemTable} {parentId : Option Uuid} {ownerId : Uuid}
    {name : String} (taken : TakenOnce items parentId ownerId name) :
    ¬ NotTaken items parentId ownerId name := by
  intro free
  have none : (sameName items name parentId ownerId none).length = 0 := by rw [free]; rfl
  rw [TakenOnce, none] at taken
  cases taken

/-- A trashed item of the caller is restored as promised exactly when it is recoverable. -/
theorem restores_iff {userId : Uuid} {sys : System} {item : DriveItem}
    (member : item ∈ sys.db.items) (owned : item.ownerId = userId)
    (trashed : item.isDeleted = true) :
    Restores userId item sys ↔ Recoverable sys.db.items item := by
  rw [← restore_succeeds_iff member owned trashed]
  constructor
  · intro restores
    rcases restores with ⟨items, runs, _⟩
    exact ⟨_, runs⟩
  · intro succeeds
    rcases succeeds with ⟨after, runs⟩
    rcases restore_ok runs with ⟨old, oldMem, sameId, _, _, items, new, replaced, content, live,
      parent, resolved, rfl⟩
    cases ItemTable.eq_of_id_eq oldMem member sameId
    rcases resolveName_eq_ok_iff.mp resolved with ⟨round, isName, before, free⟩
    apply Exists.intro items
    apply And.intro runs
    constructor
    apply Exists.intro new
    apply And.intro replaced
    apply And.intro content
    apply And.intro live
    constructor
    · intro folder folderMem inside folderLive
      rw [parent, restoreParent_live folderMem inside folderLive]
    constructor
    · intro gone
      rw [parent, restoreParent_gone gone]
    · apply Exists.intro round
      apply And.intro isName
      rw [owned]
      exact ⟨isName ▸ free, fun earlier less => not_free_of_taken (before earlier less)⟩

end Recovery

/-! ## A name that is in use again

`a` goes to the trash and another `a` is made in its folder. -/

section InUseAgain

attribute [local instance] smallPlatform

private def trashAndRemake : List Op :=
  [.createFolder 1 none "Work", .createFolder 1 (some 10) "a", .trashItem 1 11,
    .createFolder 1 (some 10) "a"]

private def remade : System := afterFirstDay trashAndRemake

private def trashedFolder : DriveItem :=
  markedDeleted firstDay (newItem { firstDay with seed := 11 } 1 (some 10) .folder "a" 1)

theorem restores_iff_remade :
    Restores 1 trashedFolder remade ↔ Recoverable remade.db.items trashedFolder :=
  restores_iff (ItemTable.mem_rows.mp (by decide)) rfl rfl

/-- The name is in use, so the item cannot come to life under it, and no numbered name is
reached. -/
theorem remade_refused :
    Op.commitAll trashAndRemake firstDay = .ok remade ∧
    resolveName remade.db.items (some 10) 1 "a" = .ok "a (1)" ∧
    restore 1 11 remade = .error .integrityError ∧
    ¬ Restores 1 trashedFolder remade := by
  have refused : restore 1 11 remade = .error .integrityError := rfl
  apply And.intro rfl
  apply And.intro (by decide)
  apply And.intro refused
  intro restores
  rcases restores with ⟨items, runs, _⟩
  cases refused.symm.trans runs

end InUseAgain

end TrashService

end CloudDrive
