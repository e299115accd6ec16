import CloudDrive.Drive.Tree

/-! # Emptying the trash

Deleting one trashed item takes its whole subtree, the live part and further
trashed items in it included. Emptying the trash does so for every trashed item
whose parent is not itself trashed, one after the other. -/

namespace CloudDrive

open Outcome Relational Forest Relation Execution

namespace TrashService

section Emptying

variable [Platform]

/-! ## Deleting a subtree row by row -/

private theorem remove_runs {items : ItemTable} {itemId : Uuid}
    (childless : ∀ row ∈ items, row.parentId = some itemId → row.id = itemId) :
    ∃ after, items.remove itemId = .ok after := by
  apply flush_eq_ok_iff.mpr
  rcases items.consistent with ⟨distinct, fits, slotsFree, parentsExist⟩
  refine ⟨distinct.sublist (List.filter_sublist.map _), ?_, slotsFree.filter _, ?_⟩
  · exact fun row member => fits row (List.mem_filter.mp member).1
  · intro row member top named
    rcases List.mem_filter.mp member with ⟨rowMem, different⟩
    rcases List.mem_map.mp (parentsExist row rowMem top named) with ⟨parent, parentMem, rfl⟩
    apply List.mem_map_of_mem
    refine List.mem_filter.mpr ⟨parentMem, decide_eq_true ?_⟩
    intro same
    rw [same] at named
    exact of_decide_eq_true different (childless row rowMem named)

/-- The rows can be deleted in this order: no row goes before a child of it. -/
structure Deletable (items : ItemTable) (rows : List DriveItem) : Prop where
  closed : ∀ row ∈ rows, ∀ child ∈ items, child.parentId = some row.id → child ∈ rows
  childrenFirst : rows.Pairwise fun earlier later => later.parentId ≠ some earlier.id

/-- What is left can go in the same order once the first row is gone. -/
theorem Deletable.rest {item : DriveItem} {rest : List DriveItem} {sys middle : System}
    (deletable : Deletable sys.db.items (item :: rest)) (erased : Erased [item.id] sys middle) :
    Deletable middle.db.items rest := by
  constructor
  case closed =>
    intro row rowMem child childMem named
    rcases (erased.items child).mp childMem with ⟨before, different⟩
    rcases List.mem_cons.mp (deletable.closed row (List.mem_cons_of_mem _ rowMem) child
      before named) with rfl | later
    · exact absurd (List.mem_singleton_self _) different
    · exact later
  case childrenFirst => exact (List.pairwise_cons.mp deletable.childrenFirst).2

theorem deleteRows_run : ∀ {rows : List DriveItem} {reclaimed : Reclaimed}
    {sys : System}, Deletable sys.db.items rows →
    ∃ state, forEach deleteRow rows (reclaimed, sys) = .ok state
  | [], reclaimed, sys, _ => ⟨_, rfl⟩
  | item :: rest, reclaimed, sys, deletable => by
      have order := List.pairwise_cons.mp deletable.childrenFirst
      have childless : ∀ row ∈ sys.db.items, row.parentId = some item.id →
          row.id = item.id := by
        intro row member named
        rcases List.mem_cons.mp (deletable.closed item List.mem_cons_self row member named)
          with rfl | later
        · rfl
        · exact absurd named (order.1 row later)
      rcases remove_runs childless with ⟨items, removed⟩
      have first : ∃ state, deleteRow item (reclaimed, sys) = .ok state := by
        simp only [deleteRow, TrashRepository.hardDelete, bind_eq_ok, pure_eq_ok]
        by_cases isFile : item.itemType = .file
        · simp only [isFile, if_true]
          exact ⟨_, _, ⟨items, removed, rfl⟩, rfl⟩
        · simp only [isFile, if_false]
          exact ⟨_, _, ⟨items, removed, rfl⟩, rfl⟩
      rcases first with ⟨⟨middleReclaimed, middle⟩, deleted⟩
      have erased := (deleteRow_ok deleted).1
      rcases deleteRows_run (deletable.rest erased) with ⟨state, later⟩
      exact ⟨state, by rw [forEach_cons, bind_eq_ok]; exact ⟨_, deleted, later⟩⟩

/-- The descent finds the rows below the item, and their reverse is an order in
which they can go. -/
theorem descendants_runs {sys : System} (tree : FolderTree sys.db.items) {item : DriveItem}
    (member : item ∈ sys.db.items) :
    ∃ below, descendants sys item = .ok below ∧
      (∀ row, row ∈ below ↔
        row ∈ sys.db.items ∧ Above sys.db.items.parentOf row.id item.id) ∧
      Deletable sys.db.items (below.reverse ++ [item]) := by
  have found : ∃ below, descendants sys item = .ok below ∧
      (∀ row, row ∈ below ↔
        row ∈ sys.db.items ∧ Above sys.db.items.parentOf row.id item.id) ∧
      below.Pairwise fun earlier later => earlier.parentId ≠ some later.id := by
    by_cases isFile : item.itemType = .file
    · refine ⟨[], by simp [descendants, isFile, pure, Except.pure], ?_, .nil⟩
      intro row
      have nothing : ¬ Above sys.db.items.parentOf row.id item.id :=
        tree.not_above member (by simp [isFile])
      simp [nothing]
    · rcases Table.breadthFirst_spec tree.acyclic item.id with
        ⟨below, runs, isBelow, _, parentsFirst⟩
      refine ⟨below, ?_, isBelow, parentsFirst⟩
      simp only [descendants, isFile, if_false, TrashRepository.getChildrenRecursive, runs]
      rfl
  rcases found with ⟨below, runs, isBelow, parentsFirst⟩
  refine ⟨below, runs, isBelow, ?_, ?_⟩
  · intro row rowMem child childMem named
    have step : Up sys.db.items.parentOf child.id row.id :=
      (ItemTable.parentOf_id childMem).trans named
    apply List.mem_append_left
    apply List.mem_reverse.mpr
    apply (isBelow child).mpr
    rcases List.mem_append.mp rowMem with among | isItem
    · exact ⟨childMem, .head step ((isBelow row).mp (List.mem_reverse.mp among)).2⟩
    · rw [List.mem_singleton.mp isItem] at step
      exact ⟨childMem, .single step⟩
  · apply List.pairwise_append.mpr
    refine ⟨List.pairwise_reverse.mpr parentsFirst, List.pairwise_singleton _ _, ?_⟩
    intro earlier earlierMem later laterMem named
    rw [List.mem_singleton.mp laterMem] at named
    have above := ((isBelow earlier).mp (List.mem_reverse.mp earlierMem)).2
    exact tree.acyclic item.id
      (.head ((ItemTable.parentOf_id member).trans named) above)

/-! ## Deleting one trashed item -/

theorem permanentDelete_runs {sys : System} (shaped : TreeShaped sys) {userId : Uuid}
    {item : DriveItem} (member : item ∈ sys.db.items) (owned : item.ownerId = userId)
    (trashed : item.isDeleted = true) :
    ∃ after, permanentDelete userId item.id sys = .ok after := by
  rcases descendants_runs shaped.folderTree member with ⟨below, isBelow, _, deletable⟩
  rcases deleteRows_run deletable with ⟨state, deleted⟩
  simp only [permanentDelete, bind_eq_ok, orRaise_eq_ok, require_eq_ok, pure_eq_ok]
  exact ⟨_, item, ItemTable.find?_id member, (), owned, (), trashed, below, isBelow, state,
    deleted, rfl⟩

/-- What a deletion leaves: every item that is not at or below the deleted one. -/
theorem permanentDelete_items {sys after : System} (shaped : TreeShaped sys)
    {userId itemId : Uuid} (runs : permanentDelete userId itemId sys = .ok after)
    (row : DriveItem) : row ∈ after.db.items ↔
      row ∈ sys.db.items ∧ ¬ AtOrAbove sys.db.items.parentOf row.id itemId := by
  rcases permanentDelete_ok runs with
    ⟨item, member, rfl, _, _, below, isBelow, reclaimed, middle, erased, _, rfl⟩
  rcases descendants_runs shaped.folderTree member with ⟨others, runsAlso, belowIff, _⟩
  cases isBelow.symm.trans runsAlso
  rcases settle_eq userId reclaimed middle with ⟨users, same⟩
  rw [same]
  show row ∈ middle.db.items ↔ _
  rw [erased.items, and_congr_right_iff]
  intro rowMem
  apply not_congr
  rw [List.map_append, List.mem_append, List.map_singleton, List.mem_singleton, atOrAbove_iff]
  constructor
  · intro either
    rcases either with among | same
    · rcases List.mem_map.mp among with ⟨other, otherMem, sameId⟩
      exact .inr (sameId ▸ ((belowIff other).mp (List.mem_reverse.mp otherMem)).2)
    · exact .inl same
  · intro either
    rcases either with same | above
    · exact .inr same
    · exact .inl (List.mem_map_of_mem
        (List.mem_reverse.mpr ((belowIff row).mpr ⟨rowMem, above⟩)))

/-- Above an item that stays, the tree stays. -/
private theorem path_stays {sys after : System} (shaped : TreeShaped sys) {userId itemId : Uuid}
    (runs : permanentDelete userId itemId sys = .ok after) {row : DriveItem}
    (stays : row ∈ after.db.items) {top : Uuid} :
    AtOrAbove after.db.items.parentOf row.id top ↔ AtOrAbove sys.db.items.parentOf row.id top := by
  have items := permanentDelete_items shaped runs
  constructor
  · intro path
    apply ReflTransGen.mono _ _ _ path
    intro node up step
    rcases ItemTable.parentOf_eq_some.mp step with ⟨child, childMem, sameId, points⟩
    exact ItemTable.parentOf_eq_some.mpr
      ⟨child, ((items child).mp childMem).1, sameId, points⟩
  · intro path
    generalize start : row.id = node at path
    induction path using ReflTransGen.head_induction_on generalizing row with
    | refl => exact .refl
    | @head node up step _ induction =>
        subst start
        rcases (items row).mp stays with ⟨rowMem, outside⟩
        have points := (ItemTable.parentOf_id rowMem).symm.trans step
        rcases ItemTable.parent_mem rowMem points with ⟨parent, parentMem, rfl⟩
        have parentStays : parent ∈ after.db.items := by
          apply (items parent).mpr ⟨parentMem, ?_⟩
          exact fun under => outside (.head step under)
        exact .head ((ItemTable.parentOf_id stays).trans points) (induction parentStays rfl)

/-! ## The loop -/

/-- Every item of the list is a trashed item of the user. -/
def AllTrashed (userId : Uuid) (items : ItemTable) (rows : List DriveItem) : Prop :=
  ∀ row ∈ rows, row ∈ items ∧ row.ownerId = userId ∧ row.isDeleted = true

private theorem deleteAll_runs {userId : Uuid} : ∀ {rows : List DriveItem} {sys : System},
    TreeShaped sys → AllTrashed userId sys.db.items rows →
    (rows.Pairwise fun earlier later =>
      ¬ AtOrAbove sys.db.items.parentOf later.id earlier.id) →
    ∃ after, forEach (fun item sys => permanentDelete userId item.id sys) rows sys = .ok after ∧
      ∀ row, row ∈ after.db.items ↔ row ∈ sys.db.items ∧
        ∀ item ∈ rows, ¬ AtOrAbove sys.db.items.parentOf row.id item.id
  | [], sys, _, _, _ => ⟨sys, rfl, fun row => by simp⟩
  | item :: rest, sys, shaped, trashed, apart => by
      rcases trashed item List.mem_cons_self with ⟨member, owned, isTrashed⟩
      rcases permanentDelete_runs shaped member owned isTrashed with ⟨middle, first⟩
      rcases List.pairwise_cons.mp apart with ⟨notBelow, restApart⟩
      have items := permanentDelete_items shaped first
      have restStays : ∀ later ∈ rest, later ∈ middle.db.items := fun later among =>
        (items later).mpr ⟨(trashed later (List.mem_cons_of_mem _ among)).1,
          notBelow later among⟩
      have restTrashed : AllTrashed userId middle.db.items rest := fun later among =>
        ⟨restStays later among, (trashed later (List.mem_cons_of_mem _ among)).2⟩
      have stillApart : rest.Pairwise fun earlier later =>
          ¬ AtOrAbove middle.db.items.parentOf later.id earlier.id := by
        apply restApart.imp_of_mem
        intro earlier later _ laterMem different
        rw [path_stays shaped first (restStays later laterMem)]
        exact different
      rcases deleteAll_runs (shaped.of_permanentDelete first) restTrashed stillApart
        with ⟨after, later, left⟩
      refine ⟨after, by rw [forEach_cons, bind_eq_ok]; exact ⟨middle, first, later⟩, ?_⟩
      intro row
      rw [left row, List.forall_mem_cons]
      constructor
      · intro both
        rcases both with ⟨inMiddle, outside⟩
        rcases (items row).mp inMiddle with ⟨before, notUnder⟩
        refine ⟨before, notUnder, fun other among => ?_⟩
        rw [← path_stays shaped first inMiddle]
        exact outside other among
      · intro both
        rcases both with ⟨before, notUnder, outside⟩
        have inMiddle := (items row).mpr ⟨before, notUnder⟩
        refine ⟨inMiddle, fun other among => ?_⟩
        rw [path_stays shaped first inMiddle]
        exact outside other among

/-- When the loop succeeds, every item of it was still there when its turn came. -/
private theorem deleteAll_finds {userId : Uuid} : ∀ {rows : List DriveItem}
    {sys after : System}, TreeShaped sys →
    forEach (fun item sys => permanentDelete userId item.id sys) rows sys = .ok after →
    ∀ row ∈ rows, ∃ other ∈ sys.db.items, other.id = row.id
  | [], _, _, _, _, row, among => by cases among
  | item :: rest, sys, after, shaped, runs, row, among => by
      rw [forEach_cons, bind_eq_ok] at runs
      rcases runs with ⟨middle, first, later⟩
      rcases List.mem_cons.mp among with rfl | inRest
      · rcases permanentDelete_ok first with ⟨other, member, sameId, _⟩
        exact ⟨other, member, sameId⟩
      · rcases deleteAll_finds (shaped.of_permanentDelete first) later row inRest
          with ⟨other, otherMem, sameId⟩
        exact ⟨other, ((permanentDelete_items shaped first other).mp otherMem).1, sameId⟩

private theorem deleteAll_apart {userId : Uuid} : ∀ {rows : List DriveItem}
    {sys after : System}, TreeShaped sys → (∀ row ∈ rows, row ∈ sys.db.items) →
    forEach (fun item sys => permanentDelete userId item.id sys) rows sys = .ok after →
    rows.Pairwise fun earlier later =>
      ¬ AtOrAbove sys.db.items.parentOf later.id earlier.id
  | [], _, _, _, _, _ => .nil
  | item :: rest, sys, after, shaped, known, runs => by
      rw [forEach_cons, bind_eq_ok] at runs
      rcases runs with ⟨middle, first, later⟩
      have items := permanentDelete_items shaped first
      have restStays : ∀ row ∈ rest, row ∈ middle.db.items := by
        intro row among
        rcases deleteAll_finds (shaped.of_permanentDelete first) later row among
          with ⟨other, otherMem, sameId⟩
        have before := ((items other).mp otherMem).1
        rw [← ItemTable.eq_of_id_eq before (known row (List.mem_cons_of_mem _ among)) sameId]
        exact otherMem
      apply List.pairwise_cons.mpr
      constructor
      · exact fun row among => ((items row).mp (restStays row among)).2
      · have apart := deleteAll_apart (shaped.of_permanentDelete first) restStays later
        apply apart.imp_of_mem
        intro earlier row _ rowMem different
        rw [← path_stays shaped first (restStays row rowMem)]
        exact different

/-! ## The items it starts from -/

theorem mem_getAllDeleted {sys : System} {userId : Uuid} {row : DriveItem} :
    row ∈ TrashRepository.getAllDeleted sys userId ↔
      row ∈ sys.db.items ∧ row.ownerId = userId ∧ row.isDeleted = true := by
  rw [TrashRepository.getAllDeleted, List.mem_filter, decide_eq_true_eq, ItemTable.mem_rows]

omit [Platform] in
theorem mem_topLevel {allDeleted : List DriveItem} {row : DriveItem} :
    row ∈ topLevel allDeleted ↔ row ∈ allDeleted ∧
      ∀ parentId ∈ row.parentId, parentId ∉ allDeleted.map DriveItem.id := by
  rw [topLevel, List.mem_filter]
  cases row.parentId <;> simp

/-- Above every trashed item of the user lies one that the loop starts from. -/
private theorem exists_topLevel {sys : System} (shaped : TreeShaped sys)
    {allDeleted : List DriveItem} (known : ∀ row ∈ allDeleted, row ∈ sys.db.items)
    {row : DriveItem} (member : row ∈ allDeleted) :
    ∃ item ∈ topLevel allDeleted, AtOrAbove sys.db.items.parentOf row.id item.id := by
  have ends := Table.chain_ends shaped.acyclic row.id
  generalize sys.db.items.rows.length + 1 = height at ends
  induction height generalizing row with
  | zero => cases ends
  | succ height induction =>
      by_cases top : row ∈ topLevel allDeleted
      · exact ⟨row, top, .refl⟩
      · have inTable := known row member
        rw [mem_topLevel] at top
        simp only [not_and, not_forall, not_not] at top
        rcases top member with ⟨parentId, named, trashed⟩
        rcases List.mem_map.mp trashed with ⟨parent, parentMem, rfl⟩
        have step : sys.db.items.parentOf row.id = some parent.id :=
          (ItemTable.parentOf_id inTable).trans named
        have parentEnds : ancestor sys.db.items.parentOf height parent.id = none := by
          rw [ancestor] at ends
          exact Option.bind_eq_none_iff.mp ends parent.id step
        rcases induction parentMem parentEnds with ⟨item, itemMem, above⟩
        exact ⟨item, itemMem, .head step above⟩

/-- The trash of the user is empty, and what was neither trashed by the user nor
below such an item is as it was. -/
structure Emptied (userId : Uuid) (before after : System) : Prop where
  nothingLeft : ∀ row ∈ after.db.items, row.ownerId = userId → row.isDeleted = false
  othersKept : ∀ row ∈ before.db.items,
    (∀ item ∈ before.db.items, item.ownerId = userId → item.isDeleted = true →
      ¬ AtOrAbove before.db.items.parentOf row.id item.id) → row ∈ after.db.items

/-- In every state that a run without snapshot restores reaches, emptying the
trash succeeds and does its work exactly when the database returns no item that
the loop starts from after another one above it. -/
theorem emptyTrash_iff {start sys : System} {events : List (Event System Op)}
    (history : History start events sys)
    (allowed : ∀ event ∈ events, event.action.NoSnapshotRestore)
    {userId : Uuid} {allDeleted : List DriveItem}
    (offered : allDeleted.Perm (TrashRepository.getAllDeleted sys userId)) :
    (∃ after, emptyTrash userId allDeleted sys = .ok after ∧ Emptied userId sys after) ↔
      (topLevel allDeleted).Pairwise fun earlier later =>
        ¬ Above sys.db.items.parentOf later.id earlier.id := by
  have shaped := history.treeShaped allowed
  have listed : ∀ row, row ∈ allDeleted ↔
      row ∈ sys.db.items ∧ row.ownerId = userId ∧ row.isDeleted = true := fun row =>
    offered.mem_iff.trans mem_getAllDeleted
  have topListed : ∀ row ∈ topLevel allDeleted, row ∈ allDeleted := fun row among =>
    (mem_topLevel.mp among).1
  have distinct : (topLevel allDeleted).Pairwise fun left right => left.id ≠ right.id := by
    have ids : (allDeleted.map DriveItem.id).Nodup :=
      (offered.map DriveItem.id).nodup_iff.mpr
        (sys.db.items.nodup.sublist (List.filter_sublist.map _))
    exact List.pairwise_map.mp (ids.sublist (List.filter_sublist.map _))
  constructor
  · intro success
    rcases success with ⟨after, runs, _⟩
    apply (deleteAll_apart shaped (fun row among => ((listed row).mp (topListed row among)).1)
      runs).imp
    exact fun apart above => apart (atOrAbove_iff.mpr (.inr above))
  · intro apart
    have trashed : AllTrashed userId sys.db.items (topLevel allDeleted) := fun row among =>
      (listed row).mp (topListed row among)
    have notAtOrAbove : (topLevel allDeleted).Pairwise fun earlier later =>
        ¬ AtOrAbove sys.db.items.parentOf later.id earlier.id := by
      apply (apart.and distinct).imp
      intro earlier later both path
      rcases atOrAbove_iff.mp path with same | above
      · exact both.2 same.symm
      · exact both.1 above
    rcases deleteAll_runs shaped trashed notAtOrAbove with ⟨after, runs, left⟩
    refine ⟨after, runs, ?_, ?_⟩
    · intro row member owned
      rcases (left row).mp member with ⟨before, outside⟩
      by_contra deleted
      have isTrashed := (listed row).mpr ⟨before, owned, Bool.eq_true_of_not_eq_false deleted⟩
      rcases exists_topLevel shaped (fun other among => ((listed other).mp among).1) isTrashed
        with ⟨item, itemMem, above⟩
      exact outside item itemMem above
    · intro row member outside
      apply (left row).mpr ⟨member, ?_⟩
      intro item among
      rcases trashed item among with ⟨itemMem, owned, isTrashed⟩
      exact outside item itemMem owned isTrashed

end Emptying

/-! ## A live folder between two trashed items

`Old` holds the folder `Notes`, `Notes` holds `Drafts`. `Drafts` is trashed first
and `Old` second; `Notes` between them stays live. -/

section Nested

attribute [local instance] smallPlatform

private def buildAndTrash : List Op :=
  [.createFolder 1 none "Old", .createFolder 1 (some 10) "Notes",
    .createFolder 1 (some 11) "Drafts", .trashItem 1 12, .trashItem 1 10]

private def nestedTrash : System :=
  match Op.commitAll buildAndTrash firstDay with
  | .ok sys => sys
  | .error _ => firstDay

private def outerFirst : List DriveItem := TrashRepository.getAllDeleted nestedTrash 1

private theorem nestedTrash_history :
    ∃ events, History firstDay events nestedTrash ∧
      ∀ event ∈ events, event.action.NoSnapshotRestore := by
  rcases firstDay_history (by simp [buildAndTrash, Op.Offered])
    (show Op.commitAll buildAndTrash firstDay = .ok nestedTrash from rfl)
    with ⟨events, history, actions⟩
  refine ⟨events, history, ?_⟩
  have all : ∀ op ∈ events.map Event.action, op.NoSnapshotRestore := by
    rw [actions]
    simp [buildAndTrash, Op.NoSnapshotRestore]
  exact fun event member => all event.action (List.mem_map_of_mem member)

theorem emptyTrash_iff_nestedTrash :
    (∃ after, emptyTrash 1 outerFirst nestedTrash = .ok after ∧
        Emptied 1 nestedTrash after) ↔
      (topLevel outerFirst).Pairwise fun earlier later =>
        ¬ Above nestedTrash.db.items.parentOf later.id earlier.id := by
  rcases nestedTrash_history with ⟨events, history, allowed⟩
  exact emptyTrash_iff history allowed (.refl _)

theorem nestedTrash_refused :
    (∃ events, History firstDay events nestedTrash ∧
      ∀ event ∈ events, event.action.NoSnapshotRestore) ∧
    outerFirst.Perm (TrashRepository.getAllDeleted nestedTrash 1) ∧
    outerFirst.map DriveItem.name = ["Old", "Drafts"] ∧
    emptyTrash 1 outerFirst nestedTrash = .error (.notFound "Item not found") :=
  ⟨nestedTrash_history, .refl _, by decide, rfl⟩

end Nested

end TrashService

end CloudDrive
