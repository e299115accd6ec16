import CloudDrive.Snapshot.SiblingNames

/-! # The rows after a restore

What a committed restore leaves of every row, said with the entries it finds and the
drive as it was. -/

namespace CloudDrive

open Outcome Relational Execution

namespace SnapshotService

open SnapshotRepository

/-! ## The selection is closed -/

section Selection

variable {entries : List SnapshotEntry}

/-- The children of the results are results or wait on the stack. -/
def ChildrenDue (entries result stack : List SnapshotEntry) : Prop :=
  ∀ parent ∈ result, ∀ child ∈ entries, child.parentItemId = some parent.itemId →
    child.itemId ∈ result.map SnapshotEntry.itemId ∨ child ∈ stack

theorem expandLoop_children : ∀ {fuel : Nat} {result stack target : List SnapshotEntry},
    ChildrenDue entries result stack → expandLoop entries fuel result stack = .ok target →
    ∀ parent ∈ target, ∀ child ∈ entries, child.parentItemId = some parent.itemId →
      child.itemId ∈ target.map SnapshotEntry.itemId
  | fuel, result, [], target, due, runs => by
      rw [expandLoop] at runs
      cases runs
      intro parent member child childMem isChild
      rcases due parent member child childMem isChild with isResult | onStack
      · exact isResult
      · cases onStack
  | 0, _, _ :: _, _, _, runs => by cases runs
  | fuel + 1, result, entry :: stack, target, due, runs => by
      rw [expandLoop] at runs
      by_cases done : entry.itemId ∈ result.map SnapshotEntry.itemId
      · rw [if_pos done] at runs
        apply expandLoop_children _ runs
        intro parent member child childMem isChild
        rcases due parent member child childMem isChild with isResult | onStack
        · exact .inl isResult
        · rcases List.mem_cons.mp onStack with rfl | waits
          · exact .inl done
          · exact .inr waits
      · rw [if_neg done] at runs
        apply expandLoop_children _ runs
        intro parent member child childMem isChild
        rw [List.map_append, List.mem_append]
        rcases List.mem_append.mp member with earlier | isNew
        · rcases due parent earlier child childMem isChild with isResult | onStack
          · exact .inl (.inl isResult)
          · rcases List.mem_cons.mp onStack with rfl | waits
            · exact .inl (.inr List.mem_cons_self)
            · exact .inr (List.mem_append_right _ waits)
        · rw [List.mem_singleton.mp isNew] at isChild
          have among : child ∈ entries.filter fun child =>
              decide (child.parentItemId = some entry.itemId) :=
            List.mem_filter.mpr ⟨childMem, decide_eq_true isChild⟩
          exact .inr (List.mem_append_left _ (List.mem_reverse.mpr among))

/-- A selection contains what the snapshot has in its items. -/
theorem restoreTarget_children {scope : Scope} {target : List SnapshotEntry}
    (selects : restoreTarget scope entries = .ok target) :
    ∀ parent ∈ target, ∀ child ∈ entries, child.parentItemId = some parent.itemId →
      child.itemId ∈ target.map SnapshotEntry.itemId := by
  cases scope with
  | whole =>
      cases selects
      exact fun _ _ child member _ => List.mem_map_of_mem member
  | selected itemIds =>
      have nothing : ∀ stack, ChildrenDue entries [] stack := by
        intro stack parent member
        cases member
      exact expandLoop_children (nothing _) selects

end Selection

/-! ## The rows -/

section Rows

variable [Platform] {userId : Uuid} {snapshot : Snapshot} {scope : Scope} {mode : SubtreeMode}
  {sys after : System}

/-- The entries that the restore finds behind its safety snapshot. -/
def remainingEntries (userId : Uuid) (snapshot : Snapshot) (sys : System) :
    List SnapshotEntry :=
  if SurvivesSafety userId snapshot sys then listAllEntries sys.db snapshot.id else []

theorem Guarded.remainingEntries_eq {guarded : System}
    (guard : Guarded userId snapshot sys guarded) :
    listAllEntries guarded.db snapshot.id = remainingEntries userId snapshot sys := by
  rw [remainingEntries]
  split
  · exact guard.kept ‹_›
  · exact guard.lost ‹_›

theorem restoredEntries_selected (userId : Uuid) (snapshot : Snapshot) (scope : Scope)
    (sys : System) : restoreTarget scope (remainingEntries userId snapshot sys) =
      .ok (restoredEntries userId snapshot scope sys) := by
  by_cases survives : SurvivesSafety userId snapshot sys
  · rcases restoreTarget_runs scope (listAllEntries_nodup sys.db snapshot.id)
      with ⟨target, selects, _⟩
    simp only [remainingEntries, restoredEntries, if_pos survives, selects]
  · simp only [remainingEntries, restoredEntries, if_neg survives]
    cases scope <;> rfl

theorem remainingEntries_nodup :
    ((remainingEntries userId snapshot sys).map SnapshotEntry.itemId).Nodup := by
  rw [remainingEntries]
  split
  · exact listAllEntries_nodup sys.db snapshot.id
  · exact List.nodup_nil

theorem restoredEntries_remaining : restoredEntries userId snapshot scope sys ⊆
    remainingEntries userId snapshot sys := by
  rcases restoreTarget_runs scope remainingEntries_nodup with ⟨_, selects, sub, _⟩
  cases (restoredEntries_selected userId snapshot scope sys).symm.trans selects
  exact sub

theorem restoredIds_nodup : (restoredIds userId snapshot scope sys).Nodup := by
  rcases restoreTarget_runs scope remainingEntries_nodup with ⟨_, selects, _, distinct⟩
  cases (restoredEntries_selected userId snapshot scope sys).symm.trans selects
  exact distinct

/-- The entries in a restored item are restored with it. -/
theorem restoredIds_children {child : SnapshotEntry} {parentId : Uuid}
    (restored : parentId ∈ restoredIds userId snapshot scope sys)
    (member : child ∈ remainingEntries userId snapshot sys)
    (isChild : child.parentItemId = some parentId) :
    child ∈ restoredEntries userId snapshot scope sys := by
  rcases List.mem_map.mp restored with ⟨parent, parentMem, rfl⟩
  have among := restoreTarget_children (restoredEntries_selected userId snapshot scope sys)
    parent parentMem child member isChild
  rcases List.mem_map.mp among with ⟨other, otherMem, sameId⟩
  rwa [← List.inj_on_of_nodup_map remainingEntries_nodup (restoredEntries_remaining otherMem)
    member sameId]

/-- The place of an entry: its own, or the root. -/
def placement (userId : Uuid) (snapshot : Snapshot) (scope : Scope) (sys : System)
    (entry : SnapshotEntry) : SnapshotEntry :=
  placed (restoredIds userId snapshot scope sys)
    ((listAllItems sys.db userId).map DriveItem.id) entry

/-- The row that the restore writes for an entry. -/
def restoredRow (userId : Uuid) (snapshot : Snapshot) (scope : Scope) (sys : System)
    (entry : SnapshotEntry) : DriveItem :=
  written sys.now userId sys.db.items (placement userId snapshot scope sys entry)

/-- The mirror of the restore sends the item to the trash. -/
def Trashes (userId : Uuid) (snapshot : Snapshot) (scope : Scope) (mode : SubtreeMode)
    (sys : System) (item : DriveItem) : Prop :=
  Mirrored mode scope (remainingEntries userId snapshot sys)
    (restoredEntries userId snapshot scope sys) userId item

theorem restoredRow_fields (entry : SnapshotEntry) :
    (restoredRow userId snapshot scope sys entry).id = entry.itemId ∧
    (restoredRow userId snapshot scope sys entry).parentId =
      (placement userId snapshot scope sys entry).parentItemId ∧
    (restoredRow userId snapshot scope sys entry).name = entry.name ∧
    (restoredRow userId snapshot scope sys entry).isDeleted = false := by
  rcases written_fields sys.now userId sys.db.items (placement userId snapshot scope sys entry)
    with ⟨sameId, parent, name, _, _, _, live⟩
  exact ⟨sameId.trans (placed_itemId _ _ _), parent, name.trans (placed_fields _ _ _).1, live⟩

/-- A committed restore writes its entries, trashes its mirror and leaves the rest. -/
theorem restore_rows {snapshotId : Uuid} {outcome : RestoreOutcome}
    (found : getSnapshot sys.db userId snapshotId = some snapshot)
    (runs : restore userId snapshotId scope mode sys = .ok (some outcome, after))
    (row : DriveItem) : row ∈ after.db.items ↔
      (∃ entry ∈ restoredEntries userId snapshot scope sys,
        row = restoredRow userId snapshot scope sys entry) ∨
      (∃ old ∈ sys.db.items, old.id ∉ restoredIds userId snapshot scope sys ∧
        Trashes userId snapshot scope mode sys old ∧ row = trashedCopy sys.now old) ∨
      (row ∈ sys.db.items ∧ row.id ∉ restoredIds userId snapshot scope sys ∧
        ¬ Trashes userId snapshot scope mode sys row) := by
  rcases getSnapshot_eq_some.mp found with ⟨_, rfl, _⟩
  rcases restore_ok found runs with ⟨guarded, target, middle, restored⟩
  have isTarget := restored.guard.restoredEntries_eq restored.selects
  have rows := restored.items
  rw [restored.guard.remainingEntries_eq, ← isTarget] at rows
  have upserts := restored.upserts
  rw [← isTarget] at upserts
  have middleRows : ∀ row, row ∈ middle ↔
      (∃ entry ∈ restoredEntries userId snapshot scope sys,
        row = restoredRow userId snapshot scope sys entry) ∨
      (row ∈ sys.db.items ∧ row.id ∉ restoredIds userId snapshot scope sys) :=
    upsertAll_ok restoredIds_nodup upserts
  have spared : ∀ entry ∈ restoredEntries userId snapshot scope sys,
      ¬ Trashes userId snapshot scope mode sys (restoredRow userId snapshot scope sys entry) := by
    intro entry member trashes
    apply trashes.absent
    rw [(restoredRow_fields entry).1]
    exact List.mem_map_of_mem (restoredEntries_remaining member)
  rw [rows]
  constructor
  · intro either
    rcases either with ⟨old, oldMem, rfl, trashes⟩ | ⟨inMiddle, notTrashed⟩
    · rcases (middleRows old).mp oldMem with ⟨entry, member, rfl⟩ | ⟨before, outside⟩
      · exact absurd trashes (spared entry member)
      · exact .inr (.inl ⟨old, before, outside, trashes, rfl⟩)
    · rcases (middleRows row).mp inMiddle with isRestored | ⟨before, outside⟩
      · exact .inl isRestored
      · exact .inr (.inr ⟨before, outside, notTrashed⟩)
  · intro either
    rcases either with ⟨entry, member, rfl⟩ | ⟨old, before, outside, trashes, rfl⟩ |
      ⟨before, outside, notTrashed⟩
    · exact .inr ⟨(middleRows _).mpr (.inl ⟨entry, member, rfl⟩), spared entry member⟩
    · exact .inl ⟨old, (middleRows old).mpr (.inr ⟨before, outside⟩), rfl, trashes⟩
    · exact .inr ⟨(middleRows row).mpr (.inr ⟨before, outside⟩), notTrashed⟩

theorem restoredRow_mem {snapshotId : Uuid} {outcome : RestoreOutcome}
    (found : getSnapshot sys.db userId snapshotId = some snapshot)
    (runs : restore userId snapshotId scope mode sys = .ok (some outcome, after))
    {entry : SnapshotEntry} (member : entry ∈ restoredEntries userId snapshot scope sys) :
    restoredRow userId snapshot scope sys entry ∈ after.db.items :=
  (restore_rows found runs _).mpr (.inl ⟨entry, member, rfl⟩)

/-- The restored item of an entry belongs to the user and is of the type recorded. -/
theorem restoredRow_type (identified : Identified sys) {snapshotId : Uuid}
    (found : getSnapshot sys.db userId snapshotId = some snapshot)
    {entry : SnapshotEntry} (member : entry ∈ restoredEntries userId snapshot scope sys) :
    (restoredRow userId snapshot scope sys entry).ownerId = userId ∧
    (restoredRow userId snapshot scope sys entry).itemType = entry.itemType := by
  have inSnapshot := restoredEntries_sub userId snapshot scope sys member
  rcases @Identified.written_owner _ sys.now userId sys.db.items
    (placement userId snapshot scope sys entry) with
    ⟨item, itemMem, sameId, owner, type⟩ | ⟨_, owner, type⟩
  · have ofEntry := item_of_entry identified found inSnapshot itemMem
      (sameId.trans (placed_itemId _ _ _))
    exact ⟨owner.trans ofEntry.1, type.trans ofEntry.2⟩
  · exact ⟨owner, type.trans (placed_itemType _ _ _)⟩

end Rows

end SnapshotService

end CloudDrive
