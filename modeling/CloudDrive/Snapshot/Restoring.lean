import CloudDrive.Snapshot.Retention

/-! # What creating and restoring do

`create` never fails, and a restore rewrites the rows of its target and trashes
the rows of its mirror, each row once. -/

namespace CloudDrive

open Outcome Relational

variable [Platform]

namespace SnapshotService

open SnapshotRepository

/-! ## Creating -/

private theorem addEntries_runs : ∀ (entries : List SnapshotEntry) (db : Database),
    (∀ entry ∈ entries, db.entries.Fresh (Keyed.key entry)) →
    (entries.map Keyed.key).Nodup →
    ∃ table, forEach addEntry entries db = .ok { db with entries := table } ∧
      table.rows = db.entries.rows ++ entries
  | [], db, _, _ => ⟨db.entries, rfl, by simp⟩
  | entry :: rest, db, fresh, distinct => by
      rw [List.map_cons, List.nodup_cons] at distinct
      rcases Table.insert?_of_fresh (fresh entry List.mem_cons_self) with ⟨added, inserted, rows⟩
      have restFresh : ∀ other ∈ rest,
          ({ db with entries := added } : Database).entries.Fresh (Keyed.key other) := by
        intro other member row rowMem
        rw [rows, List.mem_append, List.mem_singleton] at rowMem
        rcases rowMem with earlier | rfl
        · exact fresh other (List.mem_cons_of_mem _ member) row earlier
        · exact fun same => distinct.1 (same ▸ List.mem_map_of_mem member)
      rcases addEntries_runs rest _ restFresh distinct.2 with ⟨table, runs, tableRows⟩
      refine ⟨table, ?_, by simp [tableRows, rows]⟩
      rw [forEach_cons, bind_eq_ok]
      refine ⟨_, ?_, runs⟩
      simp only [addEntry, bind_eq_ok, orRaise_eq_ok, pure_eq_ok]
      exact ⟨added, inserted, rfl⟩

/-- The database between the capture and the pruning. -/
structure Captured (sys : System) (snapshot : Snapshot) (entries : List SnapshotEntry)
    (db : Database) : Prop where
  snapshots : db.snapshots.rows = sys.db.snapshots.rows ++ [snapshot]
  entries : db.entries.rows = sys.db.entries.rows ++ entries
  frame : db = { sys.db with snapshots := db.snapshots, entries := db.entries }

theorem captureEntries_snapshotId {userId : Uuid} {sys : System} {entry : SnapshotEntry}
    (member : entry ∈ captureEntries userId sys) : entry.snapshotId = sys.uuid4 := by
  rcases List.mem_map.mp member with ⟨item, _, rfl⟩
  rfl

theorem captureEntries_nodup (userId : Uuid) (sys : System) :
    ((captureEntries userId sys).map SnapshotEntry.itemId).Nodup := by
  have ids : (captureEntries userId sys).map SnapshotEntry.itemId =
      (listOwnerItems sys.db userId).map DriveItem.id := by
    simp [captureEntries, capture, Function.comp_def]
  rw [ids]
  exact sys.db.items.nodup.sublist (List.filter_sublist.map _)

private theorem createSnapshot_runs (userId : Uuid) {snapshot : Snapshot} {sys : System}
    (isNew : snapshot.id = sys.uuid4) :
    ∃ db, createSnapshot snapshot (captureEntries userId sys) sys.drawn =
        .ok { sys.drawn with db := db } ∧
      Captured sys snapshot (captureEntries userId sys) db := by
  have unused := sys.uuid4_unused
  have free : sys.db.snapshots.Fresh (Keyed.key snapshot) := by
    intro row member
    rw [Snapshot.key_eq, Snapshot.key_eq, isNew]
    exact unused.snapshots row member
  rcases Table.insert?_of_fresh free with ⟨snapshots, inserted, rows⟩
  have fresh : ∀ entry ∈ captureEntries userId sys,
      sys.db.entries.Fresh (Keyed.key entry) := by
    intro entry member row rowMem same
    have sameSnapshot := congrArg Prod.fst same
    simp only [SnapshotEntry.key_eq, captureEntries_snapshotId member] at sameSnapshot
    exact unused.entrySnapshots row rowMem sameSnapshot
  have distinct : ((captureEntries userId sys).map Keyed.key).Nodup := by
    refine List.Nodup.of_map Prod.snd ?_
    rw [List.map_map]
    exact captureEntries_nodup userId sys
  obtain ⟨table, runs, tableRows⟩ := addEntries_runs (captureEntries userId sys)
    { sys.db with snapshots := snapshots } fresh distinct
  refine ⟨{ sys.db with snapshots := snapshots, entries := table }, ?_, rows, tableRows, rfl⟩
  simp only [createSnapshot, bind_eq_ok, orRaise_eq_ok, pure_eq_ok]
  exact ⟨snapshots, inserted, _, runs, rfl⟩

/-- `create` always succeeds: it adds the snapshot and prunes. -/
theorem create_runs (userId : Uuid) (trigger : Trigger) (label : String) (pinned : Bool)
    (sys : System) :
    ∃ db, Captured sys (newSnapshot userId trigger label pinned sys)
        (captureEntries userId sys) db ∧
      create userId trigger label pinned sys =
        .ok (newSnapshot userId trigger label pinned sys,
          { sys.drawn with db := prune userId (getSettings db userId) db }) := by
  have isNew : (newSnapshot userId trigger label pinned sys).id = sys.uuid4 := rfl
  rcases createSnapshot_runs userId isNew with ⟨db, runs, captured⟩
  refine ⟨db, captured, ?_⟩
  simp only [create, bind_eq_ok, pure_eq_ok]
  exact ⟨_, runs, rfl⟩

/-! ## The entries selected -/

omit [Platform] in
private theorem countP_add_le {α : Type} {first second both : α → Bool}
    (firstSub : ∀ element, first element = true → both element = true)
    (secondSub : ∀ element, second element = true → both element = true)
    (disjoint : ∀ element, first element = true → ¬ second element = true) :
    ∀ elements : List α,
      elements.countP first + elements.countP second ≤ elements.countP both
  | [] => by simp
  | element :: rest => by
      have later := countP_add_le firstSub secondSub disjoint rest
      have one := firstSub element
      have two := secondSub element
      have never := disjoint element
      simp only [List.countP_cons]
      grind

/-- The parent of `child` is not yet in the result. -/
private def waits (result : List SnapshotEntry) (child : SnapshotEntry) : Bool :=
  decide (∀ parentId ∈ child.parentItemId, parentId ∉ result.map SnapshotEntry.itemId)

omit [Platform] in
private theorem waits_append (entries : List SnapshotEntry) {result : List SnapshotEntry}
    {entry : SnapshotEntry} (isNew : entry.itemId ∉ result.map SnapshotEntry.itemId) :
    entries.countP (waits (result ++ [entry])) +
      (entries.filter fun child => decide (child.parentItemId = some entry.itemId)).length ≤
    entries.countP (waits result) := by
  rw [← List.countP_eq_length_filter]
  refine countP_add_le ?_ ?_ ?_ entries
  · intro child waiting
    refine decide_eq_true fun parentId parent among => ?_
    exact of_decide_eq_true waiting parentId parent
      (by rw [List.map_append]; exact List.mem_append_left _ among)
  · intro child isChild
    refine decide_eq_true fun parentId parent among => ?_
    rw [of_decide_eq_true isChild] at parent
    cases parent
    exact isNew among
  · intro child waiting isChild
    exact of_decide_eq_true waiting entry.itemId (of_decide_eq_true isChild) (by simp)

/-- What the worklist keeps: results are entries, each once; the stack holds
entries only. -/
structure Worklist (entries result stack : List SnapshotEntry) : Prop where
  resultSub : result ⊆ entries
  stackSub : stack ⊆ entries
  distinct : (result.map SnapshotEntry.itemId).Nodup

omit [Platform] in
/-- A new entry enters the result and its children are pushed. -/
theorem Worklist.visit {entries result stack : List SnapshotEntry} {entry : SnapshotEntry}
    (worklist : Worklist entries result (entry :: stack))
    (isNew : entry.itemId ∉ result.map SnapshotEntry.itemId) :
    Worklist entries (result ++ [entry]) ((entries.filter fun child =>
      decide (child.parentItemId = some entry.itemId)).reverse ++ stack) := by
  refine ⟨?_, ?_, ?_⟩
  · intro other member
    rcases List.mem_append.mp member with earlier | new
    · exact worklist.resultSub earlier
    · exact List.mem_singleton.mp new ▸ worklist.stackSub List.mem_cons_self
  · intro other member
    rcases List.mem_append.mp member with child | later
    · exact (List.mem_filter.mp (List.mem_reverse.mp child)).1
    · exact worklist.stackSub (List.mem_cons_of_mem _ later)
  · rw [List.map_append, List.nodup_append]
    refine ⟨worklist.distinct, by simp, ?_⟩
    intro id member other otherMem same
    simp only [List.map_cons, List.map_nil, List.mem_singleton] at otherMem
    exact isNew (otherMem ▸ same ▸ member)

omit [Platform] in
private theorem expandLoop_runs {entries : List SnapshotEntry} :
    ∀ {fuel : Nat} {result stack : List SnapshotEntry}, Worklist entries result stack →
      stack.length + entries.countP (waits result) ≤ fuel →
      ∃ target, expandLoop entries fuel result stack = .ok target ∧
        target ⊆ entries ∧ (target.map SnapshotEntry.itemId).Nodup
  | fuel, result, [], worklist, _ => by
      exact ⟨result, by simp [expandLoop], worklist.resultSub, worklist.distinct⟩
  | 0, _, _ :: _, _, bound => by simp at bound
  | fuel + 1, result, entry :: stack, worklist, bound => by
      have restSub : stack ⊆ entries := fun _ member =>
        worklist.stackSub (List.mem_cons_of_mem _ member)
      rw [expandLoop]
      by_cases done : entry.itemId ∈ result.map SnapshotEntry.itemId
      · rw [if_pos done]
        refine expandLoop_runs ⟨worklist.resultSub, restSub, worklist.distinct⟩ ?_
        simp only [List.length_cons] at bound
        omega
      · rw [if_neg done]
        refine expandLoop_runs (worklist.visit done) ?_
        have fewer := waits_append entries done
        simp only [List.length_cons, List.length_append, List.length_reverse] at bound ⊢
        omega

omit [Platform] in
/-- The selection ends, for every list of entries. -/
theorem restoreTarget_runs (scope : Scope) {entries : List SnapshotEntry}
    (distinct : (entries.map SnapshotEntry.itemId).Nodup) :
    ∃ target, restoreTarget scope entries = .ok target ∧ target ⊆ entries ∧
      (target.map SnapshotEntry.itemId).Nodup := by
  cases scope with
  | whole => exact ⟨entries, rfl, fun _ member => member, distinct⟩
  | selected itemIds =>
      refine expandLoop_runs ⟨by simp, ?_, by simp⟩ ?_
      · intro entry member
        exact (List.mem_filter.mp (List.mem_reverse.mp member)).1
      · have selected := List.length_filter_le
          (fun entry : SnapshotEntry => decide (entry.itemId ∈ itemIds)) entries
        have all : entries.countP (waits []) ≤ entries.length := List.countP_le_length
        rw [List.length_reverse]
        omega

theorem listAllEntries_nodup (db : Database) (snapshotId : Uuid) :
    ((listAllEntries db snapshotId).map SnapshotEntry.itemId).Nodup := by
  have keys : ((listAllEntries db snapshotId).map Keyed.key).Nodup :=
    db.entries.nodup.sublist (List.filter_sublist.map _)
  refine List.Nodup.map_on ?_ (List.Nodup.of_map _ keys)
  intro left leftMem right rightMem same
  have leftKey := of_decide_eq_true (List.mem_filter.mp leftMem).2
  have rightKey := of_decide_eq_true (List.mem_filter.mp rightMem).2
  refine List.inj_on_of_nodup_map keys leftMem rightMem ?_
  simp [leftKey, rightKey, same]

/-! ## The rows written -/

/-- The row `upsert_item` leaves for an entry. -/
def written (now : Timestamp) (userId : Uuid) (items : ItemTable) (entry : SnapshotEntry) :
    DriveItem :=
  match items.find? entry.itemId with
  | none => recreated now userId entry
  | some item => overwritten now entry item

theorem written_fields (now : Timestamp) (userId : Uuid) (items : ItemTable)
    (entry : SnapshotEntry) :
    (written now userId items entry).id = entry.itemId ∧
    (written now userId items entry).parentId = entry.parentItemId ∧
    (written now userId items entry).name = entry.name ∧
    (written now userId items entry).sizeBytes = entry.sizeBytes ∧
    (written now userId items entry).storageKey = entry.storageKey ∧
    (written now userId items entry).checksumSha256 = entry.checksumSha256 ∧
    (written now userId items entry).isDeleted = false := by
  cases found : items.find? entry.itemId with
  | none => simp [written, found, recreated]
  | some item =>
      have sameId := (ItemTable.find?_eq_some.mp found).2
      simp [written, found, overwritten, sameId]

@[simp] theorem written_id (now : Timestamp) (userId : Uuid) (items : ItemTable)
    (entry : SnapshotEntry) : (written now userId items entry).id = entry.itemId :=
  (written_fields now userId items entry).1

theorem upsertItem_ok {now : Timestamp} {userId : Uuid} {entry : SnapshotEntry}
    {items after : ItemTable} (runs : upsertItem now userId entry items = .ok after)
    {row : DriveItem} :
    row ∈ after ↔ row = written now userId items entry ∨
      (row ∈ items ∧ row.id ≠ entry.itemId) := by
  cases found : items.find? entry.itemId with
  | none =>
      have absent := ItemTable.find?_eq_none.mp found
      simp only [upsertItem, found] at runs
      simp only [ItemTable.mem_of_add runs, written, found]
      constructor
      · rintro (member | rfl)
        · exact .inr ⟨member, absent row member⟩
        · exact .inl rfl
      · rintro (rfl | ⟨member, _⟩)
        · exact .inr rfl
        · exact .inl member
  | some item =>
      rcases ItemTable.find?_eq_some.mp found with ⟨itemMem, sameId⟩
      simp only [upsertItem, found] at runs
      simp only [ItemTable.mem_of_change runs, written, found]
      refine or_congr_left ⟨?_, ?_⟩
      · rintro ⟨old, oldMem, oldId, rfl⟩
        rw [ItemTable.eq_of_id_eq oldMem itemMem (oldId.trans sameId.symm)]
      · rintro rfl
        exact ⟨item, itemMem, sameId, rfl⟩

theorem upsertItem_find {now : Timestamp} {userId : Uuid} {entry : SnapshotEntry}
    {items after : ItemTable} (runs : upsertItem now userId entry items = .ok after)
    {itemId : Uuid} (different : itemId ≠ entry.itemId) :
    after.find? itemId = items.find? itemId := by
  refine Option.ext fun row => ?_
  rw [ItemTable.find?_eq_some, ItemTable.find?_eq_some, upsertItem_ok runs]
  constructor
  · rintro ⟨rfl | ⟨member, _⟩, sameId⟩
    · exact absurd sameId.symm (by simpa using different)
    · exact ⟨member, sameId⟩
  · rintro ⟨member, sameId⟩
    exact ⟨.inr ⟨member, sameId ▸ different⟩, sameId⟩

/-- The loop of step 3: each row of the list is written once, from the row it
had at the beginning. -/
theorem upserts_ok {now : Timestamp} {userId : Uuid} {place : SnapshotEntry → SnapshotEntry}
    (keepsId : ∀ entry, (place entry).itemId = entry.itemId) :
    ∀ {entries : List SnapshotEntry} {items after : ItemTable},
      (entries.map SnapshotEntry.itemId).Nodup →
      forEach (fun entry => upsertItem now userId (place entry)) entries items = .ok after →
      ∀ row, row ∈ after ↔ (∃ entry ∈ entries, row = written now userId items (place entry)) ∨
        (row ∈ items ∧ row.id ∉ entries.map SnapshotEntry.itemId)
  | [], items, after, _, runs, row => by
      cases runs
      simp
  | entry :: rest, items, after, distinct, runs, row => by
      rw [List.map_cons, List.nodup_cons] at distinct
      rw [forEach_cons, bind_eq_ok] at runs
      rcases runs with ⟨middle, first, later⟩
      have sameWrite : ∀ other ∈ rest,
          written now userId middle (place other) = written now userId items (place other) := by
        intro other member
        have different : (place other).itemId ≠ (place entry).itemId := by
          rw [keepsId, keepsId]
          exact fun same => distinct.1 (same ▸ List.mem_map_of_mem member)
        simp only [written, upsertItem_find first different]
      rw [upserts_ok keepsId distinct.2 later row, upsertItem_ok first, keepsId]
      constructor
      · rintro (⟨other, member, rfl⟩ | ⟨rfl | ⟨member, notEntry⟩, notRest⟩)
        · exact .inl ⟨other, List.mem_cons_of_mem _ member, sameWrite other member⟩
        · exact .inl ⟨entry, List.mem_cons_self, rfl⟩
        · refine .inr ⟨member, ?_⟩
          rw [List.map_cons, List.mem_cons, not_or]
          exact ⟨notEntry, notRest⟩
      · rintro (⟨other, member, rfl⟩ | ⟨member, notAny⟩)
        · rcases List.mem_cons.mp member with rfl | inRest
          · refine .inr ⟨.inl rfl, ?_⟩
            rw [written_id, keepsId]
            exact distinct.1
          · exact .inl ⟨other, inRest, (sameWrite other inRest).symm⟩
        · rw [List.map_cons, List.mem_cons, not_or] at notAny
          exact .inr ⟨.inr ⟨member, notAny.1⟩, notAny.2⟩

omit [Platform] in
@[simp] theorem placed_itemId (restorableIds liveIds : List Uuid) (entry : SnapshotEntry) :
    (placed restorableIds liveIds entry).itemId = entry.itemId := by
  unfold placed
  split
  · rfl
  · split <;> rfl

omit [Platform] in
theorem placed_fields (restorableIds liveIds : List Uuid) (entry : SnapshotEntry) :
    (placed restorableIds liveIds entry).name = entry.name ∧
    (placed restorableIds liveIds entry).sizeBytes = entry.sizeBytes ∧
    (placed restorableIds liveIds entry).storageKey = entry.storageKey ∧
    (placed restorableIds liveIds entry).checksumSha256 = entry.checksumSha256 := by
  unfold placed
  split
  · exact ⟨rfl, rfl, rfl, rfl⟩
  · split <;> exact ⟨rfl, rfl, rfl, rfl⟩

omit [Platform] in
theorem placed_of_closed {restorableIds liveIds : List Uuid} {entry : SnapshotEntry}
    (known : ∀ parentId ∈ entry.parentItemId, parentId ∈ restorableIds) :
    placed restorableIds liveIds entry = entry := by
  rw [placed]
  cases named : entry.parentItemId with
  | none => rfl
  | some parentId => exact if_pos (.inl (known parentId named))

omit [Platform] in
theorem placed_itemType (restorableIds liveIds : List Uuid) (entry : SnapshotEntry) :
    (placed restorableIds liveIds entry).itemType = entry.itemType := by
  rw [placed]
  split
  · rfl
  · split_ifs <;> rfl

omit [Platform] in
theorem perm_parentsFirst (entries : List SnapshotEntry) :
    (parentsFirst entries).Perm entries :=
  List.perm_insertionSort _ entries

theorem upsertAll_ok {now : Timestamp} {userId : Uuid} {target : List SnapshotEntry}
    {items after : ItemTable} {liveIds : List Uuid}
    (distinct : (target.map SnapshotEntry.itemId).Nodup)
    (runs : upsertAll now userId target items liveIds = .ok after) (row : DriveItem) :
    row ∈ after ↔
      (∃ entry ∈ target, row = written now userId items
        (placed (target.map SnapshotEntry.itemId) liveIds entry)) ∨
      (row ∈ items ∧ row.id ∉ target.map SnapshotEntry.itemId) := by
  have sameIds := (perm_parentsFirst target).map SnapshotEntry.itemId
  rw [upserts_ok (placed_itemId _ _) (sameIds.nodup_iff.mpr distinct) runs row,
    sameIds.mem_iff]
  simp only [(perm_parentsFirst target).mem_iff]

/-! ## The mirror -/

/-- The fields `set_deleted` writes. -/
def trashedCopy (now : Timestamp) (item : DriveItem) : DriveItem :=
  { item with isDeleted := true, deletedAt := some now }

/-- Trashing a row is never refused: it only frees a name. -/
theorem setDeleted_runs (now : Timestamp) (itemId : Uuid) (items : ItemTable) :
    ∃ after, setDeleted now itemId items = .ok after := by
  refine flush_eq_ok_iff.mpr ?_
  rcases items.consistent with ⟨distinct, fits, slotsFree, parentsExist⟩
  have sameIds : (items.rows.map fun row =>
      if row.id = itemId then { row with isDeleted := true, deletedAt := some now }
      else row).map DriveItem.id = items.rows.map DriveItem.id := by
    rw [List.map_map]
    refine List.map_congr_left fun row _ => ?_
    by_cases same : row.id = itemId <;> simp [same]
  refine ⟨sameIds ▸ distinct, ?_, ?_, ?_⟩
  · intro row member
    rcases List.mem_map.mp member with ⟨old, oldMem, rfl⟩
    have oldFits := fits old oldMem
    by_cases same : old.id = itemId
    · simpa [same, DriveItem.Fits] using oldFits
    · simpa [same] using oldFits
  · refine List.pairwise_map.mpr (slotsFree.imp ?_)
    intro left right free collide
    rcases collide with ⟨leftLive, rightLive, rest⟩
    by_cases leftSame : left.id = itemId
    · simp [leftSame] at leftLive
    · by_cases rightSame : right.id = itemId
      · simp [rightSame] at rightLive
      · simp only [leftSame, rightSame, if_false] at leftLive rightLive rest
        exact free ⟨leftLive, rightLive, rest⟩
  · intro row member top step
    rw [sameIds]
    rcases List.mem_map.mp member with ⟨old, oldMem, rfl⟩
    refine parentsExist old oldMem top ?_
    by_cases same : old.id = itemId
    · simpa [same] using step
    · simpa [same] using step

theorem setDeleteds_run (now : Timestamp) : ∀ (extra : List DriveItem) (items : ItemTable),
    ∃ after, forEach (fun item items => setDeleted now item.id items) extra items = .ok after ∧
      ((extra.map DriveItem.id).Nodup → ∀ row, row ∈ after ↔
        ∃ old ∈ items, row =
          if old.id ∈ extra.map DriveItem.id then trashedCopy now old else old)
  | [], items => ⟨items, rfl, fun _ row => by simp⟩
  | item :: rest, items => by
      rcases setDeleted_runs now item.id items with ⟨middle, first⟩
      rcases setDeleteds_run now rest middle with ⟨after, later, members⟩
      refine ⟨after, by rw [forEach_cons, bind_eq_ok]; exact ⟨middle, first, later⟩, ?_⟩
      intro distinct row
      rw [List.map_cons, List.nodup_cons] at distinct
      have middleMem : ∀ other, other ∈ middle ↔ ∃ old ∈ items, other =
          if old.id = item.id then trashedCopy now old else old := by
        intro other
        rw [ItemTable.mem_of_change first]
        constructor
        · rintro (⟨old, oldMem, same, rfl⟩ | ⟨member, different⟩)
          · exact ⟨old, oldMem, by rw [if_pos same]; rfl⟩
          · exact ⟨other, member, by rw [if_neg different]⟩
        · rintro ⟨old, oldMem, rfl⟩
          by_cases same : old.id = item.id
          · rw [if_pos same]
            exact .inl ⟨old, oldMem, same, rfl⟩
          · rw [if_neg same]
            exact .inr ⟨oldMem, same⟩
      have both : ∀ old : DriveItem,
          (if (if old.id = item.id then trashedCopy now old else old).id ∈
              rest.map DriveItem.id
            then trashedCopy now (if old.id = item.id then trashedCopy now old else old)
            else (if old.id = item.id then trashedCopy now old else old)) =
          if old.id ∈ (item :: rest).map DriveItem.id then trashedCopy now old else old := by
        intro old
        by_cases same : old.id = item.id
        · have notRest : (trashedCopy now old).id ∉ rest.map DriveItem.id := by
            rw [show (trashedCopy now old).id = item.id from same]
            exact distinct.1
          simp only [if_pos same, if_neg notRest]
          rw [if_pos (by rw [List.map_cons, List.mem_cons]; exact .inl same)]
        · simp [same]
      rw [members distinct.2 row]
      constructor
      · rintro ⟨other, otherMem, rfl⟩
        rcases (middleMem other).mp otherMem with ⟨old, oldMem, rfl⟩
        exact ⟨old, oldMem, both old⟩
      · rintro ⟨old, oldMem, rfl⟩
        exact ⟨_, (middleMem _).mpr ⟨old, oldMem, rfl⟩, (both old).symm⟩

/-- `item` is one that step 4 sends to the trash. -/
structure Mirrored (mode : SubtreeMode) (scope : Scope) (allEntries target : List SnapshotEntry)
    (userId : Uuid) (item : DriveItem) : Prop where
  exact : mode = .exactMirror
  owned : item.ownerId = userId
  live : item.isDeleted = false
  absent : item.id ∉ allEntries.map SnapshotEntry.itemId
  inside : scope = .whole ∨ ∃ parentId ∈ item.parentId,
    parentId ∈ target.map SnapshotEntry.itemId

theorem mem_mirror {mode : SubtreeMode} {scope : Scope}
    {allEntries target : List SnapshotEntry} {userId : Uuid} {db : Database}
    {item : DriveItem} :
    item ∈ mirror mode scope allEntries target userId db ↔
      item ∈ db.items ∧ Mirrored mode scope allEntries target userId item := by
  cases mode with
  | keepNew =>
      constructor
      · intro member
        cases member
      · rintro ⟨_, isMirrored⟩
        cases isMirrored.exact
  | exactMirror =>
      simp only [mirror, mirrored, listAllItems, List.mem_filter, decide_eq_true_eq,
        Bool.and_eq_true]
      constructor
      · rintro ⟨⟨member, owned⟩, ⟨live, absent⟩, inside⟩
        refine ⟨member, rfl, owned, live, absent, ?_⟩
        cases scope with
        | whole => exact .inl rfl
        | selected itemIds =>
            refine .inr ?_
            cases parent : item.parentId with
            | none => simp [parent] at inside
            | some parentId => exact ⟨parentId, rfl, by simpa [parent] using inside⟩
      · rintro ⟨member, _, owned, live, absent, inside⟩
        refine ⟨⟨member, owned⟩, ⟨live, absent⟩, ?_⟩
        cases scope with
        | whole => rfl
        | selected itemIds =>
            rcases inside with whole | ⟨parentId, parent, among⟩
            · cases whole
            · rw [Option.mem_def.mp parent]
              simpa using among

/-- Once the target entries are written, the rest of a restore cannot fail: the
mirrored rows are trashed and every other row is as the upserts left it. -/
theorem applySnapshot_runs {userId snapshotId : Uuid} {scope : Scope} (mode : SubtreeMode)
    (preId : Uuid) {sys : System} {target : List SnapshotEntry} {middle : ItemTable}
    (selects : restoreTarget scope (listAllEntries sys.db snapshotId) = .ok target)
    (upserts : upsertAll sys.now userId target sys.db.items
      ((listAllItems sys.db userId).map DriveItem.id) = .ok middle) :
    ∃ trashed after, applySnapshot userId snapshotId scope mode preId sys =
        .ok (⟨preId, target.length, trashed⟩, sys.withItems after) ∧
      ∀ row, row ∈ after ↔
        (∃ old ∈ middle, row = trashedCopy sys.now old ∧
          Mirrored mode scope (listAllEntries sys.db snapshotId) target userId old) ∨
        (row ∈ middle ∧
          ¬ Mirrored mode scope (listAllEntries sys.db snapshotId) target userId row) := by
  let extra := mirror mode scope (listAllEntries sys.db snapshotId) target userId
    (sys.withItems middle).db
  have extraMem : ∀ item, item ∈ extra ↔ item ∈ middle ∧
      Mirrored mode scope (listAllEntries sys.db snapshotId) target userId item :=
    fun item => mem_mirror
  have distinct : (extra.map DriveItem.id).Nodup := by
    have sub : extra.Sublist middle.rows := by
      cases mode with
      | keepNew => exact List.nil_sublist _
      | exactMirror => exact List.filter_sublist.trans List.filter_sublist
    exact middle.nodup.sublist (sub.map _)
  rcases setDeleteds_run sys.now extra middle with ⟨after, runs, members⟩
  refine ⟨extra.length, after, ?_, ?_⟩
  · simp only [applySnapshot, bind_eq_ok, pure_eq_ok]
    exact ⟨target, selects, middle, upserts, after, runs, rfl⟩
  · intro row
    rw [members distinct row]
    have byId : ∀ old ∈ middle, old.id ∈ extra.map DriveItem.id ↔
        Mirrored mode scope (listAllEntries sys.db snapshotId) target userId old := by
      intro old oldMem
      constructor
      · intro among
        rcases List.mem_map.mp among with ⟨item, itemMem, sameId⟩
        rcases (extraMem item).mp itemMem with ⟨itemMiddle, isMirrored⟩
        exact ItemTable.eq_of_id_eq itemMiddle oldMem sameId ▸ isMirrored
      · exact fun isMirrored => List.mem_map_of_mem ((extraMem old).mpr ⟨oldMem, isMirrored⟩)
    constructor
    · rintro ⟨old, oldMem, rfl⟩
      by_cases isMirrored : old.id ∈ extra.map DriveItem.id
      · rw [if_pos isMirrored]
        exact .inl ⟨old, oldMem, rfl, (byId old oldMem).mp isMirrored⟩
      · rw [if_neg isMirrored]
        exact .inr ⟨oldMem, mt (byId old oldMem).mpr isMirrored⟩
    · rintro (⟨old, oldMem, rfl, isMirrored⟩ | ⟨member, notMirrored⟩)
      · exact ⟨old, oldMem, by rw [if_pos ((byId old oldMem).mpr isMirrored)]⟩
      · exact ⟨row, member, by rw [if_neg (mt (byId row member).mp notMirrored)]⟩

theorem applySnapshot_refused {userId snapshotId : Uuid} {scope : Scope}
    {mode : SubtreeMode} {preId : Uuid} {sys : System} {target : List SnapshotEntry}
    {error : ServiceError}
    (selects : restoreTarget scope (listAllEntries sys.db snapshotId) = .ok target)
    (refused : upsertAll sys.now userId target sys.db.items
      ((listAllItems sys.db userId).map DriveItem.id) = .error error) :
    applySnapshot userId snapshotId scope mode preId sys = .error error := by
  simp only [applySnapshot, selects]
  show (do let items ← upsertAll sys.now userId target sys.db.items
            ((listAllItems sys.db userId).map DriveItem.id)
           _) = _
  rw [refused]
  rfl

/-! ## The safety snapshot of a restore -/

/-- The snapshot `restore` takes before it restores `snapshot`. -/
def safetySnapshot (userId : Uuid) (snapshot : Snapshot) (sys : System) : Snapshot :=
  newSnapshot userId .preRestore (safetyLabel snapshot) false sys

/-- The user's snapshots with one more, newest first. -/
def timeline (userId : Uuid) (new : Snapshot) (sys : System) : List Snapshot :=
  ((sys.db.snapshots.rows ++ [new]).filter fun snapshot =>
    decide (snapshot.userId = userId)).insertionSort
    fun left right => right.createdAt ≤ left.createdAt

/-- `snapshot` outlives the pruning that follows the safety snapshot. -/
def SurvivesSafety (userId : Uuid) (snapshot : Snapshot) (sys : System) : Prop :=
  let settings := getSettings sys.db userId
  Retained settings.retentionN (resolveQuotaBytes sys.db userId settings)
    (timeline userId (safetySnapshot userId snapshot sys) sys)
    (sys.db.entries.rows ++ captureEntries userId sys) snapshot

instance (userId : Uuid) (snapshot : Snapshot) (sys : System) :
    Decidable (SurvivesSafety userId snapshot sys) :=
  inferInstanceAs (Decidable (Retained _ _ _ _ _))

theorem getSnapshot_eq_some {db : Database} {userId snapshotId : Uuid}
    {snapshot : Snapshot} : getSnapshot db userId snapshotId = some snapshot ↔
      snapshot ∈ db.snapshots ∧ snapshot.id = snapshotId ∧ snapshot.userId = userId := by
  have lookup : ∀ row, db.snapshots.find? snapshotId = some row ↔
      row ∈ db.snapshots ∧ row.id = snapshotId := fun row => Table.find?_eq_some
  cases found : db.snapshots.find? snapshotId with
  | none =>
      simp only [getSnapshot, found, reduceCtorEq, false_iff]
      rintro ⟨member, sameId, _⟩
      rw [(lookup snapshot).mpr ⟨member, sameId⟩] at found
      cases found
  | some row =>
      have rowMem := (lookup row).mp found
      have only : ∀ other, other ∈ db.snapshots ∧ other.id = snapshotId → other = row :=
        fun other both => Option.some.inj (((lookup other).mpr both).symm.trans found)
      by_cases owned : row.userId = userId
      · simp only [getSnapshot, found, owned, if_true, Option.some.injEq]
        constructor
        · rintro rfl
          exact ⟨rowMem.1, rowMem.2, owned⟩
        · exact fun all => (only snapshot ⟨all.1, all.2.1⟩).symm
      · simp only [getSnapshot, found, owned, if_false, reduceCtorEq, false_iff]
        rintro ⟨member, sameId, mine⟩
        exact owned (only snapshot ⟨member, sameId⟩ ▸ mine)

/-- What a restore finds after its safety snapshot: the drive as it was, and the
snapshot with its entries exactly when it survives. -/
structure Guarded (userId : Uuid) (snapshot : Snapshot) (sys guarded : System) : Prop where
  items : guarded.db.items = sys.db.items
  now : guarded.now = sys.now
  found : getSnapshot guarded.db userId snapshot.id = some snapshot ↔
    SurvivesSafety userId snapshot sys
  kept : SurvivesSafety userId snapshot sys →
    listAllEntries guarded.db snapshot.id = listAllEntries sys.db snapshot.id
  lost : ¬ SurvivesSafety userId snapshot sys → listAllEntries guarded.db snapshot.id = []

theorem safety_guarded {userId snapshotId : Uuid} {snapshot : Snapshot} {sys : System}
    (found : getSnapshot sys.db userId snapshotId = some snapshot) :
    ∃ guarded, create userId .preRestore (safetyLabel snapshot) false sys =
        .ok (safetySnapshot userId snapshot sys, guarded) ∧
      Guarded userId snapshot sys guarded := by
  rcases getSnapshot_eq_some.mp found with ⟨snapshotMem, rfl, owned⟩
  rcases create_runs userId .preRestore (safetyLabel snapshot) false sys with
    ⟨db, captured, creates⟩
  have settings : getSettings db userId = getSettings sys.db userId := by
    rw [captured.frame]
    rfl
  have quota : ∀ settings, resolveQuotaBytes db userId settings =
      resolveQuotaBytes sys.db userId settings := by
    intro settings
    rw [captured.frame]
    rfl
  have listed : listSnapshots db userId =
      timeline userId (safetySnapshot userId snapshot sys) sys := by
    rw [listSnapshots, captured.snapshots]
    rfl
  rcases prune_spec userId (getSettings sys.db userId) db with ⟨gone, prunes, _, fate⟩
  have inDb : snapshot ∈ db.snapshots := by
    rw [← Table.mem_rows, captured.snapshots]
    exact List.mem_append_left _ snapshotMem
  have survives : snapshot.id ∉ gone ↔ SurvivesSafety userId snapshot sys := by
    rw [fate snapshot (mem_listSnapshots.mpr ⟨inDb, owned⟩), quota, listed, captured.entries]
    rfl
  have entries : listAllEntries (without gone db) snapshot.id =
      if snapshot.id ∈ gone then [] else listAllEntries sys.db snapshot.id := by
    have notNew : ∀ entry ∈ captureEntries userId sys, entry.snapshotId ≠ snapshot.id := by
      intro entry member same
      rw [captureEntries_snapshotId member] at same
      exact sys.uuid4_unused.snapshots snapshot snapshotMem same.symm
    have none : (captureEntries userId sys).filter
        (fun entry => decide (entry.snapshotId = snapshot.id)) = [] :=
      List.filter_eq_nil_iff.mpr fun entry member => by simpa using notNew entry member
    have rows : listAllEntries (without gone db) snapshot.id =
        db.entries.rows.filter fun entry =>
          decide (entry.snapshotId = snapshot.id) && decide (entry.snapshotId ∉ gone) := by
      simp only [listAllEntries, without, Table.filter, List.filter_filter]
    rw [rows, captured.entries]
    split
    · rename_i lost
      refine List.filter_eq_nil_iff.mpr fun entry _ => ?_
      by_cases own : entry.snapshotId = snapshot.id <;> simp [own, lost]
    · rename_i kept
      have simpler : ∀ entry : SnapshotEntry,
          (decide (entry.snapshotId = snapshot.id) && decide (entry.snapshotId ∉ gone)) =
            decide (entry.snapshotId = snapshot.id) := by
        intro entry
        by_cases own : entry.snapshotId = snapshot.id <;> simp [own, kept]
      simp only [simpler, List.filter_append, none, List.append_nil]
      rfl
  refine ⟨{ sys.drawn with db := prune userId (getSettings db userId) db }, creates, ?_⟩
  rw [settings, prunes]
  refine ⟨?_, rfl, ?_, ?_, ?_⟩
  · rw [captured.frame]
    rfl
  · rw [← survives, getSnapshot_eq_some, mem_without_snapshots]
    exact ⟨fun both => both.1.2, fun kept => ⟨⟨inDb, kept⟩, rfl, owned⟩⟩
  · intro kept
    rw [entries, if_neg (survives.mpr kept)]
  · intro lost
    rw [entries, if_pos (not_not.mp (mt survives.mp lost))]

end SnapshotService

end CloudDrive
