import CloudDrive.Snapshot.Identity
import CloudDrive.Snapshot.Reparenting

/-! # Sibling names during a restore

The unique index is checked whenever an upsert is flushed, and it does not see items
at the root. A restore resolves no names: each entry takes its place, whatever is
there at that moment. -/

namespace CloudDrive

open Outcome Relational Execution

namespace SnapshotService

open SnapshotRepository

section Names

variable [Platform]

/-! ## The flushes of a restore -/

/-- The rows that `upsert_item` hands to the flush. -/
def upsertRows (now : Timestamp) (ownerId : Uuid) (entry : SnapshotEntry) (items : ItemTable) :
    List DriveItem :=
  match items.find? entry.itemId with
  | none => items.rows ++ [recreated now ownerId entry]
  | some _ => items.rows.map fun row =>
      if row.id = entry.itemId then overwritten now entry row else row

theorem upsertItem_eq (now : Timestamp) (ownerId : Uuid) (entry : SnapshotEntry)
    (items : ItemTable) :
    upsertItem now ownerId entry items = flush (upsertRows now ownerId entry items) := by
  rw [upsertItem, upsertRows]
  cases items.find? entry.itemId <;> rfl

/-- The rows at each flush of a loop of upserts, up to the first that is refused. -/
def upsertFlushes (now : Timestamp) (ownerId : Uuid) :
    List SnapshotEntry → ItemTable → List (List DriveItem)
  | [], _ => []
  | entry :: rest, items =>
      upsertRows now ownerId entry items ::
        match upsertItem now ownerId entry items with
        | .ok after => upsertFlushes now ownerId rest after
        | .error _ => []

/-- The rows at each flush of the mirror. -/
def mirrorFlushes (now : Timestamp) : List DriveItem → ItemTable → List (List DriveItem)
  | [], _ => []
  | item :: rest, items =>
      match setDeleted now item.id items with
      | .ok after => after.rows :: mirrorFlushes now rest after
      | .error _ => []

/-- The entries at the places where a restore writes them, in its order. -/
def placedEntries (userId : Uuid) (sys : System) (target : List SnapshotEntry) :
    List SnapshotEntry :=
  (parentsFirst target).map
    (placed (target.map SnapshotEntry.itemId) ((listAllItems sys.db userId).map DriveItem.id))

/-- The rows at each flush of `restore` that writes items. -/
def restoreFlushes (userId snapshotId : Uuid) (scope : Scope) (mode : SubtreeMode)
    (sys : System) : Except ServiceError (List (List DriveItem)) := do
  match getSnapshot sys.db userId snapshotId with
  | none => pure []
  | some snapshot =>
      let (_, sys) ← create userId .preRestore (safetyLabel snapshot) false sys
      let allEntries := listAllEntries sys.db snapshotId
      let target ← restoreTarget scope allEntries
      let entries := placedEntries userId sys target
      let upserts := upsertFlushes sys.now userId entries sys.db.items
      match forEach (upsertItem sys.now userId) entries sys.db.items with
      | .error _ => pure upserts
      | .ok items =>
          let extra := mirror mode scope allEntries target userId (sys.withItems items).db
          pure (upserts ++ mirrorFlushes sys.now extra items)

/-! ## Names apart -/

/-- Two live items of one owner beside each other, with names that the collation
does not tell apart. -/
def SameName (left right : DriveItem) : Prop :=
  left.isDeleted = false ∧ right.isDeleted = false ∧ left.ownerId = right.ownerId ∧
    left.parentId = right.parentId ∧ Platform.lower left.name = Platform.lower right.name

instance (left right : DriveItem) : Decidable (SameName left right) :=
  inferInstanceAs (Decidable (_ ∧ _ ∧ _ ∧ _ ∧ _))

/-- The sibling-name rule for one owner, at the root as anywhere else. -/
def NamesApart (userId : Uuid) (rows : List DriveItem) : Prop :=
  ∀ left ∈ rows, ∀ right ∈ rows, left.ownerId = userId → SameName left right →
    left.id = right.id

instance (userId : Uuid) (rows : List DriveItem) : Decidable (NamesApart userId rows) :=
  inferInstanceAs (Decidable (∀ left ∈ rows, ∀ right ∈ rows, _ → _ → _))

/-- A live item of the user is where the entry will be. -/
def Occupies (userId : Uuid) (entry : SnapshotEntry) (row : DriveItem) : Prop :=
  row.ownerId = userId ∧ row.isDeleted = false ∧ row.parentId = entry.parentItemId ∧
    Platform.lower row.name = Platform.lower entry.name

instance (userId : Uuid) (entry : SnapshotEntry) (row : DriveItem) :
    Decidable (Occupies userId entry row) :=
  inferInstanceAs (Decidable (_ ∧ _ ∧ _ ∧ _))

/-! ## One upsert -/

variable {now : Timestamp} {userId : Uuid} {entry : SnapshotEntry} {items : ItemTable}

theorem mem_upsertRows {row : DriveItem} : row ∈ upsertRows now userId entry items ↔
    row = written now userId items entry ∨ (row ∈ items ∧ row.id ≠ entry.itemId) := by
  cases found : items.find? entry.itemId with
  | none =>
      have absent := ItemTable.find?_eq_none.mp found
      rw [upsertRows, found, written, found, List.mem_append, List.mem_singleton]
      constructor
      · intro either
        rcases either with earlier | isNew
        · exact .inr ⟨earlier, absent row earlier⟩
        · exact .inl isNew
      · intro either
        rcases either with isNew | earlier
        · exact .inr isNew
        · exact .inl earlier.1
  | some item =>
      rcases ItemTable.find?_eq_some.mp found with ⟨itemMem, sameId⟩
      rw [upsertRows, found, written, found, List.mem_map]
      constructor
      · intro mapped
        rcases mapped with ⟨old, oldMem, rfl⟩
        by_cases same : old.id = entry.itemId
        · rw [if_pos same]
          exact .inl (congrArg _ (ItemTable.eq_of_id_eq oldMem itemMem (same.trans sameId.symm)))
        · rw [if_neg same]
          exact .inr ⟨oldMem, same⟩
      · intro either
        rcases either with rfl | ⟨member, different⟩
        · exact ⟨item, itemMem, if_pos sameId⟩
        · exact ⟨row, member, if_neg different⟩

theorem upsertRows_nodup : ((upsertRows now userId entry items).map DriveItem.id).Nodup := by
  cases found : items.find? entry.itemId with
  | none =>
      have absent := ItemTable.find?_eq_none.mp found
      rw [upsertRows, found]
      show ((items.rows ++ [recreated now userId entry]).map DriveItem.id).Nodup
      rw [List.map_append, List.nodup_append]
      apply And.intro items.nodup
      apply And.intro (List.nodup_singleton _)
      intro itemId member other otherMem same
      rcases List.mem_map.mp member with ⟨row, rowMem, rfl⟩
      rw [List.mem_singleton.mp otherMem] at same
      exact absent row rowMem same
  | some item =>
      rw [upsertRows, found]
      have sameIds : (items.rows.map fun row =>
          if row.id = entry.itemId then overwritten now entry row else row).map DriveItem.id =
            items.rows.map DriveItem.id := by
        rw [List.map_map]
        apply List.map_congr_left
        intro row member
        by_cases same : row.id = entry.itemId <;> simp [same, overwritten]
      exact sameIds ▸ items.nodup

theorem written_fits (short : entry.name.length ≤ 512) :
    (written now userId items entry).Fits := by
  cases found : items.find? entry.itemId with
  | none =>
      rw [written, found]
      exact ⟨short, by simp [recreated], by simp [recreated]⟩
  | some item =>
      have fits := items.fits item (ItemTable.find?_eq_some.mp found).1
      rw [written, found]
      exact ⟨short, fits.2⟩

theorem SameSlot.symm {left right : DriveItem} (same : SameSlot left right) :
    SameSlot right left := by
  rcases same with ⟨leftLive, rightLive, owner, nested, parent, name⟩
  exact ⟨rightLive, leftLive, owner.symm, parent ▸ nested, parent.symm, name.symm⟩

/-- Rows with different ids compete for a slot or not, whatever their order. -/
theorem slotsFree_iff {rows : List DriveItem} (distinct : (rows.map DriveItem.id).Nodup) :
    (rows.Pairwise fun left right => ¬ SameSlot left right) ↔
      ∀ left ∈ rows, ∀ right ∈ rows, SameSlot left right → left.id = right.id := by
  constructor
  · intro free left leftMem right rightMem same
    by_contra different
    have symmetric : Std.Symm fun left right => ¬ SameSlot left right :=
      ⟨fun _ _ notSame again => notSame (SameSlot.symm again)⟩
    have distinctRows : left ≠ right := fun equal => different (congrArg DriveItem.id equal)
    exact free.forall leftMem rightMem distinctRows same
  · intro apart
    apply (List.Nodup.of_map _ distinct).pairwise_of_forall_ne
    intro left leftMem right rightMem different same
    exact different (List.inj_on_of_nodup_map distinct leftMem rightMem
      (apart left leftMem right rightMem same))

theorem mem_upsertRows_ids {itemId : Uuid} :
    itemId ∈ (upsertRows now userId entry items).map DriveItem.id ↔
      itemId ∈ entry.itemId :: items.rows.map DriveItem.id := by
  rw [List.mem_map, List.mem_cons, List.mem_map]
  constructor
  · intro mapped
    rcases mapped with ⟨row, member, rfl⟩
    rcases mem_upsertRows.mp member with rfl | earlier
    · exact .inl (written_id _ _ _ _)
    · exact .inr ⟨row, earlier.1, rfl⟩
  · intro either
    by_cases same : itemId = entry.itemId
    · exact ⟨_, mem_upsertRows.mpr (.inl rfl), same ▸ written_id _ _ _ _⟩
    · rcases either with isEntry | ⟨row, member, rfl⟩
      · exact absurd isEntry same
      · exact ⟨row, mem_upsertRows.mpr (.inr ⟨member, same⟩), rfl⟩

/-- An upsert is refused only for a slot that is taken or a parent that is missing. -/
theorem upsertRows_consistent (short : entry.name.length ≤ 512) :
    Consistent (upsertRows now userId entry items) ↔
      ((upsertRows now userId entry items).Pairwise fun left right => ¬ SameSlot left right) ∧
        ∀ parentId ∈ entry.parentItemId,
          parentId ∈ entry.itemId :: items.rows.map DriveItem.id := by
  have fits : ∀ row ∈ upsertRows now userId entry items, row.Fits := by
    intro row member
    rcases mem_upsertRows.mp member with rfl | earlier
    · exact written_fits short
    · exact items.fits row earlier.1
  have parents : ParentsExist (upsertRows now userId entry items) ↔
      ∀ parentId ∈ entry.parentItemId,
        parentId ∈ entry.itemId :: items.rows.map DriveItem.id := by
    constructor
    · intro exist parentId named
      apply mem_upsertRows_ids.mp
      apply exist _ (mem_upsertRows.mpr (.inl rfl))
      rwa [(written_fields now userId items entry).2.1]
    · intro exist row member top named
      apply mem_upsertRows_ids.mpr
      rcases mem_upsertRows.mp member with rfl | earlier
      · rw [(written_fields now userId items entry).2.1] at named
        exact exist top named
      · exact List.mem_cons_of_mem _ (items.parentsExist row earlier.1 top named)
  rw [Consistent, parents]
  exact ⟨fun all => ⟨all.2.2.1, all.2.2.2⟩,
    fun both => ⟨upsertRows_nodup, fits, both.1, both.2⟩⟩

/-! ## One upsert and the names -/

/-- An upsert keeps the names apart exactly when nobody else is at its place. -/
theorem upsertRows_namesApart (mine : (written now userId items entry).ownerId = userId)
    (apart : NamesApart userId items.rows) :
    NamesApart userId (upsertRows now userId entry items) ↔
      ∀ row ∈ items, Occupies userId entry row → row.id = entry.itemId := by
  rcases written_fields now userId items entry with ⟨sameId, parent, name, _, _, _, live⟩
  have meets : ∀ {row : DriveItem}, row.ownerId = userId →
      (SameName (written now userId items entry) row ↔ Occupies userId entry row) := by
    intro row owned
    rw [SameName, Occupies, mine, parent, name, live]
    constructor
    · intro same
      exact ⟨owned, same.2.1, same.2.2.2.1.symm, same.2.2.2.2.symm⟩
    · intro there
      exact ⟨rfl, there.2.1, owned.symm, there.2.2.1.symm, there.2.2.2.symm⟩
  constructor
  · intro after row member there
    by_contra different
    have stays : row ∈ upsertRows now userId entry items :=
      mem_upsertRows.mpr (.inr ⟨member, different⟩)
    have same := after _ (mem_upsertRows.mpr (.inl rfl)) row stays mine
      ((meets there.1).mpr there)
    exact different (same.symm.trans sameId)
  · intro free left leftMem right rightMem owned same
    have rightOwned : right.ownerId = userId := same.2.2.1.symm.trans owned
    rcases mem_upsertRows.mp leftMem with rfl | ⟨leftOld, leftDifferent⟩
    · rcases mem_upsertRows.mp rightMem with rfl | ⟨rightOld, rightDifferent⟩
      · rfl
      · exact absurd (free right rightOld ((meets rightOwned).mp same)) rightDifferent
    · rcases mem_upsertRows.mp rightMem with rfl | ⟨rightOld, _⟩
      · have turned : SameName (written now userId items entry) left :=
          ⟨same.2.1, same.1, same.2.2.1.symm, same.2.2.2.1.symm, same.2.2.2.2.symm⟩
        exact absurd (free left leftOld ((meets owned).mp turned)) leftDifferent
      · exact apart left leftOld right rightOld owned same

/-- The slots of the index are free when the names of the one owner are apart. -/
theorem upsertRows_slotsFree (mine : (written now userId items entry).ownerId = userId)
    (apart : NamesApart userId (upsertRows now userId entry items)) :
    (upsertRows now userId entry items).Pairwise fun left right => ¬ SameSlot left right := by
  rw [slotsFree_iff upsertRows_nodup]
  intro left leftMem right rightMem same
  rcases same with ⟨leftLive, rightLive, owner, nested, parent, name⟩
  by_cases owned : left.ownerId = userId
  · exact apart left leftMem right rightMem owned ⟨leftLive, rightLive, owner, parent, name⟩
  · rcases mem_upsertRows.mp leftMem with rfl | ⟨leftOld, _⟩
    · exact absurd mine owned
    · rcases mem_upsertRows.mp rightMem with rfl | ⟨rightOld, _⟩
      · exact absurd (owner.trans mine) owned
      · exact (slotsFree_iff items.nodup).mp items.slotsFree left leftOld right rightOld
          ⟨leftLive, rightLive, owner, nested, parent, name⟩

/-! ## All upserts -/

/-- The entries that a loop of upserts comes to, as far as parents decide: none after
the first whose parent is not there. -/
def attempted (known : List Uuid) : List SnapshotEntry → List SnapshotEntry
  | [] => []
  | entry :: rest =>
      if ∀ parentId ∈ entry.parentItemId, parentId ∈ entry.itemId :: known then
        entry :: attempted (entry.itemId :: known) rest
      else
        [entry]

/-- Two entries claim one place. -/
def SamePlace (left right : SnapshotEntry) : Prop :=
  left.parentItemId = right.parentItemId ∧ Platform.lower left.name = Platform.lower right.name

instance (left right : SnapshotEntry) : Decidable (SamePlace left right) :=
  inferInstanceAs (Decidable (_ ∧ _))

/-- Whoever is at the place of an entry when its turn comes is its own item or is written
before it, and no entry written before it has its place. `past` is what has been
written. -/
def PlacesFree (userId : Uuid) (items : ItemTable) :
    List SnapshotEntry → List SnapshotEntry → Prop
  | _, [] => True
  | past, entry :: rest =>
      (∀ row ∈ items.rows, Occupies userId entry row →
        row.id ∈ (entry :: past).map SnapshotEntry.itemId) ∧
      (∀ earlier ∈ past, ¬ SamePlace earlier entry) ∧
      PlacesFree userId items (entry :: past) rest

/-- `middle` is `items` after the entries `past` were written. -/
def Wrote (now : Timestamp) (userId : Uuid) (items : ItemTable) (past : List SnapshotEntry)
    (middle : ItemTable) : Prop :=
  ∀ row, row ∈ middle ↔ (∃ entry ∈ past, row = written now userId items entry) ∨
    (row ∈ items ∧ row.id ∉ past.map SnapshotEntry.itemId)

variable {past : List SnapshotEntry} {middle after : ItemTable}

/-- An entry that has not been written yet finds the row it had at the beginning. -/
theorem Wrote.written_eq (wrote : Wrote now userId items past middle)
    (notYet : entry.itemId ∉ past.map SnapshotEntry.itemId) :
    written now userId middle entry = written now userId items entry := by
  have same : middle.find? entry.itemId = items.find? entry.itemId := by
    apply Option.ext
    intro row
    rw [ItemTable.find?_eq_some, ItemTable.find?_eq_some, wrote]
    constructor
    · intro both
      rcases both with ⟨⟨earlier, member, rfl⟩ | ⟨member, _⟩, sameId⟩
      · rw [written_id] at sameId
        exact absurd (sameId ▸ List.mem_map_of_mem member) notYet
      · exact ⟨member, sameId⟩
    · intro both
      exact ⟨.inr ⟨both.1, both.2 ▸ notYet⟩, both.2⟩
  simp only [written, same]

theorem Wrote.next (wrote : Wrote now userId items past middle)
    (notYet : entry.itemId ∉ past.map SnapshotEntry.itemId)
    (runs : upsertItem now userId entry middle = .ok after) :
    Wrote now userId items (entry :: past) after := by
  intro row
  rw [upsertItem_ok runs, wrote.written_eq notYet, wrote]
  constructor
  · intro either
    rcases either with rfl | ⟨⟨earlier, member, rfl⟩ | ⟨member, notPast⟩, different⟩
    · exact .inl ⟨entry, List.mem_cons_self, rfl⟩
    · exact .inl ⟨earlier, List.mem_cons_of_mem _ member, rfl⟩
    · apply Or.inr
      apply And.intro member
      rw [List.map_cons, List.mem_cons, not_or]
      exact ⟨different, notPast⟩
  · intro either
    rcases either with ⟨earlier, member, rfl⟩ | ⟨member, notAny⟩
    · rcases List.mem_cons.mp member with rfl | inPast
      · exact .inl rfl
      · apply Or.inr
        apply And.intro (.inl ⟨earlier, inPast, rfl⟩)
        rw [written_id]
        exact fun same => notYet (same ▸ List.mem_map_of_mem inPast)
    · rw [List.map_cons, List.mem_cons, not_or] at notAny
      exact .inr ⟨.inr ⟨member, notAny.2⟩, notAny.1⟩

/-- Who is at the place of the next entry, in terms of the drive at the beginning. -/
theorem Wrote.free_iff (wrote : Wrote now userId items past middle)
    (notYet : entry.itemId ∉ past.map SnapshotEntry.itemId)
    (mine : ∀ earlier ∈ past, (written now userId items earlier).ownerId = userId) :
    (∀ row ∈ middle, Occupies userId entry row → row.id = entry.itemId) ↔
      (∀ row ∈ items.rows, Occupies userId entry row →
        row.id ∈ (entry :: past).map SnapshotEntry.itemId) ∧
      ∀ earlier ∈ past, ¬ SamePlace earlier entry := by
  constructor
  · intro free
    constructor
    · intro row member there
      rw [List.map_cons, List.mem_cons]
      by_cases isPast : row.id ∈ past.map SnapshotEntry.itemId
      · exact .inr isPast
      · exact .inl (free row ((wrote row).mpr (.inr ⟨member, isPast⟩)) there)
    · intro earlier member same
      rcases written_fields now userId items earlier with ⟨sameId, parent, name, _, _, _, live⟩
      have there : Occupies userId entry (written now userId items earlier) :=
        ⟨mine earlier member, live, parent.trans same.1, name ▸ same.2⟩
      have isEntry := free _ ((wrote _).mpr (.inl ⟨earlier, member, rfl⟩)) there
      exact notYet (isEntry ▸ sameId ▸ List.mem_map_of_mem member)
  · intro both row member there
    rcases (wrote row).mp member with ⟨earlier, isPast, rfl⟩ | ⟨inItems, notPast⟩
    · rcases written_fields now userId items earlier with ⟨_, parent, name, _⟩
      rcases there with ⟨_, _, sameParent, sameName⟩
      exact absurd ⟨parent.symm.trans sameParent, name ▸ sameName⟩ (both.2 earlier isPast)
    · have known := both.1 row inItems there
      rw [List.map_cons, List.mem_cons] at known
      rcases known with same | isPast
      · exact same
      · exact absurd isPast notPast

/-- An upsert with its parent there and the slots free runs, and leaves these rows. -/
theorem upsertItem_runs (short : entry.name.length ≤ 512)
    (free : (upsertRows now userId entry items).Pairwise fun left right => ¬ SameSlot left right)
    (exist : ∀ parentId ∈ entry.parentItemId,
      parentId ∈ entry.itemId :: items.rows.map DriveItem.id) :
    ∃ after, upsertItem now userId entry items = .ok after ∧
      after.rows = upsertRows now userId entry items := by
  rcases flush_eq_ok_iff.mpr ((upsertRows_consistent short).mpr ⟨free, exist⟩)
    with ⟨after, flushed⟩
  rw [upsertItem_eq]
  exact ⟨after, flushed, flush_ok flushed⟩

/-- The rows of a flush obey the rule for the user, and the index takes them. -/
structure FlushesApart (userId : Uuid) (rows : List DriveItem) : Prop where
  namesApart : NamesApart userId rows
  slotsFree : rows.Pairwise fun left right => ¬ SameSlot left right

/-- The rows at every flush of the loop have their names apart exactly when every
place is free when its turn comes. -/
theorem upsertFlushes_apart : ∀ {entries past : List SnapshotEntry}
    {middle : ItemTable} {known : List Uuid}, Wrote now userId items past middle →
    (∀ itemId, itemId ∈ known ↔ itemId ∈ middle.rows.map DriveItem.id) →
    ((entries ++ past).map SnapshotEntry.itemId).Nodup →
    (∀ entry ∈ entries ++ past, (written now userId items entry).ownerId = userId) →
    (∀ entry ∈ entries, entry.name.length ≤ 512) →
    NamesApart userId middle.rows →
    ((∀ rows ∈ upsertFlushes now userId entries middle, FlushesApart userId rows) ↔
      PlacesFree userId items past (attempted known entries))
  | [], _, _, _, _, _, _, _, _, _ => by simp [upsertFlushes, attempted, PlacesFree]
  | entry :: rest, past, middle, known, wrote, isKnown, distinct, mine, short, apart => by
      have notYet : entry.itemId ∉ past.map SnapshotEntry.itemId := by
        rw [List.cons_append, List.map_cons, List.nodup_cons, List.map_append] at distinct
        exact fun isPast => distinct.1 (List.mem_append_right _ isPast)
      have owned := mine entry List.mem_cons_self
      rw [← wrote.written_eq notYet] at owned
      have step : FlushesApart userId (upsertRows now userId entry middle) ↔
          ∀ row ∈ middle, Occupies userId entry row → row.id = entry.itemId := by
        rw [← upsertRows_namesApart owned apart]
        exact ⟨FlushesApart.namesApart, fun names => ⟨names, upsertRows_slotsFree owned names⟩⟩
      have free := wrote.free_iff notYet fun earlier member =>
        mine earlier (List.mem_append_right _ member)
      have sameKnown : ∀ parentId, parentId ∈ entry.itemId :: known ↔
          parentId ∈ entry.itemId :: middle.rows.map DriveItem.id := by
        intro parentId
        rw [List.mem_cons, List.mem_cons, isKnown]
      rw [upsertFlushes, List.forall_mem_cons, step, free, attempted]
      split_ifs with available
      · rw [PlacesFree, and_assoc]
        apply and_congr_right
        intro nobody
        apply and_congr_right
        intro noEntry
        have nowApart := step.mpr (free.mpr ⟨nobody, noEntry⟩)
        rcases upsertItem_runs (short entry List.mem_cons_self)
          nowApart.slotsFree
          (fun parentId named => (sameKnown parentId).mp (available parentId named))
          with ⟨after, runs, rows⟩
        rw [runs]
        apply upsertFlushes_apart (wrote.next notYet runs)
        · intro itemId
          rw [rows, mem_upsertRows_ids, sameKnown]
        · exact (List.perm_middle.map SnapshotEntry.itemId).nodup_iff.mpr distinct
        · exact fun other member => mine other (List.perm_middle.mem_iff.mp member)
        · exact fun other member => short other (List.mem_cons_of_mem _ member)
        · rw [rows]
          exact nowApart.namesApart
      · have refused : ∀ after, upsertItem now userId entry middle ≠ .ok after := by
          intro after runs
          rw [upsertItem_eq] at runs
          have consistent := flush_eq_ok_iff.mp ⟨after, runs⟩
          apply available
          intro parentId named
          exact (sameKnown parentId).mpr
            (((upsertRows_consistent (short entry List.mem_cons_self)).mp consistent).2
              parentId named)
        cases runs : upsertItem now userId entry middle with
        | ok after => exact absurd runs (refused after)
        | error error => simp [PlacesFree]

/-! ## The whole restore -/

theorem namesApart_of_setDeleted {itemId : Uuid} (apart : NamesApart userId items.rows)
    (runs : setDeleted now itemId items = .ok after) : NamesApart userId after.rows := by
  have wasThere : ∀ row ∈ after, row.isDeleted = false → row ∈ items := by
    intro row member live
    rcases (ItemTable.mem_of_change runs).mp member with ⟨old, _, _, rfl⟩ | ⟨earlier, _⟩
    · cases live
    · exact earlier
  intro left leftMem right rightMem owned same
  exact apart left (wasThere left leftMem same.1) right (wasThere right rightMem same.2.1)
    owned same

/-- The mirror takes items away from their places only. -/
theorem mirrorFlushes_apart : ∀ {extra : List DriveItem} {items : ItemTable},
    NamesApart userId items.rows →
    ∀ rows ∈ mirrorFlushes now extra items, FlushesApart userId rows
  | [], _, _, _, member => by cases member
  | item :: rest, items, apart, rows, member => by
      rw [mirrorFlushes] at member
      cases runs : setDeleted now item.id items with
      | error error =>
          rw [runs] at member
          cases member
      | ok after =>
          have stillApart := namesApart_of_setDeleted apart runs
          rw [runs] at member
          rcases List.mem_cons.mp member with rfl | later
          · exact ⟨stillApart, after.slotsFree⟩
          · exact mirrorFlushes_apart stillApart rows later

/-- A loop of upserts that ends has ended with its last flush. -/
theorem namesApart_of_upserts : ∀ {entries : List SnapshotEntry} {items : ItemTable},
    NamesApart userId items.rows →
    (∀ rows ∈ upsertFlushes now userId entries items, FlushesApart userId rows) →
    forEach (upsertItem now userId) entries items = .ok after → NamesApart userId after.rows
  | [], items, apart, _, runs => by
      cases runs
      exact apart
  | entry :: rest, items, apart, flushes, runs => by
      rw [forEach_cons, bind_eq_ok] at runs
      rcases runs with ⟨middle, first, later⟩
      rw [upsertFlushes, first, List.forall_mem_cons] at flushes
      have rows : middle.rows = upsertRows now userId entry items :=
        flush_ok ((upsertItem_eq now userId entry items).symm.trans first)
      exact namesApart_of_upserts (rows ▸ flushes.1.namesApart) flushes.2 later

omit [Platform] in
theorem forEach_map {ε α β γ : Type} (body : β → γ → Except ε γ) (place : α → β) :
    ∀ (elements : List α) (state : γ),
      forEach body (elements.map place) state =
        forEach (fun element => body (place element)) elements state
  | [], _ => rfl
  | element :: rest, state => by
      rw [List.map_cons, forEach_cons, forEach_cons]
      exact congrArg _ (funext (forEach_map body place rest))

/-- The sibling-name rule holds at every flush of the restore and after it, and the
index refuses no flush. -/
structure KeepsNamesApart (userId snapshotId : Uuid) (scope : Scope) (mode : SubtreeMode)
    (sys : System) : Prop where
  flushes : ∀ flushes, restoreFlushes userId snapshotId scope mode sys = .ok flushes →
    ∀ rows ∈ flushes, FlushesApart userId rows
  final : ∀ outcome after, restore userId snapshotId scope mode sys = .ok (outcome, after) →
    NamesApart userId after.db.items.rows

/-- Every place that the restore writes to is free when its turn comes. -/
def AllPlacesFree (userId : Uuid) (snapshot : Snapshot) (scope : Scope) (sys : System) : Prop :=
  PlacesFree userId sys.db.items [] (attempted (sys.db.items.rows.map DriveItem.id)
    (placedEntries userId sys (restoredEntries userId snapshot scope sys)))

/-- The item of an entry belongs to the owner of the snapshot and is what the entry
says. -/
theorem item_of_entry {sys : System} (identified : Identified sys) {snapshot : Snapshot}
    {snapshotId : Uuid} (found : getSnapshot sys.db userId snapshotId = some snapshot)
    (member : entry ∈ listAllEntries sys.db snapshot.id) {item : DriveItem}
    (itemMem : item ∈ sys.db.items) (sameId : item.id = entry.itemId) :
    item.ownerId = userId ∧ item.itemType = entry.itemType := by
  rcases getSnapshot_eq_some.mp found with ⟨isSnapshot, _, mine⟩
  rcases List.mem_filter.mp member with ⟨inTable, ofSnapshot⟩
  have byItem : Identifies sys.db entry.itemId item.ownerId item.itemType :=
    .item itemMem sameId rfl rfl
  have byEntry : Identifies sys.db entry.itemId userId entry.itemType :=
    .entry inTable isSnapshot (of_decide_eq_true ofSnapshot).symm rfl mine rfl
  exact identified.unique byItem byEntry

/-- What a restore writes belongs to the owner of the snapshot, wherever it is placed. -/
theorem written_mine {sys : System} (identified : Identified sys) {snapshot : Snapshot}
    {snapshotId : Uuid} (found : getSnapshot sys.db userId snapshotId = some snapshot)
    {original : SnapshotEntry} (member : original ∈ listAllEntries sys.db snapshot.id)
    (isPlaced : entry.itemId = original.itemId) :
    (written now userId sys.db.items entry).ownerId = userId := by
  rcases Identified.written_owner with ⟨item, itemMem, sameId, owner, _⟩ | ⟨_, owner, _⟩
  · exact owner.trans
      (item_of_entry identified found member itemMem (sameId.trans isPlaced)).1
  · exact owner

theorem Wrote.nothing (now : Timestamp) (userId : Uuid) (items : ItemTable) :
    Wrote now userId items [] items := by
  intro row
  simp

/-- The flushes of a restore are those of its upserts and then those of its mirror. -/
theorem restoreFlushes_eq {snapshot : Snapshot} {sys guarded : System}
    {target : List SnapshotEntry} {scope : Scope}
    (found : getSnapshot sys.db userId snapshot.id = some snapshot)
    (creates : create userId .preRestore (safetyLabel snapshot) false sys =
      .ok (safetySnapshot userId snapshot sys, guarded))
    (guard : Guarded userId snapshot sys guarded)
    (selects : restoreTarget scope (listAllEntries guarded.db snapshot.id) = .ok target)
    (mode : SubtreeMode) :
    ∃ mirrored, restoreFlushes userId snapshot.id scope mode sys =
        .ok (upsertFlushes sys.now userId (placedEntries userId sys target) sys.db.items ++
          mirrored) ∧
      (mirrored = [] ∨ ∃ extra middle, mirrored = mirrorFlushes sys.now extra middle ∧
        forEach (upsertItem sys.now userId) (placedEntries userId sys target) sys.db.items =
          .ok middle) := by
  have places : placedEntries userId guarded target = placedEntries userId sys target := by
    simp only [placedEntries, listAllItems, guard.items]
  simp only [restoreFlushes, found, creates, selects, places, guard.now, guard.items, bind,
    Except.bind]
  cases upserts : forEach (upsertItem sys.now userId) (placedEntries userId sys target)
      sys.db.items with
  | error error => exact ⟨[], by rw [List.append_nil]; rfl, .inl rfl⟩
  | ok middle => exact ⟨_, rfl, .inr ⟨_, middle, rfl, rfl⟩⟩

end Names

/-! ## A name that is used again

`Work` holds `a` when the snapshot is taken. Then `a` is renamed and another folder of
that name is made. The index refuses to give `a` its name back. -/

section UsedAgain

attribute [local instance] smallPlatform

private def renameAndReuse : List Op :=
  [.createFolder 1 none "Work", .createFolder 1 (some 10) "a",
    .createSnapshot 1 .manual "weekly" false, .rename 1 11 "b", .createFolder 1 (some 10) "a"]

private def reused : System := afterFirstDay renameAndReuse

private def reusedSnapshot : Snapshot :=
  newSnapshot 1 .manual "weekly" false
    (afterFirstDay [.createFolder 1 none "Work", .createFolder 1 (some 10) "a"])

private theorem reused_history :
    History firstDay (Op.trace renameAndReuse firstDay) reused :=
  firstDay_trace (by simp [renameAndReuse, Op.Offered]) rfl

private theorem reused_found : getSnapshot reused.db 1 12 = some reusedSnapshot := by decide

private def reusedFlushes : List (List DriveItem) :=
  match restoreFlushes 1 12 .whole .keepNew reused with
  | .ok flushes => flushes
  | .error _ => []

end UsedAgain

end SnapshotService

end CloudDrive
