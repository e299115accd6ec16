import CloudDrive.Operation

/-! # Whose an item is and was

An id is drawn once. Whoever has an item of that id, now or in a snapshot, is its
one owner, and it is a file or a folder for ever. -/

namespace CloudDrive

open Outcome Relational Execution DriveService TrashService SnapshotService

section Identity

variable [Platform]

/-- An item, or a snapshot entry, says whose and of what type `itemId` is. -/
inductive Identifies (db : Database) (itemId ownerId : Uuid) (itemType : ItemType) : Prop
  | item {row : DriveItem} : row ∈ db.items → row.id = itemId → row.ownerId = ownerId →
      row.itemType = itemType → Identifies db itemId ownerId itemType
  | entry {row : SnapshotEntry} {snapshot : Snapshot} : row ∈ db.entries →
      snapshot ∈ db.snapshots → snapshot.id = row.snapshotId → row.itemId = itemId →
      snapshot.userId = ownerId → row.itemType = itemType →
      Identifies db itemId ownerId itemType

structure Identified (sys : System) : Prop where
  unique : ∀ {itemId ownerId other : Uuid} {itemType otherType : ItemType},
    Identifies sys.db itemId ownerId itemType → Identifies sys.db itemId other otherType →
    ownerId = other ∧ itemType = otherType
  recorded : ∀ entry ∈ sys.db.entries,
    ∃ snapshot ∈ sys.db.snapshots, snapshot.id = entry.snapshotId
  names : ∀ entry ∈ sys.db.entries, entry.name.length ≤ 512

namespace Identified

variable {before after : System}

theorem fresh_of_unused {sys : System} {newId : Uuid} (unused : sys.Unused newId)
    {ownerId : Uuid} {itemType : ItemType} : ¬ Identifies sys.db newId ownerId itemType := by
  intro earlier
  rcases earlier with ⟨member, sameId, _, _⟩ | ⟨member, _, _, sameId, _, _⟩
  · exact unused.items _ member sameId
  · exact unused.entryItems _ member sameId

/-- Nothing is identified anew but one id that nothing had. -/
theorem unique_with_new (identified : Identified before) {newId newOwner : Uuid}
    {newType : ItemType}
    (fresh : ∀ {ownerId itemType}, ¬ Identifies before.db newId ownerId itemType)
    (identifies : ∀ {itemId ownerId itemType}, Identifies after.db itemId ownerId itemType →
      Identifies before.db itemId ownerId itemType ∨
        (itemId = newId ∧ ownerId = newOwner ∧ itemType = newType))
    {itemId ownerId other : Uuid} {itemType otherType : ItemType}
    (left : Identifies after.db itemId ownerId itemType)
    (right : Identifies after.db itemId other otherType) :
    ownerId = other ∧ itemType = otherType := by
  rcases identifies left with leftOld | ⟨rfl, rfl, rfl⟩
  · rcases identifies right with rightOld | ⟨rfl, _, _⟩
    · exact identified.unique leftOld rightOld
    · exact absurd leftOld fresh
  · rcases identifies right with rightOld | ⟨_, rfl, rfl⟩
    · exact absurd rightOld fresh
    · exact ⟨rfl, rfl⟩

/-- The snapshots are as they were, and every row that was not there has one id that
nothing had. -/
theorem of_created (identified : Identified before) {item : DriveItem}
    (fresh : ∀ {ownerId itemType}, ¬ Identifies before.db item.id ownerId itemType)
    (snapshots : after.db.snapshots = before.db.snapshots)
    (entries : after.db.entries = before.db.entries)
    (items : ∀ row ∈ after.db.items, row ∈ before.db.items ∨ row = item) :
    Identified after := by
  constructor
  case unique =>
    apply identified.unique_with_new fresh
    intro itemId ownerId itemType identifies
    rcases identifies with ⟨member, rfl, rfl, rfl⟩ | ⟨member, isSnapshot, same, rfl, rfl, rfl⟩
    · rcases items _ member with earlier | rfl
      · exact .inl (.item earlier rfl rfl rfl)
      · exact .inr ⟨rfl, rfl, rfl⟩
    · rw [entries] at member
      rw [snapshots] at isSnapshot
      exact .inl (.entry member isSnapshot same rfl rfl rfl)
  case recorded =>
    rw [entries, snapshots]
    exact identified.recorded
  case names =>
    rw [entries]
    exact identified.names

/-- The snapshots are as they were, and every row is identified already. -/
theorem of_items (identified : Identified before)
    (snapshots : after.db.snapshots = before.db.snapshots)
    (entries : after.db.entries = before.db.entries)
    (items : ∀ row ∈ after.db.items, Identifies before.db row.id row.ownerId row.itemType) :
    Identified after := by
  have identifies : ∀ {itemId ownerId itemType}, Identifies after.db itemId ownerId itemType →
      Identifies before.db itemId ownerId itemType := by
    intro itemId ownerId itemType identifies
    rcases identifies with ⟨member, rfl, rfl, rfl⟩ | ⟨member, isSnapshot, same, rfl, rfl, rfl⟩
    · exact items _ member
    · rw [entries] at member
      rw [snapshots] at isSnapshot
      exact .entry member isSnapshot same rfl rfl rfl
  constructor
  case unique => exact fun left right => identified.unique (identifies left) (identifies right)
  case recorded =>
    rw [entries, snapshots]
    exact identified.recorded
  case names =>
    rw [entries]
    exact identified.names

/-- Rows only went. -/
theorem of_sub (identified : Identified before)
    (snapshots : after.db.snapshots = before.db.snapshots)
    (entries : after.db.entries = before.db.entries)
    (items : ∀ row ∈ after.db.items, row ∈ before.db.items) : Identified after :=
  identified.of_items snapshots entries fun row member => .item (items row member) rfl rfl rfl

theorem of_replaced (identified : Identified before) {items : ItemTable}
    {old new : DriveItem} (replaced : ItemTable.Replaced before.db.items items old new)
    (content : SameContent new old) : Identified (before.withItems items) := by
  have rows : ∀ row ∈ items, Identifies before.db row.id row.ownerId row.itemType := by
    intro row member
    rcases (replaced.rows row).mp member with rfl | ⟨earlier, _⟩
    · exact .item replaced.member replaced.sameId.symm content.ownerId.symm
        content.itemType.symm
    · exact .item earlier rfl rfl rfl
  exact identified.of_items rfl rfl rows

theorem of_fileCreated (identified : Identified before) {userId : Uuid}
    {parentId : Option Uuid} {file : StoredFile} {key : StorageKey} {stream : List Content}
    {item : DriveItem} (created : FileCreated userId parentId file item
      (Storage.saveStream key stream before.drawn) after) : Identified after := by
  have fresh : ∀ {ownerId itemType}, ¬ Identifies before.db item.id ownerId itemType :=
    fresh_of_unused created.fresh
  rcases created.frame with ⟨_, _, _, frame⟩
  have snapshots : after.db.snapshots = before.db.snapshots := by rw [frame]; rfl
  have entries : after.db.entries = before.db.entries := by rw [frame]; rfl
  exact identified.of_created fresh snapshots entries fun row => (created.items row).mp

theorem of_sessionWork (identified : Identified before)
    (work : UploadSessionService.SessionWork before after) : Identified after := by
  rcases work.frame with ⟨_, _, frame⟩
  apply identified.of_sub (by rw [frame]) (by rw [frame])
  rw [frame]
  exact fun row member => member

theorem of_permanentDelete (identified : Identified before) {userId itemId : Uuid}
    (runs : permanentDelete userId itemId before = .ok after) : Identified after := by
  rcases permanentDelete_ok runs with ⟨_, _, _, _, _, _, _, reclaimed, middle, erased, _, rfl⟩
  rcases settle_eq userId reclaimed middle with ⟨users, same⟩
  rw [same]
  exact identified.of_sub erased.snapshots erased.entries
    fun row member => ((erased.items row).mp member).1

/-- The entries of a new snapshot say of its items what the items say. -/
theorem of_snapshotWork (identified : Identified before) {userId : Uuid}
    {added : List Snapshot} {captured : List SnapshotEntry}
    (captures : Captures userId added captured before)
    (work : SnapshotWork added captured before after) : Identified after := by
  have unused := before.uuid4_unused
  rcases work.pruned with ⟨gone, snapshots, entries⟩
  have item : ∀ entry ∈ captured, ∃ item ∈ before.db.items, item.ownerId = userId ∧
      entry = capture before.uuid4 (SnapshotRepository.listOwnerItems before.db userId) item := by
    intro entry member
    rcases List.mem_map.mp (captures.entries member) with ⟨item, itemMem, rfl⟩
    rcases List.mem_filter.mp itemMem with ⟨inTable, owned⟩
    exact ⟨item, inTable, (of_decide_eq_true owned).1, rfl⟩
  have identifies : ∀ {itemId ownerId itemType}, Identifies after.db itemId ownerId itemType →
      Identifies before.db itemId ownerId itemType := by
    intro itemId ownerId itemType identifies
    rcases identifies with ⟨member, rfl, rfl, rfl⟩ | ⟨member, isSnapshot, same, rfl, rfl, rfl⟩
    · rw [work.items] at member
      exact .item member rfl rfl rfl
    · rcases ((entries _).mp member).1 with earlier | isNew
      · rcases ((snapshots _).mp isSnapshot).1 with snapshotEarlier | isAdded
        · exact .entry earlier snapshotEarlier same rfl rfl rfl
        · rw [(captures.owned _ isAdded).1] at same
          exact absurd same.symm (unused.entrySnapshots _ earlier)
      · rcases item _ isNew with ⟨row, rowMem, owned, rfl⟩
        rcases ((snapshots _).mp isSnapshot).1 with snapshotEarlier | isAdded
        · exact absurd same (unused.snapshots _ snapshotEarlier)
        · exact .item rowMem rfl (owned.trans (captures.owned _ isAdded).2.symm) rfl
  constructor
  case unique => exact fun left right => identified.unique (identifies left) (identifies right)
  case recorded =>
    intro entry member
    rcases (entries entry).mp member with ⟨earlier | isNew, notGone⟩
    · rcases identified.recorded entry earlier with ⟨snapshot, isSnapshot, same⟩
      exact ⟨snapshot, (snapshots snapshot).mpr ⟨.inl isSnapshot, same ▸ notGone⟩, same⟩
    · rcases captures.recorded entry isNew with ⟨snapshot, isAdded, same⟩
      exact ⟨snapshot, (snapshots snapshot).mpr ⟨.inr isAdded, same ▸ notGone⟩, same⟩
  case names =>
    intro entry member
    rcases ((entries entry).mp member).1 with earlier | isNew
    · exact identified.names entry earlier
    · rcases item entry isNew with ⟨row, rowMem, _, rfl⟩
      exact (before.db.items.fits row rowMem).1

theorem written_owner {now : Timestamp} {userId : Uuid} {items : ItemTable}
    {entry : SnapshotEntry} :
    (∃ item ∈ items, item.id = entry.itemId ∧
      (written now userId items entry).ownerId = item.ownerId ∧
      (written now userId items entry).itemType = item.itemType) ∨
    ((∀ item ∈ items, item.id ≠ entry.itemId) ∧
      (written now userId items entry).ownerId = userId ∧
      (written now userId items entry).itemType = entry.itemType) := by
  cases found : items.find? entry.itemId with
  | none =>
      rw [written, found]
      exact .inr ⟨ItemTable.find?_eq_none.mp found, rfl, rfl⟩
  | some item =>
      rcases ItemTable.find?_eq_some.mp found with ⟨member, sameId⟩
      rw [written, found]
      exact .inl ⟨item, member, sameId, rfl, rfl⟩

/-- A row that a restore writes over is what it was; one that it adds is what its entry
says. -/
theorem written_identified {userId : Uuid} {snapshot : Snapshot} {scope : Scope}
    {mode : SubtreeMode} {guarded : System} {target : List SnapshotEntry}
    {middle : ItemTable}
    (restored : Restored userId snapshot scope mode before guarded after target middle)
    {entry : SnapshotEntry}
    (member : entry ∈ SnapshotRepository.listAllEntries guarded.db snapshot.id)
    (restorableIds liveIds : List Uuid) :
    ∀ row, row = written before.now userId before.db.items
        (placed restorableIds liveIds entry) →
      Identifies guarded.db row.id row.ownerId row.itemType := by
  intro row isWritten
  rw [isWritten]
  rcases List.mem_filter.mp member with ⟨inTable, ofSnapshot⟩
  have survives : SurvivesSafety userId snapshot before := by
    by_contra lost
    rw [restored.guard.lost lost] at member
    cases member
  rcases getSnapshot_eq_some.mp (restored.guard.found.mpr survives) with ⟨isSnapshot, _, mine⟩
  rcases written_owner with ⟨item, itemMem, sameId, owner, type⟩ | ⟨_, owner, type⟩
  · have inGuarded : item ∈ guarded.db.items := restored.guard.items.symm ▸ itemMem
    exact .item inGuarded (sameId.trans (written_id _ _ _ _).symm) owner.symm type.symm
  · rw [owner, type, placed_itemType, written_id, placed_itemId]
    exact .entry inTable isSnapshot (of_decide_eq_true ofSnapshot).symm rfl mine rfl

/-- A restore gives an item that was gone back to the owner of the snapshot. -/
theorem of_restore (identified : Identified before) {userId snapshotId : Uuid}
    {scope : Scope} {mode : SubtreeMode} {outcome : Option RestoreOutcome}
    (runs : restore userId snapshotId scope mode before = .ok (outcome, after)) :
    Identified after := by
  cases found : SnapshotRepository.getSnapshot before.db userId snapshotId with
  | none =>
      rw [restore_missing found runs]
      exact identified
  | some snapshot =>
      rcases restore_ok found runs with ⟨guarded, target, middle, restored⟩
      rcases create_work userId .preRestore (safetyLabel snapshot) false before with
        ⟨_, creates, work⟩
      cases restored.creates.symm.trans creates
      have sound := identified.of_snapshotWork (.new userId _ _ _ before) work
      rcases restoreTarget_runs scope (listAllEntries_nodup guarded.db snapshot.id)
        with ⟨_, selects, targetSub, distinct⟩
      cases restored.selects.symm.trans selects
      have middleRows := upsertAll_ok distinct restored.upserts
      have known : ∀ row ∈ middle,
          Identifies guarded.db row.id row.ownerId row.itemType := by
        intro row member
        rcases (middleRows row).mp member with ⟨entry, entryMem, rfl⟩ | ⟨earlier, _⟩
        · exact written_identified restored (targetSub entryMem) _ _ _ rfl
        · exact .item (restored.guard.items.symm ▸ earlier) rfl rfl rfl
      have snapshots : after.db.snapshots = guarded.db.snapshots := by rw [restored.frame]; rfl
      have entries : after.db.entries = guarded.db.entries := by rw [restored.frame]; rfl
      apply sound.of_items snapshots entries
      intro row member
      rcases (restored.items row).mp member with ⟨old, oldMem, rfl, _⟩ | ⟨inMiddle, _⟩
      · exact known old oldMem
      · exact known row inMiddle

theorem of_effect {op : Op} (identified : Identified before)
    (effect : op.Effect before after) : Identified after := by
  cases effect with
  | nothing => exact identified
  | folderCreated writable added =>
      exact identified.of_created (fresh_of_unused before.uuid4_unused) rfl rfl
        fun row => (ItemTable.mem_of_add added).mp
  | rewritten replaced content _ => exact identified.of_replaced replaced content
  | moved runs =>
      rcases move_ok runs with ⟨item, editable, rfl, _, items, changed, rfl⟩
      exact identified.of_replaced (ItemTable.change_replaced editable.member rfl changed)
        ⟨rfl, rfl, rfl, rfl, rfl⟩
  | deleted runs => exact identified.of_permanentDelete runs
  | emptied runs =>
      exact forEach_keeps Identified
        (fun _ _ _ middle step => middle.of_permanentDelete step) identified runs
  | shared => exact identified.of_sub rfl rfl fun row member => member
  | unshared => exact identified.of_sub rfl rfl fun row member => member
  | uploaded _ _ created => exact identified.of_fileCreated created
  | sessionOpened => exact identified.of_sub rfl rfl fun row member => member
  | sessionWorked work _ => exact identified.of_sessionWork work
  | completed _ _ _ _ created work _ =>
      exact (identified.of_fileCreated created).of_sessionWork work
  | snapshotsWorked captures work => exact identified.of_snapshotWork captures work
  | snapshotRestored runs => exact identified.of_restore runs
  | collected => exact identified.of_sub rfl rfl fun row member => member
  | ticked => exact identified.of_sub rfl rfl fun row member => member

end Identified

theorem Untouched.identified {sys : System} (untouched : Untouched sys) :
    Identified sys := by
  have nothing : ∀ {itemId ownerId itemType}, ¬ Identifies sys.db itemId ownerId itemType := by
    intro itemId ownerId itemType identifies
    rcases identifies with ⟨member, _, _, _⟩ | ⟨member, _, _, _, _, _⟩
    · rw [untouched.items] at member
      cases member
    · rw [untouched.entries] at member
      cases member
  constructor
  case unique => exact fun left => absurd left nothing
  case recorded =>
    intro entry member
    rw [untouched.entries] at member
    cases member
  case names =>
    intro entry member
    rw [untouched.entries] at member
    cases member

/-- In every state that a run reaches, an id has one owner and one type, in the drive
and in every snapshot. -/
theorem History.identified {start final : System} {events : List (Event System Op)}
    (history : History start events final) : Identified final :=
  history.2.keeps history.1.identified
    fun _ _ identified commits => identified.of_effect (Op.effect commits)

end Identity

end CloudDrive
