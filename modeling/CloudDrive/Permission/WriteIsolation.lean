import CloudDrive.Permission.Containment
import CloudDrive.Permission.Resolution
import CloudDrive.Snapshot.Identity
import CloudDrive.Upload.UsedBytes

/-! # Who changes what

A request changes the items that its user owns or may edit, adds items of its user, and
leaves the snapshots of everybody else alone. -/

namespace CloudDrive

open Outcome Relational Execution Forest Relation
open DriveService TrashService SnapshotService SnapshotRepository PermissionService
  UploadSessionService

section WriteIsolation

variable [Platform] {before after : System} {userId : Uuid}

/-! ## The specification -/

/-- The user owns the item or an item above it, or is an editor of one of these. -/
def MayWrite (db : Database) (userId : Uuid) (item : DriveItem) : Prop :=
  OwnsAbove db userId item ∨
    ∃ share, SharedAbove db userId item share ∧ Permission.editor.level ≤ share.permission.level

theorem mayWrite_of_owner {db : Database} {item : DriveItem} (member : item ∈ db.items)
    (owned : item.ownerId = userId) : MayWrite db userId item :=
  .inl ⟨item, member, .refl, owned⟩

theorem Editable.mayWrite {db : Database} {item : DriveItem}
    (editable : Editable db userId item) : MayWrite db userId item := by
  rcases editable.editor with ⟨perm, runs, atLeast⟩
  have resolves := resolves_of_getPermission editable.member runs
  have level := hasAtLeast_iff.mp atLeast
  by_cases owns : OwnsAbove db userId item
  · exact .inl owns
  · by_cases shared : ∃ share, SharedAbove db userId item share
    · rcases resolves.attained owns shared with ⟨share, isShared, rfl⟩
      exact .inr ⟨share, isShared, level⟩
    · have nothing := resolves.nothing owns fun share isShared => shared ⟨share, isShared⟩
      rw [nothing] at level
      cases level

/-- Every item that changed is one the user may write. Items stay with their owners, and new
ones are the user's. -/
structure WritesOwn (userId : Uuid) (before after : System) : Prop where
  changed : ∀ row ∈ before.db.items, row ∉ after.db.items → MayWrite before.db userId row
  owned : ∀ row ∈ after.db.items,
    (∃ old ∈ before.db.items, old.id = row.id ∧ old.ownerId = row.ownerId) ∨
      row.ownerId = userId

/-- The snapshots of the user and what they hold are as they were. -/
structure KeepsTimeline (ownerId : Uuid) (before after : Database) : Prop where
  snapshots : ∀ snapshot : Snapshot, snapshot.userId = ownerId →
    (snapshot ∈ after.snapshots ↔ snapshot ∈ before.snapshots)
  entries : ∀ snapshot ∈ before.snapshots, snapshot.userId = ownerId →
    ∀ entry : SnapshotEntry, entry.snapshotId = snapshot.id →
      (entry ∈ after.entries ↔ entry ∈ before.entries)

/-! ## The items -/

theorem writesOwn_of_same (items : after.db.items = before.db.items) :
    WritesOwn userId before after where
  changed _ member gone := absurd (items ▸ member) gone
  owned row member := .inl ⟨row, items ▸ member, rfl, rfl⟩

theorem writesOwn_of_replaced {items : ItemTable} {old new : DriveItem}
    (replaced : ItemTable.Replaced before.db.items items old new)
    (sameOwner : new.ownerId = old.ownerId) (mayWrite : MayWrite before.db userId old) :
    WritesOwn userId before (before.withItems items) := by
  constructor
  case changed =>
    intro row member gone
    by_cases same : row.id = old.id
    · rw [ItemTable.eq_of_id_eq member replaced.member same]
      exact mayWrite
    · exact absurd ((replaced.rows row).mpr (.inr ⟨member, same⟩)) gone
  case owned =>
    intro row member
    rcases (replaced.rows row).mp member with rfl | ⟨earlier, _⟩
    · exact .inl ⟨old, replaced.member, replaced.sameId.symm, sameOwner.symm⟩
    · exact .inl ⟨row, earlier, rfl, rfl⟩

/-- One item was added. -/
theorem writesOwn_of_added {item : DriveItem} (owned : item.ownerId = userId)
    (rows : ∀ row, row ∈ after.db.items ↔ row ∈ before.db.items ∨ row = item) :
    WritesOwn userId before after := by
  constructor
  case changed => exact fun row member gone => absurd ((rows row).mpr (.inl member)) gone
  case owned =>
    intro row member
    rcases (rows row).mp member with earlier | rfl
    · exact .inl ⟨row, earlier, rfl, rfl⟩
    · exact .inr owned

/-- Items only went, each from below an item of the user. -/
theorem writesOwn_of_deleted (sub : ∀ row ∈ after.db.items, row ∈ before.db.items)
    (lost : ∀ row ∈ before.db.items, row ∉ after.db.items → OwnsAbove before.db userId row) :
    WritesOwn userId before after where
  changed row member gone := .inl (lost row member gone)
  owned row member := .inl ⟨row, sub row member, rfl, rfl⟩

/-- A permanent deletion takes an item of the user and what is below it. -/
theorem permanentDelete_rows {itemId : Uuid}
    (runs : permanentDelete userId itemId before = .ok after) :
    (∀ row ∈ after.db.items, row ∈ before.db.items) ∧
    ∀ row ∈ before.db.items, row ∉ after.db.items → OwnsAbove before.db userId row := by
  rcases permanentDelete_ok runs with
    ⟨item, member, _, owned, _, below, finds, reclaimed, middle, erased, _, rfl⟩
  rcases settle_eq userId reclaimed middle with ⟨users, same⟩
  rw [same]
  constructor
  · exact fun row rowMem => ((erased.items row).mp rowMem).1
  · intro row rowMem gone
    by_cases among : row.id ∈ (below.reverse ++ [item]).map DriveItem.id
    · rcases List.mem_map.mp among with ⟨other, otherMem, sameId⟩
      rcases List.mem_append.mp otherMem with isBelow | isItem
      · rcases mem_descendants finds other (List.mem_reverse.mp isBelow) with ⟨_, above⟩
        exact ⟨item, member, sameId ▸ above.to_reflTransGen, owned⟩
      · rw [List.mem_singleton.mp isItem] at sameId
        exact ⟨item, member, sameId ▸ .refl, owned⟩
    · exact absurd ((erased.items row).mpr ⟨rowMem, among⟩) gone

/-- Whoever owns an item above in a part of the table owns one in the whole of it. -/
theorem OwnsAbove.mono {part whole : Database} (sub : ∀ row ∈ part.items, row ∈ whole.items)
    {item : DriveItem} (owns : OwnsAbove part userId item) : OwnsAbove whole userId item := by
  rcases owns with ⟨top, member, above, owned⟩
  have lifts : ∀ {itemId topId : Uuid}, part.items.parentOf itemId = some topId →
      whole.items.parentOf itemId = some topId := by
    intro itemId topId step
    rcases ItemTable.parentOf_eq_some.mp step with ⟨row, rowMem, rfl, points⟩
    exact (ItemTable.parentOf_id (sub row rowMem)).trans points
  refine ⟨top, sub top member, ?_, owned⟩
  exact ReflTransGen.mono (fun _ _ step => lifts step) _ _ above

theorem emptyTrash_rows {allDeleted : List DriveItem}
    (runs : emptyTrash userId allDeleted before = .ok after) :
    (∀ row ∈ after.db.items, row ∈ before.db.items) ∧
    ∀ row ∈ before.db.items, row ∉ after.db.items → OwnsAbove before.db userId row := by
  let Keep : System → Prop := fun sys => (∀ row ∈ sys.db.items, row ∈ before.db.items) ∧
    ∀ row ∈ before.db.items, row ∉ sys.db.items → OwnsAbove before.db userId row
  have each : ∀ (item : DriveItem) (middle next : System), Keep middle →
      TrashService.permanentDelete userId item.id middle = .ok next → Keep next := by
    intro item middle next keep step
    rcases permanentDelete_rows step with ⟨sub, lost⟩
    constructor
    · exact fun row member => keep.1 row (sub row member)
    · intro row member gone
      by_cases still : row ∈ middle.db.items
      · exact OwnsAbove.mono keep.1 (lost row still gone)
      · exact keep.2 row member still
  have initial : Keep before := ⟨fun _ member => member, fun _ member gone => absurd member gone⟩
  exact forEach_keeps Keep each initial runs

/-- What the entries of a snapshot record is its user's. -/
theorem restored_entry_identifies {snapshot : Snapshot} {scope : Scope} {mode : SubtreeMode}
    {guarded : System} {target : List SnapshotEntry} {middle : ItemTable}
    (restored : Restored userId snapshot scope mode before guarded after target middle)
    {entry : SnapshotEntry} (member : entry ∈ listAllEntries guarded.db snapshot.id) :
    Identifies guarded.db entry.itemId userId entry.itemType := by
  rcases List.mem_filter.mp member with ⟨inTable, ofSnapshot⟩
  have survives : SurvivesSafety userId snapshot before := by
    by_contra lost
    rw [restored.guard.lost lost] at member
    cases member
  rcases getSnapshot_eq_some.mp (restored.guard.found.mpr survives) with ⟨isSnapshot, _, mine⟩
  exact .entry inTable isSnapshot (of_decide_eq_true ofSnapshot).symm rfl mine rfl

/-- A restore writes over items of the user only. -/
theorem writesOwn_of_restore (identified : Identified before) {snapshotId : Uuid}
    {scope : Scope} {mode : SubtreeMode} {outcome : Option RestoreOutcome}
    (runs : SnapshotService.restore userId snapshotId scope mode before = .ok (outcome, after)) :
    WritesOwn userId before after := by
  cases found : SnapshotRepository.getSnapshot before.db userId snapshotId with
  | none =>
      rw [restore_missing found runs]
      exact writesOwn_of_same rfl
  | some snapshot =>
      rcases SnapshotService.restore_ok found runs with ⟨guarded, target, middle, restored⟩
      rcases create_work userId .preRestore (safetyLabel snapshot) false before with
        ⟨_, creates, work⟩
      cases restored.creates.symm.trans creates
      have sound := identified.of_snapshotWork (.new userId _ _ _ before) work
      rcases restoreTarget_runs scope (listAllEntries_nodup guarded.db snapshot.id)
        with ⟨_, selects, targetSub, distinct⟩
      cases restored.selects.symm.trans selects
      have middleRows := upsertAll_ok distinct restored.upserts
      constructor
      case changed =>
        intro row member gone
        apply mayWrite_of_owner member
        by_cases inMiddle : row ∈ middle
        · by_contra other
          refine gone ((restored.items row).mpr (.inr ⟨inMiddle, ?_⟩))
          exact fun mirrored => other mirrored.owned
        · have among : row.id ∈ target.map SnapshotEntry.itemId := by
            by_contra apart
            exact inMiddle ((middleRows row).mpr (.inr ⟨member, apart⟩))
          rcases List.mem_map.mp among with ⟨entry, entryMem, sameId⟩
          have recorded := restored_entry_identifies restored (targetSub entryMem)
          rw [sameId] at recorded
          have live : Identifies guarded.db row.id row.ownerId row.itemType :=
            .item (restored.guard.items.symm ▸ member) rfl rfl rfl
          exact (sound.unique live recorded).1
      case owned =>
        have written : ∀ row ∈ middle,
            (∃ old ∈ before.db.items, old.id = row.id ∧ old.ownerId = row.ownerId) ∨
              row.ownerId = userId := by
          intro row member
          rcases (middleRows row).mp member with ⟨entry, _, rfl⟩ | ⟨earlier, _⟩
          · rcases @Identified.written_owner _ before.now userId before.db.items
              (placed (target.map SnapshotEntry.itemId)
                ((listAllItems before.db userId).map DriveItem.id) entry) with
                ⟨item, itemMem, sameId, owner, _⟩ | ⟨_, owner, _⟩
            · exact .inl ⟨item, itemMem, sameId.trans (written_id _ _ _ _).symm, owner.symm⟩
            · exact .inr owner
          · exact .inl ⟨row, earlier, rfl, rfl⟩
        intro row member
        rcases (restored.items row).mp member with ⟨old, oldMem, rfl, _⟩ | ⟨inMiddle, _⟩
        · exact written old oldMem
        · exact written row inMiddle

theorem Op.Commits.writesOwn {op : Op} (identified : Identified before)
    (commits : op.Commits before after) (isActor : op.actor = some userId) :
    WritesOwn userId before after := by
  have runs := commits.2
  cases op with
  | createFolder userId parentId name =>
      cases isActor
      simp only [Op.commit, bind_eq_ok, pure_eq_ok] at runs
      rcases runs with ⟨⟨item, _⟩, runs, rfl⟩
      rcases createFolder_ok runs with ⟨_, _, rfl, items, added, rfl⟩
      exact writesOwn_of_added rfl fun row => ItemTable.mem_of_add added
  | rename userId itemId newName =>
      cases isActor
      rcases rename_ok runs with rfl | ⟨item, editable, rfl, _, items, changed, rfl⟩
      · exact writesOwn_of_same rfl
      · exact writesOwn_of_replaced (ItemTable.change_replaced editable.member rfl changed) rfl
          (Editable.mayWrite editable)
  | move userId itemId newParentId =>
      cases isActor
      rcases move_ok runs with ⟨item, editable, rfl, _, items, changed, rfl⟩
      exact writesOwn_of_replaced (ItemTable.change_replaced editable.member rfl changed) rfl
        (Editable.mayWrite editable)
  | trashItem userId itemId =>
      cases isActor
      rcases trashItem_ok runs with ⟨item, member, rfl, owned, _, items, changed, rfl⟩
      exact writesOwn_of_replaced (ItemTable.change_replaced member rfl changed) rfl
        (mayWrite_of_owner member owned)
  | restoreItem userId itemId =>
      cases isActor
      rcases TrashService.restore_ok runs with
        ⟨item, member, _, owned, _, items, _, replaced, content, _, _, _, rfl⟩
      exact writesOwn_of_replaced replaced content.ownerId (mayWrite_of_owner member owned)
  | permanentDelete userId itemId =>
      cases isActor
      rcases permanentDelete_rows runs with ⟨sub, lost⟩
      exact writesOwn_of_deleted sub lost
  | emptyTrash userId allDeleted =>
      cases isActor
      rcases emptyTrash_rows runs with ⟨sub, lost⟩
      exact writesOwn_of_deleted sub lost
  | shareItem actorId itemId targetEmail permission =>
      rcases ShareService.shareItem_ok runs with ⟨_, _, _, _, _, _, _, _, rfl⟩
      exact writesOwn_of_same rfl
  | removeShare actorId itemId targetUserId =>
      rcases ShareService.removeShare_ok runs with ⟨_, rfl⟩
      exact writesOwn_of_same rfl
  | uploadSimple userId parentId filename stream sizeBytes mimeType =>
      cases isActor
      simp only [Op.commit, bind_eq_ok, pure_eq_ok] at runs
      rcases runs with ⟨⟨item, _⟩, runs, rfl⟩
      rcases UploadService.uploadSimple_ok runs with ⟨_, _, _, created⟩
      exact writesOwn_of_added created.ownerId created.items
  | createSession userId filename totalSize parentId mimeType =>
      simp only [Op.commit, bind_eq_ok, pure_eq_ok] at runs
      rcases runs with ⟨⟨session, _⟩, runs, rfl⟩
      rcases createSession_ok runs with ⟨_, _, _, _, sessions, _, rfl⟩
      exact writesOwn_of_same rfl
  | uploadChunk userId sessionId chunkIndex stream =>
      rcases (uploadChunk_ok runs).1.frame with ⟨_, _, frame⟩
      exact writesOwn_of_same (by rw [frame])
  | completeSession userId sessionId =>
      cases isActor
      simp only [Op.commit, bind_eq_ok, pure_eq_ok] at runs
      rcases runs with ⟨⟨item, _⟩, runs, rfl⟩
      rcases completeSession_ok runs with
        ⟨session, _, _, _, _, file, middle, _, created, work, _⟩
      rcases work.frame with ⟨_, _, frame⟩
      apply writesOwn_of_added created.ownerId
      intro row
      rw [frame]
      exact created.items row
  | cancelSession userId sessionId =>
      rcases (cancelSession_ok runs).1.frame with ⟨_, _, frame⟩
      exact writesOwn_of_same (by rw [frame])
  | cleanupExpired => cases isActor
  | createSnapshot userId trigger label pinned =>
      rcases create_work userId trigger label pinned before with ⟨_, creates, work⟩
      simp only [Op.commit, creates, bind_eq_ok, pure_eq_ok] at runs
      rcases runs with ⟨_, created, rfl⟩
      cases created
      exact writesOwn_of_same work.items
  | updateSettings userId retentionN scheduleEnabled scheduleIntervalMinutes quotaBytes =>
      cases runs
      exact writesOwn_of_same (updateSettings_work _ _ _ _ _ before).items
  | pruneSnapshots userId =>
      cases runs
      exact writesOwn_of_same (prune_work userId _ before).items
  | restoreSnapshot userId snapshotId scope mode =>
      cases isActor
      simp only [Op.commit, bind_eq_ok, pure_eq_ok] at runs
      rcases runs with ⟨⟨outcome, _⟩, runs, rfl⟩
      exact writesOwn_of_restore identified runs
  | collectGarbage graceMinutes => cases isActor
  | tick seconds => cases isActor

/-- A request that is made for nobody leaves the items and the snapshots as they are. -/
theorem Op.Commits.system_items {op : Op} (commits : op.Commits before after)
    (nobody : op.actor = none) : after.db.items = before.db.items ∧
      after.db.snapshots = before.db.snapshots ∧ after.db.entries = before.db.entries := by
  have runs := commits.2
  cases op with
  | cleanupExpired =>
      cases runs
      rcases (cleanupExpired_work before).1.frame with ⟨_, _, frame⟩
      rw [frame]
      exact ⟨rfl, rfl, rfl⟩
  | collectGarbage graceMinutes =>
      cases runs
      rw [SnapshotService.collectGarbage, Storage.foldl_delete StoredObject.key]
      exact ⟨rfl, rfl, rfl⟩
  | tick seconds =>
      cases runs
      exact ⟨rfl, rfl, rfl⟩
  | _ => cases nobody

/-! ## The snapshots -/

namespace KeepsTimeline

variable {ownerId : Uuid}

theorem of_same {before after : Database} (snapshots : after.snapshots = before.snapshots)
    (entries : after.entries = before.entries) : KeepsTimeline ownerId before after where
  snapshots snapshot _ := by rw [snapshots]
  entries snapshot _ _ entry _ := by rw [entries]

theorem trans {before middle after : Database} (first : KeepsTimeline ownerId before middle)
    (second : KeepsTimeline ownerId middle after) : KeepsTimeline ownerId before after where
  snapshots snapshot owned := (second.snapshots snapshot owned).trans (first.snapshots _ owned)
  entries snapshot member owned entry ofSnapshot :=
    (second.entries snapshot ((first.snapshots _ owned).mpr member) owned entry ofSnapshot).trans
      (first.entries snapshot member owned entry ofSnapshot)

/-- Pruning drops snapshots of its user only. -/
theorem of_prune (other : userId ≠ ownerId) (settings : SnapshotSettings) (db : Database) :
    KeepsTimeline ownerId db (prune userId settings db) := by
  rcases prune_spec userId settings db with ⟨gone, prunes, listed, _⟩
  have spared : ∀ snapshot ∈ db.snapshots, snapshot.userId = ownerId → snapshot.id ∉ gone := by
    intro snapshot member owned isGone
    rcases listed _ isGone with ⟨dropped, isDropped, sameId⟩
    rcases mem_listSnapshots.mp isDropped with ⟨droppedMem, mine⟩
    have same : dropped = snapshot := Table.eq_of_key_eq droppedMem member sameId
    rw [same, owned] at mine
    exact other mine.symm
  rw [prunes]
  constructor
  case snapshots =>
    intro snapshot owned
    rw [mem_without_snapshots]
    exact ⟨And.left, fun member => ⟨member, spared snapshot member owned⟩⟩
  case entries =>
    intro snapshot member owned entry ofSnapshot
    rw [mem_without_entries, ofSnapshot]
    exact ⟨And.left, fun entryMem => ⟨entryMem, spared snapshot member owned⟩⟩

theorem of_permanentDelete {itemId : Uuid}
    (runs : permanentDelete userId itemId before = .ok after) :
    KeepsTimeline ownerId before.db after.db := by
  rcases permanentDelete_ok runs with ⟨_, _, _, _, _, _, _, reclaimed, middle, erased, _, rfl⟩
  rcases settle_eq userId reclaimed middle with ⟨users, same⟩
  rw [same]
  exact .of_same erased.snapshots erased.entries

theorem of_sessionWork (work : SessionWork before after) :
    KeepsTimeline ownerId before.db after.db := by
  rcases work.frame with ⟨_, _, frame⟩
  exact .of_same (by rw [frame]) (by rw [frame])

theorem of_create (other : userId ≠ ownerId) {trigger : Trigger} {label : String}
    {pinned : Bool} {snapshot : Snapshot}
    (creates : create userId trigger label pinned before = .ok (snapshot, after)) :
    KeepsTimeline ownerId before.db after.db := by
  rcases create_runs userId trigger label pinned before with ⟨db, captured, runs⟩
  cases creates.symm.trans runs
  have unused := before.uuid4_unused
  have first : KeepsTimeline ownerId before.db db := by
    constructor
    case snapshots =>
      intro snapshot owned
      rw [← Table.mem_rows, captured.snapshots, List.mem_append, List.mem_singleton]
      constructor
      · intro either
        rcases either with earlier | rfl
        · exact earlier
        · exact absurd owned other
      · exact .inl
    case entries =>
      intro snapshot member owned entry ofSnapshot
      rw [← Table.mem_rows, captured.entries, List.mem_append]
      constructor
      · intro either
        rcases either with earlier | isNew
        · exact earlier
        · rw [captureEntries_snapshotId isNew] at ofSnapshot
          exact absurd ofSnapshot.symm (unused.snapshots snapshot member)
      · exact .inl
  exact first.trans (of_prune other _ db)

end KeepsTimeline

/-- Nobody else's request touches the snapshots of a user. -/
theorem Op.Commits.keepsTimeline {op : Op} {ownerId : Uuid} (commits : op.Commits before after)
    (other : op.actor ≠ some ownerId) : KeepsTimeline ownerId before.db after.db := by
  have runs := commits.2
  have differs : ∀ userId, some userId ≠ some ownerId → userId ≠ ownerId :=
    fun userId different same => different (congrArg some same)
  cases op with
  | createFolder userId parentId name =>
      simp only [Op.commit, bind_eq_ok, pure_eq_ok] at runs
      rcases runs with ⟨⟨item, _⟩, runs, rfl⟩
      rcases createFolder_ok runs with ⟨_, _, rfl, items, added, rfl⟩
      exact .of_same rfl rfl
  | rename userId itemId newName =>
      rcases rename_ok runs with rfl | ⟨item, editable, rfl, _, items, changed, rfl⟩
      · exact .of_same rfl rfl
      · exact .of_same rfl rfl
  | move userId itemId newParentId =>
      rcases move_ok runs with ⟨item, editable, rfl, _, items, changed, rfl⟩
      exact .of_same rfl rfl
  | trashItem userId itemId =>
      rcases trashItem_ok runs with ⟨item, member, rfl, owned, _, items, changed, rfl⟩
      exact .of_same rfl rfl
  | restoreItem userId itemId =>
      rcases TrashService.restore_ok runs with ⟨_, _, _, _, _, items, _, _, _, _, _, _, rfl⟩
      exact .of_same rfl rfl
  | permanentDelete userId itemId => exact .of_permanentDelete runs
  | emptyTrash userId allDeleted =>
      exact forEach_keeps (fun sys => KeepsTimeline ownerId before.db sys.db)
        (fun _ _ _ kept step => kept.trans (.of_permanentDelete step)) (.of_same rfl rfl) runs
  | shareItem actorId itemId targetEmail permission =>
      rcases ShareService.shareItem_ok runs with ⟨_, _, _, _, _, _, _, _, rfl⟩
      exact .of_same rfl rfl
  | removeShare actorId itemId targetUserId =>
      rcases ShareService.removeShare_ok runs with ⟨_, rfl⟩
      exact .of_same rfl rfl
  | uploadSimple userId parentId filename stream sizeBytes mimeType =>
      simp only [Op.commit, bind_eq_ok, pure_eq_ok] at runs
      rcases runs with ⟨⟨item, _⟩, runs, rfl⟩
      rcases UploadService.uploadSimple_ok runs with ⟨_, _, _, created⟩
      rcases created.frame with ⟨_, _, _, frame⟩
      rw [frame]
      exact .of_same rfl rfl
  | createSession userId filename totalSize parentId mimeType =>
      simp only [Op.commit, bind_eq_ok, pure_eq_ok] at runs
      rcases runs with ⟨⟨session, _⟩, runs, rfl⟩
      rcases createSession_ok runs with ⟨_, _, _, _, sessions, _, rfl⟩
      exact .of_same rfl rfl
  | uploadChunk userId sessionId chunkIndex stream => exact .of_sessionWork (uploadChunk_ok runs).1
  | completeSession userId sessionId =>
      simp only [Op.commit, bind_eq_ok, pure_eq_ok] at runs
      rcases runs with ⟨⟨item, _⟩, runs, rfl⟩
      rcases completeSession_ok runs with ⟨_, _, _, _, _, _, middle, _, created, work, _⟩
      rcases created.frame with ⟨_, _, _, frame⟩
      have first : KeepsTimeline ownerId before.db middle.db := by
        rw [frame]
        exact .of_same rfl rfl
      exact first.trans (.of_sessionWork work)
  | cancelSession userId sessionId => exact .of_sessionWork (cancelSession_ok runs).1
  | cleanupExpired =>
      cases runs
      exact .of_sessionWork (cleanupExpired_work before).1
  | createSnapshot userId trigger label pinned =>
      simp only [Op.commit, bind_eq_ok, pure_eq_ok] at runs
      rcases runs with ⟨⟨snapshot, _⟩, creates, rfl⟩
      exact .of_create (differs _ other) creates
  | updateSettings userId retentionN scheduleEnabled scheduleIntervalMinutes quotaBytes =>
      cases runs
      let settings : SnapshotSettings := {
        userId := userId
        retentionN := max 1 retentionN
        scheduleEnabled := scheduleEnabled
        scheduleIntervalMinutes := max 1 scheduleIntervalMinutes
        quotaBytes := quotaBytes.map (max 0) }
      have pruned := KeepsTimeline.of_prune (differs _ other) settings
        { before.db with settings := before.db.settings.save settings }
      exact ⟨pruned.snapshots, pruned.entries⟩
  | pruneSnapshots userId =>
      cases runs
      exact .of_prune (differs _ other) _ _
  | restoreSnapshot userId snapshotId scope mode =>
      simp only [Op.commit, bind_eq_ok, pure_eq_ok] at runs
      rcases runs with ⟨⟨outcome, _⟩, runs, rfl⟩
      cases found : SnapshotRepository.getSnapshot before.db userId snapshotId with
      | none =>
          rw [restore_missing found runs]
          exact .of_same rfl rfl
      | some snapshot =>
          rcases SnapshotService.restore_ok found runs with ⟨guarded, target, middle, restored⟩
          have captured := KeepsTimeline.of_create (differs _ other) restored.creates
          rw [restored.frame]
          exact ⟨captured.snapshots, captured.entries⟩
  | collectGarbage graceMinutes =>
      rcases commits.system_items rfl with ⟨_, snapshots, entries⟩
      exact .of_same snapshots entries
  | tick seconds =>
      cases runs
      exact .of_same rfl rfl

/-! ## Over a run -/

end WriteIsolation

/-! ## A folder that an editor renames -/

section Renamed

attribute [local instance] smallPlatform

private def shareWithEditor : List Op :=
  [.createFolder 1 none "Team", .createSnapshot 1 .manual "weekly" false,
    .shareItem 1 10 "b@example.org" .editor]

private def renameAndUpload : List Op :=
  [.rename 2 10 "Group", .uploadSimple 2 (some 10) "notes.txt" [[104]] 1 none]

private def editedTeam : System := afterFirstDay (shareWithEditor ++ renameAndUpload)

private def renamedTeam : System := afterFirstDay (shareWithEditor ++ [.rename 2 10 "Group"])

private def teamRow : DriveItem := (afterFirstDay shareWithEditor).db.items.rows.head (by decide)

private theorem editedTeam_split : Op.trace (shareWithEditor ++ renameAndUpload) firstDay =
    Op.trace shareWithEditor firstDay ++
      ⟨afterFirstDay shareWithEditor, .rename 2 10 "Group", renamedTeam⟩ ::
        Op.trace renameAndUpload.tail renamedTeam := rfl

private theorem editedTeam_history :
    History firstDay (Op.trace (shareWithEditor ++ renameAndUpload) firstDay) editedTeam :=
  firstDay_trace (by simp [shareWithEditor, renameAndUpload, Op.Offered]) rfl

end Renamed

end CloudDrive
