import CloudDrive.Storage.References
import CloudDrive.Upload.Assembly

/-! # The size of a blob

A blob is written once. Whatever row names it, an item or the entry of a snapshot, has its
size and its checksum. -/

namespace CloudDrive

open Outcome Relational Execution DriveService TrashService SnapshotService
  UploadSessionService

section BlobSizes

variable [Platform] {before after : System}

/-! ## What a request leaves in the storage -/

/-- Nothing but chunks was written. -/
def BlobsKept (before after : System) : Prop :=
  ∀ object ∈ after.storage, object ∈ before.storage ∨ object.key.isChunk = true

theorem BlobsKept.of_sub (sub : ∀ object ∈ after.storage, object ∈ before.storage) :
    BlobsKept before after :=
  fun object member => .inl (sub object member)

theorem BlobsKept.of_eq (same : after.storage = before.storage) : BlobsKept before after :=
  .of_sub fun object member => by rw [← same]; exact member

theorem BlobsKept.trans {middle : System} (first : BlobsKept before middle)
    (second : BlobsKept middle after) : BlobsKept before after := by
  intro object member
  rcases second object member with earlier | isChunk
  · exact first object earlier
  · exact .inr isChunk

theorem BlobsKept.of_discardChunks (chunks : List UploadChunk) (sys : System) :
    BlobsKept sys (discardChunks chunks sys) := by
  rcases discardChunks_eq chunks sys with ⟨rows, same, _⟩
  rw [same]
  exact .of_sub fun object member => (Table.mem_filter.mp member).1

theorem BlobsKept.of_uploadChunk {userId sessionId : Uuid} {chunkIndex : Int}
    {stream : List Content} (runs : uploadChunk userId sessionId chunkIndex stream before =
      .ok after) : BlobsKept before after := by
  simp only [uploadChunk, bind_eq_ok, require_eq_ok] at runs
  rcases runs with ⟨session, _, _, _, _, _, _, _, runs⟩
  have saved : after.storage = (Storage.saveStream
      (.chunk userId session.id chunkIndex.toNat) stream before).storage := by
    split at runs
    · cases pure_eq_ok.mp runs
      rfl
    · cases pure_eq_ok.mp runs
      rfl
  intro object member
  rw [saved] at member
  rcases Table.mem_save.mp member with rfl | ⟨earlier, _⟩
  · exact .inr rfl
  · exact .inl earlier

theorem BlobsKept.of_cancelSession {userId sessionId : Uuid}
    (runs : cancelSession userId sessionId before = .ok after) : BlobsKept before after := by
  simp only [cancelSession, bind_eq_ok, require_eq_ok] at runs
  rcases runs with ⟨session, _, _, _, runs⟩
  split at runs
  · cases pure_eq_ok.mp runs
    exact .of_eq rfl
  · cases pure_eq_ok.mp runs
    exact BlobsKept.of_discardChunks (listChunks before.db session.id) before

theorem BlobsKept.of_cleanupExpired (sys : System) : BlobsKept sys (cleanupExpired sys) := by
  have each : ∀ (expired : List UploadSession) (sys : System),
      BlobsKept sys (expired.foldl (fun sys session =>
        deleteSession session.id (discardChunks (listChunks sys.db session.id) sys)) sys) := by
    intro expired
    induction expired with
    | nil => exact fun _ => .of_eq rfl
    | cons session rest induction =>
        intro sys
        exact (BlobsKept.of_discardChunks (listChunks sys.db session.id) sys).trans
          (induction (deleteSession session.id
            (discardChunks (listChunks sys.db session.id) sys)))
  exact each (listExpired sys) sys

theorem BlobsKept.of_permanentDelete {userId itemId : Uuid}
    (runs : permanentDelete userId itemId before = .ok after) : BlobsKept before after := by
  rcases permanentDelete_ok runs with ⟨_, _, _, _, _, _, _, reclaimed, middle, erased, _, rfl⟩
  rcases settle_eq userId reclaimed middle with ⟨users, same⟩
  rw [same]
  apply BlobsKept.of_sub
  intro object member
  rw [← erased.storage]
  exact (Table.mem_filter.mp member).1

theorem BlobsKept.of_restore {userId snapshotId : Uuid} {scope : Scope} {mode : SubtreeMode}
    {outcome : Option RestoreOutcome}
    (runs : SnapshotService.restore userId snapshotId scope mode before = .ok (outcome, after)) :
    BlobsKept before after := by
  cases found : SnapshotRepository.getSnapshot before.db userId snapshotId with
  | none =>
      rw [restore_missing found runs]
      exact .of_eq rfl
  | some snapshot =>
      rcases BlobsSound.restored_named found runs with ⟨guarded, items, work, rfl, _⟩
      exact .of_eq work.storage

/-! ## New files -/

/-- A file was created of the blob that was stored for it, and chunks were discarded. -/
structure FileAdded (file : StoredFile) (item : DriveItem) (before middle after : System) :
    Prop where
  isKey : ∃ userId, file.key = .file userId before.uuid4 1
  created : ∃ userId parentId, FileCreated userId parentId file item
    (Storage.saveStream file.key [file.content] before.drawn) middle
  sizeBytes : item.sizeBytes = file.content.length
  checksum : item.checksumSha256 = some (Platform.sha256 file.content)
  work : SessionWork middle after
  kept : BlobsKept middle after

theorem saveStream_find (key : StorageKey) (stream : List Content) (sys : System) :
    ∃ object, (Storage.saveStream key stream sys).storage.find? key = some object ∧
      object.content = stream.flatten := by
  apply Exists.intro _
  apply And.intro
  · exact Table.find?_save.trans (if_pos rfl)
  · rfl

theorem uploadSimple_added {userId : Uuid} {parentId : Option Uuid} {filename : String}
    {stream : List Content} {sizeBytes : Nat} {mimeType : Option String} {item : DriveItem}
    (runs : UploadService.uploadSimple userId parentId filename stream sizeBytes mimeType before =
      .ok (item, after)) : ∃ file, FileAdded file item before after after := by
  simp only [UploadService.uploadSimple, bind_eq_ok] at runs
  rcases runs with ⟨accepted, _, _, _, _, _, name, _, creates⟩
  have once : Storage.saveStream (.file userId before.uuid4 1) stream before.drawn =
      Storage.saveStream (.file userId before.uuid4 1) [stream.flatten] before.drawn := by
    simp [Storage.saveStream]
  have stored := createFile_stored
    (saveStream_find (.file userId before.uuid4 1) stream before.drawn) creates
  let file : StoredFile := {
    key := .file userId before.uuid4 1
    content := stream.flatten
    mimeType := mimeType
    ext := (splitName accepted).2 }
  apply Exists.intro file
  constructor
  case isKey => exact ⟨userId, rfl⟩
  case created =>
    apply Exists.intro userId
    apply Exists.intro parentId
    have created := createFile_ok creates
    rw [once] at created
    exact created
  case sizeBytes => exact stored.sizeBytes
  case checksum => exact stored.checksumSha256
  case work => exact .refl after
  case kept => exact .of_eq rfl

theorem completeSession_added {userId sessionId : Uuid} {item : DriveItem}
    (runs : completeSession userId sessionId before = .ok (item, after)) :
    ∃ file middle, FileAdded file item before middle after := by
  simp only [completeSession, bind_eq_ok, require_eq_ok, pure_eq_ok, Storage.concat,
    createItem, Prod.mk.injEq] at runs
  rcases runs with ⟨session, found, _, _, _, _, ⟨content, merged⟩, ⟨_, _, rfl, rfl⟩,
    ⟨created, middle⟩, ⟨name, _, creates⟩, rfl, rfl⟩
  have isContent : [content].flatten = content := List.append_nil content
  have blob := saveStream_find (.file userId before.uuid4 1) [content] before.drawn
  rw [isContent] at blob
  let file : StoredFile := {
    key := .file userId before.uuid4 1
    content := content
    mimeType := session.mimeType
    ext := (splitName session.filename).2 }
  apply Exists.intro file
  apply Exists.intro middle
  have fileCreated := createFile_ok creates
  constructor
  case isKey => exact ⟨userId, rfl⟩
  case created => exact ⟨userId, session.parentId, fileCreated⟩
  case sizeBytes => exact (createFile_stored blob creates).sizeBytes
  case checksum => exact (createFile_stored blob creates).checksumSha256
  case work =>
    rcases fileCreated.frame with ⟨_, _, _, rfl⟩
    exact SessionWork.trans
      (discardChunks_work fun chunk among => (mem_listChunks.mp among).1)
      (updateStatus_work _ _ _ _ _)
  case kept =>
    exact BlobsKept.of_discardChunks (listChunks before.db session.id) middle

/-! ## What the rows say -/

/-- An item or an entry names the blob and has this size and checksum. -/
inductive Describes (db : Database) (key : StorageKey) (bytes : Nat) (checksum : Option String) :
    Prop
  | item {row : DriveItem} : row ∈ db.items → row.storageKey = some key →
      row.sizeBytes = bytes → row.checksumSha256 = checksum → Describes db key bytes checksum
  | entry {row : SnapshotEntry} : row ∈ db.entries → row.storageKey = some key →
      row.sizeBytes = bytes → row.checksumSha256 = checksum → Describes db key bytes checksum

variable {key : StorageKey} {bytes : Nat} {checksum : Option String}

theorem Describes.refers {db : Database} (described : Describes db key bytes checksum) :
    ∃ itemId, RefersTo db itemId key := by
  rcases described with ⟨member, names, _, _⟩ | ⟨member, names, _, _⟩
  · exact ⟨_, .item member rfl names⟩
  · exact ⟨_, .entry member rfl names⟩

/-- The blob that a row names has the size and the checksum of the row. -/
def Measured (sys : System) : Prop :=
  ∀ (key : StorageKey) (bytes : Nat) (checksum : Option String),
    Describes sys.db key bytes checksum →
    ∃ object ∈ sys.storage, object.key = key ∧ object.content.length = bytes ∧
      checksum = some (Platform.sha256 object.content)

/-- Rows of the items only, each saying what some row said before. -/
theorem described_of_items {items : ItemTable}
    (said : ∀ row ∈ items, ∀ key, row.storageKey = some key →
      Describes before.db key row.sizeBytes row.checksumSha256)
    (described : Describes (before.withItems items).db key bytes checksum) :
    Describes before.db key bytes checksum := by
  rcases described with ⟨member, names, rfl, rfl⟩ | ⟨member, names, rfl, rfl⟩
  · exact said _ member key names
  · exact .entry member names rfl rfl

theorem described_of_replaced {items : ItemTable} {old new : DriveItem}
    (replaced : ItemTable.Replaced before.db.items items old new)
    (content : SameContent new old) :
    Describes (before.withItems items).db key bytes checksum →
      Describes before.db key bytes checksum := by
  apply described_of_items
  intro row member key names
  rcases (replaced.rows row).mp member with rfl | ⟨earlier, _⟩
  · exact .item replaced.member (content.storageKey.symm.trans names) content.sizeBytes.symm
      content.checksumSha256.symm
  · exact .item earlier names rfl rfl

/-- Both tables only lost rows. -/
theorem Describes.of_sub {before after : Database}
    (items : ∀ row ∈ after.items, row ∈ before.items)
    (entries : ∀ row ∈ after.entries, row ∈ before.entries)
    (described : Describes after key bytes checksum) : Describes before key bytes checksum := by
  rcases described with ⟨member, names, rfl, rfl⟩ | ⟨member, names, rfl, rfl⟩
  · exact .item (items _ member) names rfl rfl
  · exact .entry (entries _ member) names rfl rfl

theorem described_of_permanentDelete {userId itemId : Uuid}
    (runs : permanentDelete userId itemId before = .ok after) :
    Describes after.db key bytes checksum → Describes before.db key bytes checksum := by
  rcases permanentDelete_ok runs with ⟨_, _, _, _, _, _, _, reclaimed, middle, erased, _, rfl⟩
  rcases settle_eq userId reclaimed middle with ⟨users, same⟩
  rw [same]
  apply Describes.of_sub
  · exact fun row member => ((erased.items row).mp member).1
  · exact fun row member => erased.entries ▸ member

/-- A captured entry says of its blob what the item says. -/
theorem described_of_snapshotWork {userId : Uuid} {added : List Snapshot}
    {captured : List SnapshotEntry} (captures : Captures userId added captured before)
    (work : SnapshotWork added captured before after)
    (described : Describes after.db key bytes checksum) :
    Describes before.db key bytes checksum := by
  rcases work.pruned with ⟨gone, _, kept⟩
  rcases described with ⟨member, names, rfl, rfl⟩ | ⟨member, names, rfl, rfl⟩
  · rw [work.items] at member
    exact .item member names rfl rfl
  · rcases ((kept _).mp member).1 with earlier | isNew
    · exact .entry earlier names rfl rfl
    · rcases List.mem_map.mp (captures.entries isNew) with ⟨item, itemMem, rfl⟩
      have inTable : item ∈ before.db.items := (List.mem_filter.mp itemMem).1
      by_cases isFile : item.itemType = .file
      · simp only [capture, if_pos isFile] at names ⊢
        exact .item inTable names rfl rfl
      · simp only [capture, if_neg isFile] at names
        cases names

/-- A restored item has the blob of its entry, and its size. -/
theorem described_of_restore {userId snapshotId : Uuid} {scope : Scope} {mode : SubtreeMode}
    {outcome : Option RestoreOutcome}
    (runs : SnapshotService.restore userId snapshotId scope mode before = .ok (outcome, after))
    (described : Describes after.db key bytes checksum) :
    Describes before.db key bytes checksum := by
  cases found : SnapshotRepository.getSnapshot before.db userId snapshotId with
  | none =>
      rw [restore_missing found runs] at described
      exact described
  | some snapshot =>
      rcases SnapshotService.restore_ok found runs with ⟨guarded, target, middle, restored⟩
      rcases create_work userId .preRestore (safetyLabel snapshot) false before with
        ⟨_, creates, work⟩
      cases restored.creates.symm.trans creates
      rcases restoreTarget_runs scope (listAllEntries_nodup guarded.db snapshot.id)
        with ⟨_, selects, targetSub, distinct⟩
      cases restored.selects.symm.trans selects
      have middleRows := upsertAll_ok distinct restored.upserts
      have said : ∀ row ∈ middle, ∀ key, row.storageKey = some key →
          Describes guarded.db key row.sizeBytes row.checksumSha256 := by
        intro row member key names
        rcases (middleRows row).mp member with ⟨entry, entryMem, rfl⟩ | ⟨earlier, _⟩
        · have inSnapshot := (List.mem_filter.mp (targetSub entryMem)).1
          rw [(written_fields _ _ _ _).2.2.2.2.1, (placed_fields _ _ _).2.2.1] at names
          rw [(written_fields _ _ _ _).2.2.2.1, (placed_fields _ _ _).2.1,
            (written_fields _ _ _ _).2.2.2.2.2.1, (placed_fields _ _ _).2.2.2]
          exact .entry inSnapshot names rfl rfl
        · exact .item (restored.guard.items.symm ▸ earlier) names rfl rfl
      apply described_of_snapshotWork (.new userId _ _ _ before) work
      rw [restored.frame] at described
      apply described_of_items _ described
      intro row member key names
      rcases (restored.items row).mp member with ⟨old, oldMem, rfl, _⟩ | ⟨inMiddle, _⟩
      · exact said old oldMem key names
      · exact said row inMiddle key names

/-! ## What a request leaves of blobs and sizes -/

/-- Nothing but chunks was written, and every size was said before. -/
structure SizesKept (before after : System) : Prop where
  blobs : BlobsKept before after
  said : ∀ {key bytes checksum}, Describes after.db key bytes checksum →
    Describes before.db key bytes checksum

theorem SizesKept.of_same (blobs : BlobsKept before after)
    (items : after.db.items = before.db.items) (entries : after.db.entries = before.db.entries) :
    SizesKept before after := by
  apply SizesKept.mk blobs
  intro key bytes checksum
  apply Describes.of_sub
  · exact fun row member => items ▸ member
  · exact fun row member => entries ▸ member

theorem SizesKept.refl (sys : System) : SizesKept sys sys := .of_same (.of_eq rfl) rfl rfl

theorem SizesKept.trans {middle : System} (first : SizesKept before middle)
    (second : SizesKept middle after) : SizesKept before after :=
  ⟨first.blobs.trans second.blobs, fun described => first.said (second.said described)⟩

theorem SizesKept.of_replaced {items : ItemTable} {old new : DriveItem}
    (replaced : ItemTable.Replaced before.db.items items old new)
    (content : SameContent new old) : SizesKept before (before.withItems items) :=
  ⟨.of_eq rfl, described_of_replaced replaced content⟩

theorem SizesKept.of_sessionWork (work : SessionWork before after)
    (blobs : BlobsKept before after) : SizesKept before after := by
  rcases work.frame with ⟨_, _, frame⟩
  exact .of_same blobs (by rw [frame]) (by rw [frame])

theorem SizesKept.of_snapshotWork {userId : Uuid} {added : List Snapshot}
    {captured : List SnapshotEntry} (captures : Captures userId added captured before)
    (work : SnapshotWork added captured before after) : SizesKept before after :=
  ⟨.of_eq work.storage, described_of_snapshotWork captures work⟩

/-- A committed request writes chunks only, and says no new size, unless it creates a
file. -/
theorem Op.Commits.sizes {op : Op} (commits : op.Commits before after) :
    SizesKept before after ∨ ∃ file item middle, FileAdded file item before middle after := by
  have runs := commits.2
  cases op with
  | createFolder userId parentId name =>
      simp only [Op.commit, bind_eq_ok, pure_eq_ok] at runs
      rcases runs with ⟨⟨item, _⟩, runs, rfl⟩
      rcases createFolder_ok runs with ⟨_, _, rfl, items, added, rfl⟩
      have said : ∀ row ∈ items, ∀ key, row.storageKey = some key →
          Describes before.db key row.sizeBytes row.checksumSha256 := by
        intro row member key names
        rcases (ItemTable.mem_of_add added).mp member with earlier | rfl
        · exact .item earlier names rfl rfl
        · cases names
      exact .inl ⟨.of_eq rfl, described_of_items said⟩
  | rename userId itemId newName =>
      rcases rename_ok runs with rfl | ⟨item, editable, rfl, _, items, changed, rfl⟩
      · exact .inl (.refl _)
      · exact .inl (.of_replaced (ItemTable.change_replaced editable.member rfl changed)
          ⟨rfl, rfl, rfl, rfl, rfl⟩)
  | move userId itemId newParentId =>
      rcases move_ok runs with ⟨item, editable, rfl, _, items, changed, rfl⟩
      exact .inl (.of_replaced (ItemTable.change_replaced editable.member rfl changed)
        ⟨rfl, rfl, rfl, rfl, rfl⟩)
  | trashItem userId itemId =>
      rcases trashItem_ok runs with ⟨item, member, rfl, _, _, items, changed, rfl⟩
      exact .inl (.of_replaced (ItemTable.change_replaced member rfl changed)
        ⟨rfl, rfl, rfl, rfl, rfl⟩)
  | restoreItem userId itemId =>
      rcases TrashService.restore_ok runs with
        ⟨_, _, _, _, _, items, _, replaced, content, _, _, _, rfl⟩
      exact .inl (.of_replaced replaced content)
  | permanentDelete userId itemId =>
      exact .inl ⟨.of_permanentDelete runs, described_of_permanentDelete runs⟩
  | emptyTrash userId allDeleted =>
      have each : ∀ (item : DriveItem) (middle next : System), SizesKept before middle →
          TrashService.permanentDelete userId item.id middle = .ok next →
          SizesKept before next := by
        intro item middle next kept step
        exact kept.trans ⟨.of_permanentDelete step, described_of_permanentDelete step⟩
      exact .inl (forEach_keeps (SizesKept before) each (.refl before) runs)
  | shareItem actorId itemId targetEmail permission =>
      rcases ShareService.shareItem_ok runs with ⟨_, _, _, _, _, _, _, _, rfl⟩
      exact .inl (.of_same (.of_eq rfl) rfl rfl)
  | removeShare actorId itemId targetUserId =>
      rcases ShareService.removeShare_ok runs with ⟨_, rfl⟩
      exact .inl (.of_same (.of_eq rfl) rfl rfl)
  | uploadSimple userId parentId filename stream sizeBytes mimeType =>
      simp only [Op.commit, bind_eq_ok, pure_eq_ok] at runs
      rcases runs with ⟨⟨item, _⟩, runs, rfl⟩
      rcases uploadSimple_added runs with ⟨file, added⟩
      exact .inr ⟨file, item, _, added⟩
  | createSession userId filename totalSize parentId mimeType =>
      simp only [Op.commit, bind_eq_ok, pure_eq_ok] at runs
      rcases runs with ⟨⟨session, _⟩, runs, rfl⟩
      rcases createSession_ok runs with ⟨_, _, _, _, sessions, _, rfl⟩
      exact .inl (.of_same (.of_eq rfl) rfl rfl)
  | uploadChunk userId sessionId chunkIndex stream =>
      exact .inl (.of_sessionWork (uploadChunk_ok runs).1 (.of_uploadChunk runs))
  | completeSession userId sessionId =>
      simp only [Op.commit, bind_eq_ok, pure_eq_ok] at runs
      rcases runs with ⟨⟨item, _⟩, runs, rfl⟩
      rcases completeSession_added runs with ⟨file, middle, added⟩
      exact .inr ⟨file, item, middle, added⟩
  | cancelSession userId sessionId =>
      exact .inl (.of_sessionWork (cancelSession_ok runs).1 (.of_cancelSession runs))
  | cleanupExpired =>
      cases runs
      exact .inl (.of_sessionWork (cleanupExpired_work before).1 (.of_cleanupExpired before))
  | createSnapshot userId trigger label pinned =>
      rcases create_work userId trigger label pinned before with ⟨_, creates, work⟩
      simp only [Op.commit, creates, bind_eq_ok, pure_eq_ok] at runs
      rcases runs with ⟨_, created, rfl⟩
      cases created
      exact .inl (.of_snapshotWork (.new userId trigger label pinned before) work)
  | updateSettings userId retentionN scheduleEnabled scheduleIntervalMinutes quotaBytes =>
      cases runs
      exact .inl (.of_snapshotWork (.nothing userId before) (updateSettings_work _ _ _ _ _ before))
  | pruneSnapshots userId =>
      cases runs
      exact .inl (.of_snapshotWork (.nothing userId before) (prune_work userId _ before))
  | restoreSnapshot userId snapshotId scope mode =>
      simp only [Op.commit, bind_eq_ok, pure_eq_ok] at runs
      rcases runs with ⟨⟨outcome, _⟩, runs, rfl⟩
      exact .inl ⟨.of_restore runs, described_of_restore runs⟩
  | collectGarbage graceMinutes =>
      cases runs
      apply Or.inl
      rw [SnapshotService.collectGarbage, Storage.foldl_delete StoredObject.key]
      exact .of_same (.of_sub fun object member => (Table.mem_filter.mp member).1) rfl rfl
  | tick seconds =>
      cases runs
      exact .inl (.of_same (.of_eq rfl) rfl rfl)

/-! ## Over a run -/

/-- The blob of a row that is stored still is the blob that was stored before. -/
theorem Measured.of_sizesKept (measured : Measured before) (sound : BlobsSound after)
    (kept : SizesKept before after) : Measured after := by
  intro key bytes checksum described
  rcases measured _ _ _ (kept.said described) with ⟨object, member, isKey, length⟩
  rcases described.refers with ⟨itemId, reference⟩
  rcases sound.ledger.present reference with ⟨later, laterMem, laterKey⟩
  have notChunk := sound.files reference
  rcases kept.blobs later laterMem with earlier | isChunk
  · have same : later = object := Table.eq_of_key_eq earlier member (laterKey.trans isKey.symm)
    exact ⟨later, laterMem, laterKey, same ▸ length⟩
  · rw [laterKey, notChunk] at isChunk
    cases isChunk

theorem Measured.of_fileAdded (measured : Measured before) (sound : BlobsSound after)
    {file : StoredFile} {item : DriveItem} {middle : System}
    (added : FileAdded file item before middle after) : Measured after := by
  rcases added.created with ⟨userId, parentId, created⟩
  rcases added.isKey with ⟨uploaderId, isKey⟩
  rcases created.frame with ⟨_, _, _, frame⟩
  have storage : middle.storage =
      (Storage.saveStream file.key [file.content] before.drawn).storage := by
    rw [frame]
    rfl
  have entries : middle.db.entries = before.db.entries := by
    rw [frame]
    rfl
  have unused : ∀ object ∈ before.storage, object.key ≠ file.key := by
    intro object member same
    have fresh := before.uuid4_unused.storage object member
    rw [same, isKey] at fresh
    simp [StorageKey.ids] at fresh
  have said : ∀ {key bytes checksum}, Describes after.db key bytes checksum →
      Describes before.db key bytes checksum ∨ (key = file.key ∧ bytes = file.content.length ∧
          checksum = some (Platform.sha256 file.content)) := by
    intro key bytes checksum described
    rcases added.work.frame with ⟨_, _, workFrame⟩
    rw [workFrame] at described
    rcases described with ⟨member, names, rfl, rfl⟩ | ⟨member, names, rfl, rfl⟩
    · rcases (created.items _).mp member with earlier | rfl
      · exact .inl (.item earlier names rfl rfl)
      · exact .inr ⟨Option.some.inj (names.symm.trans created.storageKey), added.sizeBytes,
          added.checksum⟩
    · have earlier := member
      rw [entries] at earlier
      exact .inl (.entry earlier names rfl rfl)
  intro key bytes checksum described
  rcases described.refers with ⟨itemId, reference⟩
  rcases sound.ledger.present reference with ⟨later, laterMem, laterKey⟩
  have notChunk := sound.files reference
  apply Exists.intro later
  apply And.intro laterMem
  apply And.intro laterKey
  rcases added.kept later laterMem with inMiddle | isChunk
  · rw [storage] at inMiddle
    rcases said described with earlier | ⟨isFile, rfl, rfl⟩
    · rcases measured _ _ _ earlier with ⟨object, member, sameKey, length⟩
      rcases Table.mem_save.mp inMiddle with rfl | ⟨laterEarlier, _⟩
      · exact absurd (sameKey.trans laterKey.symm) (unused object member)
      · have same : later = object :=
          Table.eq_of_key_eq laterEarlier member (laterKey.trans sameKey.symm)
        exact same ▸ length
    · rcases Table.mem_save.mp inMiddle with rfl | ⟨_, different⟩
      · have isContent : [file.content].flatten = file.content := List.append_nil _
        exact ⟨congrArg List.length isContent,
          congrArg (fun content => some (Platform.sha256 content)) isContent.symm⟩
      · exact absurd (laterKey.trans isFile) different
  · rw [laterKey, notChunk] at isChunk
    cases isChunk

theorem Untouched.measured {sys : System} (untouched : Untouched sys) : Measured sys := by
  intro key bytes checksum described
  rcases described with ⟨member, _, _⟩ | ⟨member, _, _⟩
  · rw [untouched.items] at member
    cases member
  · rw [untouched.entries] at member
    cases member

theorem History.blobsSound {start final : System} {events : List (Event System Op)}
    (history : History start events final) : BlobsSound final :=
  history.2.keeps history.1.blobsSound
    fun _ _ sound commits => sound.of_effect (Op.effect commits)

/-- In every state that a run reaches, a blob that an item or an entry names is as large as
the row says. -/
theorem History.measured {start final : System} {events : List (Event System Op)}
    (history : History start events final) : Measured final := by
  have kept : BlobsSound final ∧ Measured final := by
    apply history.2.keeps ⟨history.1.blobsSound, history.1.measured⟩
    intro event _ before commits
    have sound := before.1.of_effect (Op.effect commits)
    apply And.intro sound
    rcases Op.Commits.sizes commits with kept | ⟨file, item, middle, added⟩
    · exact before.2.of_sizesKept sound kept
    · exact before.2.of_fileAdded sound added
  exact kept.2

end BlobSizes

end CloudDrive
