import CloudDrive.Storage.BlobSizes
import CloudDrive.Snapshot.Identity

/-! # What was uploaded is what is kept

The request that creates an item decides what the item is and which bytes it has. Renames,
moves, trashing, snapshots, restores and collections keep that, whatever rows come and go. -/

namespace CloudDrive

open Outcome Relational Execution DriveService TrashService SnapshotService
  UploadSessionService

section Durability

variable [Platform] {before after : System}

/-! ## The columns that are written once -/

structure Imprint where
  itemType : ItemType
  storageKey : Option StorageKey
  sizeBytes : Nat
  checksumSha256 : Option String
  deriving DecidableEq, Repr

def DriveItem.imprint (row : DriveItem) : Imprint :=
  ⟨row.itemType, row.storageKey, row.sizeBytes, row.checksumSha256⟩

def SnapshotEntry.imprint (row : SnapshotEntry) : Imprint :=
  ⟨row.itemType, row.storageKey, row.sizeBytes, row.checksumSha256⟩

/-- A folder has no content. -/
def Imprint.folder : Imprint := ⟨.folder, none, 0, none⟩

omit [Platform] in
theorem SameContent.imprint {new old : DriveItem} (same : SameContent new old) :
    new.imprint = old.imprint := by
  rw [DriveItem.imprint, DriveItem.imprint, same.itemType, same.storageKey, same.sizeBytes,
    same.checksumSha256]

/-- An item, or the entry of a snapshot, says what `itemId` is. -/
inductive Bears (db : Database) (itemId : Uuid) (imprint : Imprint) : Prop
  | item {row : DriveItem} : row ∈ db.items → row.id = itemId → row.imprint = imprint →
      Bears db itemId imprint
  | entry {row : SnapshotEntry} : row ∈ db.entries → row.itemId = itemId →
      row.imprint = imprint → Bears db itemId imprint

theorem Bears.refers {db : Database} {itemId : Uuid} {imprint : Imprint} {key : StorageKey}
    (bears : Bears db itemId imprint) (names : imprint.storageKey = some key) :
    RefersTo db itemId key := by
  rcases bears with ⟨member, sameId, rfl⟩ | ⟨member, sameId, rfl⟩
  · exact .item member sameId names
  · exact .entry member sameId names

theorem not_bears_of_unused {sys : System} {newId : Uuid} (unused : sys.Unused newId)
    {imprint : Imprint} : ¬ Bears sys.db newId imprint := by
  intro earlier
  rcases earlier with ⟨member, sameId, _⟩ | ⟨member, sameId, _⟩
  · exact unused.items _ member sameId
  · exact unused.entryItems _ member sameId

/-- All rows of one id say the same, folders have no content and files have some. -/
structure Imprinted (sys : System) : Prop where
  unique : ∀ {itemId : Uuid} {first second : Imprint}, Bears sys.db itemId first →
    Bears sys.db itemId second → first = second
  folders : ∀ {itemId : Uuid} {imprint : Imprint}, Bears sys.db itemId imprint →
    imprint.itemType = .folder → imprint = .folder
  files : ∀ {itemId : Uuid} {imprint : Imprint}, Bears sys.db itemId imprint →
    imprint.itemType = .file → ∃ key, imprint.storageKey = some key

/-! ## Requests that say nothing new -/

def NothingNew (before after : System) : Prop :=
  ∀ (itemId : Uuid) (imprint : Imprint), Bears after.db itemId imprint →
    Bears before.db itemId imprint

theorem NothingNew.trans {middle : System} (first : NothingNew before middle)
    (second : NothingNew middle after) : NothingNew before after :=
  fun itemId imprint bears => first itemId imprint (second itemId imprint bears)

theorem Imprinted.narrow (imprinted : Imprinted before) (nothing : NothingNew before after) :
    Imprinted after where
  unique first second := imprinted.unique (nothing _ _ first) (nothing _ _ second)
  folders bears := imprinted.folders (nothing _ _ bears)
  files bears := imprinted.files (nothing _ _ bears)

/-- Both tables only lost rows. -/
theorem nothingNew_of_sub (items : ∀ row ∈ after.db.items, row ∈ before.db.items)
    (entries : ∀ row ∈ after.db.entries, row ∈ before.db.entries) :
    NothingNew before after := by
  intro itemId imprint bears
  rcases bears with ⟨member, sameId, same⟩ | ⟨member, sameId, same⟩
  · exact .item (items _ member) sameId same
  · exact .entry (entries _ member) sameId same

theorem nothingNew_of_same (items : after.db.items = before.db.items)
    (entries : after.db.entries = before.db.entries) : NothingNew before after :=
  nothingNew_of_sub (fun _ member => items ▸ member) fun _ member => entries ▸ member

theorem nothingNew_of_items {items : ItemTable}
    (said : ∀ row ∈ items, Bears before.db row.id row.imprint) :
    NothingNew before (before.withItems items) := by
  intro itemId imprint bears
  rcases bears with ⟨member, rfl, rfl⟩ | ⟨member, sameId, same⟩
  · exact said _ member
  · exact .entry member sameId same

theorem nothingNew_of_replaced {items : ItemTable} {old new : DriveItem}
    (replaced : ItemTable.Replaced before.db.items items old new)
    (content : SameContent new old) : NothingNew before (before.withItems items) := by
  apply nothingNew_of_items
  intro row member
  rcases (replaced.rows row).mp member with rfl | ⟨earlier, _⟩
  · exact .item replaced.member replaced.sameId.symm content.imprint.symm
  · exact .item earlier rfl rfl

theorem nothingNew_of_sessionWork (work : SessionWork before after) :
    NothingNew before after := by
  rcases work.frame with ⟨_, _, frame⟩
  exact nothingNew_of_same (by rw [frame]) (by rw [frame])

theorem nothingNew_of_permanentDelete {userId itemId : Uuid}
    (runs : permanentDelete userId itemId before = .ok after) : NothingNew before after := by
  rcases permanentDelete_ok runs with ⟨_, _, _, _, _, _, _, reclaimed, middle, erased, _, rfl⟩
  rcases settle_eq userId reclaimed middle with ⟨users, same⟩
  rw [same]
  apply nothingNew_of_sub
  · exact fun row member => ((erased.items row).mp member).1
  · exact fun row member => erased.entries ▸ member

omit [Platform] in
/-- A captured entry says what its item says. -/
theorem capture_imprint (snapshotId : Uuid) (captured : List DriveItem) {item : DriveItem}
    (plain : item.itemType = .folder → item.imprint = .folder) :
    (capture snapshotId captured item).imprint = item.imprint := by
  cases isType : item.itemType with
  | file => simp [capture, SnapshotEntry.imprint, DriveItem.imprint, isType]
  | folder =>
      rw [plain isType]
      simp [capture, SnapshotEntry.imprint, Imprint.folder, isType]

theorem nothingNew_of_snapshotWork (imprinted : Imprinted before) {userId : Uuid}
    {added : List Snapshot} {captured : List SnapshotEntry}
    (captures : Captures userId added captured before)
    (work : SnapshotWork added captured before after) : NothingNew before after := by
  rcases work.pruned with ⟨gone, _, kept⟩
  intro itemId imprint bears
  rcases bears with ⟨member, sameId, same⟩ | ⟨member, rfl, rfl⟩
  · exact .item (work.items ▸ member) sameId same
  · rcases ((kept _).mp member).1 with earlier | isNew
    · exact .entry earlier rfl rfl
    · rcases List.mem_map.mp (captures.entries isNew) with ⟨item, itemMem, rfl⟩
      have inTable : item ∈ before.db.items := (List.mem_filter.mp itemMem).1
      have plain : item.itemType = .folder → item.imprint = .folder :=
        imprinted.folders (.item inTable rfl rfl)
      exact .item inTable rfl (capture_imprint _ _ plain).symm

/-- A row that a restore writes says what the entry says. -/
theorem written_imprint (imprinted : Imprinted before) {now : Timestamp} {userId : Uuid}
    {entry : SnapshotEntry} (member : entry ∈ before.db.entries)
    (restorableIds liveIds : List Uuid) :
    (written now userId before.db.items (placed restorableIds liveIds entry)).imprint =
      entry.imprint := by
  have type : (written now userId before.db.items
      (placed restorableIds liveIds entry)).itemType = entry.itemType := by
    rcases @Identified.written_owner _ now userId before.db.items
      (placed restorableIds liveIds entry) with ⟨item, itemMem, sameId, _, type⟩ | ⟨_, _, type⟩
    · rw [placed_itemId] at sameId
      have same : item.imprint = entry.imprint :=
        imprinted.unique (.item itemMem sameId rfl) (.entry member rfl rfl)
      exact type.trans (congrArg Imprint.itemType same)
    · exact type.trans (placed_itemType _ _ _)
  rw [DriveItem.imprint, SnapshotEntry.imprint, type, (written_fields _ _ _ _).2.2.2.1,
    (written_fields _ _ _ _).2.2.2.2.1, (written_fields _ _ _ _).2.2.2.2.2.1,
    (placed_fields _ _ _).2.1, (placed_fields _ _ _).2.2.1, (placed_fields _ _ _).2.2.2]

theorem nothingNew_of_restore (imprinted : Imprinted before) {userId snapshotId : Uuid}
    {scope : Scope} {mode : SubtreeMode} {outcome : Option RestoreOutcome}
    (runs : SnapshotService.restore userId snapshotId scope mode before = .ok (outcome, after)) :
    NothingNew before after := by
  cases found : SnapshotRepository.getSnapshot before.db userId snapshotId with
  | none =>
      rw [restore_missing found runs]
      exact fun _ _ bears => bears
  | some snapshot =>
      rcases SnapshotService.restore_ok found runs with ⟨guarded, target, middle, restored⟩
      rcases create_work userId .preRestore (safetyLabel snapshot) false before with
        ⟨_, creates, work⟩
      cases restored.creates.symm.trans creates
      have captured : NothingNew before guarded :=
        nothingNew_of_snapshotWork imprinted (.new userId _ _ _ before) work
      have sound := imprinted.narrow captured
      rcases restoreTarget_runs scope (listAllEntries_nodup guarded.db snapshot.id)
        with ⟨_, selects, targetSub, distinct⟩
      cases restored.selects.symm.trans selects
      have middleRows := upsertAll_ok distinct restored.upserts
      have said : ∀ row ∈ middle, Bears guarded.db row.id row.imprint := by
        intro row member
        rcases (middleRows row).mp member with ⟨entry, entryMem, rfl⟩ | ⟨earlier, _⟩
        · have inTable := (List.mem_filter.mp (targetSub entryMem)).1
          rw [← restored.guard.items, written_imprint sound inTable, written_id, placed_itemId]
          exact .entry inTable rfl rfl
        · exact .item (restored.guard.items.symm ▸ earlier) rfl rfl
      apply captured.trans
      rw [restored.frame]
      apply nothingNew_of_items
      intro row member
      rcases (restored.items row).mp member with ⟨old, oldMem, rfl, _⟩ | ⟨inMiddle, _⟩
      · exact said old oldMem
      · exact said row inMiddle

/-! ## Requests that create an item -/

/-- The request creates the item, with these bytes if it is a file. -/
inductive Op.Creates (before : System) : Op → System → DriveItem → Option Content → Prop
  | folder {userId : Uuid} {parentId : Option Uuid} {name : String} {item : DriveItem}
      {after : System} :
      DriveService.createFolder userId parentId name before = .ok (item, after) →
      Creates before (.createFolder userId parentId name) after item none
  | simple {userId : Uuid} {parentId : Option Uuid} {filename : String}
      {stream : List Content} {sizeBytes : Nat} {mimeType : Option String} {item : DriveItem}
      {after : System} :
      UploadService.uploadSimple userId parentId filename stream sizeBytes mimeType before =
        .ok (item, after) →
      Creates before (.uploadSimple userId parentId filename stream sizeBytes mimeType) after
        item (some stream.flatten)
  | session {userId sessionId : Uuid} {item : DriveItem} {content : Content} {after : System} :
      UploadSessionService.completeSession userId sessionId before = .ok (item, after) →
      Storage.readAll before.storage
        ((listChunks before.db sessionId).map UploadChunk.storageKey) = .ok content →
      Creates before (.completeSession userId sessionId) after item (some content)

/-- The row that `upload_simple` returns has the bytes of the stream. -/
theorem uploadSimple_stored {userId : Uuid} {parentId : Option Uuid} {filename : String}
    {stream : List Content} {sizeBytes : Nat} {mimeType : Option String} {item : DriveItem}
    (runs : UploadService.uploadSimple userId parentId filename stream sizeBytes mimeType before =
      .ok (item, after)) : FileStored item stream.flatten after := by
  simp only [UploadService.uploadSimple, bind_eq_ok] at runs
  rcases runs with ⟨_, _, _, _, _, _, name, _, creates⟩
  exact createFile_stored (saveStream_find _ stream before.drawn) creates

/-- The row that `complete_session` returns has the bytes of its chunks. -/
theorem completeSession_stored (sound : BlobsSound before) {userId sessionId : Uuid}
    {item : DriveItem} (runs : completeSession userId sessionId before = .ok (item, after)) :
    ∃ content, Storage.readAll before.storage
        ((listChunks before.db sessionId).map UploadChunk.storageKey) = .ok content ∧
      FileStored item content after := by
  simp only [completeSession, bind_eq_ok, require_eq_ok, pure_eq_ok, Storage.concat,
    createItem, Prod.mk.injEq] at runs
  rcases runs with ⟨session, found, _, _, _, _, ⟨content, merged⟩, ⟨_, reads, rfl, rfl⟩,
    ⟨created, middle⟩, ⟨name, _, creates⟩, rfl, rfl⟩
  rw [(getOr404_ok found).2.1] at reads
  have isContent : [content].flatten = content := List.append_nil content
  have blob := saveStream_find (.file userId before.uuid4 1) [content] before.drawn
  rw [isContent] at blob
  have apart : ∀ key ∈ created.storageKey,
      key ∉ (listChunks before.db session.id).map UploadChunk.storageKey := by
    intro key isKey among
    rcases List.mem_map.mp among with ⟨chunk, member, rfl⟩
    have isChunk := sound.chunks chunk (mem_listChunks.mp member).1
    rw [(createFile_ok creates).storageKey] at isKey
    rw [← Option.some.inj isKey] at isChunk
    cases isChunk
  exact ⟨content, reads, finished_stored (createFile_stored blob creates) apart _ _ _ _⟩

/-! ## Ids are drawn once -/

theorem discardChunks_seed (chunks : List UploadChunk) (sys : System) :
    (discardChunks chunks sys).seed = sys.seed := by
  rcases discardChunks_eq chunks sys with ⟨rows, same, _⟩
  rw [same]
  rfl

theorem cleanupExpired_seed (sys : System) : (cleanupExpired sys).seed = sys.seed := by
  have each : ∀ (expired : List UploadSession) (sys : System),
      (expired.foldl (fun sys session =>
        deleteSession session.id (discardChunks (listChunks sys.db session.id) sys)) sys).seed =
          sys.seed := by
    intro expired
    induction expired with
    | nil => exact fun _ => rfl
    | cons session rest induction =>
        intro sys
        rw [List.foldl_cons, induction]
        exact discardChunks_seed _ sys
  exact each (listExpired sys) sys

theorem uploadChunk_seed {userId sessionId : Uuid} {chunkIndex : Int} {stream : List Content}
    (runs : uploadChunk userId sessionId chunkIndex stream before = .ok after) :
    after.seed = before.seed := by
  simp only [uploadChunk, bind_eq_ok, require_eq_ok] at runs
  rcases runs with ⟨session, _, _, _, _, _, _, _, runs⟩
  split at runs
  · cases pure_eq_ok.mp runs
    rfl
  · cases pure_eq_ok.mp runs
    rfl

theorem cancelSession_seed {userId sessionId : Uuid}
    (runs : cancelSession userId sessionId before = .ok after) : after.seed = before.seed := by
  simp only [cancelSession, bind_eq_ok, require_eq_ok] at runs
  rcases runs with ⟨session, _, _, _, runs⟩
  split at runs
  · cases pure_eq_ok.mp runs
    rfl
  · cases pure_eq_ok.mp runs
    exact discardChunks_seed _ before

theorem permanentDelete_seed {userId itemId : Uuid}
    (runs : permanentDelete userId itemId before = .ok after) : after.seed = before.seed := by
  rcases permanentDelete_ok runs with ⟨_, _, _, _, _, _, _, reclaimed, middle, erased, _, rfl⟩
  rcases settle_eq userId reclaimed middle with ⟨users, same⟩
  rw [same]
  exact erased.seed

theorem System.seed_le_uuid4 (sys : System) : sys.seed ≤ sys.uuid4 := Nat.le_max_left _ _

theorem System.seed_le_drawn (sys : System) : sys.seed ≤ sys.drawn.seed :=
  Nat.le_succ_of_le sys.seed_le_uuid4

theorem restore_seed {userId snapshotId : Uuid} {scope : Scope} {mode : SubtreeMode}
    {outcome : Option RestoreOutcome}
    (runs : SnapshotService.restore userId snapshotId scope mode before = .ok (outcome, after)) :
    before.seed ≤ after.seed := by
  cases found : SnapshotRepository.getSnapshot before.db userId snapshotId with
  | none => exact Nat.le_of_eq (congrArg System.seed (restore_missing found runs)).symm
  | some snapshot =>
      rcases SnapshotService.restore_ok found runs with ⟨guarded, target, middle, restored⟩
      rcases create_runs userId .preRestore (safetyLabel snapshot) false before with
        ⟨db, _, drawn⟩
      cases restored.creates.symm.trans drawn
      rw [restored.frame]
      exact before.seed_le_drawn

theorem FileCreated.seed {userId : Uuid} {parentId : Option Uuid} {file : StoredFile}
    {item : DriveItem} (created : FileCreated userId parentId file item before after) :
    after.seed = item.id + 1 := by
  rcases created.frame with ⟨_, _, _, frame⟩
  rw [frame, created.isNew]
  rfl

theorem uploadSimple_seed {userId : Uuid} {parentId : Option Uuid} {filename : String}
    {stream : List Content} {sizeBytes : Nat} {mimeType : Option String} {item : DriveItem}
    (runs : UploadService.uploadSimple userId parentId filename stream sizeBytes mimeType before =
      .ok (item, after)) : after.seed = item.id + 1 := by
  rcases UploadService.uploadSimple_ok runs with ⟨_, _, _, created⟩
  exact created.seed

theorem completeSession_seed {userId sessionId : Uuid} {item : DriveItem}
    (runs : completeSession userId sessionId before = .ok (item, after)) :
    after.seed = item.id + 1 := by
  simp only [completeSession, bind_eq_ok, require_eq_ok, pure_eq_ok, createItem,
    Prod.mk.injEq] at runs
  rcases runs with ⟨_, _, _, _, _, _, _, _, ⟨created, middle⟩, ⟨_, _, creates⟩, rfl, rfl⟩
  exact (discardChunks_seed _ middle).trans (createFile_ok creates).seed

/-- Nothing had the id of the created item, and nothing else is said anew. -/
structure Created (before after : System) (item : DriveItem) (content : Option Content) :
    Prop where
  fresh : ∀ {imprint : Imprint}, ¬ Bears before.db item.id imprint
  drawn : before.seed ≤ item.id
  seed : after.seed = item.id + 1
  bears : ∀ {itemId : Uuid} {imprint : Imprint}, Bears after.db itemId imprint →
    Bears before.db itemId imprint ∨ (itemId = item.id ∧ imprint = item.imprint)
  folder : content = none → item.imprint = .folder
  file : ∀ bytes, content = some bytes → item.itemType = .file ∧ FileStored item bytes after

theorem created_of_fileAdded {file : StoredFile} {item : DriveItem} {middle : System}
    (added : FileAdded file item before middle after) (seed : after.seed = item.id + 1)
    {content : Content} (stored : FileStored item content after) :
    Created before after item (some content) := by
  rcases added.created with ⟨userId, parentId, created⟩
  have bears : ∀ {itemId : Uuid} {imprint : Imprint}, Bears middle.db itemId imprint →
      Bears before.db itemId imprint ∨ (itemId = item.id ∧ imprint = item.imprint) := by
    intro itemId imprint bears
    rcases created.frame with ⟨_, _, _, frame⟩
    rcases bears with ⟨member, rfl, rfl⟩ | ⟨member, sameId, same⟩
    · rcases (created.items _).mp member with earlier | rfl
      · exact .inl (.item earlier rfl rfl)
      · exact .inr ⟨rfl, rfl⟩
    · rw [frame] at member
      exact .inl (.entry member sameId same)
  constructor
  case fresh => exact not_bears_of_unused created.fresh
  case drawn =>
    rw [created.isNew]
    exact Nat.le_trans before.seed_le_drawn
      (Storage.saveStream file.key [file.content] before.drawn).seed_le_uuid4
  case seed => exact seed
  case bears => exact fun bearsAfter => bears (nothingNew_of_sessionWork added.work _ _ bearsAfter)
  case folder => exact fun none => by cases none
  case file =>
    intro bytes same
    cases same
    exact ⟨created.itemType, stored⟩

theorem created_of_createFolder {userId : Uuid} {parentId : Option Uuid} {name : String}
    {item : DriveItem}
    (runs : DriveService.createFolder userId parentId name before = .ok (item, after)) :
    Created before after item none := by
  rcases createFolder_ok runs with ⟨_, _, rfl, items, added, rfl⟩
  constructor
  case fresh => exact not_bears_of_unused before.uuid4_unused
  case drawn => exact before.seed_le_uuid4
  case seed => rfl
  case bears =>
    intro itemId imprint bears
    rcases bears with ⟨member, rfl, rfl⟩ | ⟨member, sameId, same⟩
    · rcases (ItemTable.mem_of_add added).mp member with earlier | rfl
      · exact .inl (.item earlier rfl rfl)
      · exact .inr ⟨rfl, rfl⟩
    · exact .inl (.entry member sameId same)
  case folder => exact fun _ => rfl
  case file => exact fun bytes same => by cases same

/-- What a request may do to what the rows say, and to the ids drawn. -/
inductive Says (op : Op) (before after : System) : Prop
  | nothingNew : NothingNew before after → before.seed ≤ after.seed → Says op before after
  | creates {item : DriveItem} {content : Option Content} :
      op.Creates before after item content → Created before after item content →
      Says op before after

theorem Op.Commits.says {op : Op} (imprinted : Imprinted before) (sound : BlobsSound before)
    (commits : op.Commits before after) : Says op before after := by
  have runs := commits.2
  cases op with
  | createFolder userId parentId name =>
      simp only [Op.commit, bind_eq_ok, pure_eq_ok] at runs
      rcases runs with ⟨⟨item, _⟩, runs, rfl⟩
      exact .creates (.folder runs) (created_of_createFolder runs)
  | rename userId itemId newName =>
      rcases rename_ok runs with rfl | ⟨item, editable, rfl, _, items, changed, rfl⟩
      · exact .nothingNew (fun _ _ bears => bears) (Nat.le_refl _)
      · exact .nothingNew (nothingNew_of_replaced
          (ItemTable.change_replaced editable.member rfl changed) ⟨rfl, rfl, rfl, rfl, rfl⟩)
          (Nat.le_refl _)
  | move userId itemId newParentId =>
      rcases move_ok runs with ⟨item, editable, rfl, _, items, changed, rfl⟩
      exact .nothingNew (nothingNew_of_replaced
        (ItemTable.change_replaced editable.member rfl changed) ⟨rfl, rfl, rfl, rfl, rfl⟩)
        (Nat.le_refl _)
  | trashItem userId itemId =>
      rcases trashItem_ok runs with ⟨item, member, rfl, _, _, items, changed, rfl⟩
      exact .nothingNew (nothingNew_of_replaced
        (ItemTable.change_replaced member rfl changed) ⟨rfl, rfl, rfl, rfl, rfl⟩)
        (Nat.le_refl _)
  | restoreItem userId itemId =>
      rcases TrashService.restore_ok runs with
        ⟨_, _, _, _, _, items, _, replaced, content, _, _, _, rfl⟩
      exact .nothingNew (nothingNew_of_replaced replaced content) (Nat.le_refl _)
  | permanentDelete userId itemId =>
      exact .nothingNew (nothingNew_of_permanentDelete runs)
        (Nat.le_of_eq (permanentDelete_seed runs).symm)
  | emptyTrash userId allDeleted =>
      have each : ∀ (item : DriveItem) (middle next : System),
          NothingNew before middle ∧ before.seed ≤ middle.seed →
          TrashService.permanentDelete userId item.id middle = .ok next →
          NothingNew before next ∧ before.seed ≤ next.seed := by
        intro item middle next both step
        exact ⟨both.1.trans (nothingNew_of_permanentDelete step),
          (permanentDelete_seed step).symm ▸ both.2⟩
      have both := forEach_keeps
        (fun sys => NothingNew before sys ∧ before.seed ≤ sys.seed) each
        ⟨fun _ _ bears => bears, Nat.le_refl _⟩ runs
      exact .nothingNew both.1 both.2
  | shareItem actorId itemId targetEmail permission =>
      rcases ShareService.shareItem_ok runs with ⟨_, _, _, _, _, _, _, _, rfl⟩
      exact .nothingNew (nothingNew_of_same rfl rfl) (Nat.le_refl _)
  | removeShare actorId itemId targetUserId =>
      rcases ShareService.removeShare_ok runs with ⟨_, rfl⟩
      exact .nothingNew (nothingNew_of_same rfl rfl) (Nat.le_refl _)
  | uploadSimple userId parentId filename stream sizeBytes mimeType =>
      simp only [Op.commit, bind_eq_ok, pure_eq_ok] at runs
      rcases runs with ⟨⟨item, _⟩, runs, rfl⟩
      rcases uploadSimple_added runs with ⟨file, added⟩
      exact .creates (.simple runs)
        (created_of_fileAdded added (uploadSimple_seed runs) (uploadSimple_stored runs))
  | createSession userId filename totalSize parentId mimeType =>
      simp only [Op.commit, bind_eq_ok, pure_eq_ok] at runs
      rcases runs with ⟨⟨session, _⟩, runs, rfl⟩
      rcases createSession_ok runs with ⟨_, _, _, _, sessions, _, rfl⟩
      exact .nothingNew (nothingNew_of_same rfl rfl) before.seed_le_drawn
  | uploadChunk userId sessionId chunkIndex stream =>
      exact .nothingNew (nothingNew_of_sessionWork (uploadChunk_ok runs).1)
        (Nat.le_of_eq (uploadChunk_seed runs).symm)
  | completeSession userId sessionId =>
      simp only [Op.commit, bind_eq_ok, pure_eq_ok] at runs
      rcases runs with ⟨⟨item, _⟩, runs, rfl⟩
      rcases completeSession_added runs with ⟨file, middle, added⟩
      rcases completeSession_stored sound runs with ⟨content, reads, stored⟩
      exact .creates (.session runs reads)
        (created_of_fileAdded added (completeSession_seed runs) stored)
  | cancelSession userId sessionId =>
      exact .nothingNew (nothingNew_of_sessionWork (cancelSession_ok runs).1)
        (Nat.le_of_eq (cancelSession_seed runs).symm)
  | cleanupExpired =>
      cases runs
      exact .nothingNew (nothingNew_of_sessionWork (cleanupExpired_work before).1)
        (Nat.le_of_eq (cleanupExpired_seed before).symm)
  | createSnapshot userId trigger label pinned =>
      rcases create_runs userId trigger label pinned before with ⟨db, _, drawn⟩
      rcases create_work userId trigger label pinned before with ⟨_, creates, work⟩
      simp only [Op.commit, creates, bind_eq_ok, pure_eq_ok] at runs
      rcases runs with ⟨_, created, rfl⟩
      cases created
      cases creates.symm.trans drawn
      exact .nothingNew (nothingNew_of_snapshotWork imprinted
        (.new userId trigger label pinned before) work) before.seed_le_drawn
  | updateSettings userId retentionN scheduleEnabled scheduleIntervalMinutes quotaBytes =>
      cases runs
      exact .nothingNew (nothingNew_of_snapshotWork imprinted (.nothing userId before)
        (updateSettings_work _ _ _ _ _ before)) (Nat.le_refl _)
  | pruneSnapshots userId =>
      cases runs
      exact .nothingNew (nothingNew_of_snapshotWork imprinted (.nothing userId before)
        (prune_work userId _ before)) (Nat.le_refl _)
  | restoreSnapshot userId snapshotId scope mode =>
      simp only [Op.commit, bind_eq_ok, pure_eq_ok] at runs
      rcases runs with ⟨⟨outcome, _⟩, runs, rfl⟩
      exact .nothingNew (nothingNew_of_restore imprinted runs) (restore_seed runs)
  | collectGarbage graceMinutes =>
      cases runs
      rw [SnapshotService.collectGarbage, Storage.foldl_delete StoredObject.key]
      exact .nothingNew (nothingNew_of_same rfl rfl) (Nat.le_refl _)
  | tick seconds =>
      cases runs
      exact .nothingNew (nothingNew_of_same rfl rfl) (Nat.le_refl _)

/-! ## What every request keeps -/

/-- The rows agree, the blobs are there, and every id that a row says something of was
drawn. -/
structure Lasting (sys : System) : Prop where
  imprinted : Imprinted sys
  blobs : BlobsSound sys
  drawn : ∀ {itemId : Uuid} {imprint : Imprint}, Bears sys.db itemId imprint →
    itemId < sys.seed

theorem Imprinted.of_created (imprinted : Imprinted before) {item : DriveItem}
    {content : Option Content} (created : Created before after item content) :
    Imprinted after := by
  constructor
  case unique =>
    intro itemId first second bears other
    rcases created.bears bears with earlier | ⟨rfl, rfl⟩
    · rcases created.bears other with otherEarlier | ⟨rfl, rfl⟩
      · exact imprinted.unique earlier otherEarlier
      · exact absurd earlier created.fresh
    · rcases created.bears other with otherEarlier | ⟨_, rfl⟩
      · exact absurd otherEarlier created.fresh
      · rfl
  case folders =>
    intro itemId imprint bears isFolder
    rcases created.bears bears with earlier | ⟨rfl, rfl⟩
    · exact imprinted.folders earlier isFolder
    · cases content with
      | none => exact created.folder rfl
      | some bytes =>
          have isFile : item.itemType = .folder := isFolder
          rw [(created.file bytes rfl).1] at isFile
          cases isFile
  case files =>
    intro itemId imprint bears isFile
    rcases created.bears bears with earlier | ⟨rfl, rfl⟩
    · exact imprinted.files earlier isFile
    · cases content with
      | none =>
          rw [created.folder rfl] at isFile
          cases isFile
      | some bytes =>
          rcases (created.file bytes rfl).2.blob with ⟨key, _, names, _⟩
          exact ⟨key, names⟩

theorem Op.Commits.lasting {op : Op} (lasting : Lasting before)
    (commits : op.Commits before after) : Lasting after := by
  have blobs := lasting.blobs.of_effect (Op.effect commits)
  rcases commits.says lasting.imprinted lasting.blobs with ⟨nothing, seed⟩ | ⟨_, created⟩
  · exact ⟨lasting.imprinted.narrow nothing, blobs,
      fun bears => Nat.lt_of_lt_of_le (lasting.drawn (nothing _ _ bears)) seed⟩
  · refine ⟨lasting.imprinted.of_created created, blobs, ?_⟩
    intro itemId imprint bears
    rw [created.seed]
    rcases created.bears bears with earlier | ⟨rfl, _⟩
    · exact Nat.lt_succ_of_lt (Nat.lt_of_lt_of_le (lasting.drawn earlier) created.drawn)
    · exact Nat.lt_succ_self _

/-- No blob of a file is written over. -/
theorem Op.Commits.overwrites_none {op : Op} (commits : op.Commits before after)
    {object : StoredObject} (member : object ∈ after.storage) :
    object ∈ before.storage ∨ object.key.isChunk = true ∨
      ∀ old ∈ before.storage, old.key ≠ object.key := by
  rcases commits.sizes with kept | ⟨file, item, middle, added⟩
  · rcases kept.blobs object member with earlier | isChunk
    · exact .inl earlier
    · exact .inr (.inl isChunk)
  · rcases added.kept object member with inMiddle | isChunk
    · rcases added.created with ⟨userId, parentId, created⟩
      rcases created.frame with ⟨_, _, _, frame⟩
      rw [frame] at inMiddle
      rcases Table.mem_save.mp inMiddle with rfl | ⟨earlier, _⟩
      · refine .inr (.inr ?_)
        rcases added.isKey with ⟨uploaderId, isKey⟩
        intro old oldMem same
        have fresh := before.uuid4_unused.storage old oldMem
        rw [same] at fresh
        simp [isKey, StorageKey.ids] at fresh
      · exact .inl earlier
    · exact .inr (.inl isChunk)

/-! ## Over a run -/

/-- The imprint is that of a file whose blob has these bytes. -/
structure KeepsBytes (sys : System) (imprint : Imprint) (bytes : Content) : Prop where
  itemType : imprint.itemType = .file
  sizeBytes : imprint.sizeBytes = bytes.length
  checksumSha256 : imprint.checksumSha256 = some (Platform.sha256 bytes)
  blob : ∃ key object, imprint.storageKey = some key ∧ sys.storage.find? key = some object ∧
    object.content = bytes

theorem FileStored.keepsBytes {item : DriveItem} {bytes : Content} {sys : System}
    (isFile : item.itemType = .file) (stored : FileStored item bytes sys) :
    KeepsBytes sys item.imprint bytes :=
  ⟨isFile, stored.sizeBytes, stored.checksumSha256, stored.blob⟩

/-- As long as a row bears the imprint, the blob stays what it is. -/
theorem KeepsBytes.of_commits {op : Op} (lasting : Lasting before)
    (commits : op.Commits before after) {itemId : Uuid} {imprint : Imprint} {bytes : Content}
    (bears : Bears after.db itemId imprint) (holds : KeepsBytes before imprint bytes) :
    KeepsBytes after imprint bytes := by
  rcases holds.blob with ⟨key, object, names, found, same⟩
  rcases Table.find?_eq_some.mp found with ⟨member, isKey⟩
  have sound := (commits.lasting lasting).blobs
  rcases sound.ledger.present (bears.refers names) with ⟨later, laterMem, laterKey⟩
  have notChunk := sound.files (bears.refers names)
  have unchanged : later = object := by
    rcases commits.overwrites_none laterMem with earlier | isChunk | unused
    · exact Table.eq_of_key_eq earlier member (laterKey.trans isKey.symm)
    · rw [laterKey, notChunk] at isChunk
      cases isChunk
    · exact absurd (isKey.trans laterKey.symm) (unused object member)
  refine ⟨holds.itemType, holds.sizeBytes, holds.checksumSha256, key, object, names, ?_, same⟩
  rw [← unchanged]
  exact Table.find?_eq_some.mpr ⟨laterMem, laterKey⟩

/-- One of the events created what `itemId` is, and what it stored is stored. -/
inductive Traced (events : List (Event System Op)) (sys : System) (itemId : Uuid)
    (imprint : Imprint) : Prop
  | folder {event : Event System Op} {item : DriveItem} : event ∈ events →
      event.action.Creates event.before event.after item none → item.id = itemId →
      item.imprint = imprint → imprint = .folder → Traced events sys itemId imprint
  | file {event : Event System Op} {item : DriveItem} {bytes : Content} : event ∈ events →
      event.action.Creates event.before event.after item (some bytes) → item.id = itemId →
      item.imprint = imprint → KeepsBytes sys imprint bytes → Traced events sys itemId imprint

theorem Traced.of_commits {events : List (Event System Op)} {op : Op} (lasting : Lasting before)
    (commits : op.Commits before after) {itemId : Uuid} {imprint : Imprint}
    (bears : Bears after.db itemId imprint) (traced : Traced events before itemId imprint) :
    Traced (events ++ [⟨before, op, after⟩]) after itemId imprint := by
  cases traced with
  | folder member creates sameId same isFolder =>
      exact .folder (List.mem_append_left _ member) creates sameId same isFolder
  | file member creates sameId same holds =>
      exact .file (List.mem_append_left _ member) creates sameId same
        (holds.of_commits lasting commits bears)

theorem Untouched.lasting {sys : System} (untouched : Untouched sys) : Lasting sys := by
  have nothing : ∀ {itemId imprint}, ¬ Bears sys.db itemId imprint := by
    intro itemId imprint bears
    rcases bears with ⟨member, _, _⟩ | ⟨member, _, _⟩
    · rw [untouched.items] at member
      cases member
    · rw [untouched.entries] at member
      cases member
  exact ⟨⟨fun bears => absurd bears nothing, fun bears => absurd bears nothing,
    fun bears => absurd bears nothing⟩, untouched.blobsSound, fun bears => absurd bears nothing⟩

theorem History.lasting {start final : System} {events : List (Event System Op)}
    (history : History start events final) : Lasting final :=
  history.2.keeps history.1.lasting fun _ _ lasting commits => commits.lasting lasting

/-- Whatever requests have come since, an item and every entry of a snapshot is what the
request that created it made it, with the bytes that were uploaded. -/
theorem History.traced {start final : System} {events : List (Event System Op)}
    (history : History start events final) {itemId : Uuid} {imprint : Imprint}
    (bears : Bears final.db itemId imprint) : Traced events final itemId imprint := by
  rcases history with ⟨untouched, run⟩
  induction run generalizing itemId imprint with
  | nothing =>
      rcases bears with ⟨member, _, _⟩ | ⟨member, _, _⟩
      · rw [untouched.items] at member
        cases member
      · rw [untouched.entries] at member
        cases member
  | @next past middle final op run commits induction =>
      have lasting : Lasting middle := History.lasting ⟨untouched, run⟩
      rcases commits.says lasting.imprinted lasting.blobs with ⟨nothing, _⟩ | ⟨creates, created⟩
      · exact (induction (nothing _ _ bears)).of_commits lasting commits bears
      · rcases created.bears bears with earlier | ⟨rfl, rfl⟩
        · exact (induction earlier).of_commits lasting commits bears
        · rename_i item content
          have isLast : (⟨middle, op, final⟩ : Event System Op) ∈
              past ++ [⟨middle, op, final⟩] := List.mem_append_right _ List.mem_cons_self
          cases content with
          | none => exact .folder isLast creates rfl rfl (created.folder rfl)
          | some bytes =>
              rcases created.file bytes rfl with ⟨isFile, stored⟩
              exact .file isLast creates rfl rfl (stored.keepsBytes isFile)

/-- What an id was once it is for ever, also when it is gone in between. -/
theorem History.imprint_kept {start final : System} {events past rest : List (Event System Op)}
    {event : Event System Op} (history : History start events final)
    (split : events = past ++ event :: rest) {itemId : Uuid} {earlier later : Imprint}
    (bears : Bears event.before.db itemId earlier) (bearsLater : Bears final.db itemId later) :
    later = earlier := by
  rcases history with ⟨untouched, run⟩
  have lasting : Lasting event.before := History.lasting ⟨untouched, (run.upTo split).1⟩
  let Keep : System → Prop := fun sys => Lasting sys ∧ itemId < sys.seed ∧
    ∀ imprint, Bears sys.db itemId imprint → imprint = earlier
  have initial : Keep event.before :=
    ⟨lasting, lasting.drawn bears, fun imprint other => lasting.imprinted.unique other bears⟩
  have kept : Keep final := by
    refine (run.onFrom split).keeps initial ?_
    intro later member keeps commits
    rcases keeps with ⟨lasting, drawn, only⟩
    have lastingAfter := commits.lasting lasting
    rcases commits.says lasting.imprinted lasting.blobs with ⟨nothing, seed⟩ | ⟨_, created⟩
    · exact ⟨lastingAfter, Nat.lt_of_lt_of_le drawn seed,
        fun imprint bearsAfter => only imprint (nothing _ _ bearsAfter)⟩
    · have earlierId := Nat.lt_of_lt_of_le drawn created.drawn
      refine ⟨lastingAfter, created.seed ▸ Nat.lt_succ_of_lt earlierId, ?_⟩
      intro imprint bearsAfter
      rcases created.bears bearsAfter with before | ⟨same, _⟩
      · exact only imprint before
      · exact absurd same (Nat.ne_of_lt earlierId)
  exact kept.2.2 later bearsLater

end Durability

/-! ## A file that a restore brings back -/

section Restored

attribute [local instance] smallPlatform

def uploadAndCapture : List Op :=
  [.uploadSimple 1 none "notes.txt" [[104], [105]] 2 none,
    .createSnapshot 1 .manual "weekly" false]

def deleteAndRestore : List Op :=
  [.trashItem 1 11, .permanentDelete 1 11, .restoreSnapshot 1 12 .whole .keepNew]

/-- The file was deleted for good in between. -/
def restoredFile : System := afterFirstDay (uploadAndCapture ++ deleteAndRestore)

theorem restoredFile_history :
    History firstDay (Op.trace (uploadAndCapture ++ deleteAndRestore) firstDay) restoredFile :=
  firstDay_trace (by simp [uploadAndCapture, deleteAndRestore, Op.Offered]) rfl

private def captured : System := afterFirstDay uploadAndCapture

theorem History.imprint_kept_restored :
    (restoredFile.db.items.rows.head (by decide)).imprint =
      ⟨.file, some (.file 1 10 1), 2, some (Platform.sha256 [104, 105])⟩ := by
  have split : Op.trace (uploadAndCapture ++ deleteAndRestore) firstDay =
      Op.trace uploadAndCapture firstDay ++
        ⟨captured, .trashItem 1 11, afterFirstDay (uploadAndCapture ++ [.trashItem 1 11])⟩ ::
          Op.trace deleteAndRestore.tail (afterFirstDay (uploadAndCapture ++ [.trashItem 1 11])) :=
    rfl
  have bears : Bears captured.db 11
      ⟨.file, some (.file 1 10 1), 2, some (Platform.sha256 [104, 105])⟩ :=
    @Bears.item _ _ _ _ (captured.db.items.rows.head (by decide)) (List.head_mem _) rfl rfl
  have bearsLater : Bears restoredFile.db 11
      (restoredFile.db.items.rows.head (by decide)).imprint :=
    @Bears.item _ _ _ _ (restoredFile.db.items.rows.head (by decide)) (List.head_mem _) rfl rfl
  exact restoredFile_history.imprint_kept split bears bearsLater

end Restored

end CloudDrive
