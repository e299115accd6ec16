import CloudDrive.Foundation.Ledger
import CloudDrive.Operation

/-! # No reference to a missing blob

Blobs are named by items, by file versions and by snapshot entries, and deleted
by permanent deletion, by the garbage collection and with the chunks of an
upload. A key belongs to one item for ever, so what a deletion takes away is
needed by nobody else unless a snapshot has it. -/

namespace CloudDrive

open Outcome Relational Execution DriveService TrashService SnapshotService

section References

variable [Platform]

/-- A row of one of the three tables names the blob for the item `itemId`. -/
inductive RefersTo (db : Database) (itemId : Uuid) (key : StorageKey) : Prop
  | item {row : DriveItem} : row ∈ db.items → row.id = itemId →
      row.storageKey = some key → RefersTo db itemId key
  | version {row : FileVersion} : row ∈ db.versions → row.fileId = itemId →
      row.storageKey = key → RefersTo db itemId key
  | entry {row : SnapshotEntry} : row ∈ db.entries → row.itemId = itemId →
      row.storageKey = some key → RefersTo db itemId key

theorem mem_referencedStorageKeys {db : Database} {key : StorageKey} :
    key ∈ referencedStorageKeys db ↔ ∃ itemId, RefersTo db itemId key := by
  simp only [referencedStorageKeys, List.mem_append, List.mem_filterMap, List.mem_map]
  constructor
  · intro listed
    rcases listed with (⟨row, member, names⟩ | ⟨row, member, names⟩) | ⟨row, member, names⟩
    · exact ⟨row.id, .item member rfl names⟩
    · exact ⟨row.fileId, .version member rfl names⟩
    · exact ⟨row.itemId, .entry member rfl names⟩
  · intro referred
    rcases referred with ⟨itemId, ⟨member, _, names⟩ | ⟨member, _, names⟩ | ⟨member, _, names⟩⟩
    · exact .inl (.inl ⟨_, member, names⟩)
    · exact .inl (.inr ⟨_, member, names⟩)
    · exact .inr ⟨_, member, names⟩

def blobLedger (sys : System) : Ledger Uuid StorageKey where
  refers := RefersTo sys.db
  stored := Stored sys

structure BlobsSound (sys : System) : Prop where
  ledger : (blobLedger sys).Sound
  files : ∀ {itemId key}, RefersTo sys.db itemId key → key.isChunk = false
  chunks : ∀ chunk ∈ sys.db.chunks, chunk.storageKey.isChunk = true

namespace BlobsSound

variable {before after : System}

/-- No row names a blob that its item did not have before. -/
def NoNewReference (before after : Database) : Prop :=
  ∀ itemId key, RefersTo after itemId key → RefersTo before itemId key

theorem noNewReference {before after : Database}
    (items : ∀ row ∈ after.items, ∀ key, row.storageKey = some key →
      RefersTo before row.id key)
    (versions : ∀ row ∈ after.versions, row ∈ before.versions)
    (entries : ∀ row ∈ after.entries, ∀ key, row.storageKey = some key →
      RefersTo before row.itemId key) : NoNewReference before after := by
  intro itemId key reference
  rcases reference with ⟨member, rfl, names⟩ | ⟨member, rfl, names⟩ | ⟨member, rfl, names⟩
  · exact items _ member key names
  · exact .version (versions _ member) rfl names
  · exact entries _ member key names

theorem narrow (sound : BlobsSound before) (refers : NoNewReference before.db after.db)
    (stored : ∀ {itemId key}, RefersTo after.db itemId key → Stored before key →
      Stored after key)
    (chunks : ∀ chunk ∈ after.db.chunks, chunk ∈ before.db.chunks ∨
      chunk.storageKey.isChunk = true) : BlobsSound after where
  ledger := sound.ledger.narrow (refers _ _) stored
  files reference := sound.files (refers _ _ reference)
  chunks chunk member := by
    rcases chunks chunk member with earlier | isChunk
    · exact sound.chunks chunk earlier
    · exact isChunk

/-- The three tables and the blobs are as they were. -/
theorem of_same (sound : BlobsSound before) (items : after.db.items = before.db.items)
    (versions : after.db.versions = before.db.versions)
    (entries : after.db.entries = before.db.entries)
    (stored : ∀ {itemId key}, RefersTo before.db itemId key → Stored before key →
      Stored after key)
    (chunks : ∀ chunk ∈ after.db.chunks, chunk ∈ before.db.chunks ∨
      chunk.storageKey.isChunk = true) : BlobsSound after := by
  have refers : NoNewReference before.db after.db := by
    apply noNewReference
    · exact fun row member key names => .item (items ▸ member) rfl names
    · exact fun row member => versions ▸ member
    · exact fun row member key names => .entry (entries ▸ member) rfl names
  exact sound.narrow refers (fun reference => stored (refers _ _ reference)) chunks

/-- Only the items changed, and none names a blob it had no reference to. -/
theorem of_items (sound : BlobsSound before) {items : ItemTable}
    (named : ∀ row ∈ items, ∀ key, row.storageKey = some key →
      RefersTo before.db row.id key) : BlobsSound (before.withItems items) := by
  have refers : NoNewReference before.db (before.withItems items).db :=
    noNewReference named (fun row member => member)
      fun row member key names => .entry member rfl names
  exact sound.narrow refers (fun _ stored => stored) fun chunk member => .inl member

theorem of_replaced (sound : BlobsSound before) {items : ItemTable} {old new : DriveItem}
    (replaced : ItemTable.Replaced before.db.items items old new)
    (content : SameContent new old) : BlobsSound (before.withItems items) := by
  apply sound.of_items
  intro row member key names
  rcases (replaced.rows row).mp member with rfl | ⟨earlier, _⟩
  · exact .item replaced.member replaced.sameId.symm (content.storageKey.symm.trans names)
  · exact .item earlier rfl names

theorem of_sessionWork (sound : BlobsSound before)
    (work : UploadSessionService.SessionWork before after) : BlobsSound after := by
  rcases work.frame with ⟨_, _, frame⟩
  apply sound.of_same (by rw [frame]) (by rw [frame]) (by rw [frame]) _ work.chunks
  intro itemId key reference stored
  have isFile := sound.files reference
  rcases work.kept key stored with still | isChunk | ⟨chunk, member, rfl⟩
  · exact still
  · rw [isFile] at isChunk
    cases isChunk
  · rw [sound.chunks chunk member] at isFile
    cases isFile

/-- A captured entry names the blob of its item. -/
theorem snapshotWork_noNewReference {userId : Uuid} {added : List Snapshot}
    {captured : List SnapshotEntry} (captures : Captures userId added captured before)
    (work : SnapshotWork added captured before after) : NoNewReference before.db after.db := by
  rcases work.frame with ⟨_, entries, _, frame⟩
  rcases work.pruned with ⟨gone, _, kept⟩
  apply noNewReference
  · intro row member key names
    rw [frame] at member
    exact .item member rfl names
  · intro row member
    rw [frame] at member
    exact member
  · intro row member key names
    rcases ((kept row).mp member).1 with earlier | new
    · exact .entry earlier rfl names
    · rcases List.mem_map.mp (captures.entries new) with ⟨item, itemMem, rfl⟩
      have inTable : item ∈ before.db.items := (List.mem_filter.mp itemMem).1
      have isKey : item.storageKey = some key := by
        simp only [capture] at names
        split at names
        · exact names
        · cases names
      exact .item inTable rfl isKey

theorem of_snapshotWork (sound : BlobsSound before) {userId : Uuid} {added : List Snapshot}
    {captured : List SnapshotEntry} (captures : Captures userId added captured before)
    (work : SnapshotWork added captured before after) : BlobsSound after := by
  rcases work.frame with ⟨_, entries, _, frame⟩
  apply sound.narrow (snapshotWork_noNewReference captures work)
  · intro itemId key _ stored
    rcases stored with ⟨object, member, isKey⟩
    exact ⟨object, work.storage.symm ▸ member, isKey⟩
  · intro chunk member
    rw [frame] at member
    exact .inl member

theorem of_fileCreated (sound : BlobsSound before) {userId : Uuid} {parentId : Option Uuid}
    {file : StoredFile} {stream : List Content} {item : DriveItem}
    (isKey : file.key = .file userId before.uuid4 1)
    (created : FileCreated userId parentId file item
      (Storage.saveStream file.key stream before.drawn) after) : BlobsSound after := by
  rcases created.frame with ⟨_, _, _, frame⟩
  have refers : ∀ {itemId key}, RefersTo after.db itemId key →
      RefersTo before.db itemId key ∨ (itemId = item.id ∧ key = file.key) := by
    intro itemId key reference
    rcases reference with ⟨member, rfl, names⟩ | ⟨member, rfl, names⟩ | ⟨member, rfl, names⟩
    · rcases (created.items _).mp member with earlier | rfl
      · exact .inl (.item earlier rfl names)
      · exact .inr ⟨rfl, Option.some.inj (names.symm.trans created.storageKey)⟩
    · rcases (created.versions _).mp member with earlier | rfl
      · exact .inl (.version earlier rfl names)
      · exact .inr ⟨rfl, names.symm⟩
    · rw [frame] at member
      exact .inl (.entry member rfl names)
  have storage : ∀ key, Stored after key ↔ key = file.key ∨ Stored before key := by
    intro key
    rw [frame]
    exact Storage.stored_saveStream
  constructor
  case ledger =>
    apply sound.ledger.store item.id file.key _ refers
    · exact fun _ stored => (storage _).mpr (.inr stored)
    · exact (storage _).mpr (.inl rfl)
    · intro stored
      rcases stored with ⟨object, member, same⟩
      have unused := before.uuid4_unused.storage object member
      rw [same, isKey] at unused
      simp [StorageKey.ids] at unused
  case files =>
    intro itemId key reference
    rcases refers reference with earlier | ⟨_, rfl⟩
    · exact sound.files earlier
    · rw [isKey]
      rfl
  case chunks =>
    intro chunk member
    rw [frame] at member
    exact sound.chunks chunk member

theorem permanentDelete_noNewReference {userId itemId : Uuid}
    (runs : permanentDelete userId itemId before = .ok after) :
    NoNewReference before.db after.db := by
  rcases permanentDelete_ok runs with
    ⟨item, _, _, _, _, below, _, reclaimed, middle, erased, _, rfl⟩
  rcases settle_eq userId reclaimed middle with ⟨users, same⟩
  rw [same]
  apply noNewReference
  · exact fun row member key names => .item ((erased.items row).mp member).1 rfl names
  · exact fun row member => ((erased.versions row).mp member).1
  · exact fun row member key names => .entry (erased.entries ▸ member) rfl names

/-- Deleting for ever removes the blobs of the deleted versions that no snapshot
needs. -/
theorem of_permanentDelete (sound : BlobsSound before) {userId itemId : Uuid}
    (runs : permanentDelete userId itemId before = .ok after) : BlobsSound after := by
  have refers := permanentDelete_noNewReference runs
  rcases permanentDelete_ok runs with
    ⟨item, _, _, _, _, below, _, reclaimed, middle, erased, keys, rfl⟩
  generalize (below.reverse ++ [item]).map DriveItem.id = gone at erased keys
  rcases settle_eq userId reclaimed middle with ⟨users, same⟩
  rw [same] at refers ⊢
  constructor
  case ledger =>
    apply sound.ledger.erase (· ∈ gone) (fun key => key ∈ reclaimed.keys ∧
      isReferencedBySnapshot middle.db key = false) (refers _ _)
    · intro key discarded
      rcases keys key discarded.1 with ⟨version, member, isGone, rfl⟩
      exact ⟨version.fileId, isGone, .version member rfl rfl⟩
    · intro holder key reference discarded isGone
      rcases reference with ⟨member, rfl, _⟩ | ⟨member, rfl, _⟩ | ⟨member, _, names⟩
      · exact ((erased.items _).mp member).2 isGone
      · exact ((erased.versions _).mp member).2 isGone
      · have needed : isReferencedBySnapshot middle.db key = true :=
          List.any_eq_true.mpr ⟨_, member, decide_eq_true names⟩
        rw [discarded.2] at needed
        cases needed
    · intro key stored spared
      rcases stored with ⟨object, member, rfl⟩
      refine ⟨object, Table.mem_filter.mpr ⟨erased.storage.symm ▸ member, ?_⟩, rfl⟩
      rw [Bool.or_eq_true, decide_eq_true_eq]
      by_contra neither
      rw [not_or, not_not] at neither
      exact spared ⟨neither.1, Bool.eq_false_of_not_eq_true neither.2⟩
  case files => exact fun reference => sound.files (refers _ _ reference)
  case chunks =>
    intro chunk member
    exact sound.chunks chunk (erased.chunks ▸ member)

/-- A restore gives every item a blob that its snapshot entry names. -/
theorem restored_named {userId : Uuid} {scope : Scope} {mode : SubtreeMode}
    {outcome : Option RestoreOutcome} {snapshotId : Uuid} {snapshot : Snapshot}
    (found : SnapshotRepository.getSnapshot before.db userId snapshotId = some snapshot)
    (runs : restore userId snapshotId scope mode before = .ok (outcome, after)) :
    ∃ guarded items, SnapshotWork [newSnapshot userId .preRestore (safetyLabel snapshot) false
        before] (captureEntries userId before) before guarded ∧
      after = guarded.withItems items ∧
      ∀ row ∈ items, ∀ key, row.storageKey = some key → RefersTo guarded.db row.id key := by
  rcases restore_ok found runs with ⟨guarded, target, middle, restored⟩
  rcases create_work userId .preRestore (safetyLabel snapshot) false before with
    ⟨_, creates, work⟩
  cases restored.creates.symm.trans creates
  rcases restoreTarget_runs scope (listAllEntries_nodup guarded.db snapshot.id)
    with ⟨_, selects, targetSub, distinct⟩
  cases restored.selects.symm.trans selects
  have middleRows := upsertAll_ok distinct restored.upserts
  have named : ∀ row ∈ middle, ∀ key, row.storageKey = some key →
      RefersTo guarded.db row.id key := by
    intro row member key names
    rcases (middleRows row).mp member with ⟨entry, entryMem, rfl⟩ | ⟨earlier, _⟩
    · have inSnapshot := (List.mem_filter.mp (targetSub entryMem)).1
      rw [(written_fields _ _ _ _).2.2.2.2.1, (placed_fields _ _ _).2.2.1] at names
      rw [written_id, placed_itemId]
      exact .entry inSnapshot rfl names
    · exact .item (restored.guard.items.symm ▸ earlier) rfl names
  apply Exists.intro guarded
  apply Exists.intro after.db.items
  apply And.intro work
  apply And.intro restored.frame
  intro row member key names
  rcases (restored.items row).mp member with ⟨old, oldMem, rfl, _⟩ | ⟨inMiddle, _⟩
  · exact named old oldMem key names
  · exact named row inMiddle key names

theorem of_restore (sound : BlobsSound before) {userId snapshotId : Uuid} {scope : Scope}
    {mode : SubtreeMode} {outcome : Option RestoreOutcome}
    (runs : restore userId snapshotId scope mode before = .ok (outcome, after)) :
    BlobsSound after := by
  cases found : SnapshotRepository.getSnapshot before.db userId snapshotId with
  | none =>
      rw [restore_missing found runs]
      exact sound
  | some snapshot =>
      rcases restored_named found runs with ⟨guarded, items, work, rfl, named⟩
      exact (sound.of_snapshotWork (.new userId _ _ _ before) work).of_items named

theorem restore_noNewReference {userId snapshotId : Uuid} {scope : Scope}
    {mode : SubtreeMode} {outcome : Option RestoreOutcome}
    (runs : restore userId snapshotId scope mode before = .ok (outcome, after)) :
    NoNewReference before.db after.db := by
  cases found : SnapshotRepository.getSnapshot before.db userId snapshotId with
  | none =>
      rw [restore_missing found runs]
      exact fun _ _ reference => reference
  | some snapshot =>
      rcases restored_named found runs with ⟨guarded, items, work, rfl, named⟩
      have captured := snapshotWork_noNewReference (.new userId _ _ _ before) work
      intro itemId key reference
      apply captured itemId key
      rcases reference with ⟨member, rfl, names⟩ | ⟨member, isId, names⟩ | ⟨member, isId, names⟩
      · exact named _ member key names
      · exact .version member isId names
      · exact .entry member isId names

theorem of_effect {op : Op} (sound : BlobsSound before) (effect : op.Effect before after) :
    BlobsSound after := by
  cases effect with
  | nothing => exact sound
  | folderCreated writable added =>
      have drawn : BlobsSound before.drawn := ⟨sound.ledger, sound.files, sound.chunks⟩
      apply drawn.of_items
      intro row member key names
      rcases (ItemTable.mem_of_add added).mp member with earlier | rfl
      · exact .item earlier rfl names
      · cases names
  | rewritten replaced content _ => exact sound.of_replaced replaced content
  | moved runs =>
      rcases move_ok runs with ⟨item, editable, rfl, _, items, changed, rfl⟩
      exact sound.of_replaced (ItemTable.change_replaced editable.member rfl changed)
        ⟨rfl, rfl, rfl, rfl, rfl⟩
  | deleted runs => exact sound.of_permanentDelete runs
  | emptied runs =>
      exact forEach_keeps BlobsSound (fun _ _ _ middle step => middle.of_permanentDelete step)
        sound runs
  | shared =>
      exact sound.of_same rfl rfl rfl (fun _ stored => stored) fun chunk member => .inl member
  | unshared =>
      exact sound.of_same rfl rfl rfl (fun _ stored => stored) fun chunk member => .inl member
  | uploaded _ isKey created => exact sound.of_fileCreated isKey created
  | sessionOpened =>
      exact sound.of_same rfl rfl rfl (fun _ stored => stored) fun chunk member => .inl member
  | sessionWorked work _ => exact sound.of_sessionWork work
  | completed _ _ _ isKey created work _ =>
      exact (sound.of_fileCreated isKey created).of_sessionWork work
  | snapshotsWorked captures work => exact sound.of_snapshotWork captures work
  | snapshotRestored runs => exact sound.of_restore runs
  | collected kept =>
      exact sound.of_same rfl rfl rfl
        (fun reference stored => kept _ (mem_referencedStorageKeys.mpr ⟨_, reference⟩) stored)
        fun chunk member => .inl member
  | ticked =>
      exact sound.of_same rfl rfl rfl (fun _ stored => stored) fun chunk member => .inl member

end BlobsSound

theorem Untouched.blobsSound {sys : System} (untouched : Untouched sys) : BlobsSound sys := by
  have nothing : ∀ {itemId key}, ¬ RefersTo sys.db itemId key := by
    intro itemId key reference
    rcases reference with ⟨member, _, _⟩ | ⟨member, _, _⟩ | ⟨member, _, _⟩
    · rw [untouched.items] at member
      cases member
    · rw [untouched.versions] at member
      cases member
    · rw [untouched.entries] at member
      cases member
  refine ⟨⟨fun reference => absurd reference nothing, fun first => absurd first nothing⟩,
    fun reference => absurd reference nothing, ?_⟩
  intro chunk member
  rw [untouched.chunks] at member
  cases member

/-- In every state that a run of committed requests reaches, every blob that an
item, a version or a snapshot entry names is in the storage. -/
theorem History.referenced_stored {start final : System} {events : List (Event System Op)}
    (history : History start events final) :
    ∀ key ∈ referencedStorageKeys final.db, Stored final key := by
  have sound : BlobsSound final := history.2.keeps history.1.blobsSound
    fun event _ sound commits => sound.of_effect (Op.effect commits)
  intro key referenced
  rcases mem_referencedStorageKeys.mp referenced with ⟨itemId, reference⟩
  exact sound.ledger.present reference

end References

/-! ## A deleted file that a snapshot keeps -/

section Kept

attribute [local instance] smallPlatform

private def uploadCaptureDelete : List Op :=
  [.uploadSimple 1 none "notes.txt" [] 0 none, .createSnapshot 1 .manual "weekly" false,
    .trashItem 1 11, .permanentDelete 1 11, .collectGarbage 0]

private def keptBlob : System :=
  match Op.commitAll uploadCaptureDelete firstDay with
  | .ok sys => sys
  | .error _ => firstDay

theorem History.referenced_stored_keptBlob :
    referencedStorageKeys keptBlob.db = [.file 1 10 1] ∧ Stored keptBlob (.file 1 10 1) := by
  have referenced : referencedStorageKeys keptBlob.db = [.file 1 10 1] := by decide
  rcases firstDay_history (by simp [uploadCaptureDelete, Op.Offered])
    (show Op.commitAll uploadCaptureDelete firstDay = .ok keptBlob from rfl)
    with ⟨events, history, _⟩
  refine ⟨referenced, history.referenced_stored _ ?_⟩
  rw [referenced]
  exact List.mem_singleton_self _

end Kept

end CloudDrive
