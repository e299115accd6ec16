import CloudDrive.Snapshot.Identity
import CloudDrive.Storage.BlobSizes

/-! # What deleting a snapshot frees

`reclaimable_bytes_by_snapshot` adds up the blobs that one snapshot of the user holds alone
and that no item and no version names. The garbage collection frees what no row of any user
names. A blob has one item and one owner for ever, so the two agree. -/

namespace CloudDrive

open Outcome Relational Execution SnapshotService

namespace SnapshotRepository

section Query

variable [Platform]

/-! ## The query -/

/-- The rows of `keys`: each blob of each snapshot of the user. -/
def heldKeys (db : Database) (userId : Uuid) : List (Uuid × StorageKey) :=
  ((capturedEntries db userId).filterMap fun entry =>
    entry.storageKey.map fun key => (entry.snapshotId, key)).dedup

/-- `max(size_bytes)` of such a row. -/
def heldSize (db : Database) (userId : Uuid) (held : Uuid × StorageKey) : Nat :=
  (((capturedEntries db userId).filter fun entry =>
    decide (entry.snapshotId = held.1 ∧ entry.storageKey = some held.2)).map
      SnapshotEntry.sizeBytes).foldr max 0

/-- The row of `holders` for a blob: how many snapshots of the user have it. -/
def holders (db : Database) (userId : Uuid) (key : StorageKey) : Nat :=
  (((heldKeys db userId).filter fun held => decide (held.2 = key)).map Prod.fst).dedup.length

def reclaimableRows (db : Database) (userId : Uuid) : List (Uuid × StorageKey) :=
  (heldKeys db userId).filter fun held =>
    decide (holders db userId held.2 = 1 ∧
      (∀ item ∈ db.items.rows, item.storageKey ≠ some held.2) ∧
      ∀ version ∈ db.versions.rows, version.storageKey ≠ held.2)

def reclaimableBytesBySnapshot (db : Database) (userId : Uuid) : List (Uuid × Nat) :=
  ((reclaimableRows db userId).map Prod.fst).dedup.map fun snapshotId =>
    (snapshotId, (((reclaimableRows db userId).filter fun held =>
      decide (held.1 = snapshotId)).map (heldSize db userId)).sum)

/-- The value reported for a snapshot, 0 if it is absent. -/
def reclaimableBytes (db : Database) (userId snapshotId : Uuid) : Nat :=
  ((reclaimableBytesBySnapshot db userId).lookup snapshotId).getD 0

/-! ## What its rows are -/

omit [Platform] in
theorem lookup_map_pair {α β : Type} [BEq α] [LawfulBEq α] (value : α → β) (sought : α) :
    ∀ elements : List α, sought ∈ elements →
      (elements.map fun element => (element, value element)).lookup sought = some (value sought)
  | [], member => (List.not_mem_nil member).elim
  | element :: rest, member => by
      rw [List.map_cons, List.lookup_cons]
      by_cases same : sought = element
      · rw [same, beq_self_eq_true]
      · rw [beq_eq_false_iff_ne.mpr same]
        exact lookup_map_pair value sought rest ((List.mem_cons.mp member).resolve_left same)

omit [Platform] in
theorem lookup_map_pair_none {α β : Type} [BEq α] [LawfulBEq α] (value : α → β) (sought : α) :
    ∀ elements : List α, sought ∉ elements →
      (elements.map fun element => (element, value element)).lookup sought = none
  | [], _ => rfl
  | element :: rest, absent => by
      rcases not_or.mp (mt List.mem_cons.mpr absent) with ⟨different, notRest⟩
      rw [List.map_cons, List.lookup_cons, beq_eq_false_iff_ne.mpr different]
      exact lookup_map_pair_none value sought rest notRest

theorem reclaimableBytes_eq (db : Database) (userId snapshotId : Uuid) :
    reclaimableBytes db userId snapshotId =
      (((reclaimableRows db userId).filter fun held => decide (held.1 = snapshotId)).map
        (heldSize db userId)).sum := by
  rw [reclaimableBytes, reclaimableBytesBySnapshot]
  by_cases listed : snapshotId ∈ ((reclaimableRows db userId).map Prod.fst).dedup
  · rw [lookup_map_pair _ snapshotId _ listed, Option.getD_some]
  · rw [lookup_map_pair_none _ snapshotId _ listed, Option.getD_none]
    have nothing : (reclaimableRows db userId).filter
        (fun held => decide (held.1 = snapshotId)) = [] := by
      apply List.filter_eq_nil_iff.mpr
      intro held member isOf
      apply listed
      rw [List.mem_dedup, ← of_decide_eq_true isOf]
      exact List.mem_map_of_mem member
    rw [nothing]
    rfl

theorem mem_heldKeys {db : Database} {userId : Uuid} {held : Uuid × StorageKey} :
    held ∈ heldKeys db userId ↔ ∃ entry ∈ capturedEntries db userId,
      entry.snapshotId = held.1 ∧ entry.storageKey = some held.2 := by
  rw [heldKeys, List.mem_dedup, List.mem_filterMap]
  constructor
  · intro listed
    rcases listed with ⟨entry, member, isHeld⟩
    rcases Option.map_eq_some_iff.mp isHeld with ⟨key, names, rfl⟩
    exact ⟨entry, member, rfl, names⟩
  · intro captured
    rcases captured with ⟨entry, member, ofSnapshot, names⟩
    apply Exists.intro entry
    apply And.intro member
    rw [names, Option.map_some, ofSnapshot]

/-- One snapshot of the user holds the blob when all that hold it are that one. -/
theorem holders_eq_one_iff {db : Database} {userId : Uuid} {held : Uuid × StorageKey}
    (member : held ∈ heldKeys db userId) : holders db userId held.2 = 1 ↔
      ∀ other ∈ heldKeys db userId, other.2 = held.2 → other.1 = held.1 := by
  let ids := (((heldKeys db userId).filter fun other => decide (other.2 = held.2)).map
    Prod.fst).dedup
  have isHolder : ∀ id, id ∈ ids ↔ ∃ other ∈ heldKeys db userId,
      other.2 = held.2 ∧ other.1 = id := by
    intro id
    rw [List.mem_dedup, List.mem_map]
    constructor
    · intro listed
      rcases listed with ⟨other, selected, sameId⟩
      rcases List.mem_filter.mp selected with ⟨otherMem, sameKey⟩
      exact ⟨other, otherMem, of_decide_eq_true sameKey, sameId⟩
    · intro holds
      rcases holds with ⟨other, otherMem, sameKey, sameId⟩
      exact ⟨other, List.mem_filter.mpr ⟨otherMem, decide_eq_true sameKey⟩, sameId⟩
  show ids.length = 1 ↔ _
  constructor
  · intro one other otherMem sameKey
    rcases List.length_eq_one_iff.mp one with ⟨only, isOnly⟩
    have otherHolds := (isHolder other.1).mpr ⟨other, otherMem, sameKey, rfl⟩
    have holds := (isHolder held.1).mpr ⟨held, member, rfl, rfl⟩
    rw [isOnly, List.mem_singleton] at otherHolds holds
    exact otherHolds.trans holds.symm
  · intro alone
    have isSingle : ids.Perm [held.1] := by
      apply (List.perm_ext_iff_of_nodup (List.nodup_dedup _) (List.nodup_singleton _)).mpr
      intro id
      rw [isHolder, List.mem_singleton]
      constructor
      · intro holds
        rcases holds with ⟨other, otherMem, sameKey, rfl⟩
        exact alone other otherMem sameKey
      · intro isHeld
        exact ⟨held, member, rfl, isHeld.symm⟩
    exact isSingle.length_eq

theorem mem_reclaimableRows {db : Database} {userId : Uuid} {held : Uuid × StorageKey} :
    held ∈ reclaimableRows db userId ↔ held ∈ heldKeys db userId ∧
      (∀ other ∈ heldKeys db userId, other.2 = held.2 → other.1 = held.1) ∧
      (∀ item ∈ db.items, item.storageKey ≠ some held.2) ∧
      ∀ version ∈ db.versions, version.storageKey ≠ held.2 := by
  rw [reclaimableRows, List.mem_filter, decide_eq_true_iff]
  apply and_congr_right
  intro member
  rw [holders_eq_one_iff member]
  rfl

end Query

end SnapshotRepository

open SnapshotRepository

section Reclaimable

variable [Platform]

/-! ## What the collection finds -/

/-- The blobs that rows refer to, but not once the snapshots `gone` are deleted. -/
def freedKeys (db : Database) (gone : List Uuid) : List StorageKey :=
  (referencedStorageKeys db).dedup.filter fun key =>
    decide (key ∉ referencedStorageKeys
      (gone.foldl (fun db snapshotId => deleteSnapshot snapshotId db) db))

def blobBytes (sys : System) (key : StorageKey) : Nat :=
  match sys.storage.find? key with
  | some object => object.content.length
  | none => 0

/-- The size of these blobs. -/
def freedBytes (sys : System) (gone : List Uuid) : Nat :=
  ((freedKeys sys.db gone).map (blobBytes sys)).sum

/-- Deletions take the entries of their snapshots and leave items and versions. -/
theorem deleteSnapshots_spec : ∀ (gone : List Uuid) (db : Database),
    let after := gone.foldl (fun db snapshotId => deleteSnapshot snapshotId db) db
    after.items = db.items ∧ after.versions = db.versions ∧
      ∀ entry, entry ∈ after.entries ↔ entry ∈ db.entries ∧ entry.snapshotId ∉ gone
  | [], db => by simp
  | snapshotId :: rest, db => by
      rcases deleteSnapshots_spec rest (deleteSnapshot snapshotId db) with
        ⟨items, versions, entries⟩
      apply And.intro items
      apply And.intro versions
      intro entry
      rw [List.foldl_cons, entries, deleteSnapshot, Table.mem_filter, decide_eq_true_iff,
        List.mem_cons, not_or, and_assoc]

/-- A blob is freed when only entries of the deleted snapshots name it. -/
theorem mem_freedKeys {db : Database} {gone : List Uuid} {key : StorageKey} :
    key ∈ freedKeys db gone ↔ (∃ entry ∈ db.entries, entry.storageKey = some key) ∧
      (∀ item ∈ db.items, item.storageKey ≠ some key) ∧
      (∀ version ∈ db.versions, version.storageKey ≠ key) ∧
      ∀ entry ∈ db.entries, entry.storageKey = some key → entry.snapshotId ∈ gone := by
  rcases deleteSnapshots_spec gone db with ⟨items, versions, entries⟩
  rw [freedKeys, List.mem_filter, List.mem_dedup, decide_eq_true_iff,
    mem_referencedStorageKeys, mem_referencedStorageKeys]
  constructor
  · intro freed
    rcases freed with ⟨⟨itemId, reference⟩, unnamed⟩
    have noItem : ∀ item ∈ db.items, item.storageKey ≠ some key := by
      intro item member names
      exact unnamed ⟨item.id, .item (items ▸ member) rfl names⟩
    have noVersion : ∀ version ∈ db.versions, version.storageKey ≠ key := by
      intro version member names
      exact unnamed ⟨version.fileId, .version (versions ▸ member) rfl names⟩
    constructor
    · rcases reference with ⟨member, _, names⟩ | ⟨member, _, names⟩ | ⟨member, _, names⟩
      · exact absurd names (noItem _ member)
      · exact absurd names (noVersion _ member)
      · exact ⟨_, member, names⟩
    apply And.intro noItem
    apply And.intro noVersion
    intro entry member names
    by_contra stays
    exact unnamed ⟨entry.itemId, .entry ((entries entry).mpr ⟨member, stays⟩) rfl names⟩
  · intro only
    rcases only with ⟨⟨entry, member, names⟩, noItem, noVersion, theirs⟩
    apply And.intro ⟨entry.itemId, .entry member rfl names⟩
    intro named
    rcases named with ⟨itemId, ⟨stays, _, isKey⟩ | ⟨stays, _, isKey⟩ | ⟨stays, _, isKey⟩⟩
    · rw [items] at stays
      exact noItem _ stays isKey
    · rw [versions] at stays
      exact noVersion _ stays isKey
    · rcases (entries _).mp stays with ⟨earlier, notGone⟩
      exact notGone (theirs _ earlier isKey)

/-! ## What a run makes of the two -/

variable {start sys : System} {events : List (Event System Op)}

/-- Snapshots whose entries name one blob are of one user. -/
theorem History.sameHolder (history : History start events sys) {left right : SnapshotEntry}
    {key : StorageKey} (leftMem : left ∈ sys.db.entries) (rightMem : right ∈ sys.db.entries)
    (leftNames : left.storageKey = some key) (rightNames : right.storageKey = some key)
    {first second : Snapshot} (firstMem : first ∈ sys.db.snapshots)
    (secondMem : second ∈ sys.db.snapshots) (ofFirst : first.id = left.snapshotId)
    (ofSecond : second.id = right.snapshotId) : first.userId = second.userId := by
  have sameItem : left.itemId = right.itemId := history.blobsSound.ledger.exclusive
    (.entry leftMem rfl leftNames) (.entry rightMem rfl rightNames)
  exact (history.identified.unique (.entry leftMem firstMem ofFirst sameItem rfl rfl)
    (.entry rightMem secondMem ofSecond rfl rfl rfl)).1

/-- Whatever entry names a blob of the user is captured by a snapshot of the user. -/
theorem History.captured_of_named (history : History start events sys) {userId : Uuid}
    {entry other : SnapshotEntry} {key : StorageKey}
    (captured : entry ∈ capturedEntries sys.db userId) (names : entry.storageKey = some key)
    (otherMem : other ∈ sys.db.entries) (otherNames : other.storageKey = some key) :
    other ∈ capturedEntries sys.db userId := by
  rcases mem_capturedEntries.mp captured with ⟨member, snapshot, isSnapshot, ofEntry, mine⟩
  rcases history.identified.recorded other otherMem with ⟨second, secondMem, ofOther⟩
  have same := history.sameHolder member otherMem names otherNames isSnapshot secondMem ofEntry
    ofOther
  exact mem_capturedEntries.mpr ⟨otherMem, second, secondMem, ofOther, same.symm.trans mine⟩

/-- The blob of an entry is as large as the entry says. -/
theorem History.blobBytes_eq (history : History start events sys) {entry : SnapshotEntry}
    {key : StorageKey} (member : entry ∈ sys.db.entries) (names : entry.storageKey = some key) :
    blobBytes sys key = entry.sizeBytes := by
  rcases history.measured key _ _ (.entry member names rfl rfl) with
    ⟨object, stored, isKey, length, _⟩
  have found : sys.storage.find? key = some object := Table.find?_eq_some.mpr ⟨stored, isKey⟩
  rw [blobBytes, found]
  exact length

omit [Platform] in
theorem foldr_max_const {bytes : Nat} : ∀ {sizes : List Nat}, sizes ≠ [] →
    (∀ size ∈ sizes, size = bytes) → sizes.foldr max 0 = bytes
  | [], nonempty, _ => absurd rfl nonempty
  | [size], _, same => by
      rw [List.foldr_cons, List.foldr_nil, Nat.max_zero]
      exact same size (List.mem_singleton_self size)
  | size :: next :: rest, _, same => by
      rw [List.foldr_cons, foldr_max_const (List.cons_ne_nil next rest)
        fun other among => same other (List.mem_cons_of_mem _ among),
        same size List.mem_cons_self, Nat.max_self]

theorem History.heldSize_eq (history : History start events sys) {userId : Uuid}
    {held : Uuid × StorageKey} (member : held ∈ heldKeys sys.db userId) :
    heldSize sys.db userId held = blobBytes sys held.2 := by
  rcases mem_heldKeys.mp member with ⟨entry, captured, ofSnapshot, names⟩
  apply foldr_max_const
  · apply List.ne_nil_of_mem
    apply List.mem_map_of_mem
    exact List.mem_filter.mpr ⟨captured, decide_eq_true ⟨ofSnapshot, names⟩⟩
  · intro size among
    rcases List.mem_map.mp among with ⟨other, selected, rfl⟩
    rcases List.mem_filter.mp selected with ⟨otherCaptured, same⟩
    exact (history.blobBytes_eq (mem_capturedEntries.mp otherCaptured).1
      (of_decide_eq_true same).2).symm

/-- The rows of a snapshot are the blobs that its deletion frees. -/
theorem History.reclaimable_iff (history : History start events sys) {snapshot : Snapshot}
    (isSnapshot : snapshot ∈ sys.db.snapshots) {key : StorageKey} :
    (snapshot.id, key) ∈ reclaimableRows sys.db snapshot.userId ↔
      key ∈ freedKeys sys.db [snapshot.id] := by
  rw [mem_reclaimableRows, mem_freedKeys]
  constructor
  · intro row
    rcases row with ⟨isHeld, alone, noItem, noVersion⟩
    rcases mem_heldKeys.mp isHeld with ⟨entry, captured, _, names⟩
    apply And.intro ⟨entry, (mem_capturedEntries.mp captured).1, names⟩
    apply And.intro noItem
    apply And.intro noVersion
    intro other otherMem otherNames
    have otherCaptured := history.captured_of_named captured names otherMem otherNames
    have otherHeld : (other.snapshotId, key) ∈ heldKeys sys.db snapshot.userId :=
      mem_heldKeys.mpr ⟨other, otherCaptured, rfl, otherNames⟩
    exact List.mem_singleton.mpr (alone _ otherHeld rfl)
  · intro freed
    rcases freed with ⟨⟨entry, member, names⟩, noItem, noVersion, theirs⟩
    have ofSnapshot := List.mem_singleton.mp (theirs entry member names)
    have captured : entry ∈ capturedEntries sys.db snapshot.userId :=
      mem_capturedEntries.mpr ⟨member, snapshot, isSnapshot, ofSnapshot.symm, rfl⟩
    apply And.intro (mem_heldKeys.mpr ⟨entry, captured, ofSnapshot, names⟩)
    apply And.intro _ ⟨noItem, noVersion⟩
    intro other otherHeld sameKey
    rcases mem_heldKeys.mp otherHeld with ⟨another, anotherCaptured, ofOther, anotherNames⟩
    rw [sameKey] at anotherNames
    have isOf := theirs another (mem_capturedEntries.mp anotherCaptured).1 anotherNames
    exact ofOther.symm.trans (List.mem_singleton.mp isOf)

/-- In every state that a run reaches, the bytes reported for a snapshot are the size of the
blobs that rows name before it is deleted and that none names afterwards. -/
theorem reclaimableBytes_eq_freedBytes (history : History start events sys)
    {userId : Uuid} {snapshot : Snapshot} (isSnapshot : snapshot ∈ sys.db.snapshots)
    (owned : snapshot.userId = userId) :
    reclaimableBytes sys.db userId snapshot.id = freedBytes sys [snapshot.id] := by
  subst owned
  let rows := (reclaimableRows sys.db snapshot.userId).filter fun held =>
    decide (held.1 = snapshot.id)
  have isRow : ∀ held, held ∈ rows ↔
      held ∈ reclaimableRows sys.db snapshot.userId ∧ held.1 = snapshot.id := by
    intro held
    rw [List.mem_filter, decide_eq_true_iff]
  have distinct : (rows.map Prod.snd).Nodup := by
    apply (((List.nodup_dedup _).filter _).filter _).map_on
    intro left leftMem right rightMem same
    have leftId := ((isRow left).mp leftMem).2
    have rightId := ((isRow right).mp rightMem).2
    exact Prod.ext (leftId.trans rightId.symm) same
  have keys : (rows.map Prod.snd).Perm (freedKeys sys.db [snapshot.id]) := by
    apply (List.perm_ext_iff_of_nodup distinct ((List.nodup_dedup _).filter _)).mpr
    intro key
    show _ ↔ key ∈ freedKeys sys.db [snapshot.id]
    rw [← history.reclaimable_iff isSnapshot, List.mem_map]
    constructor
    · intro listed
      rcases listed with ⟨⟨snapshotId, _⟩, member, rfl⟩
      rcases (isRow _).mp member with ⟨reclaimable, rfl⟩
      exact reclaimable
    · intro reclaimable
      exact ⟨_, (isRow _).mpr ⟨reclaimable, rfl⟩, rfl⟩
  have sizes : rows.map (heldSize sys.db snapshot.userId) =
      (rows.map Prod.snd).map (blobBytes sys) := by
    rw [List.map_map]
    apply List.map_congr_left
    intro held member
    exact history.heldSize_eq (mem_reclaimableRows.mp ((isRow held).mp member).1).1
  rw [reclaimableBytes_eq, freedBytes]
  exact (congrArg List.sum sizes).trans (keys.map (blobBytes sys)).sum_eq

end Reclaimable

/-! ## A blob that a snapshot alone holds -/

section OnlyCopy

attribute [local instance] smallPlatform

private def uploadOnly : List Op := [.uploadSimple 1 none "a" [[65, 66]] 2 none]

private def keepOnlyCopy : List Op :=
  uploadOnly ++ [.createSnapshot 1 .manual "weekly" false, .trashItem 1 11,
    .permanentDelete 1 11]

private def onlyCopy : System := afterFirstDay keepOnlyCopy

private def weeklyCopy : Snapshot :=
  newSnapshot 1 .manual "weekly" false (afterFirstDay uploadOnly)

theorem reclaimableBytes_eq_freedBytes_onlyCopy :
    reclaimableBytes onlyCopy.db 1 weeklyCopy.id = freedBytes onlyCopy [weeklyCopy.id] ∧
      reclaimableBytes onlyCopy.db 1 weeklyCopy.id = 2 := by
  rcases firstDay_history (by simp [keepOnlyCopy, uploadOnly, Op.Offered])
    (show Op.commitAll keepOnlyCopy firstDay = .ok onlyCopy from rfl) with
    ⟨events, history, _⟩
  have isSnapshot : weeklyCopy ∈ onlyCopy.db.snapshots := Table.mem_rows.mp (by decide)
  constructor
  · exact reclaimableBytes_eq_freedBytes history isSnapshot rfl
  · decide

end OnlyCopy

end CloudDrive
