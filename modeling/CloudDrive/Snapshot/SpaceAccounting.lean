import CloudDrive.Foundation.Groups
import CloudDrive.Snapshot.Reclaimable

/-! # The space that snapshots take

`used_snapshot_bytes` counts every content once, by its checksum. Blobs are stored and freed
by their keys, and two uploads of one content have two keys. -/

namespace CloudDrive

open Outcome Relational Execution SnapshotService SnapshotRepository

section SpaceAccounting

variable [Platform]

/-! ## What is promised, and when it holds -/

def allSnapshots (db : Database) (userId : Uuid) : List Uuid :=
  (listSnapshots db userId).map Snapshot.id

/-- The bytes used are no less than what deleting the snapshots of the user would free, all
of them at once or each alone. -/
def BoundsSpace (userId : Uuid) (sys : System) : Prop :=
  freedBytes sys (allSnapshots sys.db userId) ≤ usedSnapshotBytes sys.db userId ∧
    ((reclaimableBytesBySnapshot sys.db userId).map Prod.snd).sum ≤
      usedSnapshotBytes sys.db userId

/-- The checksums in the snapshots of the user. -/
def contents (db : Database) (userId : Uuid) : List String :=
  ((capturedEntries db userId).filterMap SnapshotEntry.checksumSha256).dedup

/-- The size of one copy of the content, as the snapshots record it. -/
def copyBytes (db : Database) (userId : Uuid) (checksum : String) : Nat :=
  (((capturedEntries db userId).filter fun entry =>
    decide (entry.checksumSha256 = some checksum)).map SnapshotEntry.sizeBytes).foldr max 0

def blobChecksum (sys : System) (key : StorageKey) : String :=
  match sys.storage.find? key with
  | some object => Platform.sha256 object.content
  | none => ""

/-- The size of the blobs with the content that only snapshots of the user keep. -/
def soleBytes (userId : Uuid) (sys : System) (checksum : String) : Nat :=
  (((freedKeys sys.db (allSnapshots sys.db userId)).filter fun key =>
    decide (blobChecksum sys key = checksum)).map (blobBytes sys)).sum

/-- What such blobs weigh beyond one copy of their content. -/
def repeatedBytes (userId : Uuid) (sys : System) : Nat :=
  ((contents sys.db userId).map fun checksum =>
    soleBytes userId sys checksum - copyBytes sys.db userId checksum).sum

/-- The copies that no such blob needs: the content is kept by items or versions too. -/
def sharedBytes (userId : Uuid) (sys : System) : Nat :=
  ((contents sys.db userId).map fun checksum =>
    copyBytes sys.db userId checksum - soleBytes userId sys checksum).sum

/-- No two blobs that only snapshots of the user keep have one content. -/
def DistinctContents (userId : Uuid) (sys : System) : Prop :=
  ∀ left ∈ freedKeys sys.db (allSnapshots sys.db userId),
    ∀ right ∈ freedKeys sys.db (allSnapshots sys.db userId),
      blobChecksum sys left = blobChecksum sys right → left = right

theorem usedSnapshotBytes_eq (db : Database) (userId : Uuid) :
    usedSnapshotBytes db userId = ((contents db userId).map (copyBytes db userId)).sum := rfl

/-! ## The blobs that are freed -/

variable {start sys : System} {events : List (Event System Op)} {userId : Uuid}

theorem mem_allSnapshots {db : Database} {snapshotId : Uuid} :
    snapshotId ∈ allSnapshots db userId ↔
      ∃ snapshot ∈ db.snapshots, snapshot.id = snapshotId ∧ snapshot.userId = userId := by
  rw [allSnapshots, List.mem_map]
  constructor
  · intro listed
    rcases listed with ⟨snapshot, member, isId⟩
    rcases mem_listSnapshots.mp member with ⟨isSnapshot, mine⟩
    exact ⟨snapshot, isSnapshot, isId, mine⟩
  · intro found
    rcases found with ⟨snapshot, isSnapshot, isId, mine⟩
    exact ⟨snapshot, mem_listSnapshots.mpr ⟨isSnapshot, mine⟩, isId⟩

/-- A blob that is freed has an entry of the user, which has its size and its checksum. -/
theorem History.freed_entry (history : History start events sys) {key : StorageKey}
    (freed : key ∈ freedKeys sys.db (allSnapshots sys.db userId)) :
    ∃ entry ∈ capturedEntries sys.db userId, entry.sizeBytes = blobBytes sys key ∧
      entry.checksumSha256 = some (blobChecksum sys key) := by
  rcases mem_freedKeys.mp freed with ⟨⟨entry, member, names⟩, _, _, theirs⟩
  rcases mem_allSnapshots.mp (theirs entry member names) with ⟨snapshot, isSnapshot, ofEntry, mine⟩
  apply Exists.intro entry
  apply And.intro (mem_capturedEntries.mpr ⟨member, snapshot, isSnapshot, ofEntry, mine⟩)
  apply And.intro (history.blobBytes_eq member names).symm
  rcases history.measured key _ _ (.entry member names rfl rfl) with
    ⟨object, stored, isKey, _, checksum⟩
  have found : sys.storage.find? key = some object := Table.find?_eq_some.mpr ⟨stored, isKey⟩
  rw [checksum, blobChecksum, found]

theorem History.freed_content (history : History start events sys) {key : StorageKey}
    (freed : key ∈ freedKeys sys.db (allSnapshots sys.db userId)) :
    blobChecksum sys key ∈ contents sys.db userId := by
  rcases history.freed_entry freed with ⟨entry, captured, _, checksum⟩
  exact List.mem_dedup.mpr (List.mem_filterMap.mpr ⟨entry, captured, checksum⟩)

omit [Platform] in
theorem le_foldr_max {size : Nat} : ∀ {sizes : List Nat}, size ∈ sizes → size ≤ sizes.foldr max 0
  | first :: rest, member => by
      rw [List.foldr_cons]
      rcases List.mem_cons.mp member with rfl | later
      · exact Nat.le_max_left _ _
      · exact Nat.le_trans (le_foldr_max later) (Nat.le_max_right _ _)

theorem History.blobBytes_le (history : History start events sys) {key : StorageKey}
    (freed : key ∈ freedKeys sys.db (allSnapshots sys.db userId)) :
    blobBytes sys key ≤ copyBytes sys.db userId (blobChecksum sys key) := by
  rcases history.freed_entry freed with ⟨entry, captured, size, checksum⟩
  apply le_foldr_max
  rw [← size]
  apply List.mem_map_of_mem
  exact List.mem_filter.mpr ⟨captured, decide_eq_true checksum⟩

/-- What is freed, added up content by content. -/
theorem History.freedBytes_eq (history : History start events sys) :
    freedBytes sys (allSnapshots sys.db userId) =
      ((contents sys.db userId).map (soleBytes userId sys)).sum :=
  (Groups.sum_by_group (List.nodup_dedup _) (blobChecksum sys) (blobBytes sys) _
    fun _ freed => history.freed_content freed).symm

/-! ## Each snapshot alone -/

/-- What the rows of the query weigh is part of what is freed with all snapshots. -/
theorem History.reclaimable_le (history : History start events sys) :
    ((reclaimableBytesBySnapshot sys.db userId).map Prod.snd).sum ≤
      freedBytes sys (allSnapshots sys.db userId) := by
  let rows := reclaimableRows sys.db userId
  have grouped : ((reclaimableBytesBySnapshot sys.db userId).map Prod.snd).sum =
      (rows.map (heldSize sys.db userId)).sum := by
    rw [reclaimableBytesBySnapshot, List.map_map]
    apply Groups.sum_by_group (List.nodup_dedup _) Prod.fst (heldSize sys.db userId) rows
    exact fun held member => List.mem_dedup.mpr (List.mem_map_of_mem member)
  have sizes : rows.map (heldSize sys.db userId) =
      (rows.map Prod.snd).map (blobBytes sys) := by
    rw [List.map_map]
    apply List.map_congr_left
    intro held member
    exact history.heldSize_eq (mem_reclaimableRows.mp member).1
  have distinct : (rows.map Prod.snd).Nodup := by
    apply ((List.nodup_dedup _).filter _).map_on
    intro left leftMem right rightMem same
    have alone := (mem_reclaimableRows.mp rightMem).2.1
    exact Prod.ext (alone left (mem_reclaimableRows.mp leftMem).1 same) same
  rw [grouped, sizes]
  apply Groups.sum_le_of_subset distinct
  intro key listed
  rcases List.mem_map.mp listed with ⟨held, member, rfl⟩
  rcases mem_reclaimableRows.mp member with ⟨isHeld, _, noItem, noVersion⟩
  rcases mem_heldKeys.mp isHeld with ⟨entry, captured, _, names⟩
  apply mem_freedKeys.mpr
  apply And.intro ⟨entry, (mem_capturedEntries.mp captured).1, names⟩
  apply And.intro noItem
  apply And.intro noVersion
  intro other otherMem otherNames
  have otherCaptured := history.captured_of_named captured names otherMem otherNames
  exact mem_allSnapshots.mpr (mem_capturedEntries.mp otherCaptured).2

/-! ## The bound -/

/-- Blobs of distinct contents exceed no copy. -/
theorem History.repeatedBytes_eq_zero (history : History start events sys)
    (distinct : DistinctContents userId sys) : repeatedBytes userId sys = 0 := by
  apply List.sum_eq_zero
  intro excess among
  rcases List.mem_map.mp among with ⟨checksum, _, rfl⟩
  apply Nat.sub_eq_zero_of_le
  let sole := (freedKeys sys.db (allSnapshots sys.db userId)).filter fun key =>
    decide (blobChecksum sys key = checksum)
  have isSole : ∀ key ∈ sole, key ∈ freedKeys sys.db (allSnapshots sys.db userId) ∧
      blobChecksum sys key = checksum := by
    intro key member
    rcases List.mem_filter.mp member with ⟨freed, same⟩
    exact ⟨freed, of_decide_eq_true same⟩
  show (sole.map (blobBytes sys)).sum ≤ _
  cases found : sole with
  | nil => exact Nat.zero_le _
  | cons key rest =>
      rcases isSole key (found ▸ List.mem_cons_self) with ⟨freed, same⟩
      have only : sole ⊆ [key] := by
        intro other member
        rcases isSole other member with ⟨otherFreed, otherSame⟩
        exact List.mem_singleton.mpr (distinct other otherFreed key freed
          (otherSame.trans same.symm))
      have nodup : sole.Nodup := ((List.nodup_dedup _).filter _).filter _
      have one := Groups.sum_le_of_subset nodup only (blobBytes sys)
      rw [found, List.map_singleton, List.sum_singleton] at one
      exact Nat.le_trans one (same ▸ history.blobBytes_le freed)

/-- In every state that a run reaches, the bytes used bound what the snapshots keep exactly
when repeated contents weigh no more than those that are kept elsewhere too. Without
repeated contents they do. -/
theorem boundsSpace_iff (history : History start events sys) :
    (BoundsSpace userId sys ↔ repeatedBytes userId sys ≤ sharedBytes userId sys) ∧
      (DistinctContents userId sys → BoundsSpace userId sys) := by
  have bound : BoundsSpace userId sys ↔
      repeatedBytes userId sys ≤ sharedBytes userId sys := by
    have compared := Groups.sum_le_iff_excess (contents sys.db userId) (soleBytes userId sys)
      (copyBytes sys.db userId)
    rw [← history.freedBytes_eq, ← usedSnapshotBytes_eq] at compared
    constructor
    · exact fun bounds => compared.mp bounds.1
    · intro within
      have all := compared.mpr within
      exact ⟨all, Nat.le_trans history.reclaimable_le all⟩
  apply And.intro bound
  intro distinct
  rw [bound, history.repeatedBytes_eq_zero distinct]
  exact Nat.zero_le _

end SpaceAccounting

/-! ## One content, uploaded twice -/

section UploadedTwice

attribute [local instance] smallPlatform

private def uploadTwice : List Op :=
  [.uploadSimple 1 none "a" [[65, 66]] 2 none, .uploadSimple 1 none "b" [[65, 66]] 2 none,
    .createSnapshot 1 .manual "weekly" false, .trashItem 1 11, .permanentDelete 1 11,
    .trashItem 1 13, .permanentDelete 1 13]

private def twoCopies : System := afterFirstDay uploadTwice

private def uploadOnce : List Op :=
  [.uploadSimple 1 none "a" [[65, 66]] 2 none, .createSnapshot 1 .manual "weekly" false,
    .trashItem 1 11, .permanentDelete 1 11]

private def oneCopy : System := afterFirstDay uploadOnce

private theorem twoCopies_history : ∃ events, History firstDay events twoCopies := by
  rcases firstDay_history (by simp [uploadTwice, Op.Offered])
    (show Op.commitAll uploadTwice firstDay = .ok twoCopies from rfl) with ⟨events, history, _⟩
  exact ⟨events, history⟩

/-- A single file that only the snapshot keeps is counted with all its bytes. -/
theorem boundsSpace_iff_oneCopy :
    usedSnapshotBytes oneCopy.db 1 = 2 ∧
      freedBytes oneCopy (allSnapshots oneCopy.db 1) = 2 ∧ BoundsSpace 1 oneCopy := by
  rcases firstDay_history (by simp [uploadOnce, Op.Offered])
    (show Op.commitAll uploadOnce firstDay = .ok oneCopy from rfl) with ⟨events, history, _⟩
  exact ⟨by decide, by decide, (boundsSpace_iff history).1.mpr (by decide)⟩

/-- Two blobs are kept and one is counted. -/
theorem twoCopies_exceed :
    (∃ events, History firstDay events twoCopies) ∧
    usedSnapshotBytes twoCopies.db 1 = 2 ∧
    freedBytes twoCopies (allSnapshots twoCopies.db 1) = 4 ∧
    ¬ BoundsSpace 1 twoCopies := by
  have used : usedSnapshotBytes twoCopies.db 1 = 2 := by decide
  have freed : freedBytes twoCopies (allSnapshots twoCopies.db 1) = 4 := by decide
  apply And.intro twoCopies_history
  apply And.intro used
  apply And.intro freed
  intro bounds
  have within := bounds.1
  rw [used, freed] at within
  exact absurd within (by decide)

end UploadedTwice

end CloudDrive
