import CloudDrive.Snapshot.Retention
import Mathlib.Data.Finset.Max

/-! # The contract of pruning

`Retained` tells the fate of a snapshot by its position on the timeline. When no two
snapshots were taken at the same time, the position is given by the times, and the two
passes of `prune` keep what its docstring promises. -/

namespace CloudDrive

open Relational

namespace SnapshotService

open SnapshotRepository

/-! ## Timelines without ties -/

def NewestFirst (snaps : List Snapshot) : Prop :=
  snaps.Pairwise fun newer older => older.createdAt < newer.createdAt

/-- How many snapshots are newer than `snapshot`. -/
def rank (snaps : List Snapshot) (snapshot : Snapshot) : Nat :=
  (snaps.filter fun other => decide (snapshot.createdAt < other.createdAt)).length

def Newest (snaps : List Snapshot) (snapshot : Snapshot) : Prop :=
  ∀ other ∈ snaps, other.createdAt ≤ snapshot.createdAt

def olderExpendable (snaps : List Snapshot) (snapshot : Snapshot) : List Snapshot :=
  snaps.filter fun other =>
    decide (other.createdAt < snapshot.createdAt ∧ exempt other = false)

namespace NewestFirst

variable {snaps : List Snapshot} {snapshot other : Snapshot}

theorem rank_eq_idxOf (ordered : NewestFirst snaps) (member : snapshot ∈ snaps) :
    rank snaps snapshot = snaps.idxOf snapshot := by
  induction snaps with
  | nil => cases member
  | cons head tail induction =>
      rcases List.pairwise_cons.mp ordered with ⟨older, ordered⟩
      unfold rank
      rcases List.mem_cons.mp member with rfl | later
      · have none : tail.filter (fun other => decide (snapshot.createdAt < other.createdAt)) =
            [] := by
          apply List.filter_eq_nil_iff.mpr
          intro other otherMem
          simp only [decide_eq_true_eq]
          exact Nat.lt_asymm (older other otherMem)
        rw [List.filter_cons_of_neg (by simp), none, List.idxOf_cons_self, List.length_nil]
      · have newer := older snapshot later
        have different : head ≠ snapshot := by
          intro same
          rw [same] at newer
          exact Nat.lt_irrefl _ newer
        rw [List.filter_cons_of_pos (by simpa using newer), List.length_cons,
          List.idxOf_cons_ne _ different]
        exact congrArg Nat.succ (induction ordered later)

theorem createdAt_lt (ordered : NewestFirst snaps) (otherMem : other ∈ snaps)
    (later : snaps.idxOf snapshot < snaps.idxOf other) :
    other.createdAt < snapshot.createdAt := by
  have short := List.idxOf_lt_length_of_mem otherMem
  have earlier := later.trans short
  have less := List.pairwise_iff_getElem.mp ordered _ _ earlier short later
  rwa [List.getElem_idxOf, List.getElem_idxOf] at less

theorem idxOf_le_iff (ordered : NewestFirst snaps) (member : snapshot ∈ snaps)
    (otherMem : other ∈ snaps) :
    snaps.idxOf other ≤ snaps.idxOf snapshot ↔ snapshot.createdAt ≤ other.createdAt := by
  constructor
  · intro before
    rcases Nat.lt_or_eq_of_le before with less | equal
    · exact (ordered.createdAt_lt member less).le
    · rw [(List.idxOf_inj otherMem).mp equal]
  · intro newer
    by_contra after
    have less := ordered.createdAt_lt otherMem (Nat.lt_of_not_le after)
    exact absurd less (Nat.not_lt_of_le newer)

theorem idxOf_eq_zero_iff (ordered : NewestFirst snaps) (member : snapshot ∈ snaps) :
    snaps.idxOf snapshot = 0 ↔ Newest snaps snapshot := by
  constructor
  · intro first other otherMem
    apply (ordered.idxOf_le_iff otherMem member).mp
    rw [first]
    exact Nat.zero_le _
  · intro newest
    have nonempty := List.length_pos_of_mem member
    have head : snaps[0] ∈ snaps := List.getElem_mem nonempty
    have least := (ordered.idxOf_le_iff head member).mpr (newest _ head)
    have distinct : snaps.Nodup := by
      apply List.Pairwise.imp _ ordered
      intro newer older less same
      rw [same] at less
      exact Nat.lt_irrefl _ less
    rw [distinct.idxOf_getElem] at least
    exact Nat.le_zero.mp least

end NewestFirst

section Pruning

variable [Platform]

theorem listSnapshots_newestFirst {db : Database} {userId : Uuid}
    (distinct : ∀ left ∈ listSnapshots db userId, ∀ right ∈ listSnapshots db userId,
      left.createdAt = right.createdAt → left = right) :
    NewestFirst (listSnapshots db userId) := by
  have sorted : (listSnapshots db userId).Pairwise fun newer older =>
      older.createdAt ≤ newer.createdAt :=
    List.pairwise_insertionSort _ _
  have nodup := List.Nodup.of_map _ (listSnapshots_ids_nodup db userId)
  apply List.Pairwise.imp_of_mem _ (sorted.and nodup)
  intro newer older newerMem olderMem both
  apply Nat.lt_of_le_of_ne both.1
  intro same
  exact both.2 (distinct newer newerMem older olderMem same.symm)

/-- The bytes held beside the older expendable snapshots are the bytes in use once those
are deleted. -/
theorem heldBytes_eq_used {db : Database} {userId : Uuid} {snapshot : Snapshot}
    (ordered : NewestFirst (listSnapshots db userId))
    (member : snapshot ∈ listSnapshots db userId) :
    heldBytes (listSnapshots db userId) db.entries.rows snapshot =
      usedSnapshotBytes (without ((olderExpendable (listSnapshots db userId) snapshot).map
        Snapshot.id) db) userId := by
  have stays : ∀ other ∈ listSnapshots db userId,
      other.id ∉ (olderExpendable (listSnapshots db userId) snapshot).map Snapshot.id ↔
        (exempt other = true ∨ (listSnapshots db userId).idxOf other ≤
          (listSnapshots db userId).idxOf snapshot) := by
    intro other otherMem
    rw [ordered.idxOf_le_iff member otherMem]
    have gone : other.id ∈ (olderExpendable (listSnapshots db userId) snapshot).map
        Snapshot.id ↔ other.createdAt < snapshot.createdAt ∧ exempt other = false := by
      constructor
      · intro goneMem
        rcases List.mem_map.mp goneMem with ⟨third, thirdMem, same⟩
        rcases List.mem_filter.mp thirdMem with ⟨listed, older⟩
        have equal := List.inj_on_of_nodup_map (listSnapshots_ids_nodup db userId) listed
          otherMem same
        rw [← equal]
        exact of_decide_eq_true older
      · intro older
        exact List.mem_map_of_mem (List.mem_filter.mpr ⟨otherMem, decide_eq_true older⟩)
    rw [gone, not_and_or, Nat.not_lt, Bool.not_eq_false]
    exact or_comm
  apply dedupBytes_congr
  intro entry
  simp only [mem_capturedEntries, mem_without_entries, mem_without_snapshots, List.mem_filter,
    decide_eq_true_eq, Table.mem_rows]
  constructor
  · intro held
    rcases held with ⟨among, other, listed, same, kept⟩
    have keeps := (stays other listed).mpr kept
    rcases mem_listSnapshots.mp listed with ⟨otherMem, owned⟩
    exact ⟨⟨among, same ▸ keeps⟩, other, ⟨otherMem, keeps⟩, same, owned⟩
  · intro captured
    rcases captured with ⟨⟨among, _⟩, other, ⟨otherMem, keeps⟩, same, owned⟩
    have listed := mem_listSnapshots.mpr ⟨otherMem, owned⟩
    exact ⟨among, other, listed, same, (stays other listed).mp keeps⟩

theorem mem_listSnapshots_without {gone : List Uuid} {db : Database} {userId : Uuid}
    {snapshot : Snapshot} :
    snapshot ∈ listSnapshots (without gone db) userId ↔
      snapshot ∈ listSnapshots db userId ∧ snapshot.id ∉ gone := by
  rw [mem_listSnapshots, mem_listSnapshots, mem_without_snapshots, and_right_comm]

/-! ## The contract -/

/-- What `prune` promises about the snapshots of `userId`. -/
structure PruneContract (userId : Uuid) (retentionN quota : Int) (before after : Database) :
    Prop where
  newest : ∀ snapshot ∈ listSnapshots before userId,
    Newest (listSnapshots before userId) snapshot → snapshot ∈ listSnapshots after userId
  pinned : ∀ snapshot ∈ listSnapshots before userId, snapshot.pinned = true →
    snapshot ∈ listSnapshots after userId
  preRestore : ∀ snapshot ∈ listSnapshots before userId, snapshot.trigger = .preRestore →
    snapshot ∈ listSnapshots after userId
  retention : ∀ snapshot ∈ listSnapshots before userId, exempt snapshot = false →
    retentionN ≤ rank (listSnapshots before userId) snapshot →
    snapshot ∉ listSnapshots after userId
  /-- Within the retention a snapshot goes only for the quota. -/
  overQuota : ∀ snapshot ∈ listSnapshots before userId, exempt snapshot = false →
    (rank (listSnapshots before userId) snapshot : Int) < retentionN →
    snapshot ∉ listSnapshots after userId →
    quota < usedSnapshotBytes (without ((olderExpendable (listSnapshots before userId)
      snapshot).map Snapshot.id) before) userId
  bounded : usedSnapshotBytes after userId ≤ quota ∨
    ∀ snapshot ∈ listSnapshots after userId,
      Newest (listSnapshots before userId) snapshot ∨ exempt snapshot = true
  /-- Nothing but snapshots of the user is deleted. -/
  others : ∀ snapshot, snapshot.userId ≠ userId →
    (snapshot ∈ after.snapshots ↔ snapshot ∈ before.snapshots)

/-- A snapshot that stays without being exempt or the newest bounds what is left: all that
is older than the last such snapshot is exempt. -/
private theorem used_of_lastKept {db : Database} {userId : Uuid} {retentionN quota : Int}
    {gone : List Uuid} (capped : 0 < quota)
    (fate : ∀ snapshot ∈ listSnapshots db userId, snapshot.id ∉ gone ↔
      Retained retentionN quota (listSnapshots db userId) db.entries.rows snapshot)
    {kept : Snapshot} (keptMem : kept ∈ listSnapshots (without gone db) userId)
    (notNewest : (listSnapshots db userId).idxOf kept ≠ 0)
    (notExempt : exempt kept ≠ true) :
    usedSnapshotBytes (without gone db) userId ≤ quota := by
  let expendables := (listSnapshots (without gone db) userId).toFinset.filter
    fun snapshot => exempt snapshot ≠ true
  have some : expendables.Nonempty :=
    ⟨kept, Finset.mem_filter.mpr ⟨List.mem_toFinset.mpr keptMem, notExempt⟩⟩
  rcases Finset.exists_max_image expendables (listSnapshots db userId).idxOf some with
    ⟨last, lastMem, isLast⟩
  rcases Finset.mem_filter.mp lastMem with ⟨lastKept, lastOpen⟩
  rcases mem_listSnapshots_without.mp (List.mem_toFinset.mp lastKept) with
    ⟨lastListed, lastStays⟩
  have afterKept := isLast kept
    (Finset.mem_filter.mpr ⟨List.mem_toFinset.mpr keptMem, notExempt⟩)
  have fits : (heldBytes (listSnapshots db userId) db.entries.rows last : Int) ≤ quota := by
    rcases (fate last lastListed).mp lastStays with isExempt | ⟨_, off | first | fits⟩
    · exact absurd isExempt lastOpen
    · omega
    · omega
    · exact fits
  apply le_trans _ fits
  apply Int.ofNat_le.mpr
  apply dedupBytes_mono
  intro entry member
  rcases mem_capturedEntries.mp member with ⟨among, other, otherMem, same, owned⟩
  have listed := mem_listSnapshots.mpr ⟨otherMem, owned⟩
  apply List.mem_filter.mpr
  apply And.intro (mem_without_entries.mp among).1
  apply decide_eq_true
  apply Exists.intro other
  apply And.intro (mem_listSnapshots_without.mp listed).1
  apply And.intro same
  by_cases isExempt : exempt other = true
  · exact .inl isExempt
  · exact .inr (isLast other (Finset.mem_filter.mpr ⟨List.mem_toFinset.mpr listed, isExempt⟩))

/-- The contract holds for every timeline without ties, every retention of at least one
snapshot and every positive quota. -/
theorem prune_contract (userId : Uuid) (settings : SnapshotSettings) (db : Database)
    (distinct : ∀ left ∈ listSnapshots db userId, ∀ right ∈ listSnapshots db userId,
      left.createdAt = right.createdAt → left = right)
    (keepsOne : 1 ≤ settings.retentionN)
    (capped : 0 < resolveQuotaBytes db userId settings) :
    PruneContract userId settings.retentionN (resolveQuotaBytes db userId settings) db
      (prune userId settings db) := by
  have ordered := listSnapshots_newestFirst distinct
  rcases prune_spec userId settings db with ⟨gone, prunes, goneListed, fate⟩
  rw [prunes]
  have keeps : ∀ snapshot ∈ listSnapshots db userId,
      snapshot ∈ listSnapshots (without gone db) userId ↔
        Retained settings.retentionN (resolveQuotaBytes db userId settings)
          (listSnapshots db userId) db.entries.rows snapshot := by
    intro snapshot member
    rw [mem_listSnapshots_without, ← fate snapshot member]
    exact and_iff_right member
  constructor
  case newest =>
    intro snapshot member newest
    have first := (ordered.idxOf_eq_zero_iff member).mpr newest
    apply (keeps snapshot member).mpr
    exact .inr ⟨by omega, .inr (.inl first)⟩
  case pinned =>
    intro snapshot member pinned
    apply (keeps snapshot member).mpr
    exact .inl (by simp [exempt, pinned])
  case preRestore =>
    intro snapshot member trigger
    apply (keeps snapshot member).mpr
    exact .inl (by simp [exempt, trigger])
  case retention =>
    intro snapshot member notExempt old kept
    rw [ordered.rank_eq_idxOf member] at old
    rcases (keeps snapshot member).mp kept with isExempt | ⟨recent, _⟩
    · rw [notExempt] at isExempt
      cases isExempt
    · omega
  case overQuota =>
    intro snapshot member notExempt recent lost
    rw [ordered.rank_eq_idxOf member] at recent
    rw [← heldBytes_eq_used ordered member]
    by_contra fits
    apply lost
    apply (keeps snapshot member).mpr
    exact .inr ⟨recent, .inr (.inr (by omega))⟩
  case bounded =>
    by_cases only : ∀ snapshot ∈ listSnapshots (without gone db) userId,
        Newest (listSnapshots db userId) snapshot ∨ exempt snapshot = true
    · exact .inr only
    · apply Or.inl
      push Not at only
      rcases only with ⟨kept, keptMem, notNewest, notExempt⟩
      have listed := (mem_listSnapshots_without.mp keptMem).1
      exact used_of_lastKept capped fate keptMem
        (fun first => notNewest ((ordered.idxOf_eq_zero_iff listed).mp first)) notExempt
  case others =>
    intro snapshot other
    rw [mem_without_snapshots]
    apply and_iff_left_of_imp
    intro member isGone
    rcases goneListed snapshot.id isGone with ⟨listed, listedMem, same⟩
    rcases mem_listSnapshots.mp listedMem with ⟨among, owned⟩
    have equal := db.snapshots.eq_of_key_eq among member same
    rw [← equal] at other
    exact other owned

end Pruning

/-! ## Five snapshots

The oldest is beyond the retention, the next one pinned, and the third exceeds the
quota. -/

section Crowded

attribute [local instance] smallPlatform

private def crowdedSettings : SnapshotSettings where
  userId := 1
  retentionN := 4
  scheduleEnabled := true
  scheduleIntervalMinutes := 60
  quotaBytes := some 25

private def crowdedSnapshot (id : Uuid) (pinned : Bool) (createdAt : Timestamp) : Snapshot where
  id := id
  userId := 1
  trigger := .manual
  label := "weekly"
  itemCount := 1
  totalBytes := 10
  pinned := pinned
  createdAt := createdAt

private def crowdedEntry (snapshotId : Uuid) (checksum : String) (sizeBytes : Nat) :
    SnapshotEntry where
  snapshotId := snapshotId
  itemId := 20
  parentItemId := none
  name := "plan.txt"
  itemType := .file
  storageKey := none
  checksumSha256 := some checksum
  sizeBytes := sizeBytes

private def crowded : Database :=
  { Database.empty with
    snapshots := ⟨[crowdedSnapshot 11 false 10, crowdedSnapshot 12 true 20,
      crowdedSnapshot 13 false 30, crowdedSnapshot 14 false 40, crowdedSnapshot 15 false 50],
      by decide⟩
    entries := ⟨[crowdedEntry 11 "a" 10, crowdedEntry 12 "b" 5, crowdedEntry 13 "c" 10,
      crowdedEntry 14 "d" 10, crowdedEntry 15 "e" 10], by decide⟩ }

theorem prune_contract_crowded :
    PruneContract 1 4 25 crowded (prune 1 crowdedSettings crowded) ∧
      (listSnapshots (prune 1 crowdedSettings crowded) 1).map Snapshot.id = [15, 14, 12] :=
  ⟨prune_contract 1 crowdedSettings crowded (by decide) (by decide) (by decide), by decide⟩

end Crowded

end SnapshotService

end CloudDrive
