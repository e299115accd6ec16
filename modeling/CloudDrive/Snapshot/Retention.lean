import CloudDrive.Snapshot

/-! # What pruning keeps

`prune` deletes in two passes. Over both, the fate of a snapshot depends on its
rank in the timeline and on the bytes held by the snapshots that can only go
after it. -/

namespace CloudDrive

open Relational

/-! ## Deduplicated sizes -/

namespace SnapshotRepository

private theorem foldr_max_mono {small large : List Nat} (sub : small ⊆ large) :
    small.foldr max 0 ≤ large.foldr max 0 := by
  induction small with
  | nil => exact Nat.zero_le _
  | cons head tail induction =>
      rw [List.foldr_cons]
      refine max_le ?_ (induction fun _ member => sub (List.mem_cons_of_mem _ member))
      have member := sub List.mem_cons_self
      clear sub induction
      induction large with
      | nil => cases member
      | cons first rest induction =>
          rw [List.foldr_cons]
          rcases List.mem_cons.mp member with rfl | later
          · exact le_max_left _ _
          · exact (induction later).trans (le_max_right _ _)

theorem dedupBytes_mono {small large : List SnapshotEntry} (sub : small ⊆ large) :
    dedupBytes small ≤ dedupBytes large := by
  unfold dedupBytes
  rw [← List.sum_toFinset _ (List.nodup_dedup _), ← List.sum_toFinset _ (List.nodup_dedup _)]
  refine (Finset.sum_le_sum fun checksum _ => ?_).trans
    (Finset.sum_le_sum_of_subset ?_)
  · refine foldr_max_mono (List.map_subset _ fun entry member => ?_)
    rcases List.mem_filter.mp member with ⟨among, same⟩
    exact List.mem_filter.mpr ⟨sub among, same⟩
  · intro checksum member
    simp only [List.mem_toFinset, List.mem_dedup, List.mem_filterMap] at member ⊢
    rcases member with ⟨entry, among, same⟩
    exact ⟨entry, sub among, same⟩

/-- Only the set of entries matters. -/
theorem dedupBytes_congr {left right : List SnapshotEntry}
    (same : ∀ entry, entry ∈ left ↔ entry ∈ right) : dedupBytes left = dedupBytes right :=
  le_antisymm (dedupBytes_mono fun _ member => (same _).mp member)
    (dedupBytes_mono fun _ member => (same _).mpr member)

end SnapshotRepository

namespace SnapshotService

open SnapshotRepository

variable [Platform]

/-! ## The condition under which a snapshot stays -/

/-- The entries held by the exempt snapshots and those not older than
`snapshot`. -/
def heldBytes (snaps : List Snapshot) (entries : List SnapshotEntry)
    (snapshot : Snapshot) : Nat :=
  dedupBytes (entries.filter fun entry =>
    decide (∃ other ∈ snaps, other.id = entry.snapshotId ∧
      (exempt other = true ∨ snaps.idxOf other ≤ snaps.idxOf snapshot)))

/-- `snapshot` stays on the timeline `snaps`, newest first: it is exempt, or it
is among the newest `retentionN` and either the quota is off, or it is the
newest, or what would still be held without any older expendable snapshot fits. -/
def Retained (retentionN quota : Int) (snaps : List Snapshot)
    (entries : List SnapshotEntry) (snapshot : Snapshot) : Prop :=
  exempt snapshot = true ∨
    ((snaps.idxOf snapshot : Int) < retentionN ∧
      (quota ≤ 0 ∨ snaps.idxOf snapshot = 0 ∨
        (heldBytes snaps entries snapshot : Int) ≤ quota))

instance (retentionN quota : Int) (snaps : List Snapshot) (entries : List SnapshotEntry)
    (snapshot : Snapshot) : Decidable (Retained retentionN quota snaps entries snapshot) :=
  inferInstanceAs (Decidable (_ ∨ _))

/-! ## Deletions -/

/-- The database without the snapshots `gone` and their entries. -/
def without (gone : List Uuid) (db : Database) : Database :=
  { db with
    snapshots := db.snapshots.filter fun row => decide (row.id ∉ gone)
    entries := db.entries.filter fun entry => decide (entry.snapshotId ∉ gone) }

theorem without_nil (db : Database) : without [] db = db := by
  have all {ρ κ : Type} [Keyed ρ κ] (table : Table ρ) :
      table.filter (fun _ => true) = table :=
    Table.ext_rows (List.filter_true _)
  simp [without, all]

theorem deleteSnapshot_without (id : Uuid) (gone : List Uuid) (db : Database) :
    deleteSnapshot id (without gone db) = without (id :: gone) db := by
  have merge {ρ κ : Type} [Keyed ρ κ] (table : Table ρ) (project : ρ → Uuid) :
      (table.filter fun row => decide (project row ∉ gone)).filter
          (fun row => decide (project row ≠ id)) =
        table.filter fun row => decide (project row ∉ id :: gone) := by
    refine Table.ext_rows ?_
    simp only [Table.filter, List.filter_filter]
    congr 1
    funext row
    simp [not_or]
  simp only [deleteSnapshot, without, merge]

/-- The retention pass by rank: what it keeps and what it deletes. -/
theorem pruneRetention_spec (retentionN : Int) (db : Database) :
    ∀ (snaps : List Snapshot) (rank : Nat) (gone : List Uuid),
      ∃ gone', pruneRetention retentionN rank snaps (without gone db) =
          (((snaps.zipIdx rank).filter fun at_ =>
            decide ((at_.2 : Int) < retentionN ∨ exempt at_.1 = true)).map Prod.fst,
          without gone' db) ∧
        ∀ id, id ∈ gone' ↔ id ∈ gone ∨ ∃ at_ ∈ snaps.zipIdx rank,
          at_.1.id = id ∧ ¬ ((at_.2 : Int) < retentionN ∨ exempt at_.1 = true) := by
  intro snaps
  induction snaps with
  | nil =>
      intro rank gone
      exact ⟨gone, rfl, by simp⟩
  | cons snapshot rest induction =>
      intro rank gone
      rw [pruneRetention]
      by_cases stays : (rank : Int) < retentionN ∨ exempt snapshot = true
      · rcases induction (rank + 1) gone with ⟨gone', runs, members⟩
        refine ⟨gone', ?_, ?_⟩
        · simp only [stays, if_true, runs, List.zipIdx_cons]
          rw [List.filter_cons_of_pos (by simpa using stays), List.map_cons]
        · intro id
          simp only [members, List.zipIdx_cons, List.exists_mem_cons_iff, stays,
            not_true, and_false, false_or]
      · rcases induction (rank + 1) (snapshot.id :: gone) with ⟨gone', runs, members⟩
        refine ⟨gone', ?_, ?_⟩
        · simp only [stays, if_false, deleteSnapshot_without, runs, List.zipIdx_cons]
          rw [List.filter_cons_of_neg (by simpa using stays)]
        · intro id
          rw [members, List.mem_cons, List.zipIdx_cons]
          simp only [List.exists_mem_cons_iff, stays, not_false_eq_true, and_true]
          rw [eq_comm, or_assoc, or_left_comm]

/-- What the quota pass never touches. -/
def Protected (newestId : Uuid) (snapshot : Snapshot) : Prop :=
  snapshot.id = newestId ∨ exempt snapshot = true

instance (newestId : Uuid) (snapshot : Snapshot) : Decidable (Protected newestId snapshot) :=
  inferInstanceAs (Decidable (_ ∨ _))

/-- The ids the quota pass deletes when it gets past all of `front`. -/
def expendable (newestId : Uuid) (front : List Snapshot) : List Uuid :=
  (front.filter fun snapshot => decide (¬ Protected newestId snapshot)).map Snapshot.id

theorem mem_capturedEntries {db : Database} {userId : Uuid} {entry : SnapshotEntry} :
    entry ∈ capturedEntries db userId ↔ entry ∈ db.entries ∧
      ∃ snapshot ∈ db.snapshots, snapshot.id = entry.snapshotId ∧ snapshot.userId = userId := by
  rw [capturedEntries, List.mem_filter, decide_eq_true_eq]
  rfl

theorem mem_without_entries {gone : List Uuid} {db : Database} {entry : SnapshotEntry} :
    entry ∈ (without gone db).entries ↔ entry ∈ db.entries ∧ entry.snapshotId ∉ gone := by
  rw [without, Table.mem_filter, decide_eq_true_eq]

theorem mem_without_snapshots {gone : List Uuid} {db : Database} {snapshot : Snapshot} :
    snapshot ∈ (without gone db).snapshots ↔ snapshot ∈ db.snapshots ∧ snapshot.id ∉ gone := by
  rw [without, Table.mem_filter, decide_eq_true_eq]

theorem usedSnapshotBytes_mono {small large : List Uuid} (sub : small ⊆ large)
    (db : Database) (userId : Uuid) :
    usedSnapshotBytes (without large db) userId ≤ usedSnapshotBytes (without small db) userId := by
  refine dedupBytes_mono fun entry member => ?_
  simp only [mem_capturedEntries, mem_without_entries, mem_without_snapshots] at member ⊢
  rcases member with ⟨⟨among, kept⟩, snapshot, ⟨snapshotMem, snapshotKept⟩, same⟩
  exact ⟨⟨among, fun goneId => kept (sub goneId)⟩, snapshot,
    ⟨snapshotMem, fun goneId => snapshotKept (sub goneId)⟩, same⟩

/-- The quota pass, oldest first: a snapshot goes exactly when it is
expendable and the quota is still exceeded without everything expendable before
it. -/
theorem pruneQuota_spec (userId newestId : Uuid) (quota : Int) (db : Database) :
    ∀ (oldest : List Snapshot) (gone : List Uuid), (oldest.map Snapshot.id).Nodup →
      ∃ gone', pruneQuota userId newestId quota oldest (without gone db) = without gone' db ∧
        gone ⊆ gone' ∧
        (∀ id ∈ gone', id ∈ gone ∨ id ∈ oldest.map Snapshot.id) ∧
        ∀ front snapshot back, oldest = front ++ snapshot :: back → snapshot.id ∉ gone →
          (snapshot.id ∈ gone' ↔ ¬ Protected newestId snapshot ∧
            quota < usedSnapshotBytes (without (expendable newestId front ++ gone) db) userId)
  | [], gone, _ => ⟨gone, rfl, fun _ member => member, fun _ => .inl, by simp⟩
  | head :: rest, gone, distinct => by
      rw [List.map_cons, List.nodup_cons] at distinct
      rw [pruneQuota]
      by_cases kept : Protected newestId head
      · rcases pruneQuota_spec userId newestId quota db rest gone distinct.2 with
          ⟨gone', runs, grows, only, fate⟩
        refine ⟨gone', ?_, grows, ?_, ?_⟩
        · rw [if_pos (show head.id = newestId ∨ exempt head = true from kept)]
          exact runs
        · intro id member
          exact (only id member).imp_right fun later => List.mem_cons_of_mem _ later
        · intro front snapshot back split notGone
          rcases front with _ | ⟨first, front⟩
          · simp only [List.nil_append, List.cons.injEq] at split
            rcases split with ⟨rfl, rfl⟩
            refine ⟨fun member => ?_, fun both => absurd kept both.1⟩
            rcases only head.id member with earlier | later
            · exact absurd earlier notGone
            · exact absurd later distinct.1
          · simp only [List.cons_append, List.cons.injEq] at split
            rcases split with ⟨rfl, rfl⟩
            rw [fate front snapshot back rfl notGone]
            simp [expendable, kept]
      · have notKept : ¬ (head.id = newestId ∨ exempt head = true) := kept
        by_cases fits : (usedSnapshotBytes (without gone db) userId : Int) ≤ quota
        · refine ⟨gone, ?_, fun _ member => member, fun _ => .inl, ?_⟩
          · rw [if_neg notKept, if_pos fits]
          · intro front snapshot back _ notGone
            refine ⟨fun member => absurd member notGone, fun both => absurd both.2 ?_⟩
            have smaller := usedSnapshotBytes_mono
              (List.subset_append_right (expendable newestId front) gone) db userId
            omega
        · rcases pruneQuota_spec userId newestId quota db rest (head.id :: gone) distinct.2 with
            ⟨gone', runs, grows, only, fate⟩
          refine ⟨gone', ?_, fun _ member => grows (List.mem_cons_of_mem _ member), ?_, ?_⟩
          · rw [if_neg notKept, if_neg fits, deleteSnapshot_without]
            exact runs
          · intro id member
            rcases only id member with earlier | later
            · rcases List.mem_cons.mp earlier with rfl | earlier
              · exact .inr List.mem_cons_self
              · exact .inl earlier
            · exact .inr (List.mem_cons_of_mem _ later)
          · intro front snapshot back split notGone
            rcases front with _ | ⟨first, front⟩
            · simp only [List.nil_append, List.cons.injEq] at split
              rcases split with ⟨rfl, rfl⟩
              refine ⟨fun _ => ⟨kept, ?_⟩, fun _ => grows List.mem_cons_self⟩
              simpa [expendable] using fits
            · simp only [List.cons_append, List.cons.injEq] at split
              rcases split with ⟨rfl, rfl⟩
              have different : snapshot.id ≠ head.id := by
                intro same
                exact distinct.1 (same ▸ List.mem_map_of_mem (by simp))
              rw [fate front snapshot back rfl (by simp [different, notGone])]
              have sameSet : usedSnapshotBytes
                    (without (expendable newestId front ++ head.id :: gone) db) userId =
                  usedSnapshotBytes
                    (without (expendable newestId (head :: front) ++ gone) db) userId := by
                refine le_antisymm (usedSnapshotBytes_mono ?_ db userId)
                  (usedSnapshotBytes_mono ?_ db userId) <;>
                · intro id member
                  simp only [expendable, kept, not_false_eq_true, decide_true,
                    List.filter_cons_of_pos, List.map_cons, List.mem_append,
                    List.mem_cons] at member ⊢
                  tauto
              rw [sameSet]

/-! ## Both passes together -/

theorem mem_listSnapshots {db : Database} {userId : Uuid} {snapshot : Snapshot} :
    snapshot ∈ listSnapshots db userId ↔
      snapshot ∈ db.snapshots ∧ snapshot.userId = userId := by
  rw [listSnapshots, List.mem_insertionSort, List.mem_filter, decide_eq_true_eq]
  rfl

theorem listSnapshots_ids_nodup (db : Database) (userId : Uuid) :
    ((listSnapshots db userId).map Snapshot.id).Nodup := by
  refine (List.Perm.nodup_iff (List.Perm.map _ (List.perm_insertionSort _ _))).mpr ?_
  exact db.snapshots.nodup.sublist (List.filter_sublist.map _)

omit [Platform] in
/-- On a timeline without repetitions the position of a snapshot is its rank. -/
private theorem rank_of_mem_zipIdx {snaps : List Snapshot} (distinct : snaps.Nodup)
    {at_ : Snapshot × Nat} (member : at_ ∈ snaps.zipIdx) :
    at_.1 ∈ snaps ∧ at_.2 = snaps.idxOf at_.1 := by
  rcases List.getElem?_eq_some_iff.mp (List.mem_zipIdx_iff_getElem?.mp member) with ⟨short, value⟩
  refine ⟨value ▸ List.getElem_mem short, ?_⟩
  rw [← value, distinct.idxOf_getElem]

omit [Platform] in
private theorem mem_zipIdx_rank {snaps : List Snapshot} {snapshot : Snapshot}
    (member : snapshot ∈ snaps) : (snapshot, snaps.idxOf snapshot) ∈ snaps.zipIdx :=
  List.mem_zipIdx_iff_getElem?.mpr (List.getElem?_idxOf member)

/-- What survives the retention pass, in the order of the timeline. -/
private def keptByRetention (retentionN : Int) (snaps : List Snapshot) : List Snapshot :=
  ((snaps.zipIdx 0).filter fun at_ =>
    decide ((at_.2 : Int) < retentionN ∨ exempt at_.1 = true)).map Prod.fst

omit [Platform] in
private theorem mem_keptByRetention {retentionN : Int} {snaps : List Snapshot}
    (distinct : snaps.Nodup) {snapshot : Snapshot} :
    snapshot ∈ keptByRetention retentionN snaps ↔ snapshot ∈ snaps ∧
      ((snaps.idxOf snapshot : Int) < retentionN ∨ exempt snapshot = true) := by
  simp only [keptByRetention, List.mem_map, List.mem_filter, decide_eq_true_eq]
  constructor
  · rintro ⟨at_, ⟨member, stays⟩, rfl⟩
    rcases rank_of_mem_zipIdx distinct member with ⟨among, rank⟩
    exact ⟨among, rank ▸ stays⟩
  · rintro ⟨member, stays⟩
    exact ⟨(snapshot, snaps.idxOf snapshot), ⟨mem_zipIdx_rank member, stays⟩, rfl⟩

omit [Platform] in
private theorem keptByRetention_ranks (retentionN : Int) {snaps : List Snapshot}
    (distinct : snaps.Nodup) :
    (keptByRetention retentionN snaps).Pairwise fun newer older =>
      snaps.idxOf newer < snaps.idxOf older := by
  have byPosition : (snaps.zipIdx 0).Pairwise fun newer older => newer.2 < older.2 := by
    rw [← List.pairwise_map (f := Prod.snd) (R := (· < ·)), List.zipIdx_map_snd]
    exact List.pairwise_lt_range'
  refine List.pairwise_map.mpr (List.Pairwise.filter _ ?_)
  refine List.Pairwise.imp_of_mem ?_ byPosition
  intro newer older newerMem olderMem less
  rwa [← (rank_of_mem_zipIdx distinct newerMem).2, ← (rank_of_mem_zipIdx distinct olderMem).2]

omit [Platform] in
private theorem keptByRetention_ids_nodup {retentionN : Int} {snaps : List Snapshot}
    (distinct : (snaps.map Snapshot.id).Nodup) :
    ((keptByRetention retentionN snaps).map Snapshot.id).Nodup := by
  refine distinct.sublist (List.Sublist.map _ ?_)
  have sub : ((snaps.zipIdx 0).filter fun at_ =>
      decide ((at_.2 : Int) < retentionN ∨ exempt at_.1 = true)).Sublist (snaps.zipIdx 0) :=
    List.filter_sublist
  have positions := sub.map Prod.fst
  rwa [List.zipIdx_map_fst] at positions

/-- Where the quota pass reaches a snapshot that is not exempt, what is left of
the user's snapshots is what `heldBytes` counts. -/
private theorem usedBytes_at {db : Database} {userId newestId : Uuid} {retentionN : Int}
    {snapshot : Snapshot} {front : List Snapshot} {gone : List Uuid}
    (recent : ((listSnapshots db userId).idxOf snapshot : Int) < retentionN)
    (newest : ∀ other ∈ listSnapshots db userId, other.id = newestId ↔
      (listSnapshots db userId).idxOf other = 0)
    (isFront : ∀ other, other ∈ front ↔
      other ∈ keptByRetention retentionN (listSnapshots db userId) ∧
        (listSnapshots db userId).idxOf snapshot < (listSnapshots db userId).idxOf other)
    (isGone : ∀ id, id ∈ gone ↔ ∃ other ∈ listSnapshots db userId, other.id = id ∧
      ¬ (((listSnapshots db userId).idxOf other : Int) < retentionN ∨ exempt other = true)) :
    usedSnapshotBytes (without (expendable newestId front ++ gone) db) userId =
      heldBytes (listSnapshots db userId) db.entries.rows snapshot := by
  have idsNodup := listSnapshots_ids_nodup db userId
  have distinct := List.Nodup.of_map _ idsNodup
  have stays : ∀ other ∈ listSnapshots db userId,
      other.id ∉ expendable newestId front ++ gone ↔ exempt other = true ∨
        (listSnapshots db userId).idxOf other ≤ (listSnapshots db userId).idxOf snapshot := by
    intro other otherMem
    have unique : ∀ {third : Snapshot}, third ∈ listSnapshots db userId →
        third.id = other.id → third = other := fun thirdMem same =>
      List.inj_on_of_nodup_map idsNodup thirdMem otherMem same
    have inExpendable : other.id ∈ expendable newestId front ↔
        other ∈ front ∧ ¬ Protected newestId other := by
      simp only [expendable, List.mem_map, List.mem_filter, decide_eq_true_eq]
      constructor
      · rintro ⟨third, ⟨thirdMem, open_⟩, same⟩
        have thirdListed := ((mem_keptByRetention distinct).mp ((isFront third).mp thirdMem).1).1
        exact unique thirdListed same ▸ ⟨thirdMem, open_⟩
      · rintro ⟨otherFront, open_⟩
        exact ⟨other, ⟨otherFront, open_⟩, rfl⟩
    have inGone : other.id ∈ gone ↔
        ¬ (((listSnapshots db userId).idxOf other : Int) < retentionN ∨ exempt other = true) := by
      rw [isGone]
      constructor
      · rintro ⟨third, thirdMem, same, dropped⟩
        exact unique thirdMem same ▸ dropped
      · exact fun dropped => ⟨other, otherMem, rfl, dropped⟩
    rw [List.mem_append, inExpendable, inGone, isFront, mem_keptByRetention distinct,
      Protected, newest other otherMem]
    by_cases isExempt : exempt other = true
    · simp [isExempt]
    · simp only [isExempt, or_false, otherMem, true_and, false_or, Bool.false_eq_true]
      omega
  refine dedupBytes_congr fun entry => ?_
  simp only [mem_capturedEntries, mem_without_entries, mem_without_snapshots, List.mem_filter,
    decide_eq_true_eq, Table.mem_rows]
  constructor
  · rintro ⟨⟨among, kept⟩, other, ⟨otherMem, _⟩, same, owned⟩
    have listed := mem_listSnapshots.mpr ⟨otherMem, owned⟩
    exact ⟨among, other, listed, same, (stays other listed).mp (same ▸ kept)⟩
  · rintro ⟨among, other, listed, same, held⟩
    rcases mem_listSnapshots.mp listed with ⟨otherMem, owned⟩
    have kept := (stays other listed).mpr held
    exact ⟨⟨among, same ▸ kept⟩, other, ⟨otherMem, kept⟩, same, owned⟩

theorem resolveQuotaBytes_without (gone : List Uuid) (db : Database) (userId : Uuid)
    (settings : SnapshotSettings) :
    resolveQuotaBytes (without gone db) userId settings =
      resolveQuotaBytes db userId settings := rfl

omit [Platform] in
/-- What the retention pass deletes, by the ranks of the timeline. -/
private theorem mem_dropped {retentionN : Int} {snaps : List Snapshot} (distinct : snaps.Nodup)
    {gone : List Uuid} (isGone : ∀ id, id ∈ gone ↔ id ∈ ([] : List Uuid) ∨
      ∃ at_ ∈ snaps.zipIdx, at_.1.id = id ∧
        ¬ ((at_.2 : Int) < retentionN ∨ exempt at_.1 = true)) (id : Uuid) :
    id ∈ gone ↔ ∃ other ∈ snaps, other.id = id ∧
      ¬ ((snaps.idxOf other : Int) < retentionN ∨ exempt other = true) := by
  rw [isGone]
  constructor
  · rintro (none | ⟨at_, member, same, dropped⟩)
    · cases none
    · rcases rank_of_mem_zipIdx distinct member with ⟨among, rank⟩
      exact ⟨at_.1, among, same, rank ▸ dropped⟩
  · rintro ⟨other, member, same, dropped⟩
    exact .inr ⟨_, mem_zipIdx_rank member, same, dropped⟩

omit [Platform] in
private theorem id_mem_dropped {snaps : List Snapshot}
    (idsNodup : (snaps.map Snapshot.id).Nodup) {gone : List Uuid} {stays : Snapshot → Prop}
    (isGone : ∀ id, id ∈ gone ↔ ∃ other ∈ snaps, other.id = id ∧ ¬ stays other)
    {snapshot : Snapshot} (member : snapshot ∈ snaps) :
    snapshot.id ∈ gone ↔ ¬ stays snapshot := by
  rw [isGone]
  constructor
  · rintro ⟨other, otherMem, same, dropped⟩
    exact List.inj_on_of_nodup_map idsNodup otherMem member same ▸ dropped
  · exact fun dropped => ⟨snapshot, member, rfl, dropped⟩

omit [Platform] in
private theorem id_eq_head_iff {newest : Snapshot} {older : List Snapshot}
    (idsNodup : ((newest :: older).map Snapshot.id).Nodup) {other : Snapshot}
    (otherMem : other ∈ newest :: older) :
    other.id = newest.id ↔ (newest :: older).idxOf other = 0 := by
  constructor
  · intro same
    rw [List.inj_on_of_nodup_map idsNodup otherMem List.mem_cons_self same]
    simp
  · intro first
    by_contra different
    rw [List.idxOf_cons_ne _ (fun same => different (by rw [same]))] at first
    omega

omit [Platform] in
/-- The quota pass meets the older snapshots that the retention kept before a snapshot. -/
private theorem mem_front_iff {retentionN : Int} {snaps front back : List Snapshot}
    (distinct : snaps.Nodup) {snapshot : Snapshot}
    (split : (keptByRetention retentionN snaps).reverse = front ++ snapshot :: back)
    (other : Snapshot) :
    other ∈ front ↔ other ∈ keptByRetention retentionN snaps ∧
      snaps.idxOf snapshot < snaps.idxOf other := by
  have ranks := List.pairwise_reverse.mpr (keptByRetention_ranks retentionN distinct)
  rw [split, List.pairwise_append, List.pairwise_cons] at ranks
  have inKept : other ∈ keptByRetention retentionN snaps ↔ other ∈ front ++ snapshot :: back := by
    rw [← split, List.mem_reverse]
  rw [inKept, List.mem_append, List.mem_cons]
  constructor
  · exact fun inFront => ⟨.inl inFront, ranks.2.2 other inFront snapshot (by simp)⟩
  · rintro ⟨inFront | rfl | inBack, older⟩
    · exact inFront
    · omega
    · have newer := ranks.2.1.1 other inBack
      omega

/-- After both passes a snapshot is left exactly when `Retained` keeps it. -/
private theorem not_gone_iff {db : Database} {userId newestId : Uuid} {retentionN quota : Int}
    (capped : 0 < quota) {dropped gone : List Uuid}
    (newest : ∀ other ∈ listSnapshots db userId, other.id = newestId ↔
      (listSnapshots db userId).idxOf other = 0)
    (isDropped : ∀ id, id ∈ dropped ↔ ∃ other ∈ listSnapshots db userId, other.id = id ∧
      ¬ (((listSnapshots db userId).idxOf other : Int) < retentionN ∨ exempt other = true))
    (grows : dropped ⊆ gone)
    (fate : ∀ front snapshot back,
      (keptByRetention retentionN (listSnapshots db userId)).reverse =
        front ++ snapshot :: back → snapshot.id ∉ dropped →
      (snapshot.id ∈ gone ↔ ¬ Protected newestId snapshot ∧
        quota < usedSnapshotBytes (without (expendable newestId front ++ dropped) db) userId))
    {snapshot : Snapshot} (member : snapshot ∈ listSnapshots db userId) :
    snapshot.id ∉ gone ↔
      Retained retentionN quota (listSnapshots db userId) db.entries.rows snapshot := by
  have idsNodup := listSnapshots_ids_nodup db userId
  have distinct := List.Nodup.of_map _ idsNodup
  have droppedIff := id_mem_dropped idsNodup isDropped member
  by_cases isOut : snapshot.id ∈ dropped
  · have lost := droppedIff.mp isOut
    constructor
    · exact fun kept => absurd (grows isOut) kept
    · rintro (isExempt | ⟨recent, _⟩)
      · exact absurd (.inr isExempt) lost
      · exact absurd (.inl recent) lost
  · have stays := not_not.mp (mt droppedIff.mpr isOut)
    have inKept := (mem_keptByRetention distinct).mpr ⟨member, stays⟩
    rcases List.append_of_mem (List.mem_reverse.mpr inKept) with ⟨front, back, split⟩
    rw [not_iff_comm, ← not_iff_comm, fate front snapshot back split isOut]
    by_cases isExempt : exempt snapshot = true
    · simp [Protected, Retained, isExempt]
    · have recent := stays.resolve_right isExempt
      rw [usedBytes_at recent newest (mem_front_iff distinct split) isDropped, Protected,
        newest snapshot member, Retained]
      simp only [isExempt, recent, true_and, or_false, false_or, Bool.false_eq_true]
      omega

/-- Pruning deletes exactly the snapshots of the user that `Retained` does not
keep, with their entries. -/
theorem prune_spec (userId : Uuid) (settings : SnapshotSettings) (db : Database) :
    ∃ gone, prune userId settings db = without gone db ∧
      (∀ id ∈ gone, ∃ snapshot ∈ listSnapshots db userId, snapshot.id = id) ∧
      ∀ snapshot ∈ listSnapshots db userId, snapshot.id ∉ gone ↔
        Retained settings.retentionN (resolveQuotaBytes db userId settings)
          (listSnapshots db userId) db.entries.rows snapshot := by
  have idsNodup := listSnapshots_ids_nodup db userId
  have distinct := List.Nodup.of_map _ idsNodup
  rcases pruneRetention_spec settings.retentionN db (listSnapshots db userId) 0 [] with
    ⟨dropped, retention, isGone⟩
  rw [without_nil] at retention
  have isDropped := mem_dropped distinct isGone
  have droppedListed : ∀ id ∈ dropped, ∃ snapshot ∈ listSnapshots db userId,
      snapshot.id = id := by
    intro id member
    rcases (isDropped id).mp member with ⟨other, otherMem, same, _⟩
    exact ⟨other, otherMem, same⟩
  cases listed : listSnapshots db userId with
  | nil =>
    have prunes : prune userId settings db = without dropped db := by
      simp only [prune, retention, resolveQuotaBytes_without]
      rw [listed]
    exact ⟨dropped, prunes, listed ▸ droppedListed, by simp⟩
  | cons newest older =>
    have isNewest : ∀ other ∈ listSnapshots db userId, other.id = newest.id ↔
        (listSnapshots db userId).idxOf other = 0 := by
      intro other otherMem
      rw [listed] at idsNodup otherMem ⊢
      exact id_eq_head_iff idsNodup otherMem
    rw [← listed]
    have prunes : prune userId settings db =
        if 0 < resolveQuotaBytes db userId settings then
          pruneQuota userId newest.id (resolveQuotaBytes db userId settings)
            (keptByRetention settings.retentionN (listSnapshots db userId)).reverse
            (without dropped db)
        else without dropped db := by
      simp only [prune, retention, resolveQuotaBytes_without]
      rw [listed]
      rfl
    rw [prunes]
    by_cases capped : 0 < resolveQuotaBytes db userId settings
    · rw [if_pos capped]
      rcases pruneQuota_spec userId newest.id (resolveQuotaBytes db userId settings) db
        (keptByRetention settings.retentionN (listSnapshots db userId)).reverse dropped
        (by simpa using keptByRetention_ids_nodup idsNodup) with ⟨gone, runs, grows, only, fate⟩
      refine ⟨gone, runs, ?_, fun snapshot member =>
        not_gone_iff capped isNewest isDropped grows fate member⟩
      intro id member
      rcases only id member with earlier | later
      · exact droppedListed id earlier
      · rcases List.mem_map.mp later with ⟨snapshot, snapshotMem, rfl⟩
        exact ⟨snapshot,
          ((mem_keptByRetention distinct).mp (List.mem_reverse.mp snapshotMem)).1, rfl⟩
    · rw [if_neg capped]
      refine ⟨dropped, rfl, droppedListed, ?_⟩
      intro snapshot member
      rw [id_mem_dropped idsNodup isDropped member, Retained]
      constructor
      · intro kept
        rcases not_not.mp kept with recent | isExempt
        · exact .inr ⟨recent, .inl (by omega)⟩
        · exact .inl isExempt
      · rintro (isExempt | ⟨recent, _⟩)
        · exact not_not.mpr (.inr isExempt)
        · exact not_not.mpr (.inl recent)

end SnapshotService

end CloudDrive
