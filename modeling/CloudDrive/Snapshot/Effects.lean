import CloudDrive.Snapshot.Restoring
import CloudDrive.Upload.Effects

/-! # What the snapshot operations do

Taking and pruning snapshots touches the snapshots and their entries only; a
restore rewrites and trashes items. -/

namespace CloudDrive

open Outcome Relational

variable [Platform]

namespace SnapshotService

open SnapshotRepository

/-- Snapshots and entries were added, then some snapshots were deleted with
their entries. -/
structure SnapshotWork (added : List Snapshot) (captured : List SnapshotEntry)
    (before after : System) : Prop where
  frame : ∃ snapshots entries settings, after.db =
    { before.db with snapshots := snapshots, entries := entries, settings := settings }
  storage : after.storage = before.storage
  now : after.now = before.now
  pruned : ∃ gone : List Uuid,
    (∀ snapshot, snapshot ∈ after.db.snapshots ↔
      (snapshot ∈ before.db.snapshots ∨ snapshot ∈ added) ∧ snapshot.id ∉ gone) ∧
    (∀ entry, entry ∈ after.db.entries ↔
      (entry ∈ before.db.entries ∨ entry ∈ captured) ∧ entry.snapshotId ∉ gone)

theorem SnapshotWork.items {added : List Snapshot} {captured : List SnapshotEntry}
    {before after : System} (work : SnapshotWork added captured before after) :
    after.db.items = before.db.items := by
  rcases work.frame with ⟨_, _, _, frame⟩
  rw [frame]

theorem SnapshotWork.sessions {added : List Snapshot} {captured : List SnapshotEntry}
    {before after : System} (work : SnapshotWork added captured before after) :
    after.db.sessions = before.db.sessions := by
  rcases work.frame with ⟨_, _, _, frame⟩
  rw [frame]

/-- What is added is new and the user's, and each entry captures an item of the
user for one of the new snapshots. -/
structure Captures (userId : Uuid) (added : List Snapshot) (captured : List SnapshotEntry)
    (sys : System) : Prop where
  owned : ∀ snapshot ∈ added, snapshot.id = sys.uuid4 ∧ snapshot.userId = userId
  recorded : ∀ entry ∈ captured, ∃ snapshot ∈ added, snapshot.id = entry.snapshotId
  entries : captured ⊆ captureEntries userId sys

theorem Captures.nothing (userId : Uuid) (sys : System) : Captures userId [] [] sys :=
  ⟨fun _ member => (List.not_mem_nil member).elim, fun _ member => (List.not_mem_nil member).elim,
    List.nil_subset _⟩

theorem Captures.new (userId : Uuid) (trigger : Trigger) (label : String) (pinned : Bool)
    (sys : System) : Captures userId [newSnapshot userId trigger label pinned sys]
      (captureEntries userId sys) sys := by
  constructor
  case owned =>
    intro snapshot member
    rw [List.mem_singleton.mp member]
    exact ⟨rfl, rfl⟩
  case recorded =>
    intro entry member
    exact ⟨_, List.mem_singleton_self _, (captureEntries_snapshotId member).symm⟩
  case entries => exact fun _ member => member

theorem prune_work (userId : Uuid) (settings : SnapshotSettings) (sys : System) :
    SnapshotWork [] [] sys { sys with db := prune userId settings sys.db } := by
  rcases prune_spec userId settings sys.db with ⟨gone, prunes, _⟩
  rw [prunes]
  refine ⟨⟨_, _, _, rfl⟩, rfl, rfl, gone, ?_, ?_⟩
  · intro snapshot
    show snapshot ∈ (without gone sys.db).snapshots ↔ _
    rw [mem_without_snapshots]
    simp
  · intro entry
    show entry ∈ (without gone sys.db).entries ↔ _
    rw [mem_without_entries]
    simp

theorem updateSettings_work (userId : Uuid) (retentionN : Int) (scheduleEnabled : Bool)
    (scheduleIntervalMinutes : Int) (quotaBytes : Option Int) (sys : System) :
    SnapshotWork [] [] sys (updateSettings userId retentionN scheduleEnabled
      scheduleIntervalMinutes quotaBytes sys) := by
  let settings : SnapshotSettings := {
    userId := userId
    retentionN := max 1 retentionN
    scheduleEnabled := scheduleEnabled
    scheduleIntervalMinutes := max 1 scheduleIntervalMinutes
    quotaBytes := quotaBytes.map (max 0) }
  have pruned := prune_work userId settings
    { sys with db := { sys.db with settings := sys.db.settings.save settings } }
  rcases pruned.frame with ⟨snapshots, entries, rows, frame⟩
  exact ⟨⟨snapshots, entries, rows, frame⟩, pruned.storage, pruned.now, pruned.pruned⟩

theorem create_work (userId : Uuid) (trigger : Trigger) (label : String) (pinned : Bool)
    (sys : System) :
    ∃ after, create userId trigger label pinned sys =
        .ok (newSnapshot userId trigger label pinned sys, after) ∧
      SnapshotWork [newSnapshot userId trigger label pinned sys] (captureEntries userId sys)
        sys after := by
  rcases create_runs userId trigger label pinned sys with ⟨db, captured, creates⟩
  refine ⟨_, creates, ?_⟩
  rcases prune_spec userId (getSettings db userId) db with ⟨gone, prunes, _⟩
  rw [prunes]
  refine ⟨?_, rfl, rfl, gone, ?_, ?_⟩
  · rw [captured.frame]
    exact ⟨_, _, _, rfl⟩
  · intro snapshot
    show snapshot ∈ (without gone db).snapshots ↔ _
    rw [mem_without_snapshots, ← Table.mem_rows, captured.snapshots, List.mem_append,
      Table.mem_rows]
  · intro entry
    show entry ∈ (without gone db).entries ↔ _
    rw [mem_without_entries, ← Table.mem_rows, captured.entries, List.mem_append,
      Table.mem_rows]

/-- What a committed restore of an existing snapshot has done: a safety snapshot,
the upserts of the target, the mirror. -/
structure Restored (userId : Uuid) (snapshot : Snapshot) (scope : Scope) (mode : SubtreeMode)
    (before guarded after : System) (target : List SnapshotEntry) (middle : ItemTable) :
    Prop where
  creates : create userId .preRestore (safetyLabel snapshot) false before =
    .ok (safetySnapshot userId snapshot before, guarded)
  guard : Guarded userId snapshot before guarded
  selects : restoreTarget scope (listAllEntries guarded.db snapshot.id) = .ok target
  upserts : upsertAll before.now userId target before.db.items
    ((listAllItems before.db userId).map DriveItem.id) = .ok middle
  frame : after = guarded.withItems after.db.items
  items : ∀ row, row ∈ after.db.items ↔
    (∃ old ∈ middle, row = trashedCopy before.now old ∧
      Mirrored mode scope (listAllEntries guarded.db snapshot.id) target userId old) ∨
    (row ∈ middle ∧
      ¬ Mirrored mode scope (listAllEntries guarded.db snapshot.id) target userId row)

theorem restore_ok {userId snapshotId : Uuid} {snapshot : Snapshot} {scope : Scope}
    {mode : SubtreeMode} {sys after : System} {outcome : Option RestoreOutcome}
    (found : getSnapshot sys.db userId snapshotId = some snapshot)
    (runs : restore userId snapshotId scope mode sys = .ok (outcome, after)) :
    ∃ guarded target middle,
      Restored userId snapshot scope mode sys guarded after target middle := by
  rcases getSnapshot_eq_some.mp found with ⟨_, rfl, _⟩
  rcases safety_guarded found with ⟨guarded, creates, guard⟩
  have allItems : listAllItems guarded.db userId = listAllItems sys.db userId := by
    rw [listAllItems, guard.items]
    rfl
  rcases restoreTarget_runs scope (listAllEntries_nodup guarded.db snapshot.id)
    with ⟨target, selects, _⟩
  simp only [restore, found, creates, bind_eq_ok, pure_eq_ok, Prod.mk.injEq] at runs
  rcases runs with ⟨_, created, result, applied, _, rfl⟩
  cases created
  cases upserts : upsertAll guarded.now userId target guarded.db.items
      ((listAllItems guarded.db userId).map DriveItem.id) with
  | error error =>
      rw [applySnapshot_refused selects upserts] at applied
      cases applied
  | ok middle =>
      rcases applySnapshot_runs mode (safetySnapshot userId snapshot sys).id selects upserts
        with ⟨trashed, rows, runs, members⟩
      cases applied.symm.trans runs
      rw [guard.now, guard.items, allItems] at upserts
      rw [guard.now] at members
      exact ⟨guarded, target, middle, creates, guard, selects, upserts, rfl, members⟩

/-- A restore of a snapshot that does not exist changes nothing. -/
theorem restore_missing {userId snapshotId : Uuid} {scope : Scope} {mode : SubtreeMode}
    {sys after : System} {outcome : Option RestoreOutcome}
    (missing : getSnapshot sys.db userId snapshotId = none)
    (runs : restore userId snapshotId scope mode sys = .ok (outcome, after)) : after = sys := by
  simp only [restore, missing, pure_eq_ok, Prod.mk.injEq] at runs
  exact runs.2.symm

theorem restore_sessions {userId snapshotId : Uuid} {scope : Scope} {mode : SubtreeMode}
    {sys after : System} {outcome : Option RestoreOutcome}
    (runs : restore userId snapshotId scope mode sys = .ok (outcome, after)) :
    after.db.sessions = sys.db.sessions := by
  cases found : getSnapshot sys.db userId snapshotId with
  | none => rw [restore_missing found runs]
  | some snapshot =>
      rcases restore_ok found runs with ⟨guarded, target, middle, restored⟩
      rcases create_work userId .preRestore (safetyLabel snapshot) false sys with
        ⟨_, creates, work⟩
      cases restored.creates.symm.trans creates
      rw [restored.frame]
      exact work.sessions

/-- `collect_garbage` deletes no blob that a row refers to. -/
theorem collectGarbage_eq (graceMinutes : Nat) (sys : System) :
    ∃ storage, (collectGarbage graceMinutes sys).2 = sys.withStorage storage ∧
      ∀ key ∈ referencedStorageKeys sys.db, Stored sys key →
        ∃ object ∈ storage, object.key = key := by
  rw [collectGarbage, Storage.foldl_delete StoredObject.key]
  refine ⟨_, rfl, ?_⟩
  intro key referenced stored
  rcases stored with ⟨object, member, rfl⟩
  refine ⟨object, Table.mem_filter.mpr ⟨member, decide_eq_true ?_⟩, rfl⟩
  intro collected
  rcases List.mem_map.mp collected with ⟨orphan, orphanMem, sameKey⟩
  rcases List.mem_filter.mp orphanMem with ⟨isOrphan, _⟩
  have unreferenced := of_decide_eq_true (List.mem_filter.mp isOrphan).2
  exact unreferenced (sameKey ▸ referenced)

end SnapshotService

end CloudDrive
