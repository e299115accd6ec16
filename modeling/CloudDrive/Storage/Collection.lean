import CloudDrive.Storage.References
import CloudDrive.Foundation.Interleaving

/-! # Garbage collection beside other transactions

`collect_garbage` reads the three tables that name blobs one after the other and
deletes afterwards, while other transactions commit. It spares what is referenced
when the reads together have seen every item key: what a restore brings back to an
item after the first read must still be in a snapshot entry at the third. -/

namespace CloudDrive

open Outcome Relational Execution Interleaving TrashService SnapshotService

section Collection

variable [Platform]

def itemKeys (db : Database) : List StorageKey :=
  db.items.rows.filterMap DriveItem.storageKey

def versionKeys (db : Database) : List StorageKey :=
  db.versions.rows.map FileVersion.storageKey

def entryKeys (db : Database) : List StorageKey :=
  db.entries.rows.filterMap SnapshotEntry.storageKey

theorem referencedStorageKeys_eq (db : Database) :
    referencedStorageKeys db = itemKeys db ++ versionKeys db ++ entryKeys db := rfl

/-- How far the collection has come, with the keys it has read. -/
inductive CollectorTask where
  | readingItems
  | readingVersions (items : List StorageKey)
  | readingEntries (items versions : List StorageKey)
  | timing (referenced : List StorageKey)
  | listing (referenced : List StorageKey) (now : Timestamp)
  | sweeping (referenced : List StorageKey) (now : Timestamp) (outcome : GcOutcome)
      (remaining : List StoredObject)
  | finished (outcome : GcOutcome)

/-- One object of the loop over `list_objects`. -/
def sweepObject (graceMinutes : Nat) (referenced : List StorageKey) (now : Timestamp)
    (outcome : GcOutcome) (object : StoredObject) (sys : System) : System × GcOutcome :=
  if object.key ∈ referenced then
    (sys, outcome)
  else if isRecent graceMinutes now object then
    (sys, { outcome with skippedRecent := outcome.skippedRecent + 1 })
  else
    (Storage.delete object.key sys,
      { outcome with
        deleted := outcome.deleted + 1
        freedBytes := outcome.freedBytes + object.content.length })

theorem sweepObject_db (graceMinutes : Nat) (referenced : List StorageKey) (now : Timestamp)
    (outcome : GcOutcome) (object : StoredObject) (sys : System) :
    (sweepObject graceMinutes referenced now outcome object sys).1.db = sys.db := by
  rw [sweepObject]
  split_ifs <;> rfl

/-- The next query, storage call or deletion of `collect_garbage`. -/
def collectorAct (graceMinutes : Nat) (sys : System) :
    CollectorTask → Option (System × CollectorTask)
  | .readingItems => some (sys, .readingVersions (itemKeys sys.db))
  | .readingVersions items => some (sys, .readingEntries items (versionKeys sys.db))
  | .readingEntries items versions => some (sys, .timing (items ++ versions ++ entryKeys sys.db))
  | .timing referenced => some (sys, .listing referenced sys.now)
  | .listing referenced now =>
      some (sys, .sweeping referenced now ⟨0, 0, 0⟩ (listObjects sys))
  | .sweeping _ _ outcome [] => some (sys, .finished outcome)
  | .sweeping referenced now outcome (object :: remaining) =>
      let swept := sweepObject graceMinutes referenced now outcome object sys
      some (swept.1, .sweeping referenced now swept.2 remaining)
  | .finished _ => none

/-- The transactions that commit beside the collection, and the clock. -/
def Op.besideCollection : Op → Bool
  | .permanentDelete .. | .createSnapshot .. | .updateSettings .. | .pruneSnapshots ..
  | .restoreSnapshot .. | .tick _ => true
  | _ => false

def commitBeside (op : Op) (sys : System) : Option System :=
  if op.besideCollection then (op.commit sys).toOption else none

/-- One collection, and whatever commits beside it. -/
def collection (graceMinutes : Nat) : Tasks Unit System CollectorTask Op where
  act _ := collectorAct graceMinutes
  happen := commitBeside

abbrev CollectionWorld := World Unit System CollectorTask

def collectionStarts (sys : System) : CollectionWorld where
  store := sys
  task _ := .readingItems

/-! ## Alone -/

/-- Nothing commits between two actions of the collection. -/
def Alone (graceMinutes : Nat) : System × CollectorTask → System × CollectorTask → Prop :=
  Relation.ReflTransGen fun before after =>
    collectorAct graceMinutes before.1 before.2 = some after

/-- What the loop makes of the rest of the objects. -/
def sweepRest (graceMinutes : Nat) (referenced : List StorageKey) (now : Timestamp)
    (outcome : GcOutcome) (remaining : List StoredObject) (sys : System) : System × GcOutcome :=
  let orphans := remaining.filter fun object => decide (object.key ∉ referenced)
  let collected := orphans.filter fun object => !isRecent graceMinutes now object
  (collected.foldl (fun sys object => Storage.delete object.key sys) sys,
    { deleted := outcome.deleted + collected.length
      freedBytes := outcome.freedBytes +
        (collected.map fun object => object.content.length).sum
      skippedRecent := outcome.skippedRecent +
        (orphans.filter (isRecent graceMinutes now)).length })

theorem sweepRest_cons (graceMinutes : Nat) (referenced : List StorageKey) (now : Timestamp)
    (outcome : GcOutcome) (object : StoredObject) (remaining : List StoredObject)
    (sys : System) :
    sweepRest graceMinutes referenced now outcome (object :: remaining) sys =
      let swept := sweepObject graceMinutes referenced now outcome object sys
      sweepRest graceMinutes referenced now swept.2 remaining swept.1 := by
  by_cases needed : object.key ∈ referenced
  · simp [sweepRest, sweepObject, needed]
  · cases recent : isRecent graceMinutes now object with
    | true => simp [sweepRest, sweepObject, needed, recent, Nat.add_assoc, Nat.add_comm 1]
    | false => simp [sweepRest, sweepObject, needed, recent, Nat.add_assoc, Nat.add_comm 1]

theorem sweep_alone (graceMinutes : Nat) (referenced : List StorageKey) (now : Timestamp)
    (outcome : GcOutcome) (remaining : List StoredObject) (sys : System) :
    Alone graceMinutes (sys, .sweeping referenced now outcome remaining)
      ((sweepRest graceMinutes referenced now outcome remaining sys).1,
        .finished (sweepRest graceMinutes referenced now outcome remaining sys).2) := by
  induction remaining generalizing outcome sys with
  | nil => exact .single (by simp [sweepRest, collectorAct])
  | cons object remaining induction =>
      rw [sweepRest_cons]
      exact .head rfl (induction _ _)

/-- A collection beside which nothing commits is `collect_garbage`. -/
theorem collection_alone (graceMinutes : Nat) (sys : System) :
    Alone graceMinutes (sys, .readingItems)
      ((collectGarbage graceMinutes sys).2, .finished (collectGarbage graceMinutes sys).1) := by
  have swept := sweep_alone graceMinutes (referencedStorageKeys sys.db) sys.now ⟨0, 0, 0⟩
    (listObjects sys) sys
  simp only [sweepRest, Nat.zero_add] at swept
  exact .head rfl (.head rfl (.head rfl (.head rfl (.head rfl swept))))

/-! ## What is spared -/

/-- The collection deletes the blob `key` in this step. -/
def Deletes (graceMinutes : Nat) (event : Event CollectionWorld (Move Unit Op))
    (key : StorageKey) : Prop :=
  event.action = .turn () ∧ ∃ referenced now outcome object remaining,
    event.before.task () = .sweeping referenced now outcome (object :: remaining) ∧
      object.key = key ∧ key ∉ referenced ∧ isRecent graceMinutes now object = false

/-- A turn of the collection touches nothing but the blob it deletes. -/
theorem collector_turn {graceMinutes : Nat} {before after : CollectionWorld}
    (step : (collection graceMinutes).Step (.turn ()) before after) :
    after.store = before.store ∨
      ∃ key, Deletes graceMinutes ⟨before, .turn (), after⟩ key ∧
        after.store = Storage.delete key before.store := by
  rcases step.cases with ⟨_, _, acts, _⟩ | ⟨_, same, _⟩
  · have acts : collectorAct graceMinutes before.store (before.task ()) =
        some (after.store, after.task ()) := acts
    cases stage : before.task () with
    | sweeping referenced now outcome remaining =>
        rw [stage] at acts
        cases remaining with
        | nil => exact .inl (congrArg Prod.fst (Option.some.inj acts)).symm
        | cons object remaining =>
            have store := congrArg Prod.fst (Option.some.inj acts)
            simp only [sweepObject] at store
            split_ifs at store with needed recent
            · exact .inl store.symm
            · exact .inl store.symm
            · apply Or.inr
              apply Exists.intro object.key
              constructor
              · exact ⟨rfl, _, _, _, _, _, stage, rfl, needed, by simpa using recent⟩
              · exact store.symm
    | finished =>
        rw [stage] at acts
        cases acts
    | readingItems | readingVersions | readingEntries | timing | listing =>
        rw [stage] at acts
        exact .inl (congrArg Prod.fst (Option.some.inj acts)).symm
  · cases same

/-- When the snapshot entries are about to be read, they name every blob of an item
that the read of the items has missed. -/
def EntriesCover (event : Event CollectionWorld (Move Unit Op)) : Prop :=
  event.action = .turn () → ∀ items versions,
    event.before.task () = .readingEntries items versions →
    ∀ key ∈ itemKeys event.before.store.db,
      key ∈ items ∨ key ∈ entryKeys event.before.store.db

instance (event : Event CollectionWorld (Move Unit Op)) : Decidable (EntriesCover event) :=
  match isTurn : event.action with
  | .event _ => .isTrue fun same => nomatch isTurn.symm.trans same
  | .turn () =>
      match stage : event.before.task () with
      | .readingEntries items versions =>
          decidable_of_iff (∀ key ∈ itemKeys event.before.store.db,
            key ∈ items ∨ key ∈ entryKeys event.before.store.db) (by
              constructor
              · intro covered _ seen _ same
                cases stage.symm.trans same
                exact covered
              · exact fun covered => covered isTurn items versions stage)
      | .readingItems | .readingVersions _ | .timing _ | .listing .. | .sweeping .. | .finished _ =>
          .isTrue (by
            intro _ items versions same
            cases stage.symm.trans same)

/-- What the collection has read covers what is referenced now. -/
def HasRead (sys : System) : CollectorTask → Prop
  | .readingItems | .readingVersions _ | .finished _ => True
  | .readingEntries _ versions => ∀ key ∈ versionKeys sys.db, key ∈ versions
  | .timing referenced | .listing referenced _ | .sweeping referenced _ _ _ =>
      ∀ key ∈ referencedStorageKeys sys.db, key ∈ referenced

section Transactions

variable {before after : System} {op : Op}

theorem commitBeside_eq_some : commitBeside op before = some after ↔
    op.besideCollection = true ∧ op.commit before = .ok after := by
  cases beside : op.besideCollection <;> cases runs : op.commit before <;>
    simp [commitBeside, beside, runs, Except.toOption]

theorem restore_versions {userId snapshotId : Uuid} {scope : Scope} {mode : SubtreeMode}
    {outcome : Option RestoreOutcome}
    (runs : restore userId snapshotId scope mode before = .ok (outcome, after)) :
    ∀ row ∈ after.db.versions, row ∈ before.db.versions := by
  cases found : SnapshotRepository.getSnapshot before.db userId snapshotId with
  | none =>
      rw [restore_missing found runs]
      exact fun row member => member
  | some snapshot =>
      rcases BlobsSound.restored_named found runs with ⟨guarded, items, work, rfl, _⟩
      rcases work.frame with ⟨_, _, _, frame⟩
      intro row member
      have inGuarded : row ∈ guarded.db.versions := member
      rw [frame] at inGuarded
      exact inGuarded

/-- The transactions beside the collection name no blob that was not named before,
and add no version. -/
theorem commitBeside_refers (commits : commitBeside op before = some after) :
    BlobsSound.NoNewReference before.db after.db ∧
      ∀ row ∈ after.db.versions, row ∈ before.db.versions := by
  rcases commitBeside_eq_some.mp commits with ⟨beside, runs⟩
  have snapshots : ∀ {userId added captured}, Captures userId added captured before →
      SnapshotWork added captured before after →
      BlobsSound.NoNewReference before.db after.db ∧
        ∀ row ∈ after.db.versions, row ∈ before.db.versions := by
    intro userId added captured captures work
    rcases work.frame with ⟨_, _, _, frame⟩
    apply And.intro (BlobsSound.snapshotWork_noNewReference captures work)
    rw [frame]
    exact fun row member => member
  cases op <;> try cases beside
  case permanentDelete userId itemId =>
    apply And.intro (BlobsSound.permanentDelete_noNewReference runs)
    rcases permanentDelete_ok runs with
      ⟨item, _, _, _, _, below, _, reclaimed, middle, erased, _, rfl⟩
    rcases settle_eq userId reclaimed middle with ⟨users, same⟩
    rw [same]
    exact fun row member => ((erased.versions row).mp member).1
  case createSnapshot userId trigger label pinned =>
    rcases create_work userId trigger label pinned before with ⟨_, creates, work⟩
    simp only [Op.commit, creates, bind_eq_ok, pure_eq_ok] at runs
    rcases runs with ⟨_, created, rfl⟩
    cases created
    exact snapshots (.new userId trigger label pinned before) work
  case updateSettings userId retentionN scheduleEnabled minutes quotaBytes =>
    cases runs
    exact snapshots (.nothing userId before) (updateSettings_work _ _ _ _ _ before)
  case pruneSnapshots userId =>
    cases runs
    exact snapshots (.nothing userId before) (prune_work userId _ before)
  case restoreSnapshot userId snapshotId scope mode =>
    simp only [Op.commit, bind_eq_ok, pure_eq_ok] at runs
    rcases runs with ⟨⟨outcome, _⟩, runs, rfl⟩
    exact ⟨BlobsSound.restore_noNewReference runs, restore_versions runs⟩
  case tick seconds =>
    cases runs
    exact ⟨fun _ _ reference => reference, fun row member => member⟩

end Transactions

/-! ## A run -/

section Run

variable {graceMinutes : Nat} {sys : System} {final : CollectionWorld}
  {events : List (Event CollectionWorld (Move Unit Op))}

theorem HasRead.transaction {before after : System} {op : Op} {task : CollectorTask}
    (read : HasRead before task) (commits : commitBeside op before = some after) :
    HasRead after task := by
  rcases commitBeside_refers commits with ⟨refers, versions⟩
  have narrower : ∀ {keys : List StorageKey},
      (∀ key ∈ referencedStorageKeys before.db, key ∈ keys) →
      ∀ key ∈ referencedStorageKeys after.db, key ∈ keys := by
    intro keys covers key referenced
    rcases mem_referencedStorageKeys.mp referenced with ⟨itemId, reference⟩
    exact covers key (mem_referencedStorageKeys.mpr ⟨itemId, refers itemId key reference⟩)
  cases task with
  | readingItems => trivial
  | readingVersions => trivial
  | finished => trivial
  | readingEntries items keys =>
      intro key member
      rcases List.mem_map.mp member with ⟨row, rowMem, rfl⟩
      exact read _ (List.mem_map_of_mem (versions row rowMem))
  | timing => exact narrower read
  | listing => exact narrower read
  | sweeping => exact narrower read

/-- An action of the collection keeps what it knows; it deletes blobs only. -/
theorem HasRead.act {before after : System} {task next : CollectorTask}
    (read : HasRead before task)
    (acts : collectorAct graceMinutes before task = some (after, next))
    (covered : ∀ items versions, task = .readingEntries items versions →
      ∀ key ∈ itemKeys before.db, key ∈ items ∨ key ∈ entryKeys before.db) :
    HasRead after next := by
  cases task with
  | readingItems =>
      cases acts
      trivial
  | readingVersions =>
      cases acts
      exact fun key member => member
  | readingEntries items versions =>
      cases acts
      intro key referenced
      rw [referencedStorageKeys_eq, List.mem_append, List.mem_append] at referenced
      rw [List.mem_append, List.mem_append]
      rcases referenced with (ofItem | ofVersion) | ofEntry
      · rcases covered items versions rfl key ofItem with seen | kept
        · exact .inl (.inl seen)
        · exact .inr kept
      · exact .inl (.inr (read key ofVersion))
      · exact .inr ofEntry
  | timing =>
      cases acts
      exact read
  | listing =>
      cases acts
      exact read
  | sweeping referenced now outcome remaining =>
      cases remaining with
      | nil =>
          cases acts
          trivial
      | cons object remaining =>
          cases acts
          rw [HasRead, sweepObject_db]
          exact read
  | finished => cases acts

/-- What the collection of a world has read covers what is referenced there. -/
def Aware (world : CollectionWorld) : Prop :=
  HasRead world.store (world.task ())

theorem Aware.step {move : Move Unit Op} {before after : CollectionWorld}
    (aware : Aware before) (step : (collection graceMinutes).Step move before after)
    (covered : EntriesCover ⟨before, move, after⟩) : Aware after := by
  rcases step.cases with ⟨_, rfl, acts, _⟩ | ⟨op, _, commits, tasks⟩
  · exact HasRead.act aware acts (covered rfl)
  · rw [Aware, tasks]
    exact HasRead.transaction aware commits

theorem collection_aware
    (runs : (collection graceMinutes).Runs (collectionStarts sys) events final)
    (covered : ∀ event ∈ events, EntriesCover event) : Aware final := by
  have starts : Aware (collectionStarts sys) := trivial
  exact runs.keeps starts fun event member aware step => aware.step step (covered event member)

/-- No blob is deleted that the committed database refers to at that moment, as long
as every item key that the first read missed is in a snapshot entry at the third. -/
theorem collection_spares
    (runs : (collection graceMinutes).Runs (collectionStarts sys) events final)
    (covered : ∀ event ∈ events, EntriesCover event) :
    ∀ event ∈ events, ∀ key, Deletes graceMinutes event key →
      key ∉ referencedStorageKeys event.before.store.db := by
  intro event member key deletes referenced
  rcases List.append_of_mem member with ⟨past, rest, split⟩
  have read := collection_aware (runs.upTo split).1 fun earlier isEarlier =>
    covered earlier (split ▸ List.mem_append_left _ isEarlier)
  rcases deletes with ⟨_, keys, now, outcome, object, remaining, stage, _, notRead, _⟩
  rw [Aware, stage] at read
  exact notRead (read key referenced)

/-! ## When nothing is restored in between -/

/-- The items are read and the entries are not yet. -/
def CollectorTask.Between : CollectorTask → List StorageKey → Prop
  | .readingVersions items, seen => items = seen
  | .readingEntries items _, seen => items = seen
  | _, _ => False

/-- Nothing is restored between the reads of the items and of the entries. -/
def RestoresNothing (event : Event CollectionWorld (Move Unit Op)) : Prop :=
  ∀ op seen, event.action = .event op → (event.before.task ()).Between seen → op.NoSnapshotRestore

/-- The read of the items has seen every blob that an item names now. -/
def ItemsSeen (world : CollectionWorld) : Prop :=
  ∀ seen, (world.task ()).Between seen → ∀ key ∈ itemKeys world.store.db, key ∈ seen

/-- No transaction but a restore gives an item a blob. -/
theorem commitBeside_items {before after : System} {op : Op}
    (commits : commitBeside op before = some after) (allowed : op.NoSnapshotRestore) :
    ∀ key ∈ itemKeys after.db, key ∈ itemKeys before.db := by
  rcases commitBeside_eq_some.mp commits with ⟨beside, runs⟩
  have same : after.db.items = before.db.items →
      ∀ key ∈ itemKeys after.db, key ∈ itemKeys before.db := by
    intro items key member
    rwa [itemKeys, items] at member
  cases op <;> try cases beside
  case permanentDelete userId itemId =>
    rcases permanentDelete_ok runs with
      ⟨item, _, _, _, _, below, _, reclaimed, middle, erased, _, rfl⟩
    rcases settle_eq userId reclaimed middle with ⟨users, isSame⟩
    rw [isSame]
    intro key member
    rcases List.mem_filterMap.mp member with ⟨row, rowMem, names⟩
    exact List.mem_filterMap.mpr ⟨row, ((erased.items row).mp rowMem).1, names⟩
  case createSnapshot userId trigger label pinned =>
    rcases create_work userId trigger label pinned before with ⟨_, creates, work⟩
    simp only [Op.commit, creates, bind_eq_ok, pure_eq_ok] at runs
    rcases runs with ⟨_, created, rfl⟩
    cases created
    exact same work.items
  case updateSettings userId retentionN scheduleEnabled minutes quotaBytes =>
    cases runs
    exact same (updateSettings_work _ _ _ _ _ before).items
  case pruneSnapshots userId =>
    cases runs
    exact same (prune_work userId _ before).items
  case restoreSnapshot => exact allowed.elim
  case tick seconds =>
    cases runs
    exact fun key member => member

/-- The collection writes to the storage only, and it is between the reads since it
has read the items. -/
theorem collectorAct_between {before after : System} {task next : CollectorTask}
    (acts : collectorAct graceMinutes before task = some (after, next)) :
    after.db = before.db ∧
      ∀ seen, next.Between seen → task.Between seen ∨ seen = itemKeys before.db := by
  cases task with
  | readingItems =>
      cases acts
      exact ⟨rfl, fun seen between => .inr between.symm⟩
  | readingVersions =>
      cases acts
      exact ⟨rfl, fun seen between => .inl between⟩
  | readingEntries =>
      cases acts
      exact ⟨rfl, fun seen between => between.elim⟩
  | timing =>
      cases acts
      exact ⟨rfl, fun seen between => between.elim⟩
  | listing =>
      cases acts
      exact ⟨rfl, fun seen between => between.elim⟩
  | sweeping referenced now outcome remaining =>
      cases remaining with
      | nil =>
          cases acts
          exact ⟨rfl, fun seen between => between.elim⟩
      | cons object remaining =>
          cases acts
          exact ⟨sweepObject_db _ _ _ _ _ _, fun seen between => between.elim⟩
  | finished => cases acts

theorem ItemsSeen.step {move : Move Unit Op} {before after : CollectionWorld}
    (itemsSeen : ItemsSeen before) (step : (collection graceMinutes).Step move before after)
    (nothing : RestoresNothing ⟨before, move, after⟩) : ItemsSeen after := by
  intro seen between key member
  rcases step.cases with ⟨_, rfl, acts, _⟩ | ⟨op, rfl, commits, tasks⟩
  · rcases collectorAct_between acts with ⟨db, since⟩
    rw [db] at member
    rcases since seen between with earlier | rfl
    · exact itemsSeen seen earlier key member
    · exact member
  · rw [tasks] at between
    exact itemsSeen seen between key
      (commitBeside_items commits (nothing op seen rfl between) key member)

/-- A collection is safe when no restore commits between its reads. -/
theorem covered_of_restoresNothing
    (runs : (collection graceMinutes).Runs (collectionStarts sys) events final)
    (nothing : ∀ event ∈ events, RestoresNothing event) :
    ∀ event ∈ events, EntriesCover event := by
  intro event member isTurn items versions stage key isKey
  rcases List.append_of_mem member with ⟨past, rest, split⟩
  have starts : ItemsSeen (collectionStarts sys) := fun _ between => between.elim
  have itemsSeen : ItemsSeen event.before := by
    apply (runs.upTo split).1.keeps starts
    intro earlier isEarlier kept step
    exact kept.step step (nothing earlier (split ▸ List.mem_append_left _ isEarlier))
  have between : (event.before.task ()).Between items := by
    rw [stage]
    rfl
  exact .inl (itemsSeen items between key isKey)

end Run

end Collection

/-! ## A file restored between the reads -/

section Between

attribute [local instance] smallPlatform

/-- A file that only a snapshot still knows, two hours old. -/
private def onlyInSnapshot : System :=
  afterFirstDay [.uploadSimple 1 none "notes.txt" [] 0 none,
    .createSnapshot 1 .manual "weekly" false, .trashItem 1 11, .permanentDelete 1 11, .tick 7200]

private def collects (graceMinutes : Nat) (schedule : List (Move Unit Op)) : CollectionWorld :=
  ((collection graceMinutes).play schedule (collectionStarts onlyInSnapshot)).getD
    (collectionStarts onlyInSnapshot)

/-- The snapshot is pruned before the entries are read. -/
private def pruned : List (Move Unit Op) :=
  [.turn (), .event (.createSnapshot 1 .manual "empty" false),
    .event (.updateSettings 1 1 true 60 none)] ++ List.replicate 6 (.turn ())

/-- The snapshot is restored after the items are read and pruned before the entries
are read. -/
private def restoredAndPruned : List (Move Unit Op) :=
  [.turn (), .event (.restoreSnapshot 1 12 .whole .keepNew),
    .event (.updateSettings 1 1 true 60 none)] ++ List.replicate 5 (.turn ())

private def sweeps : Event CollectionWorld (Move Unit Op) :=
  ((collection 60).trace restoredAndPruned (collectionStarts onlyInSnapshot)).getLast nofun

theorem collection_spares_pruned :
    ∃ events final, (collection 60).Runs (collectionStarts onlyInSnapshot) events final ∧
      (∀ event ∈ events, ∀ key, Deletes 60 event key →
        key ∉ referencedStorageKeys event.before.store.db) ∧
      final.store.storage = .empty := by
  have played : (collection 60).play pruned (collectionStarts onlyInSnapshot) =
      some (collects 60 pruned) := rfl
  have runs := Tasks.runs_of_play played
  have covered : ∀ event ∈ (collection 60).trace pruned (collectionStarts onlyInSnapshot),
      EntriesCover event := by decide
  exact ⟨_, _, runs, collection_spares runs covered, by decide⟩

theorem restoredAndPruned_lost :
    ∃ events final, (collection 60).Runs (collectionStarts onlyInSnapshot) events final ∧
      ∃ event ∈ events, ∃ key, Deletes 60 event key ∧
        key ∈ referencedStorageKeys event.before.store.db := by
  have played : (collection 60).play restoredAndPruned (collectionStarts onlyInSnapshot) =
      some (collects 60 restoredAndPruned) := rfl
  have runs := Tasks.runs_of_play played
  -- The last turn deletes the one object, and the restored file names it.
  have last : sweeps ∈
      (collection 60).trace restoredAndPruned (collectionStarts onlyInSnapshot) := by
    rw [sweeps]
    exact List.getLast_mem _
  apply Exists.intro
  apply Exists.intro
  apply And.intro runs
  apply Exists.intro
  apply And.intro last
  apply Exists.intro (StorageKey.file 1 10 1)
  constructor
  · exact ⟨rfl, _, _, _, _, _, rfl, rfl, by decide, rfl⟩
  · decide

end Between

end CloudDrive
