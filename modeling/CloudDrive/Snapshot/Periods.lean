import CloudDrive.Snapshot.Pruning
import CloudDrive.Snapshot.Scheduling

/-! # One scheduled snapshot in a period

The gate of `run_scheduled_snapshot` looks at the newest snapshot that is left. Pruning
keeps the newest, so what is left is never older than any snapshot taken before. -/

namespace CloudDrive

open Outcome Relational Execution

namespace SnapshotService

open SnapshotRepository

/-! ## Periods of the clock

A time is a day and a second of the day. The last period of a day ends at midnight, also
when the interval does not divide the day. -/

def periodMinutes (intervalMinutes : Int) : Nat := (max 1 intervalMinutes).toNat

theorem periodMinutes_pos (intervalMinutes : Int) : 0 < periodMinutes intervalMinutes := by
  unfold periodMinutes
  omega

theorem periodStart_day (day second : Nat) (inDay : second < 86400) (intervalMinutes : Int) :
    periodStart (day * 86400 + second) intervalMinutes =
      day * 86400 + second / 60 / periodMinutes intervalMinutes *
        periodMinutes intervalMinutes * 60 := by
  have rest : (day * 86400 + second) % 86400 = second := Nat.mul_add_mod_of_lt inDay
  have midnight : day * 86400 + second - second = day * 86400 := Nat.add_sub_cancel _ _
  have elapsed : day * 86400 + second - day * 86400 = second := Nat.add_sub_cancel_left _ _
  unfold periodStart periodMinutes
  simp only [rest, midnight, elapsed]

theorem exists_day (time : Timestamp) :
    ∃ day second : Nat, second < 86400 ∧ time = day * 86400 + second :=
  ⟨time / 86400, time % 86400, Nat.mod_lt _ (by decide), (Nat.div_add_mod' time 86400).symm⟩

theorem before_midnight {day second otherDay : Nat} (less : day < otherDay)
    (inDay : second < 86400) : day * 86400 + second ≤ otherDay * 86400 := by
  omega

theorem periods_le (second minutes : Nat) : second / 60 / minutes * minutes * 60 ≤ second := by
  have whole := Nat.div_mul_le_self (second / 60) minutes
  have seconds := Nat.div_mul_le_self second 60
  exact (Nat.mul_le_mul_right 60 whole).trans seconds

theorem periodStart_le (time : Timestamp) (intervalMinutes : Int) :
    periodStart time intervalMinutes ≤ time := by
  rcases exists_day time with ⟨day, second, inDay, rfl⟩
  rw [periodStart_day day second inDay]
  exact Nat.add_le_add_left (periods_le second _) _

theorem lt_periodStart_add (time : Timestamp) (intervalMinutes : Int) :
    time < periodStart time intervalMinutes + periodMinutes intervalMinutes * 60 := by
  rcases exists_day time with ⟨day, second, inDay, rfl⟩
  rw [periodStart_day day second inDay, Nat.add_assoc]
  apply Nat.add_lt_add_left
  have minute : second < second / 60 * 60 + 60 := Nat.lt_div_mul_add (by decide)
  have period : second / 60 < second / 60 / periodMinutes intervalMinutes *
      periodMinutes intervalMinutes + periodMinutes intervalMinutes :=
    Nat.lt_div_mul_add (periodMinutes_pos intervalMinutes)
  omega

theorem periodStart_idem (time : Timestamp) (intervalMinutes : Int) :
    periodStart (periodStart time intervalMinutes) intervalMinutes =
      periodStart time intervalMinutes := by
  rcases exists_day time with ⟨day, second, inDay, rfl⟩
  rw [periodStart_day day second inDay,
    periodStart_day day _ (Nat.lt_of_le_of_lt (periods_le second _) inDay),
    Nat.mul_div_cancel _ (by decide), Nat.mul_div_cancel _ (periodMinutes_pos intervalMinutes)]

/-- On one day the periods that are over only grow; another day starts with its midnight. -/
theorem periodStart_mono {earlier later : Timestamp} (ordered : earlier ≤ later)
    (intervalMinutes : Int) :
    periodStart earlier intervalMinutes ≤ periodStart later intervalMinutes := by
  rcases exists_day earlier with ⟨day, second, inDay, rfl⟩
  rcases exists_day later with ⟨otherDay, otherSecond, inOtherDay, rfl⟩
  have inOrder : (day * 86400 + second : Nat) ≤ otherDay * 86400 + otherSecond := ordered
  rcases Nat.lt_or_ge day otherDay with less | notLess
  · have midnight := before_midnight less inDay
    rw [periodStart_day otherDay otherSecond inOtherDay]
    apply Nat.le_add_right_of_le
    exact (periodStart_le _ _).trans midnight
  · have same : otherDay = day := by omega
    subst same
    rw [periodStart_day otherDay second inDay, periodStart_day otherDay otherSecond inOtherDay]
    apply Nat.add_le_add_left
    apply Nat.mul_le_mul_right
    apply Nat.mul_le_mul_right
    apply Nat.div_le_div_right
    apply Nat.div_le_div_right
    exact Nat.le_of_add_le_add_left inOrder

section Periods

variable [Platform]

/-! ## The newest snapshot is never older than before -/

/-- Some snapshot of the user was taken at `time` or later. -/
def RecentSince (userId : Uuid) (time : Timestamp) (db : Database) : Prop :=
  ∃ snapshot ∈ listSnapshots db userId, time ≤ snapshot.createdAt

/-- No settings allow all snapshots to be pruned. -/
def KeepsOne (db : Database) : Prop :=
  ∀ settings ∈ db.settings, 1 ≤ settings.retentionN

theorem KeepsOne.getSettings {db : Database} (keepsOne : KeepsOne db) (userId : Uuid) :
    1 ≤ (getSettings db userId).retentionN := by
  unfold SnapshotService.getSettings
  cases found : db.settings.find? userId with
  | none => exact (by decide : (1 : Int) ≤ 50)
  | some settings => exact keepsOne settings (Table.find?_eq_some.mp found).1

theorem head_newest {db : Database} {userId : Uuid} {newest : Snapshot}
    (isNewest : (listSnapshots db userId).head? = some newest) :
    ∀ snapshot ∈ listSnapshots db userId, snapshot.createdAt ≤ newest.createdAt := by
  have sorted : (listSnapshots db userId).Pairwise fun newer older =>
      older.createdAt ≤ newer.createdAt :=
    List.pairwise_insertionSort _ _
  intro snapshot member
  cases listed : listSnapshots db userId with
  | nil =>
      rw [listed] at member
      cases member
  | cons head tail =>
      rw [listed] at isNewest member sorted
      cases isNewest
      rcases List.mem_cons.mp member with rfl | later
      · exact Nat.le_refl _
      · exact (List.pairwise_cons.mp sorted).1 snapshot later

theorem recentSince_iff {db : Database} {userId : Uuid} {time : Timestamp} :
    RecentSince userId time db ↔
      ∃ newest, (listSnapshots db userId).head? = some newest ∧ time ≤ newest.createdAt := by
  constructor
  · intro recent
    rcases recent with ⟨snapshot, member, later⟩
    cases isNewest : (listSnapshots db userId).head? with
    | none =>
        rw [List.head?_eq_none_iff.mp isNewest] at member
        cases member
    | some newest =>
        exact ⟨newest, rfl, later.trans (head_newest isNewest snapshot member)⟩
  · intro recent
    rcases recent with ⟨newest, isNewest, later⟩
    exact ⟨newest, List.mem_of_mem_head? isNewest, later⟩

/-- Pruning keeps the newest snapshot, whoever's snapshots are pruned. -/
theorem RecentSince.prune {db : Database} {userId other : Uuid} {time : Timestamp}
    {settings : SnapshotSettings} (recent : RecentSince userId time db)
    (keepsOne : 1 ≤ settings.retentionN) :
    RecentSince userId time (prune other settings db) := by
  rcases recentSince_iff.mp recent with ⟨newest, isNewest, later⟩
  have listed := List.mem_of_mem_head? isNewest
  rcases prune_spec other settings db with ⟨gone, prunes, goneListed, fate⟩
  rw [prunes]
  apply Exists.intro newest
  apply And.intro _ later
  apply mem_listSnapshots_without.mpr
  apply And.intro listed
  intro isGone
  rcases goneListed newest.id isGone with ⟨pruned, prunedMem, sameId⟩
  rcases mem_listSnapshots.mp prunedMem with ⟨among, owned⟩
  rcases mem_listSnapshots.mp listed with ⟨newestAmong, newestOwned⟩
  have same := db.snapshots.eq_of_key_eq among newestAmong sameId
  have mine : other = userId := by rw [← owned, same, newestOwned]
  rw [mine] at fate
  have first : (listSnapshots db userId).idxOf newest = 0 := by
    rw [List.head?_eq_some_iff] at isNewest
    rcases isNewest with ⟨tail, isHead⟩
    rw [isHead, List.idxOf_cons_self]
  apply (fate newest listed).mpr _ isGone
  exact .inr ⟨by omega, .inr (.inl first)⟩

theorem RecentSince.of_snapshots {before after : Database} {userId : Uuid}
    {time : Timestamp} (recent : RecentSince userId time before)
    (kept : ∀ snapshot ∈ before.snapshots, snapshot ∈ after.snapshots) :
    RecentSince userId time after := by
  rcases recent with ⟨snapshot, member, later⟩
  rcases mem_listSnapshots.mp member with ⟨among, owned⟩
  exact ⟨snapshot, mem_listSnapshots.mpr ⟨kept snapshot among, owned⟩, later⟩

/-! ## What one step keeps -/

/-- What the gate relies on from one state to the next. -/
structure Onward (before after : Database) : Prop where
  keepsOne : KeepsOne before → KeepsOne after
  recent : KeepsOne before → ∀ {userId : Uuid} {time : Timestamp},
    RecentSince userId time before → RecentSince userId time after

theorem Onward.trans {before middle after : Database} (first : Onward before middle)
    (second : Onward middle after) : Onward before after where
  keepsOne sane := second.keepsOne (first.keepsOne sane)
  recent sane := fun known => second.recent (first.keepsOne sane) (first.recent sane known)

theorem Onward.of_same {before after : Database} (snapshots : after.snapshots = before.snapshots)
    (settings : after.settings = before.settings) : Onward before after where
  keepsOne := by
    intro sane
    unfold KeepsOne
    rw [settings]
    exact sane
  recent := by
    intro _ userId time known
    apply known.of_snapshots
    rw [snapshots]
    exact fun _ member => member

theorem Onward.of_prune (userId : Uuid) (settings : SnapshotSettings) (db : Database)
    (keepsOne : KeepsOne db → 1 ≤ settings.retentionN) :
    Onward db (prune userId settings db) := by
  constructor
  case keepsOne =>
    intro sane
    rcases prune_spec userId settings db with ⟨gone, prunes, _⟩
    rw [prunes]
    exact sane
  case recent => exact fun sane _ _ known => known.prune (keepsOne sane)

/-- A snapshot that is taken is the newest, unless a newer one is left. -/
theorem create_onward (userId : Uuid) (trigger : Trigger) (label : String) (pinned : Bool)
    (sys : System) :
    ∃ after, create userId trigger label pinned sys =
        .ok (newSnapshot userId trigger label pinned sys, after) ∧
      Onward sys.db after.db ∧
      (KeepsOne sys.db → RecentSince userId sys.now after.db) ∧
      after.db.items = sys.db.items := by
  rcases create_runs userId trigger label pinned sys with ⟨db, captured, creates⟩
  apply Exists.intro _
  apply And.intro creates
  have settings : db.settings = sys.db.settings := by rw [captured.frame]
  have kept : ∀ snapshot ∈ sys.db.snapshots, snapshot ∈ db.snapshots := by
    intro snapshot member
    rw [← Table.mem_rows, captured.snapshots]
    exact List.mem_append_left _ member
  have added : Onward sys.db db := by
    constructor
    case keepsOne =>
      intro sane
      unfold KeepsOne
      rw [settings]
      exact sane
    case recent => exact fun _ _ _ known => known.of_snapshots kept
  have pruned := Onward.of_prune userId (getSettings db userId) db
    fun sane => sane.getSettings userId
  constructor
  · exact added.trans pruned
  constructor
  · intro sane
    apply pruned.recent (added.keepsOne sane)
    apply Exists.intro (newSnapshot userId trigger label pinned sys)
    apply And.intro _ (Nat.le_refl _)
    apply mem_listSnapshots.mpr
    apply And.intro _ rfl
    rw [← Table.mem_rows, captured.snapshots]
    exact List.mem_append_right _ (List.mem_singleton_self _)
  · rcases prune_spec userId (getSettings db userId) db with ⟨gone, prunes, _⟩
    show (prune userId (getSettings db userId) db).items = _
    rw [prunes, captured.frame]
    rfl

theorem permanentDelete_onward {userId itemId : Uuid} {before after : System}
    (runs : TrashService.permanentDelete userId itemId before = .ok after) :
    Onward before.db after.db := by
  rcases TrashService.permanentDelete_ok runs with
    ⟨_, _, _, _, _, _, _, reclaimed, middle, erased, _, rfl⟩
  rcases TrashService.settle_eq userId reclaimed middle with ⟨users, same⟩
  rw [same]
  exact .of_same erased.snapshots erased.settings

theorem restore_onward {userId snapshotId : Uuid} {scope : Scope} {mode : SubtreeMode}
    {before after : System} {outcome : Option RestoreOutcome}
    (runs : restore userId snapshotId scope mode before = .ok (outcome, after)) :
    Onward before.db after.db := by
  cases found : getSnapshot before.db userId snapshotId with
  | none =>
      rw [restore_missing found runs]
      exact .of_same rfl rfl
  | some snapshot =>
      rcases restore_ok found runs with ⟨guarded, target, middle, restored⟩
      rcases create_onward userId .preRestore (safetyLabel snapshot) false before with
        ⟨_, creates, onward, _⟩
      cases restored.creates.symm.trans creates
      apply onward.trans
      rw [restored.frame]
      exact .of_same rfl rfl

theorem updateSettings_onward (userId : Uuid) (retentionN : Int) (scheduleEnabled : Bool)
    (scheduleIntervalMinutes : Int) (quotaBytes : Option Int) (sys : System) :
    Onward sys.db (updateSettings userId retentionN scheduleEnabled scheduleIntervalMinutes
      quotaBytes sys).db := by
  -- What is saved keeps at least one snapshot.
  have saves : ∀ (settings : SnapshotSettings), 1 ≤ settings.retentionN →
      Onward sys.db { sys.db with settings := sys.db.settings.save settings } := by
    intro settings atLeastOne
    constructor
    case keepsOne =>
      intro sane row member
      rcases Table.mem_save.mp member with rfl | ⟨earlier, _⟩
      · exact atLeastOne
      · exact sane row earlier
    case recent => exact fun _ _ _ known => known.of_snapshots fun _ member => member
  have atLeastOne : 1 ≤ max 1 retentionN := le_max_left _ _
  exact (saves _ atLeastOne).trans (.of_prune userId _ _ fun _ => atLeastOne)

/-- No committed request leaves a user without a snapshot as recent as before. -/
theorem op_onward {op : Op} {before after : System} (commits : op.Commits before after) :
    Onward before.db after.db := by
  have runs := commits.2
  have sessionsOnly : ∀ {before after : System}, UploadSessionService.SessionWork before after →
      Onward before.db after.db := by
    intro before after work
    rcases work.frame with ⟨_, _, frame⟩
    rw [frame]
    exact .of_same rfl rfl
  cases op with
  | createFolder userId parentId name =>
      simp only [Op.commit, bind_eq_ok, pure_eq_ok] at runs
      rcases runs with ⟨⟨item, _⟩, runs, rfl⟩
      rcases DriveService.createFolder_ok runs with ⟨_, _, _, items, _, rfl⟩
      exact .of_same rfl rfl
  | rename userId itemId newName =>
      rcases DriveService.rename_ok runs with rfl | ⟨_, _, _, _, items, _, rfl⟩
      · exact .of_same rfl rfl
      · exact .of_same rfl rfl
  | move userId itemId newParentId =>
      rcases DriveService.move_ok runs with ⟨_, _, _, _, items, _, rfl⟩
      exact .of_same rfl rfl
  | trashItem userId itemId =>
      rcases TrashService.trashItem_ok runs with ⟨_, _, _, _, _, items, _, rfl⟩
      exact .of_same rfl rfl
  | restoreItem userId itemId =>
      rcases TrashService.restore_ok runs with ⟨_, _, _, _, _, items, _, _, _, _, _, _, rfl⟩
      exact .of_same rfl rfl
  | permanentDelete userId itemId => exact permanentDelete_onward runs
  | emptyTrash userId allDeleted =>
      have each : ∀ (item : DriveItem) (middle last : System), Onward before.db middle.db →
          TrashService.permanentDelete userId item.id middle = .ok last →
          Onward before.db last.db :=
        fun _ _ _ onward deletes => onward.trans (permanentDelete_onward deletes)
      exact forEach_keeps (fun sys => Onward before.db sys.db) each (.of_same rfl rfl) runs
  | shareItem actorId itemId targetEmail permission =>
      rcases ShareService.shareItem_ok runs with ⟨_, _, _, _, _, _, _, _, rfl⟩
      exact .of_same rfl rfl
  | removeShare actorId itemId targetUserId =>
      rcases ShareService.removeShare_ok runs with ⟨_, rfl⟩
      exact .of_same rfl rfl
  | uploadSimple userId parentId filename stream sizeBytes mimeType =>
      simp only [Op.commit, bind_eq_ok, pure_eq_ok] at runs
      rcases runs with ⟨⟨item, _⟩, runs, rfl⟩
      rcases UploadService.uploadSimple_ok runs with ⟨_, file, _, created⟩
      rcases created.frame with ⟨_, _, _, frame⟩
      rw [frame]
      exact .of_same rfl rfl
  | createSession userId filename totalSize parentId mimeType =>
      simp only [Op.commit, bind_eq_ok, pure_eq_ok] at runs
      rcases runs with ⟨⟨session, _⟩, runs, rfl⟩
      rcases UploadSessionService.createSession_ok runs with ⟨_, _, _, _, sessions, _, rfl⟩
      exact .of_same rfl rfl
  | uploadChunk userId sessionId chunkIndex stream =>
      exact sessionsOnly (UploadSessionService.uploadChunk_ok runs).1
  | completeSession userId sessionId =>
      simp only [Op.commit, bind_eq_ok, pure_eq_ok] at runs
      rcases runs with ⟨⟨item, _⟩, runs, rfl⟩
      rcases UploadSessionService.completeSession_ok runs with
        ⟨_, _, _, _, _, file, middle, _, created, work, _⟩
      rcases created.frame with ⟨_, _, _, frame⟩
      have stored : Onward before.db middle.db := by
        rw [frame]
        exact .of_same rfl rfl
      exact stored.trans (sessionsOnly work)
  | cancelSession userId sessionId =>
      exact sessionsOnly (UploadSessionService.cancelSession_ok runs).1
  | cleanupExpired =>
      cases runs
      exact sessionsOnly (UploadSessionService.cleanupExpired_work before).1
  | createSnapshot userId trigger label pinned =>
      rcases create_onward userId trigger label pinned before with ⟨_, creates, onward, _⟩
      simp only [Op.commit, creates, bind_eq_ok, pure_eq_ok] at runs
      rcases runs with ⟨_, created, rfl⟩
      cases created
      exact onward
  | updateSettings userId retentionN scheduleEnabled scheduleIntervalMinutes quotaBytes =>
      cases runs
      exact updateSettings_onward _ _ _ _ _ before
  | pruneSnapshots userId =>
      cases runs
      exact .of_prune userId _ before.db fun sane => sane.getSettings userId
  | restoreSnapshot userId snapshotId scope mode =>
      simp only [Op.commit, bind_eq_ok, pure_eq_ok] at runs
      rcases runs with ⟨⟨outcome, _⟩, runs, rfl⟩
      exact restore_onward runs
  | collectGarbage graceMinutes =>
      cases runs
      rcases collectGarbage_eq graceMinutes before with ⟨storage, same, _⟩
      rw [same]
      exact .of_same rfl rfl
  | tick seconds =>
      cases runs
      exact .of_same rfl rfl

/-! ## Runs with the scheduler -/

/-- The scheduler runs for a user at a time, or some request is made. -/
inductive Turn where
  | scheduled (userId : Uuid) (now : Timestamp)
  | request (op : Op)

/-- The scheduler reads the clock before its snapshot is taken. -/
inductive Turn.Takes : Turn → System → System → Prop
  | scheduled {userId : Uuid} {now : Timestamp} {taken : Option Snapshot}
      {before after : System} : now ≤ before.now →
      runScheduledSnapshot userId now before = .ok (taken, after) →
      Takes (.scheduled userId now) before after
  | request {op : Op} {before after : System} : op.Commits before after →
      Takes (.request op) before after

/-- The event is a run of the scheduler for `userId` that took `snapshot`. -/
def Scheduled (userId : Uuid) (event : Event System Turn) (snapshot : Snapshot) : Prop :=
  ∃ now ≤ event.before.now, event.action = .scheduled userId now ∧
    runScheduledSnapshot userId now event.before = .ok (some snapshot, event.after)

/-- The scheduler either does nothing, or the snapshot it takes is the first of its period. -/
theorem runScheduledSnapshot_ok {userId : Uuid} {now : Timestamp} {before after : System}
    {taken : Option Snapshot}
    (runs : runScheduledSnapshot userId now before = .ok (taken, after)) :
    (taken = none ∧ after = before) ∨
    (taken = some (newSnapshot userId .scheduled "Scheduled" false before) ∧
      create userId .scheduled "Scheduled" false before =
        .ok (newSnapshot userId .scheduled "Scheduled" false before, after) ∧
      ∀ newest, (listSnapshots before.db userId).head? = some newest → newest.createdAt <
        periodStart now (getSettings before.db userId).scheduleIntervalMinutes) := by
  have nothing : (.ok (none, before) : Except ServiceError (Option Snapshot × System)) =
      .ok (taken, after) → taken = none ∧ after = before := by
    intro same
    cases same
    exact ⟨rfl, rfl⟩
  simp only [runScheduledSnapshot] at runs
  split at runs
  case isTrue => exact .inl (nothing runs)
  split at runs
  case isTrue => exact .inl (nothing runs)
  case isFalse due =>
    split at runs
    case isTrue => exact .inl (nothing runs)
    split at runs
    case isTrue => exact .inl (nothing runs)
    apply Or.inr
    simp only [bind_eq_ok, pure_eq_ok, Prod.mk.injEq] at runs
    rcases runs with ⟨⟨snapshot, _⟩, creates, rfl, rfl⟩
    rcases create_onward userId .scheduled "Scheduled" false before with ⟨_, same, _⟩
    cases creates.symm.trans same
    apply And.intro rfl
    apply And.intro creates
    intro newest isNewest
    rw [isNewest, Option.any_some, decide_eq_true_eq] at due
    exact Nat.lt_of_not_le due

theorem Turn.onward {turn : Turn} {before after : System} (takes : turn.Takes before after) :
    Onward before.db after.db := by
  cases takes with
  | request commits => exact op_onward commits
  | @scheduled userId now taken _ _ _ runs =>
      rcases runScheduledSnapshot_ok runs with ⟨_, rfl⟩ | ⟨_, creates, _⟩
      · exact .of_same rfl rfl
      · rcases create_onward userId .scheduled "Scheduled" false before with
          ⟨_, same, onward, _⟩
        cases creates.symm.trans same
        exact onward

theorem keepsOne_of_run {start final : System} {events : List (Event System Turn)}
    (sane : KeepsOne start.db) (run : Run Turn.Takes start events final) : KeepsOne final.db := by
  have each : ∀ event ∈ events, KeepsOne event.before.db →
      event.action.Takes event.before event.after → KeepsOne event.after.db := by
    intro event _ before takes
    exact (Turn.onward takes).keepsOne before
  exact @Run.keeps _ _ _ _ _ _ (fun sys => KeepsOne sys.db) sane each run

/-- After a snapshot of the scheduler, some snapshot is as recent for ever. -/
theorem recentSince_of_scheduled {start final : System} {events : List (Event System Turn)}
    {userId : Uuid} {snapshot : Snapshot} (sane : KeepsOne start.db)
    (run : Run Turn.Takes start events final) {past rest : List (Event System Turn)}
    {event : Event System Turn} (split : events = past ++ event :: rest)
    (scheduled : Scheduled userId event snapshot) :
    RecentSince userId snapshot.createdAt final.db := by
  rcases scheduled with ⟨now, read, action, runs⟩
  rcases run.upTo split with ⟨before, takes⟩
  have saneBefore := keepsOne_of_run sane before
  rcases runScheduledSnapshot_ok runs with ⟨none, _⟩ | ⟨isNew, creates, _⟩
  · cases none
  cases isNew
  rcases create_onward userId .scheduled "Scheduled" false event.before with
    ⟨_, same, onward, recent, _⟩
  cases creates.symm.trans same
  have each : ∀ later ∈ rest,
      KeepsOne later.before.db ∧ RecentSince userId event.before.now later.before.db →
      later.action.Takes later.before later.after →
      KeepsOne later.after.db ∧ RecentSince userId event.before.now later.after.db := by
    intro later _ keep laterTakes
    have next := Turn.onward laterTakes
    exact ⟨next.keepsOne keep.1, next.recent keep.1 keep.2⟩
  have kept := @Run.keeps_from _ _ _ _ _ _
    (fun sys => KeepsOne sys.db ∧ RecentSince userId event.before.now sys.db) run _ _ _ split
    ⟨onward.keepsOne saneBefore, recent saneBefore⟩ each
  exact kept.2

/-- Periods are as their name says, and no two scheduled snapshots of a user are taken in
one period: the later one is of a later period. -/
theorem scheduled_once_per_period {userId : Uuid} {interval : Int} (positive : 1 ≤ interval) :
    (∀ time, periodStart time interval ≤ time ∧
      (time : Int) < periodStart time interval + interval * 60 ∧
      periodStart (periodStart time interval) interval = periodStart time interval) ∧
    (∀ earlier later, earlier ≤ later →
      periodStart earlier interval ≤ periodStart later interval) ∧
    ∀ (start final : System) (events : List (Event System Turn)), KeepsOne start.db →
      Run Turn.Takes start events final →
      (∀ event ∈ events,
        (getSettings event.before.db userId).scheduleIntervalMinutes = interval) →
      ∀ past first between second rest, events = past ++ first :: (between ++ second :: rest) →
        ∀ earlier later, Scheduled userId first earlier → Scheduled userId second later →
          periodStart earlier.createdAt interval < periodStart later.createdAt interval := by
  constructor
  · intro time
    apply And.intro (periodStart_le time interval)
    apply And.intro _ (periodStart_idem time interval)
    have inPeriod := lt_periodStart_add time interval
    have minutes : ((periodMinutes interval : Nat) : Int) = interval := by
      unfold periodMinutes
      omega
    have inPeriodInt : (time : Int) <
        periodStart time interval + periodMinutes interval * 60 := by
      exact_mod_cast inPeriod
    rwa [minutes] at inPeriodInt
  constructor
  · exact fun _ _ ordered => periodStart_mono ordered interval
  intro start final events sane run fixed past first between second rest split earlier later
    isFirst isSecond
  rw [← List.cons_append, ← List.append_assoc] at split
  rcases run.upTo split with ⟨untilSecond, _⟩
  have recent := recentSince_of_scheduled sane untilSecond rfl isFirst
  rcases recentSince_iff.mp recent with ⟨newest, isNewest, notOlder⟩
  rcases isSecond with ⟨now, read, _, runs⟩
  have interval_eq := fixed second (by rw [split]; exact List.mem_append_right _ List.mem_cons_self)
  rcases runScheduledSnapshot_ok runs with ⟨none, _⟩ | ⟨isNew, _, due⟩
  · cases none
  cases isNew
  have passed := due newest isNewest
  rw [interval_eq] at passed
  calc periodStart earlier.createdAt interval
      ≤ earlier.createdAt := periodStart_le _ _
    _ ≤ newest.createdAt := notOlder
    _ < periodStart now interval := passed
    _ ≤ periodStart second.before.now interval := periodStart_mono read interval

end Periods

/-! ## Two hours with a change in each -/

section TwoHours

attribute [local instance] smallPlatform

private def committed (op : Op) (sys : System) : System :=
  match op.commit sys with
  | .ok after => after
  | .error _ => sys

private def scheduledRun (sys : System) : System :=
  match runScheduledSnapshot 1 sys.now sys with
  | .ok (_, after) => after
  | .error _ => sys

private def firstHour : System :=
  committed (.tick 7200) (committed (.createFolder 1 none "Work") firstDay)

private def secondHour : System :=
  committed (.tick 3600) (committed (.createFolder 1 none "Plans") (scheduledRun firstHour))

private def twoHours : List (Event System Turn) :=
  [⟨firstHour, .scheduled 1 7200, scheduledRun firstHour⟩,
    ⟨scheduledRun firstHour, .request (.createFolder 1 none "Plans"),
      committed (.createFolder 1 none "Plans") (scheduledRun firstHour)⟩,
    ⟨committed (.createFolder 1 none "Plans") (scheduledRun firstHour), .request (.tick 3600),
      secondHour⟩,
    ⟨secondHour, .scheduled 1 10800, scheduledRun secondHour⟩]

private theorem twoHours_run : Run Turn.Takes firstHour twoHours (scheduledRun secondHour) :=
  .next (.next (.next (.next .nothing (.scheduled (by decide) rfl)) (.request ⟨trivial, rfl⟩))
    (.request ⟨trivial, rfl⟩)) (.scheduled (by decide) rfl)

theorem scheduled_once_per_period_twoHours :
    periodStart firstHour.now 60 < periodStart secondHour.now 60 ∧
      (listSnapshots (scheduledRun secondHour).db 1).length = 2 := by
  have laws := @scheduled_once_per_period _ 1 60 (by decide)
  have fixed : ∀ event ∈ twoHours,
      (getSettings event.before.db 1).scheduleIntervalMinutes = 60 := by
    intro event member
    simp only [twoHours, List.mem_cons, List.not_mem_nil, or_false] at member
    rcases member with rfl | rfl | rfl | rfl <;> rfl
  have sane : KeepsOne firstHour.db := nofun
  exact ⟨laws.2.2 _ _ _ sane twoHours_run fixed [] _ [_, _] _ [] rfl
    (newSnapshot 1 .scheduled "Scheduled" false firstHour)
    (newSnapshot 1 .scheduled "Scheduled" false secondHour)
    ⟨7200, by decide, rfl, rfl⟩ ⟨10800, by decide, rfl, rfl⟩, by decide⟩

end TwoHours

end SnapshotService

end CloudDrive
