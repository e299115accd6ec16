import CloudDrive.Operation
import CloudDrive.Upload.SessionRequests

/-! # One upload session, completed once

Concurrent requests on one session complete it at most once, and never after a
cancellation, when none of them commits the status `completed` or `uploading` over
a session that is no longer active. -/

namespace CloudDrive

open Outcome Relational Execution DriveService UploadSessionService

section Requests

variable [Platform]

/-! ## Completion once -/

def SessionOutcome.item : SessionOutcome → Option DriveItem
  | .completed item _ => some item
  | .cancelled => none

def SessionOutcome.charge : SessionOutcome → Option Nat
  | .completed _ charge => some charge
  | .cancelled => none

/-- The items that completions have created, oldest first. -/
def created (outcomes : List SessionOutcome) : List DriveItem :=
  (outcomes.filterMap SessionOutcome.item).reverse

/-- The charges that completions have made. -/
def charges (outcomes : List SessionOutcome) : List Nat :=
  outcomes.filterMap SessionOutcome.charge

def charged (userId : Uuid) (bytes : Nat) (user : User) : User :=
  if user.id = userId then { user with usedBytes := user.usedBytes + bytes } else user

/-- The requests have created at most one item and charged at most once, none of it
after a cancellation. -/
structure CompletedOnce (start : System) (userId : Uuid) (store : UploadStore) : Prop where
  items : store.sys.db.items.rows = start.db.items.rows ++ created store.outcomes
  users : store.sys.db.users.rows =
    start.db.users.rows.map (charged userId (charges store.outcomes).sum)
  oneItem : (created store.outcomes).length ≤ 1
  oneCharge : (charges store.outcomes).length ≤ 1
  notCancelled : store.outcomes.Pairwise fun later earlier =>
    earlier = .cancelled → later = .cancelled

/-- The committed session can still be completed. -/
def SessionActive (sys : System) (sessionId : Uuid) : Prop :=
  ∃ session, sys.db.sessions.find? sessionId = some session ∧ session.status.isActive = true

instance (sys : System) (sessionId : Uuid) : Decidable (SessionActive sys sessionId) :=
  decidable_of_iff ((sys.db.sessions.find? sessionId).any fun session => session.status.isActive)
    (by simp [SessionActive, Option.any_eq_true])

/-- The request is about to commit the status `completed` or `uploading`. -/
def SessionTask.Marks : SessionTask → Prop
  | .completed .. => True
  | .fed _ _ marks => marks = true
  | _ => False

/-- A completion, or a chunk that marks the session as uploading, commits only
while the committed session is active. -/
def MarksActive {ι : Type} (sessionId : Uuid)
    (event : Event (UploadWorld ι) (Interleaving.Move ι Nat)) : Prop :=
  ∀ index, event.action = .turn index → (event.before.task index).Marks →
    SessionActive event.before.store.sys sessionId

instance (task : SessionTask) : Decidable task.Marks := by
  unfold SessionTask.Marks
  split <;> infer_instance

instance {ι : Type} (sessionId : Uuid)
    (event : Event (UploadWorld ι) (Interleaving.Move ι Nat)) :
    Decidable (MarksActive sessionId event) :=
  match isTurn : event.action with
  | .event _ => .isTrue fun _ same => nomatch isTurn.symm.trans same
  | .turn index =>
      decidable_of_iff ((event.before.task index).Marks →
        SessionActive event.before.store.sys sessionId) (by
          constructor
          · intro active other same
            cases isTurn.symm.trans same
            exact active
          · exact fun active => active index isTurn)

/-- The session row a request holds. -/
def SessionTask.session : SessionTask → Option UploadSession
  | .arriving | .ended _ => none
  | .listing session | .checking session _ | .merging session .. | .naming session ..
  | .inserting session .. | .charging session .. | .discarding session .. | .completing session ..
  | .completed session .. | .listingToCancel session | .dropping session .. | .cancelling session _
  | .cancelled session _ | .saving session .. | .feeding session _ | .fed session .. => some session

/-! ## What an action does -/

variable {action : SessionAction} {userId sessionId : Uuid} {store after : UploadStore}
  {task next : SessionTask}

theorem getOr404_id {session : UploadSession} {sys : System}
    (found : getOr404 userId sessionId sys = .ok session) : session.id = sessionId := by
  simp only [getOr404, bind_eq_ok, orRaise_eq_ok, require_eq_ok, pure_eq_ok] at found
  rcases found with ⟨row, isRow, _, _, rfl⟩
  exact (Table.find?_eq_some.mp isRow).2

theorem SessionAction.start_session {session : UploadSession} {sys : System}
    (holds : session ∈ (action.start userId sessionId sys).session) : session.id = sessionId := by
  rw [SessionAction.start] at holds
  cases found : getOr404 userId sessionId sys with
  | error error =>
      rw [found] at holds
      cases holds
  | ok row =>
      have isId := getOr404_id found
      simp only [found] at holds
      cases action <;> simp only at holds <;> split_ifs at holds <;> cases holds <;> exact isId

/-- Whatever a request does before its commit, the committed database does not
change, and the request keeps its session row. -/
structure Quiet (sessionId : Uuid) (store after : UploadStore) (task next : SessionTask) :
    Prop where
  db : after.sys.db = store.sys.db
  outcomes : after.outcomes = store.outcomes
  session : ∀ session ∈ next.session, session ∈ task.session ∨ session.id = sessionId

/-- An action that changes nothing committed and goes on with the same session. -/
theorem Quiet.of_eq {changed : UploadStore} {goesOn : SessionTask}
    (works : some (changed, goesOn) = some (after, next)) (db : changed.sys.db = store.sys.db)
    (outcomes : changed.outcomes = store.outcomes)
    (session : ∀ session ∈ goesOn.session, session ∈ task.session ∨ session.id = sessionId) :
    Quiet sessionId store after task next := by
  cases works
  exact ⟨db, outcomes, session⟩

theorem Quiet.of_lockRow {row : LockedRow} {goesOn : SessionTask}
    (works : lockRow row store goesOn = some (after, next))
    (session : goesOn.session = task.session) : Quiet sessionId store after task next := by
  by_cases locked : row ∈ store.locks
  · simp [lockRow, locked] at works
  · simp only [lockRow, locked, if_false] at works
    exact .of_eq works rfl rfl fun row holds => .inl (session ▸ holds)

theorem SessionAction.work_quiet
    (works : action.work userId sessionId store task = some (after, next)) :
    Quiet sessionId store after task next := by
  have ends : ∀ {result : Except ServiceError Unit}, ∀ session ∈ (SessionTask.ended result).session,
      session ∈ task.session ∨ session.id = sessionId := fun _ holds => nomatch holds
  cases task with
  | arriving =>
      exact .of_eq works rfl rfl fun session holds => .inr (start_session holds)
  | listing session =>
      apply Quiet.of_eq works rfl rfl
      split_ifs
      · exact fun _ holds => .inl holds
      · exact ends
  | checking session chunks =>
      simp only [work] at works
      split at works
      · exact .of_eq works rfl rfl ends
      · exact .of_eq works rfl rfl fun _ holds => .inl holds
  | merging session chunks key content remaining =>
      cases remaining with
      | nil => exact .of_eq works rfl rfl fun _ holds => .inl holds
      | cons chunk remaining =>
          simp only [work] at works
          split at works
          · exact .of_eq works rfl rfl ends
          · exact .of_eq works rfl rfl fun _ holds => .inl holds
  | naming session chunks file counter name =>
      simp only [work] at works
      split at works
      · exact .of_eq works rfl rfl ends
      · exact .of_eq works rfl rfl fun _ holds => .inl holds
      · exact .of_eq works rfl rfl fun _ holds => .inl holds
  | inserting session chunks file name =>
      simp only [work] at works
      split_ifs at works
      split at works
      · exact .of_eq works rfl rfl ends
      · exact .of_eq works rfl rfl fun _ holds => .inl holds
  | charging => exact .of_lockRow works rfl
  | discarding session chunks file item remaining =>
      cases remaining <;> exact .of_eq works rfl rfl fun _ holds => .inl holds
  | completing => exact .of_lockRow works rfl
  | completed => cases works
  | listingToCancel => exact .of_eq works rfl rfl fun _ holds => .inl holds
  | dropping session chunks remaining =>
      cases remaining <;> exact .of_eq works rfl rfl fun _ holds => .inl holds
  | cancelling => exact .of_lockRow works rfl
  | cancelled => cases works
  | saving => exact .of_eq works rfl rfl fun _ holds => .inl holds
  | feeding session chunk =>
      simp only [work] at works
      split_ifs at works
      · exact .of_eq works rfl rfl ends
      · exact .of_lockRow works rfl
      · exact .of_eq works rfl rfl fun _ holds => .inl holds
  | fed => cases works
  | ended => cases works

/-! ## What a commit does -/

/-- After `update_status`, the session has that status. -/
theorem updateStatus_active {status : SessionStatus} {checksum : Option String}
    {driveItemId : Option Uuid} {sys : System} (terminal : status.isActive = false) :
    ¬ SessionActive (updateStatus sessionId status checksum driveItemId sys) sessionId := by
  intro active
  rcases active with ⟨session, found, isActive⟩
  rcases Table.find?_eq_some.mp found with ⟨member, sameId⟩
  simp only [updateStatus, System.withSessions, Table.mem_map] at member
  rcases member with ⟨old, _, rfl⟩
  by_cases isSession : old.id = sessionId
  · simp [isSession, terminal] at isActive
  · simp only [isSession, if_false] at sameId
    exact isSession sameId

omit [Platform] in
theorem charged_zero (users : List User) : users.map (charged userId 0) = users := by
  have each : ∀ user ∈ users, charged userId 0 user = user := by
    intro user _
    by_cases same : user.id = userId
    · rw [charged, if_pos same]
      rfl
    · rw [charged, if_neg same]
  rw [List.map_congr_left each, List.map_id']

theorem commitCompletion_ok {session : UploadSession} {gone : List UploadChunk}
    {file : StoredFile} {item : DriveItem} {sys committed : System}
    (commits : commitCompletion userId session gone file item sys = .ok committed) :
    committed.db.items.rows = sys.db.items.rows ++ [item] ∧
      committed.db.users.rows =
        sys.db.users.rows.map (charged userId file.content.length) ∧
      ¬ SessionActive committed session.id := by
  simp only [commitCompletion, FileVersionRepository.create, bind_eq_ok, orRaise_eq_ok,
    pure_eq_ok] at commits
  rcases commits with ⟨items, added, _, ⟨versions, _, rfl⟩, rfl⟩
  exact ⟨flush_ok added, rfl, updateStatus_active rfl⟩

theorem commitCancel_rows (session : UploadSession) (gone : List UploadChunk) (sys : System) :
    (commitCancel session gone sys).db.items = sys.db.items ∧
      (commitCancel session gone sys).db.users = sys.db.users ∧
      ¬ SessionActive (commitCancel session gone sys) session.id :=
  ⟨rfl, rfl, updateStatus_active rfl⟩

theorem commitChunk_rows (session : UploadSession) (chunk : UploadChunk) (marks : Bool)
    (sys : System) :
    (commitChunk session chunk marks sys).db.items = sys.db.items ∧
      (commitChunk session chunk marks sys).db.users = sys.db.users ∧
      (marks = false → (commitChunk session chunk marks sys).db.sessions = sys.db.sessions) := by
  cases marks <;> exact ⟨rfl, rfl, by simp [commitChunk, System.withChunks]⟩

/-! ## A run -/

theorem CompletedOnce.of_same {start : System} (once : CompletedOnce start userId store)
    (items : after.sys.db.items = store.sys.db.items)
    (users : after.sys.db.users = store.sys.db.users)
    (outcomes : after.outcomes = store.outcomes) : CompletedOnce start userId after := by
  constructor
  case items => rw [items, outcomes, once.items]
  case users => rw [users, outcomes, once.users]
  case oneItem => exact outcomes ▸ once.oneItem
  case oneCharge => exact outcomes ▸ once.oneCharge
  case notCancelled => exact outcomes ▸ once.notCancelled

/-- The first outcome of the session is a completion. -/
theorem CompletedOnce.complete {start : System} (once : CompletedOnce start userId store)
    (nothing : store.outcomes = []) {item : DriveItem} {bytes : Nat}
    (items : after.sys.db.items.rows = store.sys.db.items.rows ++ [item])
    (users : after.sys.db.users.rows = store.sys.db.users.rows.map (charged userId bytes))
    (outcomes : after.outcomes = .completed item bytes :: store.outcomes) :
    CompletedOnce start userId after := by
  have sameItems := once.items
  have sameUsers := once.users
  rw [nothing] at outcomes sameItems sameUsers
  constructor
  case items => simpa [outcomes, items, created, SessionOutcome.item] using sameItems
  case users =>
    have before : store.sys.db.users.rows = start.db.users.rows :=
      sameUsers.trans (charged_zero start.db.users.rows)
    rw [users, before, outcomes]
    simp [charges, SessionOutcome.charge]
  case oneItem => simp [outcomes, created, SessionOutcome.item]
  case oneCharge => simp [outcomes, charges, SessionOutcome.charge]
  case notCancelled =>
    rw [outcomes]
    exact List.pairwise_singleton _ _

/-- A cancellation adds nothing. -/
theorem CompletedOnce.cancel {start : System} (once : CompletedOnce start userId store)
    (items : after.sys.db.items = store.sys.db.items)
    (users : after.sys.db.users = store.sys.db.users)
    (outcomes : after.outcomes = .cancelled :: store.outcomes) :
    CompletedOnce start userId after := by
  constructor
  case items => rw [items, outcomes, once.items]; rfl
  case users => rw [users, outcomes, once.users]; rfl
  case oneItem =>
    rw [outcomes]
    exact once.oneItem
  case oneCharge =>
    rw [outcomes]
    exact once.oneCharge
  case notCancelled =>
    rw [outcomes]
    exact .cons (fun _ _ _ => rfl) once.notCancelled

/-- What a run keeps: an outcome ends the session for good. -/
structure SessionKept (start : System) (userId sessionId : Uuid) {ι : Type}
    (world : UploadWorld ι) : Prop where
  once : CompletedOnce start userId world.store
  final : world.store.outcomes ≠ [] → ¬ SessionActive world.store.sys sessionId
  holds : ∀ index, ∀ session ∈ (world.task index).session, session.id = sessionId

theorem requestsArrive_kept {ι : Type} (sys : System) :
    SessionKept sys userId sessionId (requestsArrive sys : UploadWorld ι) := by
  constructor
  case once =>
    constructor
    case items => simp [requestsArrive, created]
    case users => exact (charged_zero sys.db.users.rows).symm
    case oneItem => exact Nat.zero_le _
    case oneCharge => exact Nat.zero_le _
    case notCancelled => exact .nil
  case final => exact fun something => absurd rfl something
  case holds => exact fun _ _ holds => nomatch holds

section Step

variable {ι : Type} {start : System} {world after : UploadWorld ι} {index : ι}

/-- A step that commits nothing. -/
theorem SessionKept.quiet (kept : SessionKept start userId sessionId world)
    (quiet : Quiet sessionId world.store after.store (world.task index) (after.task index))
    (others : ∀ other, other ≠ index → after.task other = world.task other) :
    SessionKept start userId sessionId after := by
  constructor
  case once =>
    exact kept.once.of_same (by rw [quiet.db]) (by rw [quiet.db]) quiet.outcomes
  case final =>
    intro something active
    rw [quiet.outcomes] at something
    rw [SessionActive, quiet.db] at active
    exact kept.final something active
  case holds =>
    intro any session holds
    by_cases same : any = index
    · rw [same] at holds
      rcases quiet.session session holds with earlier | isId
      · exact kept.holds index session earlier
      · exact isId
    · rw [others any same] at holds
      exact kept.holds any session holds

/-- A step after which the request is over. -/
theorem SessionKept.ends (kept : SessionKept start userId sessionId world)
    (once : CompletedOnce start userId after.store)
    (final : after.store.outcomes ≠ [] → ¬ SessionActive after.store.sys sessionId)
    {result : Except ServiceError Unit} (isNext : after.task index = .ended result)
    (others : ∀ other, other ≠ index → after.task other = world.task other) :
    SessionKept start userId sessionId after := by
  apply SessionKept.mk once final
  intro any session holds
  by_cases same : any = index
  · rw [same, isNext] at holds
    cases holds
  · rw [others any same] at holds
    exact kept.holds any session holds

theorem SessionKept.turn (kept : SessionKept start userId sessionId world)
    {action : SessionAction}
    (acts : action.act userId sessionId world.store (world.task index) =
      some (after.store, after.task index))
    (others : ∀ other, other ≠ index → after.task other = world.task other)
    (active : (world.task index).Marks → SessionActive world.store.sys sessionId) :
    SessionKept start userId sessionId after := by
  have holds := kept.holds index
  -- While the session is active, no request has completed or cancelled it.
  have nothing : SessionActive world.store.sys sessionId → world.store.outcomes = [] := by
    intro isActive
    by_contra something
    exact kept.final something isActive
  cases stage : world.task index <;> rw [stage] at acts holds active
  case completed session gone file item =>
    have isId : session.id = sessionId := holds session rfl
    have fresh := nothing (active trivial)
    cases commits : commitCompletion userId session gone file item world.store.sys with
    | error error =>
        simp only [SessionAction.act, commits, Option.some.injEq, Prod.mk.injEq] at acts
        rcases acts with ⟨store, isNext⟩
        apply kept.ends _ _ isNext.symm others
        · exact kept.once.of_same (by rw [← store]) (by rw [← store]) (by rw [← store])
        · rw [← store]
          exact kept.final
    | ok sys =>
        simp only [SessionAction.act, commits, Option.some.injEq, Prod.mk.injEq] at acts
        rcases acts with ⟨store, isNext⟩
        rcases commitCompletion_ok commits with ⟨items, users, ended⟩
        apply kept.ends _ _ isNext.symm others
        · rw [← store]
          exact kept.once.complete fresh items users rfl
        · rw [← store, ← isId]
          exact fun _ => ended
  case cancelled session gone =>
    have isId : session.id = sessionId := holds session rfl
    simp only [SessionAction.act, Option.some.injEq, Prod.mk.injEq] at acts
    rcases acts with ⟨store, isNext⟩
    rcases commitCancel_rows session gone world.store.sys with ⟨items, users, ended⟩
    apply kept.ends _ _ isNext.symm others
    · rw [← store]
      exact kept.once.cancel items users rfl
    · rw [← store, ← isId]
      exact fun _ => ended
  case fed session chunk marks =>
    simp only [SessionAction.act, Option.some.injEq, Prod.mk.injEq] at acts
    rcases acts with ⟨store, isNext⟩
    rcases commitChunk_rows session chunk marks world.store.sys with ⟨items, users, sessions⟩
    apply kept.ends _ _ isNext.symm others
    · rw [← store]
      exact kept.once.of_same items users rfl
    · rw [← store]
      intro something isActive
      cases marks with
      | true => exact something (nothing (active rfl))
      | false =>
          rw [SessionActive, sessions rfl] at isActive
          exact kept.final something isActive
  all_goals
    have works : action.work userId sessionId world.store (world.task index) =
        some (after.store, after.task index) := stage ▸ acts
    exact kept.quiet (SessionAction.work_quiet works) others

end Step

/-- As long as no request completes the session, or marks it as uploading, when the
committed session is no longer active, it is completed at most once and never
after a cancellation, whatever the interleaving. -/
theorem completedOnce_of_active {ι : Type} [DecidableEq ι] {sys : System}
    {actions : ι → SessionAction}
    {events : List (Event (UploadWorld ι) (Interleaving.Move ι Nat))} {final : UploadWorld ι}
    (runs : (sessionRequests userId sessionId actions).Runs (requestsArrive sys) events final)
    (active : ∀ event ∈ events, MarksActive sessionId event) :
    CompletedOnce sys userId final.store := by
  have kept : SessionKept sys userId sessionId final := by
    apply runs.keeps (requestsArrive_kept sys)
    intro event member kept step
    rcases step.cases with ⟨index, isTurn, acts, others⟩ | ⟨elapsed, _, happens, tasks⟩
    · exact kept.turn acts others (active event member index isTurn)
    · have store := Option.some.inj happens
      constructor
      case once => exact kept.once.of_same (by rw [← store]) (by rw [← store]) (by rw [← store])
      case final =>
        rw [← store]
        exact kept.final
      case holds =>
        rw [tasks]
        exact kept.holds
  exact kept.once

end Requests

/-! ## Two completions of one session -/

section TwoCompletions

attribute [local instance] smallPlatform

/-- A session of one chunk, which is stored. -/
private def oneChunk : System :=
  afterFirstDay [.createSession 1 "notes" 1 none none, .uploadChunk 1 10 0 [[65]]]

private def bothComplete (_ : Bool) : SessionAction := .complete

/-- The second request starts when the first is over, or when the first has merged
the chunk. -/
private def inTurn : List (Interleaving.Move Bool Nat) :=
  List.replicate 12 (.turn true) ++ [.turn false]

private def bothMerged : List (Interleaving.Move Bool Nat) :=
  List.replicate 5 (.turn true) ++ List.replicate 5 (.turn false) ++
    List.replicate 7 (.turn true) ++ List.replicate 8 (.turn false)

private def sessionAfter (schedule : List (Interleaving.Move Bool Nat)) : UploadWorld Bool :=
  ((sessionRequests 1 10 bothComplete).play schedule (requestsArrive oneChunk)).getD
    (requestsArrive oneChunk)

theorem completedOnce_of_active_inTurn :
    ∃ events final, (sessionRequests 1 10 bothComplete).Runs (requestsArrive oneChunk) events
        final ∧ CompletedOnce oneChunk 1 final.store ∧
      final.store.sys.db.items.rows.map DriveItem.name = ["notes"] := by
  have played : (sessionRequests 1 10 bothComplete).play inTurn (requestsArrive oneChunk) =
      some (sessionAfter inTurn) := rfl
  have runs := Interleaving.Tasks.runs_of_play played
  have active : ∀ event ∈ (sessionRequests 1 10 bothComplete).trace inTurn
      (requestsArrive oneChunk), MarksActive 10 event := by decide
  exact ⟨_, _, runs, completedOnce_of_active runs active, by decide⟩

theorem bothMerged_twice :
    ∃ events final, (sessionRequests 1 10 bothComplete).Runs (requestsArrive oneChunk) events
        final ∧ ¬ CompletedOnce oneChunk 1 final.store := by
  have played : (sessionRequests 1 10 bothComplete).play bothMerged (requestsArrive oneChunk) =
      some (sessionAfter bothMerged) := rfl
  have twice : (created (sessionAfter bothMerged).store.outcomes).map DriveItem.name =
      ["notes", "notes (1)"] := by decide
  apply Exists.intro _
  apply Exists.intro (sessionAfter bothMerged)
  apply And.intro (Interleaving.Tasks.runs_of_play played)
  intro once
  have two : (created (sessionAfter bothMerged).store.outcomes).length = 2 := by
    rw [← List.length_map DriveItem.name, twice]
    rfl
  have one := once.oneItem
  rw [two] at one
  exact absurd one (by decide)

end TwoCompletions

end CloudDrive
