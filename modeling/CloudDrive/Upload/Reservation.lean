import CloudDrive.Upload.QuotaCeiling

/-! # What open sessions reserve

`create_session` counts the declared sizes of the user's open sessions as if they were
used. While completed uploads have the size they declared, the bytes used and the bytes
reserved stay within the quota together. -/

namespace CloudDrive

open Outcome Relational Execution QuotaService

section Reservations

variable [Platform]

namespace UploadSessionService

/-! ## The reserved bytes -/

/-- What a session holds back of the space of a user. -/
def reserved (userId : Uuid) (session : UploadSession) : Nat :=
  if (decide (session.userId = userId) && session.status.isActive) = true then
    session.totalSize else 0

theorem sumActiveTotalSize_eq (db : Database) (userId : Uuid) :
    sumActiveTotalSize db userId = db.sessions.total (reserved userId) :=
  Table.sum_filter _ _ _

omit [Platform] in
theorem reserved_active {userId : Uuid} {session : UploadSession} (mine : session.userId = userId)
    (active : session.status.isActive = true) : reserved userId session = session.totalSize := by
  rw [reserved, if_pos (by rw [active, decide_eq_true mine]; rfl)]

omit [Platform] in
theorem reserved_other {userId : Uuid} {session : UploadSession}
    (different : session.userId ≠ userId) : reserved userId session = 0 := by
  rw [reserved, if_neg (by rw [decide_eq_false different]; exact Bool.false_ne_true)]

omit [Platform] in
theorem reserved_inactive {userId : Uuid} {session : UploadSession}
    (inactive : session.status.isActive = false) : reserved userId session = 0 := by
  rw [reserved, inactive, Bool.and_false, if_neg Bool.false_ne_true]

omit [Platform] in
theorem active_of_not_terminal {status : SessionStatus} (running : status.isTerminal = false) :
    status.isActive = true := by
  cases status <;> first | rfl | cases running

/-- An open session is one of those that the sum counts. -/
theorem totalSize_le_sumActive {db : Database} {session : UploadSession}
    (member : session ∈ db.sessions) (active : session.status.isActive = true) :
    session.totalSize ≤ sumActiveTotalSize db session.userId := by
  rw [sumActiveTotalSize_eq, ← reserved_active rfl active]
  exact Table.weight_le_total member (reserved session.userId)

/-- A change of status moves the reservation of that session, and no other. -/
theorem sumActive_updateStatus {session : UploadSession} {sys : System}
    (found : sys.db.sessions.find? session.id = some session) (status : SessionStatus)
    (checksum : Option String) (itemId : Option Uuid) (userId : Uuid) :
    sumActiveTotalSize (updateStatus session.id status checksum itemId sys).db userId +
        reserved userId session =
      sumActiveTotalSize sys.db userId + reserved userId { session with status := status } := by
  have member := (Table.find?_eq_some.mp found).1
  rw [sumActiveTotalSize_eq, sumActiveTotalSize_eq]
  apply (Table.total_changed member rfl _ (fun _ _ different => if_neg different)
    (reserved userId)).trans
  · rw [if_pos rfl]
    rfl
  · rw [if_pos rfl]
    rfl

/-! ## The requests -/

theorem createSession_reserves {actorId : Uuid} {filename : String} {totalSize : Nat}
    {parentId : Option Uuid} {mimeType : Option String} {sys after : System}
    {session : UploadSession}
    (runs : createSession actorId filename totalSize parentId mimeType sys =
      .ok (session, after)) :
    HasRoom sys.db.users actorId (totalSize + sumActiveTotalSize sys.db actorId) ∧
      after.db.users = sys.db.users ∧ ∀ userId, sumActiveTotalSize after.db userId =
        sumActiveTotalSize sys.db userId + if actorId = userId then totalSize else 0 := by
  simp only [createSession, bind_eq_ok, orRaise_eq_ok, pure_eq_ok, Prod.mk.injEq] at runs
  rcases runs with ⟨_, _, _, _, _, _, _, room, _, _, sessions, inserted, rfl, rfl⟩
  apply And.intro (assertHasSpace_ok room)
  apply And.intro rfl
  intro userId
  rw [sumActiveTotalSize_eq, sumActiveTotalSize_eq]
  show (sessions.rows.map (reserved userId)).sum = _
  rw [(Table.insert?_eq_some.mp inserted).2, List.map_append, List.sum_append, List.map_singleton,
    List.sum_singleton]
  apply congrArg
  by_cases same : actorId = userId
  · rw [if_pos same]
    exact reserved_active same rfl
  · rw [if_neg same]
    exact reserved_other same

/-- A chunk makes a pending session an uploading one, and both count. -/
theorem uploadChunk_reserves {actorId sessionId : Uuid} {chunkIndex : Int}
    {stream : List Content} {sys after : System}
    (runs : uploadChunk actorId sessionId chunkIndex stream sys = .ok after) (userId : Uuid) :
    sumActiveTotalSize after.db userId = sumActiveTotalSize sys.db userId := by
  simp only [uploadChunk, getOr404, bind_eq_ok, orRaise_eq_ok, require_eq_ok, pure_eq_ok] at runs
  rcases runs with ⟨_, ⟨session, found, _, _, rfl⟩, _, running, _, _, _, _, runs⟩
  have isSession : session.id = sessionId := (Table.find?_eq_some.mp found).2
  rw [← isSession] at found
  split at runs
  · cases pure_eq_ok.mp runs
    have same : reserved userId { session with status := .uploading } = reserved userId session := by
      rw [reserved, reserved, active_of_not_terminal running]
      rfl
    exact Nat.add_right_cancel
      ((sumActive_updateStatus found .uploading none none userId).trans (congrArg _ same))
  · cases pure_eq_ok.mp runs
    rfl

theorem cancelSession_reserves {actorId sessionId : Uuid} {sys after : System}
    (runs : cancelSession actorId sessionId sys = .ok after) (userId : Uuid) :
    sumActiveTotalSize after.db userId ≤ sumActiveTotalSize sys.db userId := by
  simp only [cancelSession, getOr404, bind_eq_ok, orRaise_eq_ok, require_eq_ok,
    pure_eq_ok] at runs
  rcases runs with ⟨_, ⟨session, found, _, _, rfl⟩, _, _, runs⟩
  have isSession : session.id = sessionId := (Table.find?_eq_some.mp found).2
  rw [← isSession] at found
  split at runs
  · cases pure_eq_ok.mp runs
    exact Nat.le_refl _
  · cases pure_eq_ok.mp runs
    have kept := discardChunks_sessions (listChunks sys.db session.id) sys
    have freed : reserved userId { session with status := .cancelled } = 0 :=
      reserved_inactive rfl
    have moved := sumActive_updateStatus (kept ▸ found) .cancelled none none userId
    rw [sumActiveTotalSize_eq (discardChunks _ _).db, kept, ← sumActiveTotalSize_eq] at moved
    omega

theorem deleteSession_reserves (sessionId userId : Uuid) (sys : System) :
    sumActiveTotalSize (deleteSession sessionId sys).db userId ≤
      sumActiveTotalSize sys.db userId := by
  rw [sumActiveTotalSize_eq, sumActiveTotalSize_eq]
  exact Table.total_le (fun row member => (Table.mem_filter.mp member).1) (reserved userId)

theorem cleanupExpired_reserves (sys : System) (userId : Uuid) :
    sumActiveTotalSize (cleanupExpired sys).db userId ≤ sumActiveTotalSize sys.db userId := by
  have each : ∀ (expired : List UploadSession) (sys : System),
      sumActiveTotalSize (expired.foldl (fun sys session => deleteSession session.id
        (discardChunks (listChunks sys.db session.id) sys)) sys).db userId ≤
          sumActiveTotalSize sys.db userId := by
    intro expired
    induction expired with
    | nil => exact fun sys => Nat.le_refl _
    | cons session rest induction =>
        intro sys
        have discarded : sumActiveTotalSize
            (discardChunks (listChunks sys.db session.id) sys).db userId =
              sumActiveTotalSize sys.db userId := by
          rw [sumActiveTotalSize, discardChunks_sessions, sumActiveTotalSize]
        exact (induction _).trans ((deleteSession_reserves _ _ _).trans discarded.le)
  exact each (listExpired sys) sys

/-- A completed session gives its reservation back. -/
theorem completeSession_reserves {actorId sessionId : Uuid} {sys after : System}
    {item : DriveItem} (runs : completeSession actorId sessionId sys = .ok (item, after)) :
    ∃ session, sys.db.sessions.find? sessionId = some session ∧ session.userId = actorId ∧
      after.db.users = charged actorId (· + mergedSize sys sessionId) sys.db.users ∧
      ∀ userId, sumActiveTotalSize after.db userId + reserved userId session =
        sumActiveTotalSize sys.db userId := by
  rcases completeSession_charges runs with
    ⟨session, found, mine, _, _, users, middle, checksum, itemId, same, sessions⟩
  have isSession : session.id = sessionId := (Table.find?_eq_some.mp found).2
  apply Exists.intro session
  apply And.intro found
  apply And.intro mine
  apply And.intro users
  intro userId
  rw [← isSession] at found sessions
  have moved := sumActive_updateStatus (same.symm ▸ found) .completed checksum itemId userId
  have freed : reserved userId { session with status := .completed } = 0 := reserved_inactive rfl
  rw [freed, Nat.add_zero, sumActiveTotalSize, ← sessions, sumActiveTotalSize, same] at moved
  exact moved

end UploadSessionService

theorem TrashService.permanentDelete_reserves {actorId itemId : Uuid} {sys after : System}
    (runs : permanentDelete actorId itemId sys = .ok after) (userId : Uuid) :
    UploadSessionService.sumActiveTotalSize after.db userId =
      UploadSessionService.sumActiveTotalSize sys.db userId := by
  rcases permanentDelete_ok runs with ⟨_, _, _, _, _, _, _, reclaimed, middle, erased, _, rfl⟩
  have settled : (settle actorId reclaimed middle).db.sessions = middle.db.sessions := by
    rw [settle]
    split <;> rfl
  rw [UploadSessionService.sumActiveTotalSize_eq, UploadSessionService.sumActiveTotalSize_eq,
    settled, Table.total, erased.sessions, List.map_map]
  rfl

/-! ## What completion raises -/

/-- The error is not for lack of space. -/
def ServiceError.NotQuota : ServiceError → Prop
  | .quotaExceeded _ => False
  | _ => True

theorem nameExistsInParent_raises (items : ItemTable) (name : String) (parentId : Option Uuid)
    (ownerId : Uuid) (excludeId : Option Uuid) :
    Raises ServiceError.NotQuota (nameExistsInParent items name parentId ownerId excludeId) := by
  rw [nameExistsInParent]
  intro error raised
  split at raised <;> cases raised
  trivial

theorem numberName_raises (items : ItemTable) (parentId : Option Uuid) (ownerId : Uuid)
    (stem ext : String) : ∀ (fuel counter : Nat) (name : String),
    Raises ServiceError.NotQuota (numberName items parentId ownerId stem ext fuel counter name)
  | 0, _, _ => by
      intro error raised
      cases raised
      trivial
  | fuel + 1, counter, name => by
      rw [numberName]
      apply (nameExistsInParent_raises _ _ _ _ _).bind
      intro taken
      cases taken with
      | true => exact numberName_raises items parentId ownerId stem ext fuel _ _
      | false => exact Raises.ok

theorem flush_raises (rows : List DriveItem) : Raises ServiceError.NotQuota (flush rows) := by
  rw [flush]
  intro error raised
  split at raised <;> cases raised
  trivial

theorem createFile_raises (userId : Uuid) (parentId : Option Uuid) (name : String)
    (file : StoredFile) (sys : System) :
    Raises ServiceError.NotQuota (createFile userId parentId name file sys) := by
  apply Raises.bind
  · exact (flush_raises _).bind fun _ => Raises.ok
  · intro created
    apply (flush_raises _).bind
    intro items
    apply Raises.bind
    · exact (Raises.orRaise trivial).bind fun _ => Raises.ok
    · exact fun _ => Raises.ok

omit [Platform] in
theorem Storage.readAll_raises (storage : Table StoredObject) : ∀ keys : List StorageKey,
    Raises ServiceError.NotQuota (Storage.readAll storage keys)
  | [] => Raises.ok
  | _ :: rest => (Raises.orRaise trivial).bind fun _ =>
      (readAll_raises storage rest).bind fun _ => Raises.ok

/-- Nothing in `complete_session` compares the file with the quota. -/
theorem UploadSessionService.completeSession_raises (userId sessionId : Uuid) (sys : System) :
    Raises ServiceError.NotQuota (completeSession userId sessionId sys) := by
  apply Raises.bind
  · exact (Raises.orRaise trivial).bind fun _ => (Raises.require trivial).bind fun _ => Raises.ok
  · intro session
    apply Raises.bind
    · exact Raises.require trivial
    · intro running
      apply Raises.bind
      · exact Raises.require trivial
      · intro complete
        apply Raises.bind
        · exact (Storage.readAll_raises _ _).bind fun _ => Raises.ok
        · intro merged
          apply Raises.bind
          · exact (numberName_raises _ _ _ _ _ _ _ _).bind fun _ => createFile_raises _ _ _ _ _
          · exact fun _ => Raises.ok

/-! ## Runs -/

/-- The requests of an upload session, the deletion of a file, and time passing. -/
def Op.OfSession : Op → Prop
  | .createSession .. | .uploadChunk .. | .completeSession .. | .cancelSession ..
  | .cleanupExpired | .permanentDelete .. | .tick .. => True
  | _ => False

/-- The session that the request completes. -/
def Op.completes : Op → Option Uuid
  | .completeSession _ sessionId => some sessionId
  | _ => none

/-- A session that is completed holds as many bytes as it declared. -/
def Op.AsDeclared (before : System) (op : Op) : Prop :=
  ∀ sessionId ∈ op.completes, ∀ session ∈ before.db.sessions.find? sessionId,
    UploadSessionService.mergedSize before sessionId = session.totalSize

instance (before : System) (op : Op) : Decidable (op.AsDeclared before) :=
  inferInstanceAs (Decidable (∀ sessionId ∈ op.completes, _))

open UploadSessionService

/-- The bytes used and the bytes reserved are within the quota together. -/
def Reserves (userId : Uuid) (sys : System) : Prop :=
  HasRoom sys.db.users userId (sumActiveTotalSize sys.db userId)

theorem Reserves.completeSession {userId actorId sessionId : Uuid} {sys after : System}
    {item : DriveItem} (reserves : Reserves userId sys)
    (declared : ∀ session ∈ sys.db.sessions.find? sessionId,
      mergedSize sys sessionId = session.totalSize)
    (runs : completeSession actorId sessionId sys = .ok (item, after)) :
    Reserves userId after := by
  rcases completeSession_charges runs with ⟨other, isOther, _, running, _⟩
  rcases completeSession_reserves runs with ⟨session, found, mine, users, sums⟩
  have same : other = session := Option.some.inj (isOther.symm.trans found)
  have moved := sums userId
  rw [Reserves, users]
  by_cases isUser : userId = actorId
  · have held : reserved userId session = session.totalSize :=
      reserved_active (mine.trans isUser.symm) (active_of_not_terminal (same ▸ running))
    rw [← isUser, hasRoom_charged]
    intro user isRow
    have bounded := reserves user isRow
    rw [declared session found]
    omega
  · have held : reserved userId session = 0 :=
      reserved_other fun owns => isUser (owns.symm.trans mine)
    rw [hasRoom_other isUser]
    exact reserves.of_le (by omega)

theorem Op.Commits.reserves {op : Op} {before after : System} {userId : Uuid}
    (commits : op.Commits before after) (ofSession : op.OfSession)
    (declared : op.AsDeclared before) (reserves : Reserves userId before) :
    Reserves userId after := by
  have runs := commits.2
  have effect := Op.effect commits
  cases op with
  | createSession actorId filename totalSize parentId mimeType =>
      simp only [Op.commit, bind_eq_ok, pure_eq_ok] at runs
      rcases runs with ⟨⟨session, _⟩, runs, rfl⟩
      rcases createSession_reserves runs with ⟨room, users, sums⟩
      rw [Reserves, users, sums]
      by_cases same : actorId = userId
      · rw [if_pos same, ← same, Nat.add_comm]
        exact room
      · rw [if_neg same]
        exact reserves
  | uploadChunk actorId sessionId chunkIndex stream =>
      rw [Reserves, effect.users trivial trivial, uploadChunk_reserves runs]
      exact reserves
  | completeSession actorId sessionId =>
      simp only [Op.commit, bind_eq_ok, pure_eq_ok] at runs
      rcases runs with ⟨⟨item, _⟩, runs, rfl⟩
      exact reserves.completeSession (declared sessionId rfl) runs
  | cancelSession actorId sessionId =>
      rw [Reserves, effect.users trivial trivial]
      exact reserves.of_le (cancelSession_reserves runs userId)
  | cleanupExpired =>
      cases runs
      rw [Reserves, effect.users trivial trivial]
      exact reserves.of_le (cleanupExpired_reserves before userId)
  | permanentDelete actorId itemId =>
      rcases TrashService.permanentDelete_charges runs with ⟨freed, users⟩
      rw [Reserves, users, TrashService.permanentDelete_reserves runs]
      exact hasRoom_subtract freed reserves
  | tick seconds =>
      cases runs
      exact reserves
  | _ => exact ofSession.elim

/-- A run that starts without open sessions of the user keeps what is used and reserved
within the quota. So every session that was admitted still has its space when it is
completed: the completion is not refused for lack of space, and it does not exceed the
quota. -/
theorem reservation_kept {userId : Uuid} {start final : System} {events : List (Event System Op)}
    (run : Run Op.Commits start events final)
    (ofSession : ∀ event ∈ events, event.action.OfSession)
    (declared : ∀ event ∈ events, event.action.AsDeclared event.before)
    (noneOpen : ∀ session ∈ start.db.sessions,
      session.userId = userId → session.status.isActive = false)
    (starts : WithinQuota start.db.users userId) :
    Reserves userId final ∧
    ∀ session ∈ final.db.sessions, session.userId = userId → session.status.isActive = true →
      HasRoom final.db.users userId session.totalSize ∧
      ∀ actorId, (∀ message,
          completeSession actorId session.id final ≠ .error (.quotaExceeded message)) ∧
        ∀ item after, mergedSize final session.id = session.totalSize →
          completeSession actorId session.id final = .ok (item, after) →
            WithinQuota after.db.users userId := by
  have nothingReserved : sumActiveTotalSize start.db userId = 0 := by
    rw [sumActiveTotalSize, List.filter_eq_nil_iff.mpr]
    · rfl
    · intro session member counts
      rcases Bool.and_eq_true_iff.mp counts with ⟨mine, active⟩
      rw [noneOpen session member (of_decide_eq_true mine)] at active
      cases active
  have reserves : Reserves userId final := by
    apply run.keeps
    · rw [Reserves, nothingReserved]
      exact withinQuota_iff_hasRoom.mp starts
    · intro event member kept commits
      exact commits.reserves (ofSession event member) (declared event member) kept
  apply And.intro reserves
  intro session member mine active
  have counted := totalSize_le_sumActive member active
  rw [mine] at counted
  apply And.intro (reserves.of_le counted)
  intro actorId
  constructor
  · intro message refused
    exact completeSession_raises actorId session.id final _ refused
  · intro item after merged completes
    have found : ∀ row ∈ final.db.sessions.find? session.id,
        mergedSize final session.id = row.totalSize := by
      intro row isRow
      rcases Table.find?_eq_some.mp isRow with ⟨rowMember, sameKey⟩
      rw [merged, Table.eq_of_key_eq rowMember member sameKey]
    exact withinQuota_iff_hasRoom.mpr
      ((reserves.completeSession found completes).of_le (Nat.zero_le _))

end Reservations

/-! ## Two sessions

One is completed while the other is still open. -/

section TwoBytes

attribute [local instance] twoByteChunks

private def besideOpen : List Op :=
  [.createSession 1 "first" 2 none none, .createSession 1 "second" 3 none none,
    .uploadChunk 1 10 0 [[65, 66]], .completeSession 1 10, .uploadChunk 1 11 1 [[67]], .tick 60]

theorem reservation_kept_quietDay :
    ∃ final, Op.commitAll besideOpen quietDay = .ok final ∧
      UploadSessionService.sumActiveTotalSize final.db 1 = 3 ∧ Reserves 1 final := by
  cases runs : Op.commitAll besideOpen quietDay with
  | error => cases runs
  | ok final =>
      apply Exists.intro final
      apply And.intro rfl
      have run := Op.run_trace (by simp [besideOpen, Op.Offered]) runs
      have ofSession : ∀ event ∈ Op.trace besideOpen quietDay, event.action.OfSession := by
        intro event member
        have isOne := Op.action_mem_of_trace member
        simp only [besideOpen, List.mem_cons, List.not_mem_nil, or_false] at isOne
        rcases isOne with isOne | isOne | isOne | isOne | isOne | isOne <;> rw [isOne] <;> trivial
      have noneOpen : ∀ session ∈ quietDay.db.sessions,
          session.userId = 1 → session.status.isActive = false := by
        intro session member
        cases member
      have kept := reservation_kept run ofSession (by decide) noneOpen (by decide)
      constructor
      · cases runs
        rfl
      · exact kept.1

end TwoBytes

end CloudDrive
