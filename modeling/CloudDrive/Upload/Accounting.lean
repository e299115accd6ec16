import CloudDrive.Operation
import CloudDrive.Foundation.Totals

/-! # What a request charges

How `used_bytes` changes with the requests, and how the sizes that open sessions have
declared change with them. -/

namespace CloudDrive

open Outcome Relational

variable [Platform]

namespace QuotaService

/-! ## One counter -/

/-- The users after `changeUsedBytes`. -/
def charged (userId : Uuid) (rewrite : Nat → Nat) (users : Table User) : Table User :=
  users.map
    (fun user => if user.id = userId then
      { user with usedBytes := rewrite user.usedBytes } else user)
    (key_rewritten userId rewrite)

omit [Platform] in
theorem find_charged_self {userId : Uuid} {rewrite : Nat → Nat} {users : Table User} {user : User}
    (found : users.find? userId = some user) :
    (charged userId rewrite users).find? userId =
      some { user with usedBytes := rewrite user.usedBytes } := by
  have isUser : user.id = userId := (Table.find?_eq_some.mp found).2
  rw [charged, Table.find?_map, found, Option.map_some, if_pos isUser]

omit [Platform] in
theorem find_charged_other {userId other : Uuid} {rewrite : Nat → Nat} {users : Table User}
    (different : other ≠ userId) :
    (charged userId rewrite users).find? other = users.find? other := by
  rw [charged, Table.find?_map]
  cases found : users.find? other with
  | none => rfl
  | some user =>
      have isOther : user.id = other := (Table.find?_eq_some.mp found).2
      rw [Option.map_some, if_neg fun isUser => different (isOther.symm.trans isUser)]

omit [Platform] in
theorem charged_zero (userId : Uuid) (users : Table User) :
    charged userId (· - 0) users = users := by
  apply Table.ext_rows
  have same : ∀ user ∈ users.rows, (if user.id = userId then
      { user with usedBytes := user.usedBytes - 0 } else user) = user := by
    intro user _
    split <;> rfl
  exact (List.map_congr_left same).trans (List.map_id' _)

/-- The user uses no more than the quota. -/
def WithinQuota (users : Table User) (userId : Uuid) : Prop :=
  ∀ user, users.find? userId = some user → (user.usedBytes : Int) ≤ user.quotaBytes

/-- There is room for these bytes below the quota of the user. -/
def HasRoom (users : Table User) (userId : Uuid) (bytes : Nat) : Prop :=
  ∀ user, users.find? userId = some user → (user.usedBytes : Int) + bytes ≤ user.quotaBytes

omit [Platform] in
theorem HasRoom.of_le {users : Table User} {userId : Uuid} {bytes fewer : Nat}
    (room : HasRoom users userId bytes) (less : fewer ≤ bytes) : HasRoom users userId fewer := by
  intro user found
  have bounded := room user found
  omega

omit [Platform] in
theorem withinQuota_iff_hasRoom {users : Table User} {userId : Uuid} :
    WithinQuota users userId ↔ HasRoom users userId 0 := by
  simp only [WithinQuota, HasRoom, Nat.cast_zero, Int.add_zero]

omit [Platform] in
theorem hasRoom_charged {users : Table User} {userId : Uuid} {rewrite : Nat → Nat}
    {bytes : Nat} :
    HasRoom (charged userId rewrite users) userId bytes ↔
      ∀ user, users.find? userId = some user →
        (rewrite user.usedBytes : Int) + bytes ≤ user.quotaBytes := by
  constructor
  · exact fun room user found => room _ (find_charged_self found)
  · intro bounded after found
    cases search : users.find? userId with
    | none =>
        rw [charged, Table.find?_map, search] at found
        cases found
    | some user =>
        rw [find_charged_self search, Option.some.injEq] at found
        rw [← found]
        exact bounded user search

omit [Platform] in
theorem hasRoom_other {users : Table User} {userId other : Uuid} {rewrite : Nat → Nat}
    {bytes : Nat} (different : userId ≠ other) :
    HasRoom (charged other rewrite users) userId bytes ↔ HasRoom users userId bytes := by
  rw [HasRoom, find_charged_other different, HasRoom]

omit [Platform] in
theorem hasRoom_subtract {users : Table User} {userId other : Uuid} {bytes : Nat} (freed : Nat)
    (room : HasRoom users userId bytes) :
    HasRoom (charged other (· - freed) users) userId bytes := by
  by_cases same : userId = other
  · rw [← same]
    apply hasRoom_charged.mpr
    intro user found
    have bounded := room user found
    have less := Nat.sub_le user.usedBytes freed
    show ((user.usedBytes - freed : Nat) : Int) + bytes ≤ user.quotaBytes
    omega
  · exact (hasRoom_other same).mpr room

omit [Platform] in
/-- Adding to the counter stays within the quota exactly when there is room. -/
theorem withinQuota_add {users : Table User} {userId : Uuid} {bytes : Nat} :
    WithinQuota (charged userId (· + bytes) users) userId ↔ HasRoom users userId bytes := by
  rw [withinQuota_iff_hasRoom, hasRoom_charged]
  simp only [Nat.cast_add, Nat.cast_zero, Int.add_zero, HasRoom]

omit [Platform] in
theorem withinQuota_subtract {users : Table User} {userId other : Uuid} (freed : Nat)
    (within : WithinQuota users userId) :
    WithinQuota (charged other (· - freed) users) userId :=
  withinQuota_iff_hasRoom.mpr (hasRoom_subtract freed (withinQuota_iff_hasRoom.mp within))

omit [Platform] in
theorem withinQuota_other {users : Table User} {userId other : Uuid} {rewrite : Nat → Nat}
    (different : userId ≠ other) :
    WithinQuota (charged other rewrite users) userId ↔ WithinQuota users userId := by
  rw [WithinQuota, find_charged_other different, WithinQuota]

theorem assertHasSpace_ok {db : Database} {userId : Uuid} {bytesNeeded : Nat} {done : Unit}
    (passed : assertHasSpace db userId bytesNeeded = .ok done) :
    HasRoom db.users userId bytesNeeded := by
  simp only [assertHasSpace, bind_eq_ok, orRaise_eq_ok, require_eq_ok] at passed
  rcases passed with ⟨user, found, enough⟩
  intro other search
  rw [found, Option.some.injEq] at search
  rw [← search]
  omega

end QuotaService

open QuotaService

/-! ## The charge of a new file -/

theorem createFile_charges {userId : Uuid} {parentId : Option Uuid} {name : String}
    {file : StoredFile} {sys after : System} {item : DriveItem}
    (created : createFile userId parentId name file sys = .ok (item, after)) :
    after.db.users = charged userId (· + file.content.length) sys.db.users ∧
      after.db.sessions = sys.db.sessions ∧ item.sizeBytes = file.content.length := by
  simp only [createFile, DriveItemRepository.create, FileVersionRepository.create, bind_eq_ok,
    pure_eq_ok, orRaise_eq_ok, Prod.mk.injEq] at created
  rcases created with ⟨⟨_, _⟩, ⟨_, _, rfl, rfl⟩, _, _, _, ⟨_, _, rfl⟩, rfl, rfl⟩
  exact ⟨rfl, rfl, rfl⟩

theorem UploadService.uploadSimple_charges {userId : Uuid} {parentId : Option Uuid}
    {filename : String} {stream : List Content} {sizeBytes : Nat} {mimeType : Option String}
    {sys after : System} {item : DriveItem}
    (runs : uploadSimple userId parentId filename stream sizeBytes mimeType sys =
      .ok (item, after)) :
    HasRoom sys.db.users userId sizeBytes ∧
      after.db.users = charged userId (· + stream.flatten.length) sys.db.users ∧
      item.sizeBytes = stream.flatten.length := by
  simp only [uploadSimple, bind_eq_ok] at runs
  rcases runs with ⟨_, _, _, _, _, room, _, _, created⟩
  rcases createFile_charges created with ⟨users, _, size⟩
  exact ⟨assertHasSpace_ok room, users, size⟩

namespace UploadSessionService

/-- The bytes that the stored chunks of the session hold together. -/
def mergedSize (sys : System) (sessionId : Uuid) : Nat :=
  ((listChunks sys.db sessionId).map fun chunk =>
    ((sys.storage.find? chunk.storageKey).map fun object => object.content.length).getD 0).sum

omit [Platform] in
theorem readAll_length {storage : Table StoredObject} : ∀ {keys : List StorageKey}
    {content : Content}, Storage.readAll storage keys = .ok content →
    content.length = (keys.map fun key =>
      ((storage.find? key).map fun object => object.content.length).getD 0).sum
  | [], content, reads => by
      cases reads
      rfl
  | key :: rest, content, reads => by
      simp only [Storage.readAll, bind_eq_ok, orRaise_eq_ok, pure_eq_ok] at reads
      rcases reads with ⟨object, found, later, readsLater, rfl⟩
      rw [List.length_append, List.map_cons, List.sum_cons, found, readAll_length readsLater]
      rfl

theorem completeSession_charges {userId sessionId : Uuid} {sys after : System} {item : DriveItem}
    (runs : completeSession userId sessionId sys = .ok (item, after)) :
    ∃ session, sys.db.sessions.find? sessionId = some session ∧ session.userId = userId ∧
      session.status.isTerminal = false ∧ item.sizeBytes = mergedSize sys sessionId ∧
      after.db.users = charged userId (· + mergedSize sys sessionId) sys.db.users ∧
      ∃ middle checksum itemId, middle.db.sessions = sys.db.sessions ∧
        after.db.sessions =
          (updateStatus sessionId .completed checksum itemId middle).db.sessions := by
  simp only [completeSession, getOr404, bind_eq_ok, orRaise_eq_ok, require_eq_ok, pure_eq_ok,
    Storage.concat, createItem, Prod.mk.injEq] at runs
  rcases runs with ⟨_, ⟨session, found, _, mine, rfl⟩, _, running, _, _, ⟨content, merged⟩,
    ⟨_, reads, rfl, rfl⟩, ⟨created, middle⟩, ⟨name, _, creates⟩, rfl, rfl⟩
  have isSession : session.id = sessionId := (Table.find?_eq_some.mp found).2
  have size : content.length = mergedSize sys sessionId := by
    rw [readAll_length reads, List.map_map, isSession]
    rfl
  rcases createFile_charges creates with ⟨users, sessions, sizeBytes⟩
  apply Exists.intro session
  apply And.intro found
  apply And.intro mine
  apply And.intro running
  apply And.intro (sizeBytes.trans size)
  rcases discardChunks_eq (listChunks sys.db session.id) middle with ⟨rows, discards, _⟩
  constructor
  · rw [← size, discards]
    exact users
  · refine ⟨_, _, _, ?_, by rw [isSession]⟩
    rw [discardChunks_sessions]
    exact sessions

end UploadSessionService

/-! ## The charge of a request -/

theorem TrashService.settle_charges (userId : Uuid) (reclaimed : Reclaimed) (sys : System) :
    (settle userId reclaimed sys).db.users =
      charged userId (· - reclaimed.freed) sys.db.users := by
  rw [settle]
  split
  · rfl
  · rename_i nothing
    rw [Nat.eq_zero_of_not_pos nothing, charged_zero]
    rfl

theorem TrashService.permanentDelete_charges {userId itemId : Uuid} {sys after : System}
    (runs : permanentDelete userId itemId sys = .ok after) :
    ∃ freed, after.db.users = charged userId (· - freed) sys.db.users := by
  rcases permanentDelete_ok runs with ⟨_, _, _, _, _, _, _, reclaimed, middle, erased, _, rfl⟩
  rw [settle_charges, erased.users]
  exact ⟨reclaimed.freed, rfl⟩

omit [Platform] in
theorem charged_subtract_twice (userId : Uuid) (first second : Nat) (users : Table User) :
    charged userId (· - second) (charged userId (· - first) users) =
      charged userId (· - (first + second)) users := by
  apply Table.ext_rows
  show (users.rows.map _).map _ = users.rows.map _
  rw [List.map_map]
  apply List.map_congr_left
  intro user _
  by_cases same : user.id = userId
  · simp only [Function.comp_apply, if_pos same, Nat.sub_sub]
  · simp only [Function.comp_apply, if_neg same]

theorem TrashService.emptyTrash_charges {userId : Uuid} {allDeleted : List DriveItem}
    {sys after : System} (runs : emptyTrash userId allDeleted sys = .ok after) :
    ∃ freed, after.db.users = charged userId (· - freed) sys.db.users := by
  apply forEach_keeps (fun middle : System =>
    ∃ freed, middle.db.users = charged userId (· - freed) sys.db.users) _ _ runs
  · intro item middle later kept deletes
    rcases kept with ⟨first, isFirst⟩
    rcases permanentDelete_charges deletes with ⟨second, isSecond⟩
    exact ⟨first + second, by rw [isSecond, isFirst, charged_subtract_twice]⟩
  · exact ⟨0, (charged_zero userId sys.db.users).symm⟩

/-- The requests that change no counter. -/
def Op.Uncharged : Op → Prop
  | .uploadSimple .. | .completeSession .. | .permanentDelete .. | .emptyTrash .. => False
  | _ => True

/-- What a request does to the counters of the users. -/
inductive Op.Charges (before : System) : Op → Table User → Prop
  | nothing {op : Op} : op.Uncharged → Charges before op before.db.users
  | uploaded {userId : Uuid} {parentId : Option Uuid} {filename : String}
      {stream : List Content} {sizeBytes : Nat} {mimeType : Option String} :
      Charges before (.uploadSimple userId parentId filename stream sizeBytes mimeType)
        (charged userId (· + stream.flatten.length) before.db.users)
  | completed {userId sessionId : Uuid} :
      Charges before (.completeSession userId sessionId)
        (charged userId (· + UploadSessionService.mergedSize before sessionId) before.db.users)
  | deleted {userId itemId : Uuid} (freed : Nat) :
      Charges before (.permanentDelete userId itemId)
        (charged userId (· - freed) before.db.users)
  | emptied {userId : Uuid} {allDeleted : List DriveItem} (freed : Nat) :
      Charges before (.emptyTrash userId allDeleted)
        (charged userId (· - freed) before.db.users)

theorem Op.Effect.users {op : Op} {before after : System} (effect : op.Effect before after)
    (uncharged : op.Uncharged) (noRestore : op.NoSnapshotRestore) :
    after.db.users = before.db.users := by
  cases effect with
  | nothing => rfl
  | folderCreated _ _ => rfl
  | rewritten _ _ _ => rfl
  | moved moves =>
      rcases DriveService.move_ok moves with ⟨_, _, _, _, _, _, rfl⟩
      rfl
  | deleted _ => exact uncharged.elim
  | emptied _ => exact uncharged.elim
  | shared _ _ _ _ _ => rfl
  | unshared _ => rfl
  | uploaded _ _ _ => exact uncharged.elim
  | sessionOpened _ _ _ _ => rfl
  | sessionWorked work _ =>
      rcases work.frame with ⟨_, _, frame⟩
      rw [frame]
  | completed _ _ _ _ _ _ _ => exact uncharged.elim
  | snapshotsWorked _ work =>
      rcases work.frame with ⟨_, _, _, frame⟩
      rw [frame]
  | snapshotRestored _ => exact noRestore.elim
  | collected _ => rfl
  | ticked => rfl

open UploadSessionService in
theorem Op.charges {op : Op} {before after : System} (noRestore : op.NoSnapshotRestore)
    (commits : op.Commits before after) : op.Charges before after.db.users := by
  have effect := Op.effect commits
  have runs := commits.2
  cases op with
  | uploadSimple userId parentId filename stream sizeBytes mimeType =>
      simp only [Op.commit, bind_eq_ok, pure_eq_ok] at runs
      rcases runs with ⟨⟨item, _⟩, runs, rfl⟩
      rw [(UploadService.uploadSimple_charges runs).2.1]
      exact .uploaded
  | completeSession userId sessionId =>
      simp only [Op.commit, bind_eq_ok, pure_eq_ok] at runs
      rcases runs with ⟨⟨item, _⟩, runs, rfl⟩
      rcases completeSession_charges runs with ⟨_, _, _, _, _, users, _⟩
      rw [users]
      exact .completed
  | permanentDelete userId itemId =>
      rcases TrashService.permanentDelete_charges runs with ⟨freed, users⟩
      rw [users]
      exact .deleted freed
  | emptyTrash userId allDeleted =>
      rcases TrashService.emptyTrash_charges runs with ⟨freed, users⟩
      rw [users]
      exact .emptied freed
  | restoreSnapshot userId snapshotId scope mode => exact noRestore.elim
  | _ =>
      rw [effect.users trivial noRestore]
      exact .nothing trivial

end CloudDrive
