import CloudDrive.Upload.Chunks
import CloudDrive.Upload.ServiceRequests

/-! # What a request on a session does to the chunks

The action of a request lists chunks, deletes the blob of one, saves one, commits its row, or
ends the session. -/

namespace CloudDrive

open Outcome Relational UploadSessionService

section ChunkEffects

variable [Platform]

/-- The chunks whose blobs a request that ends the session will still delete, once it has
listed them. -/
def SessionTask.claim : SessionTask → Option (List UploadChunk)
  | .checking _ chunks | .merging _ chunks _ _ _ | .naming _ chunks _ _ _
  | .inserting _ chunks _ _ | .charging _ chunks _ _ => some chunks
  | .discarding _ _ _ _ remaining | .dropping _ _ remaining => some remaining
  | .completing .. | .completed .. | .cancelling .. | .cancelled .. => some []
  | _ => none

/-- The chunk whose blob a request has saved, and whose row it has not committed. -/
def SessionTask.written : SessionTask → Option UploadChunk
  | .feeding _ chunk | .fed _ chunk _ => some chunk
  | _ => none

/-! ## What an action does -/

/-- Of the sessions only those that are over have ended, and only their rows may be gone. -/
structure Ends (closed : Uuid → Prop) (before after : System) : Prop where
  storage : after.storage = before.storage
  seed : after.seed = before.seed
  sessions : ∀ row ∈ after.db.sessions, ∃ old ∈ before.db.sessions,
    old.id = row.id ∧ old.userId = row.userId ∧ old.totalChunks = row.totalChunks
  active : ∀ sessionId, ¬ closed sessionId → SessionActive before sessionId →
    SessionActive after sessionId
  rows : ∀ row ∈ after.db.chunks, row ∈ before.db.chunks
  kept : ∀ row ∈ before.db.chunks, ¬ closed row.sessionId → row ∈ after.db.chunks

/-- What the next action of a request on a session does to the chunks. -/
inductive ChunkEffect (userId : Uuid) (store after : UploadStore) (task next : SessionTask) :
    Prop where
  | works : after.sys.db = store.sys.db → store.sys.seed ≤ after.sys.seed →
      (∀ key, key.isChunk = true → Stored after.sys key → Stored store.sys key) →
      next.written = task.written →
      (∀ chunks, next.claim = some chunks → next.session = task.session ∧
        ∃ earlier, task.claim = some earlier ∧
          ∀ chunk ∈ earlier, chunk ∈ chunks ∨ ¬ Stored after.sys chunk.storageKey) →
      ChunkEffect userId store after task next
  | lists {session : UploadSession} : after.sys = store.sys → task.written = none →
      next.written = none → next.session = some session →
      next.claim = some (listChunks store.sys.db session.id) →
      task = .listingToCancel session ∨
        missing session (listChunks store.sys.db session.id) = [] →
      ChunkEffect userId store after task next
  | saves {session : UploadSession} {chunkIndex : Nat} {stream : List Content}
      {chunk : UploadChunk} : task = .saving session chunkIndex stream →
      after.sys = Storage.saveStream (.chunk userId session.id chunkIndex) stream store.sys →
      next = .feeding session chunk →
      chunk.storageKey = .chunk userId session.id chunkIndex →
      ChunkEffect userId store after task next
  | ends {session : UploadSession} {result : Except ServiceError Unit} :
      task.session = some session → task.claim = some [] → task.written = none →
      next = .ended result → Ends (· = session.id) store.sys after.sys →
      ChunkEffect userId store after task next
  | feeds {session : UploadSession} {chunk : UploadChunk} {marks : Bool}
      {result : Except ServiceError Unit} : task = .fed session chunk marks →
      after.sys = commitChunk session chunk marks store.sys → next = .ended result →
      ChunkEffect userId store after task next
  | overflows {session : UploadSession} {chunk : UploadChunk} {result : Except ServiceError Unit} :
      task = .feeding session chunk → maxInt4 < chunk.size → after.sys = store.sys →
      next = .ended result → ChunkEffect userId store after task next

variable {userId sessionId : Uuid} {store after : UploadStore} {task next : SessionTask}

theorem stored_of_delete {key other : StorageKey} {sys : System}
    (stored : Stored (Storage.delete key sys) other) : Stored sys other ∧ other ≠ key := by
  rcases stored with ⟨object, member, rfl⟩
  rcases Table.mem_filter.mp member with ⟨isObject, different⟩
  exact ⟨⟨object, isObject, rfl⟩, of_decide_eq_true different⟩

/-- An action that neither lists nor deletes chunks. -/
theorem ChunkEffect.of_same (db : after.sys.db = store.sys.db)
    (seed : store.sys.seed ≤ after.sys.seed)
    (blobs : ∀ key, key.isChunk = true → Stored after.sys key → Stored store.sys key)
    (written : next.written = task.written)
    (claim : next.claim = none ∨ next.claim = task.claim ∧ next.session = task.session) :
    ChunkEffect userId store after task next := by
  apply ChunkEffect.works db seed blobs written
  intro chunks claims
  rcases claim with none | ⟨same, sameSession⟩
  · rw [none] at claims
    cases claims
  · exact ⟨sameSession, chunks, same ▸ claims, fun chunk member => .inl member⟩

/-- An action that changes nothing but the task and the locks. -/
theorem ChunkEffect.of_sys (same : after.sys = store.sys) (written : next.written = task.written)
    (claim : next.claim = none ∨ next.claim = task.claim ∧ next.session = task.session) :
    ChunkEffect userId store after task next := by
  apply ChunkEffect.of_same (by rw [same]) (by rw [same]) _ written claim
  rw [same]
  exact fun _ _ stored => stored

theorem ChunkEffect.of_lockRow {row : LockedRow} {goesOn : SessionTask}
    (works : lockRow row store goesOn = some (after, next))
    (written : goesOn.written = task.written)
    (claim : goesOn.claim = none ∨ goesOn.claim = task.claim ∧ goesOn.session = task.session) :
    ChunkEffect userId store after task next := by
  by_cases locked : row ∈ store.locks
  · simp [lockRow, locked] at works
  · simp only [lockRow, locked, if_false, Option.some.injEq, Prod.mk.injEq] at works
    rcases works with ⟨rfl, rfl⟩
    exact .of_sys rfl written claim

theorem updateStatus_ends {sys : System} (session : UploadSession) (status : SessionStatus)
    (checksum : Option String) (driveItemId : Option Uuid) {closed : Uuid → Prop}
    (isOver : status.isActive = false → closed session.id) :
    Ends closed sys (updateStatus session.id status checksum driveItemId sys) where
  storage := rfl
  seed := rfl
  sessions row member := by
    simp only [updateStatus, System.withSessions, Table.mem_map] at member
    rcases member with ⟨old, oldMem, rfl⟩
    refine ⟨old, oldMem, ?_⟩
    split <;> exact ⟨rfl, rfl, rfl⟩
  active other notOver isActive := by
    rcases isActive with ⟨row, found, active⟩
    rw [SessionActive, find_updateStatus, found, Option.map_some]
    refine ⟨_, rfl, ?_⟩
    split
    · rename_i isSession
      cases terminal : status.isActive with
      | true => rfl
      | false =>
          have isKey : row.id = other := (Table.find?_eq_some.mp found).2
          exact absurd (isKey ▸ isSession ▸ isOver terminal) notOver
    · exact active
  rows _ member := member
  kept _ member _ := member

theorem removeChunks_ends {sys : System} (session : UploadSession) {gone : List UploadChunk}
    (own : ∀ chunk ∈ gone, chunk.sessionId = session.id) :
    Ends (· = session.id) sys (removeChunks gone sys) where
  storage := rfl
  seed := rfl
  sessions row member := ⟨row, member, rfl, rfl, rfl⟩
  active _ _ isActive := isActive
  rows _ member := (Table.mem_filter.mp member).1
  kept row member notClosed := by
    apply Table.mem_filter.mpr
    apply And.intro member
    apply decide_eq_true
    intro isGone
    rcases List.mem_map.mp isGone with ⟨chunk, among, sameKey⟩
    rw [UploadChunk.key_eq, UploadChunk.key_eq, Prod.mk.injEq] at sameKey
    exact notClosed (sameKey.1.symm.trans (own chunk among))

theorem Ends.trans {closed : Uuid → Prop} {before middle after : System}
    (first : Ends closed before middle) (second : Ends closed middle after) :
    Ends closed before after where
  storage := second.storage.trans first.storage
  seed := second.seed.trans first.seed
  sessions row member := by
    rcases second.sessions row member with ⟨between, betweenMem, sameId, sameUser, sameTotal⟩
    rcases first.sessions between betweenMem with ⟨old, oldMem, oldId, oldUser, oldTotal⟩
    exact ⟨old, oldMem, oldId.trans sameId, oldUser.trans sameUser, oldTotal.trans sameTotal⟩
  active other notClosed isActive :=
    second.active other notClosed (first.active other notClosed isActive)
  rows row member := first.rows row (second.rows row member)
  kept row member notClosed := second.kept row (first.kept row member notClosed) notClosed

/-- The chunks that a request is about to delete are those of its session. -/
def SessionTask.gone : SessionTask → List UploadChunk
  | .completing _ gone _ _ | .completed _ gone _ _ | .cancelling _ gone | .cancelled _ gone => gone
  | _ => []

/-- What a commit of a completion changes of items, versions and users. -/
theorem commitCompletion_ends {session : UploadSession} {gone : List UploadChunk}
    {file : StoredFile} {item : DriveItem} {sys committed : System}
    (own : ∀ chunk ∈ gone, chunk.sessionId = session.id)
    (commits : commitCompletion userId session gone file item sys = .ok committed) :
    Ends (· = session.id) sys committed := by
  simp only [commitCompletion, FileVersionRepository.create, bind_eq_ok, orRaise_eq_ok,
    pure_eq_ok] at commits
  rcases commits with ⟨items, added, _, ⟨versions, _, rfl⟩, rfl⟩
  let charged := QuotaService.addUsedBytes userId file.content.length
    ((sys.withItems items).withVersions versions)
  have removes : Ends (· = session.id) charged (removeChunks gone charged) :=
    removeChunks_ends session own
  have marks : Ends (· = session.id) (removeChunks gone charged)
      (updateStatus session.id .completed (some (Platform.sha256 file.content)) (some item.id)
        (removeChunks gone charged)) :=
    updateStatus_ends session _ _ _ fun _ => rfl
  have both := removes.trans marks
  exact ⟨both.storage, both.seed, both.sessions, both.active, both.rows, both.kept⟩

theorem SessionAction.start_quiet (action : SessionAction) (sys : System) :
    (action.start userId sessionId sys).written = none ∧
      (action.start userId sessionId sys).claim = none := by
  rw [SessionAction.start]
  cases getOr404 userId sessionId sys with
  | error error => exact ⟨rfl, rfl⟩
  | ok session => cases action <;> simp only <;> split_ifs <;> exact ⟨rfl, rfl⟩

/-- The deletion of the next blob. -/
theorem ChunkEffect.of_delete {chunk : UploadChunk} {remaining : List UploadChunk}
    (isAfter : after.sys = Storage.delete chunk.storageKey store.sys)
    (written : next.written = task.written) (session : next.session = task.session)
    (earlier : task.claim = some (chunk :: remaining)) (later : next.claim = some remaining) :
    ChunkEffect userId store after task next := by
  apply ChunkEffect.works (by rw [isAfter]; rfl) (by rw [isAfter]; exact le_rfl) _ written
  · intro chunks claims
    rw [later, Option.some.injEq] at claims
    rw [← claims]
    refine ⟨session, _, earlier, ?_⟩
    intro other member
    rcases List.mem_cons.mp member with rfl | rest
    · apply Or.inr
      rw [isAfter]
      exact fun stored => (stored_of_delete stored).2 rfl
    · exact .inl rest
  · intro key _ stored
    rw [isAfter] at stored
    exact (stored_of_delete stored).1

theorem ChunkEffect.of_drawn (isAfter : after.sys = store.sys.drawn)
    (written : next.written = task.written)
    (claim : next.claim = none ∨ next.claim = task.claim ∧ next.session = task.session) :
    ChunkEffect userId store after task next := by
  apply ChunkEffect.of_same (by rw [isAfter]; rfl) _ _ written claim
  · rw [isAfter]
    exact (le_max_left _ _).trans (Nat.le_succ _)
  · rw [isAfter]
    exact fun _ _ stored => stored

theorem ChunkEffect.of_dropMerged {file : StoredFile} {error : ServiceError}
    (drops : dropMerged file error store = (after, next)) (written : task.written = none) :
    ChunkEffect userId store after task next := by
  cases drops
  refine .of_same rfl le_rfl ?_ written.symm (.inl rfl)
  exact fun _ _ stored => (stored_of_delete stored).1

/-! ### The actions of a completion -/

theorem SessionAction.listing_effect {action : SessionAction} {session : UploadSession}
    (acts : action.act userId sessionId store (.listing session) = some (after, next)) :
    ChunkEffect userId store after (.listing session) next := by
  simp only [act, work, Option.some.injEq, Prod.mk.injEq] at acts
  rcases acts with ⟨rfl, rfl⟩
  by_cases whole : missing session (listChunks store.sys.db session.id) = []
  · rw [if_pos whole]
    exact .lists rfl rfl rfl rfl rfl (.inr whole)
  · rw [if_neg whole]
    exact .of_sys rfl rfl (.inl rfl)

theorem SessionAction.checking_effect {action : SessionAction} {session : UploadSession}
    {chunks : List UploadChunk}
    (acts : action.act userId sessionId store (.checking session chunks) = some (after, next)) :
    ChunkEffect userId store after (.checking session chunks) next := by
  simp only [act, work] at acts
  split at acts
  · cases acts
    exact .of_sys rfl rfl (.inl rfl)
  · cases acts
    exact .of_drawn rfl rfl (.inr ⟨rfl, rfl⟩)

theorem SessionAction.merging_effect {action : SessionAction} {session : UploadSession}
    {chunks remaining : List UploadChunk} {key : StorageKey} {content : Content}
    (merges : key.isChunk = false)
    (acts : action.act userId sessionId store (.merging session chunks key content remaining) =
      some (after, next)) :
    ChunkEffect userId store after (.merging session chunks key content remaining) next := by
  cases remaining with
  | nil =>
      cases acts
      refine .of_same rfl le_rfl ?_ rfl (.inr ⟨rfl, rfl⟩)
      intro other isChunk stored
      rcases Storage.stored_saveStream.mp stored with rfl | earlier
      · rw [merges] at isChunk
        cases isChunk
      · exact earlier
  | cons chunk remaining =>
      simp only [act, work] at acts
      split at acts
      · cases acts
        exact .of_sys rfl rfl (.inl rfl)
      · cases acts
        exact .of_sys rfl rfl (.inr ⟨rfl, rfl⟩)

theorem SessionAction.naming_effect {action : SessionAction} {session : UploadSession}
    {chunks : List UploadChunk} {file : StoredFile} {counter : Nat} {name : String}
    (acts : action.act userId sessionId store (.naming session chunks file counter name) =
      some (after, next)) :
    ChunkEffect userId store after (.naming session chunks file counter name) next := by
  simp only [act, work] at acts
  split at acts
  · exact .of_dropMerged (Option.some.inj acts) rfl
  · cases acts
    exact .of_sys rfl rfl (.inr ⟨rfl, rfl⟩)
  · cases acts
    exact .of_sys rfl rfl (.inr ⟨rfl, rfl⟩)

theorem SessionAction.inserting_effect {action : SessionAction} {session : UploadSession}
    {chunks : List UploadChunk} {file : StoredFile} {name : String}
    (acts : action.act userId sessionId store (.inserting session chunks file name) =
      some (after, next)) :
    ChunkEffect userId store after (.inserting session chunks file name) next := by
  simp only [act, work] at acts
  split_ifs at acts
  split at acts
  · exact .of_dropMerged (Option.some.inj acts) rfl
  · cases acts
    exact .of_drawn rfl rfl (.inr ⟨rfl, rfl⟩)

theorem SessionAction.completed_effect {action : SessionAction} {session : UploadSession}
    {gone : List UploadChunk} {file : StoredFile} {item : DriveItem}
    (own : ∀ chunk ∈ gone, chunk.sessionId = session.id)
    (acts : action.act userId sessionId store (.completed session gone file item) =
      some (after, next)) :
    ChunkEffect userId store after (.completed session gone file item) next := by
  simp only [act] at acts
  cases commits : commitCompletion userId session gone file item store.sys with
  | error error =>
      rw [commits] at acts
      cases acts
      exact .of_sys rfl rfl (.inl rfl)
  | ok sys =>
      rw [commits] at acts
      cases acts
      exact .ends rfl rfl rfl rfl (commitCompletion_ends own commits)

/-! ### The other actions -/

theorem SessionAction.feeding_effect {action : SessionAction} {session : UploadSession}
    {chunk : UploadChunk}
    (acts : action.act userId sessionId store (.feeding session chunk) = some (after, next)) :
    ChunkEffect userId store after (.feeding session chunk) next := by
  simp only [act, work] at acts
  split_ifs at acts with oversized
  · cases acts
    exact .overflows rfl oversized rfl rfl
  · exact .of_lockRow acts rfl (.inl rfl)
  · cases acts
    exact .of_sys rfl rfl (.inl rfl)

theorem SessionAction.act_effect {action : SessionAction}
    (own : ∀ session ∈ task.session, ∀ chunk ∈ task.gone, chunk.sessionId = session.id)
    (merges : ∀ session chunks key content remaining,
      task = .merging session chunks key content remaining → key.isChunk = false)
    (acts : action.act userId sessionId store task = some (after, next)) :
    ChunkEffect userId store after task next := by
  cases task with
  | arriving =>
      cases acts
      have quiet : (action.start userId sessionId store.sys).written = none ∧
          (action.start userId sessionId store.sys).claim = none := start_quiet action store.sys
      exact .of_sys rfl quiet.1 (.inl quiet.2)
  | listing => exact listing_effect acts
  | checking => exact checking_effect acts
  | merging => exact merging_effect (merges _ _ _ _ _ rfl) acts
  | naming => exact naming_effect acts
  | inserting => exact inserting_effect acts
  | charging => exact .of_lockRow acts rfl (.inr ⟨rfl, rfl⟩)
  | discarding session chunks file item remaining =>
      cases remaining with
      | nil =>
          cases acts
          exact .of_sys rfl rfl (.inr ⟨rfl, rfl⟩)
      | cons chunk remaining =>
          cases acts
          exact .of_delete rfl rfl rfl rfl rfl
  | completing => exact .of_lockRow acts rfl (.inr ⟨rfl, rfl⟩)
  | completed session => exact completed_effect (own session rfl) acts
  | listingToCancel session =>
      cases acts
      exact .lists rfl rfl rfl rfl rfl (.inl rfl)
  | dropping session chunks remaining =>
      cases remaining with
      | nil =>
          cases acts
          exact .of_sys rfl rfl (.inr ⟨rfl, rfl⟩)
      | cons chunk remaining =>
          cases acts
          exact .of_delete rfl rfl rfl rfl rfl
  | cancelling => exact .of_lockRow acts rfl (.inr ⟨rfl, rfl⟩)
  | cancelled session gone =>
      cases acts
      apply ChunkEffect.ends rfl rfl rfl rfl
      exact (removeChunks_ends session (own session rfl)).trans
        (updateStatus_ends session .cancelled none none fun _ => rfl)
  | saving =>
      cases acts
      exact .saves rfl rfl rfl rfl
  | feeding => exact feeding_effect acts
  | fed =>
      cases acts
      exact .feeds rfl rfl rfl
  | ended => cases acts

end ChunkEffects

end CloudDrive
