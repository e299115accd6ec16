import CloudDrive.Upload.Assembly
import CloudDrive.Upload.ChunkInvariant

/-! # Chunks that outlive their session -/

namespace CloudDrive

open Outcome Relational Execution UploadSessionService

section Leaks

variable [Platform] {userId sessionId : Uuid} {store after : UploadStore} {task next : SessionTask}

/-! ## The specification -/

/-- No blob of a chunk belongs to a session that is over or gone. -/
def NoLeak (sys : System) : Prop :=
  ∀ userId sessionId index, Stored sys (.chunk userId sessionId index) →
    SessionActive sys sessionId

/-- The step saves no chunk into a session that is over, gone or past deleting it. It lists
the chunks of a session to end it when all of them have rows, and neither a fault nor a size
beyond its column takes away the only trace of a chunk that is stored. -/
structure Timely {ι : Type}
    (event : Event (ServiceWorld ι) (Interleaving.Move ι (ServiceEvent ι))) : Prop where
  saves : ∀ index session chunkIndex stream, event.action = .turn index →
    event.before.store.faults index = none →
    event.before.task index = .working (.saving session chunkIndex stream) →
      SessionActive event.before.store.sys session.id ∧
      ∀ other chunks, (event.before.task other).Claims session.id chunks →
        ∃ chunk ∈ chunks, chunk.storageKey = .chunk session.userId session.id chunkIndex
  lists : ∀ index sessionId, event.action = .turn index →
    event.before.store.faults index = none → (event.before.task index).Lists sessionId →
      ∀ userId chunkIndex, Stored event.before.store.sys (.chunk userId sessionId chunkIndex) →
        HasRow event.before.store.sys (.chunk userId sessionId chunkIndex)
  fails : ∀ index chunk, event.action = .turn index →
    event.before.store.faults index ≠ none ∨ maxInt4 < chunk.size →
    (event.before.task index).written = some chunk →
    Stored event.before.store.sys chunk.storageKey →
      HasRow event.before.store.sys chunk.storageKey ∨
      ∃ other again, other ≠ index ∧ (event.before.task other).written = some again ∧
        again.storageKey = chunk.storageKey

/-- Every stored chunk has a row and belongs to an active session. -/
structure Settled (sys : System) : Prop where
  drawn : ∀ session ∈ sys.db.sessions, session.id < sys.seed
  rows : ∀ row ∈ sys.db.chunks, ∃ session ∈ sys.db.sessions, session.id = row.sessionId ∧
    row.storageKey = .chunk session.userId session.id row.chunkIndex
  blobs : ∀ userId sessionId index, Stored sys (.chunk userId sessionId index) →
    HasRow sys (.chunk userId sessionId index) ∧
    ∃ session ∈ sys.db.sessions, session.id = sessionId ∧ session.userId = userId ∧
      session.status.isActive = true ∧ index < session.totalChunks

section Steps

variable {ι : Type} {card : Uuid → Uuid × Nat} {requests : ι → UploadRequest}
  {world later : ServiceWorld ι} {index : ι}

/-! ## The requests on a session -/

omit [Platform] in
theorem missing_index {session : UploadSession} {chunks : List UploadChunk}
    (whole : missing session chunks = []) {chunkIndex : Nat}
    (bound : chunkIndex < session.totalChunks) :
    ∃ chunk ∈ chunks, chunk.chunkIndex = chunkIndex := by
  have present := List.filter_eq_nil_iff.mp whole chunkIndex (List.mem_range.mpr bound)
  rw [decide_eq_true_eq, not_not] at present
  exact List.mem_map.mp present

omit [Platform] in
theorem ServiceTask.not_claims_ended {result : Except ServiceError Unit}
    {chunks : List UploadChunk} :
    ¬ (ServiceTask.working (.ended result)).Claims sessionId chunks := by
  intro claims
  cases claims with
  | working isSession _ => cases isSession

/-! ## Faults -/

/-- A request that fails leaves the database as it is, and saves and claims nothing. -/
structure Failed {ι : Type} (store after : ServiceStore ι) (next : ServiceTask) : Prop where
  db : after.sys.db = store.sys.db
  seed : after.sys.seed = store.sys.seed
  blobs : ∀ key, Stored after.sys key → Stored store.sys key
  next : (∃ result, next = .working (.ended result)) ∨ ∃ result, next = .ended result

theorem UploadRequest.fail_failed {request : UploadRequest} {error : ServiceError}
    {store after : ServiceStore ι} {each next : ServiceTask}
    (fails : request.fail error store each = some (after, next)) : Failed store after next := by
  have stays : ∀ {result : Except ServiceError Unit} (released : ServiceStore ι),
      released.sys = store.sys → some (released, ServiceTask.ended result) = some (after, next) →
        Failed store after next := by
    intro result released same isEnd
    cases isEnd
    exact ⟨by rw [same], by rw [same], fun _ stored => same ▸ stored, .inr ⟨_, rfl⟩⟩
  cases each with
  | arriving => cases request <;> exact stays store rfl fails
  | creating => cases request <;> exact stays store rfl fails
  | expiring expired gone => cases request <;> exact stays (store.release gone) rfl fails
  | emptying session remaining expired gone =>
      cases request <;> exact stays (store.release gone) rfl fails
  | ended => cases request <;> cases fails
  | working task =>
      cases request with
      | create => exact stays store rfl fails
      | cleanup => exact stays store rfl fails
      | onSession userId sessionId action =>
          have rolls : ∀ file : StoredFile, Failed store (store.put userId sessionId
              (dropMerged file error (task.rollBack (store.view userId sessionId))).1)
              (.working (.ended (.error error))) :=
            fun file => ⟨rfl, rfl, fun _ stored => (stored_of_delete stored).1, .inl ⟨_, rfl⟩⟩
          have rests : Failed store (store.put userId sessionId
              (task.rollBack (store.view userId sessionId))) (.working (.ended (.error error))) :=
            ⟨rfl, rfl, fun _ stored => stored, .inl ⟨_, rfl⟩⟩
          cases task with
          | ended => cases fails
          | naming | inserting | charging =>
              cases fails
              exact rolls _
          | _ =>
              cases fails
              exact rests

theorem Failed.unclaimed {store after : ServiceStore ι} {each : ServiceTask}
    (failed : Failed store after each) (sessionId : Uuid) (chunks : List UploadChunk) :
    ¬ each.Claims sessionId chunks := by
  rcases failed.next with ⟨result, rfl⟩ | ⟨result, rfl⟩
  · exact ServiceTask.not_claims_ended
  · intro claims
    cases claims

theorem Failed.sound {store after : ServiceStore ι} {each : ServiceTask}
    (failed : Failed store after each) {seed : Nat} (request : UploadRequest) :
    each.Sound card seed request := by
  rcases failed.next with ⟨result, rfl⟩ | ⟨result, rfl⟩
  · cases request <;> trivial
  · cases request <;> trivial

/-- A request fails whose chunk has another trace, if it is stored. -/
theorem Tidy.fails (tidy : Tidy card requests world)
    (others : ∀ other, other ≠ index → later.task other = world.task other)
    (failed : Failed world.store later.store (later.task index))
    (traced : ∀ chunk, (world.task index).written = some chunk →
      Stored world.store.sys chunk.storageKey →
        HasRow world.store.sys chunk.storageKey ∨ ∃ other again, other ≠ index ∧
          (world.task other).written = some again ∧ again.storageKey = chunk.storageKey) :
    Tidy card requests later := by
  apply tidy.uncommitted others failed.db failed.seed.ge (fun key _ => failed.blobs key) _ _
    (failed.sound _)
  · intro chunk isWritten stored
    rcases traced chunk isWritten (failed.blobs _ stored) with
      hasRow | ⟨other, again, different, isAgain, sameKey⟩
    · apply Or.inl
      rw [HasRow, failed.db]
      exact hasRow
    · rw [← others other different] at isAgain
      exact .inr ⟨other, again, isAgain, sameKey⟩
  · exact fun sessionId chunks claims => absurd claims (failed.unclaimed sessionId chunks)

/-! ### The steps -/

/-- What the action of a request on a session does to the chunks, the steps being timely. -/
theorem Tidy.effect (tidy : Tidy card requests world)
    (others : ∀ other, other ≠ index → later.task other = world.task other)
    {task next : SessionTask} {store after : UploadStore} (stage : world.task index = .working task)
    (isNext : later.task index = .working next) (isStore : store.sys = world.store.sys)
    (isAfter : later.store.sys = after.sys) (effect : ChunkEffect userId store after task next)
    (taskSound : task.Sound card world.store.sys.seed userId)
    {action : SessionAction} (isRequest : requests index = .onSession userId sessionId action)
    (nextSound : next.Sound card after.sys.seed userId)
    (saves : ∀ session chunkIndex stream, task = .saving session chunkIndex stream →
      SessionActive world.store.sys session.id ∧
      ∀ other chunks, (world.task other).Claims session.id chunks →
        ∃ chunk ∈ chunks, chunk.storageKey = .chunk session.userId session.id chunkIndex)
    (lists : ∀ session, task = .listingToCancel session → ∀ userId chunkIndex,
      Stored world.store.sys (.chunk userId session.id chunkIndex) →
        HasRow world.store.sys (.chunk userId session.id chunkIndex))
    (overflows : ∀ session chunk, task = .feeding session chunk → maxInt4 < chunk.size →
      Stored world.store.sys chunk.storageKey →
        HasRow world.store.sys chunk.storageKey ∨ ∃ other again, other ≠ index ∧
          (world.task other).written = some again ∧ again.storageKey = chunk.storageKey) :
    Tidy card requests later := by
  have wasWritten : (world.task index).written = task.written := by rw [stage]; rfl
  have sound : (later.task index).Sound card later.store.sys.seed (requests index) := by
    rw [isNext, isRequest, isAfter]
    exact nextSound
  cases effect with
  | works db seed blobs written claim =>
      rw [← isAfter, isStore] at db seed
      simp only [← isAfter, isStore] at blobs
      apply tidy.uncommitted others db seed blobs _ _ sound
      · intro chunk isWritten _
        rw [wasWritten, ← written] at isWritten
        exact .inr ⟨index, chunk, by rw [isNext]; exact isWritten, rfl⟩
      · intro anySession chunks claims anyUser chunkIndex stored
        rw [isNext] at claims
        cases claims with
        | working isSession isClaim =>
            rcases claim chunks isClaim with ⟨sameSession, earlier, isEarlier, all⟩
            rw [sameSession] at isSession
            have before := ServiceTask.Claims.working isSession isEarlier
            rw [← stage] at before
            rcases tidy.claimed index _ earlier before anyUser chunkIndex (blobs _ rfl stored) with
              ⟨chunk, among, isKey⟩
            rcases all chunk among with still | deleted
            · exact ⟨chunk, still, isKey⟩
            · rw [← isAfter, isKey] at deleted
              exact absurd stored deleted
  | @lists session same unwritten nextUnwritten isSession isClaim whole =>
      have sameSys : later.store.sys = world.store.sys := isAfter.trans (same.trans isStore)
      rw [isStore] at isClaim whole
      apply tidy.uncommitted others (by rw [sameSys]) (by rw [sameSys]) _ _ _ sound
      · rw [sameSys]
        exact fun _ _ stored => stored
      · intro chunk isWritten
        rw [wasWritten, unwritten] at isWritten
        cases isWritten
      · intro anySession chunks claims anyUser chunkIndex stored
        rw [sameSys] at stored
        rw [isNext] at claims
        cases claims with
        | working holds claim =>
            cases isSession.symm.trans holds
            cases isClaim.symm.trans claim
            rcases whole with isTask | whole
            · exact (lists session isTask anyUser chunkIndex stored).of_wellKeyed tidy.rows
            · -- Every index has a row, and the row refers to the blob.
              rcases nextSound.session session isSession with ⟨⟨_, isCard⟩, _⟩
              rcases tidy.active anyUser session.id chunkIndex stored with ⟨_, isUser, bound⟩
              rw [isCard] at isUser bound
              rcases missing_index whole bound with ⟨chunk, among, isIndex⟩
              rcases mem_listChunks.mp among with ⟨member, own⟩
              refine ⟨chunk, among, ?_⟩
              rw [(tidy.rows chunk member).2, own, isCard, isUser, isIndex]
  | @saves session chunkIndex stream chunk isTask isSaved nextFeeds isKey =>
      subst isTask
      rcases taskSound with ⟨mine, bound⟩
      rcases saves session chunkIndex stream rfl with ⟨active, ahead⟩
      rw [mine.2] at ahead
      rw [← isAfter, isStore] at isSaved
      rw [nextFeeds] at isNext
      exact tidy.saves others isSaved isNext isKey mine bound wasWritten active ahead sound
  | @ends session result isSession isClaim unwritten nextEnded ends =>
      rw [← isAfter, isStore] at ends
      rw [nextEnded] at isNext
      apply tidy.ends others ends _ (wasWritten.trans unwritten) _ sound
      · intro closedId isClosed anyUser chunkIndex stored
        have claims := ServiceTask.Claims.working isSession isClaim
        rw [← stage, ← isClosed] at claims
        rcases tidy.claimed index closedId [] claims anyUser chunkIndex stored with ⟨_, among, _⟩
        cases among
      · intro anySession chunks
        rw [isNext]
        exact ServiceTask.not_claims_ended
  | @feeds session chunk marks result isTask commits nextEnded =>
      rw [← isAfter, isStore] at commits
      rw [nextEnded] at isNext
      subst isTask
      apply tidy.feeds others commits wasWritten taskSound.2.1 _ sound
      intro anySession chunks
      rw [isNext]
      exact ServiceTask.not_claims_ended
  | @overflows session chunk result isTask oversized same nextEnded =>
      have sameSys : later.store.sys = world.store.sys := isAfter.trans (same.trans isStore)
      rw [nextEnded] at isNext
      apply tidy.fails others
      · exact ⟨by rw [sameSys], by rw [sameSys], fun _ stored => sameSys ▸ stored, .inl ⟨_, isNext⟩⟩
      · intro any isWritten
        rw [wasWritten, isTask] at isWritten
        cases isWritten
        exact overflows session chunk isTask oversized

/-! ## The other requests -/

theorem deleteSession_ends {closed : Uuid → Prop} {sys : System} (isClosed : closed sessionId) :
    Ends closed sys (deleteSession sessionId sys) where
  storage := rfl
  seed := rfl
  sessions row member := ⟨row, (Table.mem_filter.mp member).1, rfl, rfl, rfl⟩
  active other notClosed isActive := by
    rcases isActive with ⟨session, found, active⟩
    rcases Table.find?_eq_some.mp found with ⟨member, isKey⟩
    refine ⟨session, Table.find?_eq_some.mpr ⟨Table.mem_filter.mpr ⟨member, ?_⟩, isKey⟩, active⟩
    apply decide_eq_true
    intro same
    have isOther : session.id = other := isKey
    exact notClosed (isOther ▸ same ▸ isClosed)
  rows row member := (Table.mem_filter.mp member).1
  kept row member notClosed := by
    apply Table.mem_filter.mpr
    apply And.intro member
    apply decide_eq_true
    exact fun same => notClosed (same ▸ isClosed)

theorem deleteSessions_ends {closed : Uuid → Prop} : ∀ {gone : List UploadSession} {sys : System},
    (∀ session ∈ gone, closed session.id) →
      Ends closed sys (gone.foldl (fun sys session => deleteSession session.id sys) sys)
  | [], _, _ => ⟨rfl, rfl, fun row member => ⟨row, member, rfl, rfl, rfl⟩,
      fun _ _ active => active, fun _ member => member, fun _ member _ => member⟩
  | session :: _, _, isClosed =>
      (deleteSession_ends (isClosed session List.mem_cons_self)).trans
        (deleteSessions_ends fun other member => isClosed other (List.mem_cons_of_mem _ member))

/-- A step of the cleanup job that commits nothing. -/
theorem Tidy.cleanup_uncommitted (tidy : Tidy card requests world)
    (others : ∀ other, other ≠ index → later.task other = world.task other)
    (isRequest : requests index = .cleanup)
    (db : later.store.sys.db = world.store.sys.db)
    (seed : later.store.sys.seed = world.store.sys.seed)
    (blobs : ∀ key, Stored later.store.sys key → Stored world.store.sys key)
    (unwritten : (world.task index).written = none)
    (kind : (∃ expired gone, later.task index = .expiring expired gone) ∨
      ∃ session remaining expired gone,
        later.task index = .emptying session remaining expired gone)
    (claimed : ∀ sessionId chunks, (later.task index).Claims sessionId chunks →
      ∀ userId chunkIndex, Stored later.store.sys (.chunk userId sessionId chunkIndex) →
        ∃ chunk ∈ chunks, chunk.storageKey = .chunk userId sessionId chunkIndex) :
    Tidy card requests later := by
  apply tidy.uncommitted others db seed.ge (fun key _ => blobs key) _ claimed
  · rw [isRequest]
    rcases kind with ⟨_, _, isNext⟩ | ⟨_, _, _, _, isNext⟩ <;> rw [isNext] <;> trivial
  · intro chunk isWritten
    rw [unwritten] at isWritten
    cases isWritten

/-- The job deletes the rows of the sessions that are over. -/
theorem Tidy.cleanup_commits (tidy : Tidy card requests world)
    (others : ∀ other, other ≠ index → later.task other = world.task other)
    (isRequest : requests index = .cleanup) {gone : List UploadSession}
    (stage : world.task index = .expiring [] gone)
    (acts : UploadRequest.cleanup.act world.store (.expiring [] gone) =
      some (later.store, later.task index)) : Tidy card requests later := by
  have claimed := tidy.claimed index
  rw [stage] at claimed
  simp only [UploadRequest.act, Option.some.injEq, Prod.mk.injEq] at acts
  rcases acts with ⟨isStore, isNext⟩
  have ends : Ends (fun sessionId => ∃ session ∈ gone, session.id = sessionId)
      world.store.sys later.store.sys := by
    rw [← isStore]
    exact deleteSessions_ends fun session member => ⟨session, member, rfl⟩
  apply tidy.ends others ends
  · intro sessionId isClosed userId chunkIndex stored
    rcases isClosed with ⟨session, member, rfl⟩
    rcases claimed session.id [] (.expired member) userId chunkIndex stored with ⟨_, among, _⟩
    cases among
  · rw [stage]
    rfl
  · intro sessionId chunks claims
    rw [← isNext] at claims
    cases claims
  · rw [← isNext, isRequest]
    trivial

/-- The job turns to the chunks of the next session that is over. -/
theorem Tidy.cleanup_lists (tidy : Tidy card requests world)
    (others : ∀ other, other ≠ index → later.task other = world.task other)
    (isRequest : requests index = .cleanup) {session : UploadSession}
    {expired gone : List UploadSession} (stage : world.task index = .expiring (session :: expired) gone)
    (acts : UploadRequest.cleanup.act world.store (.expiring (session :: expired) gone) =
      some (later.store, later.task index))
    (lists : ∀ userId chunkIndex, Stored world.store.sys (.chunk userId session.id chunkIndex) →
      HasRow world.store.sys (.chunk userId session.id chunkIndex)) :
    Tidy card requests later := by
  have claimed := tidy.claimed index
  rw [stage] at claimed
  simp only [UploadRequest.act, Option.some.injEq, Prod.mk.injEq] at acts
  rcases acts with ⟨sameStore, isNext⟩
  apply tidy.cleanup_uncommitted others isRequest (by rw [← sameStore])
    (by rw [← sameStore]) (by rw [← sameStore]; exact fun _ stored => stored)
    (by rw [stage]; rfl) (.inr ⟨_, _, _, _, isNext.symm⟩)
  intro sessionId chunks claims userId chunkIndex stored
  rw [← sameStore] at stored
  rw [← isNext] at claims
  cases claims with
  | emptying => exact (lists userId chunkIndex stored).of_wellKeyed tidy.rows
  | emptied member =>
      rcases claimed _ [] (.expired member) userId chunkIndex stored with ⟨_, among, _⟩
      cases among

/-- The job locks the row of a session whose chunks are gone. -/
theorem Tidy.cleanup_locks (tidy : Tidy card requests world)
    (others : ∀ other, other ≠ index → later.task other = world.task other)
    (isRequest : requests index = .cleanup) {session : UploadSession}
    {expired gone : List UploadSession}
    (stage : world.task index = .emptying session [] expired gone)
    (acts : UploadRequest.cleanup.act world.store (.emptying session [] expired gone) =
      some (later.store, later.task index)) : Tidy card requests later := by
  have claimed := tidy.claimed index
  rw [stage] at claimed
  simp only [UploadRequest.act] at acts
  split_ifs at acts
  simp only [Option.some.injEq, Prod.mk.injEq] at acts
  rcases acts with ⟨isStore, isNext⟩
  have sameSys : later.store.sys = world.store.sys := by rw [← isStore]
  apply tidy.cleanup_uncommitted others isRequest (by rw [sameSys]) (by rw [sameSys])
    (by rw [sameSys]; exact fun _ stored => stored) (by rw [stage]; rfl)
    (.inl ⟨_, _, isNext.symm⟩)
  intro sessionId chunks claims userId chunkIndex stored
  rw [sameSys] at stored
  rw [← isNext] at claims
  cases claims with
  | expired member =>
      rcases List.mem_cons.mp member with rfl | earlier
      · exact claimed _ [] .emptying userId chunkIndex stored
      · exact claimed _ [] (.emptied earlier) userId chunkIndex stored

/-- The job deletes the blob of a chunk. -/
theorem Tidy.cleanup_deletes (tidy : Tidy card requests world)
    (others : ∀ other, other ≠ index → later.task other = world.task other)
    (isRequest : requests index = .cleanup) {session : UploadSession} {chunk : UploadChunk}
    {remaining : List UploadChunk} {expired gone : List UploadSession}
    (stage : world.task index = .emptying session (chunk :: remaining) expired gone)
    (acts : UploadRequest.cleanup.act world.store
      (.emptying session (chunk :: remaining) expired gone) =
        some (later.store, later.task index)) : Tidy card requests later := by
  have claimed := tidy.claimed index
  rw [stage] at claimed
  simp only [UploadRequest.act, Option.some.injEq, Prod.mk.injEq] at acts
  rcases acts with ⟨isStore, isNext⟩
  have blobs : ∀ key, Stored later.store.sys key →
      Stored world.store.sys key ∧ key ≠ chunk.storageKey := by
    intro key stored
    rw [← isStore] at stored
    exact stored_of_delete stored
  apply tidy.cleanup_uncommitted others isRequest (by rw [← isStore]; rfl)
    (by rw [← isStore]; rfl) (fun key stored => (blobs key stored).1) (by rw [stage]; rfl)
    (.inr ⟨_, _, _, _, isNext.symm⟩)
  intro sessionId chunks claims userId chunkIndex stored
  rcases blobs _ stored with ⟨earlier, different⟩
  rw [← isNext] at claims
  cases claims with
  | emptying =>
      rcases claimed session.id _ .emptying userId chunkIndex earlier with ⟨other, among, isKey⟩
      rcases List.mem_cons.mp among with rfl | later
      · exact absurd isKey.symm different
      · exact ⟨other, later, isKey⟩
  | emptied member => exact claimed _ [] (.emptied member) userId chunkIndex earlier

/-- A run of the cleanup job, step by step. -/
theorem Tidy.cleans (tidy : Tidy card requests world)
    (others : ∀ other, other ≠ index → later.task other = world.task other)
    (isRequest : requests index = .cleanup)
    (acts : UploadRequest.cleanup.act world.store (world.task index) =
      some (later.store, later.task index))
    (lists : ∀ sessionId, (world.task index).Lists sessionId → ∀ userId chunkIndex,
      Stored world.store.sys (.chunk userId sessionId chunkIndex) →
        HasRow world.store.sys (.chunk userId sessionId chunkIndex)) :
    Tidy card requests later := by
  cases stage : world.task index with
  | creating | working | ended =>
      rw [stage] at acts
      cases acts
  | arriving =>
      rw [stage] at acts
      simp only [UploadRequest.act, Option.some.injEq, Prod.mk.injEq] at acts
      rcases acts with ⟨sameStore, isNext⟩
      apply tidy.cleanup_uncommitted others isRequest (by rw [← sameStore]) (by rw [← sameStore])
        (by rw [← sameStore]; exact fun _ stored => stored) (by rw [stage]; rfl)
        (.inl ⟨_, _, isNext.symm⟩)
      intro sessionId chunks claims
      rw [← isNext] at claims
      rcases claims with _ | _ | _ | ⟨member⟩
      cases member
  | expiring expired gone =>
      rw [stage] at acts lists
      cases expired with
      | nil => exact tidy.cleanup_commits others isRequest stage acts
      | cons session expired =>
          exact tidy.cleanup_lists others isRequest stage acts (lists session.id .expiring)
  | emptying session remaining expired gone =>
      rw [stage] at acts
      cases remaining with
      | nil => exact tidy.cleanup_locks others isRequest stage acts
      | cons chunk remaining => exact tidy.cleanup_deletes others isRequest stage acts

/-! ### New sessions -/

omit [Platform] in
theorem Enrolled.agree {card' : Uuid → Uuid × Nat} {seed : Nat} {session : UploadSession}
    (enrolled : Enrolled card seed session) (agree : ∀ id < seed, card' id = card id) :
    Enrolled card' seed session :=
  ⟨enrolled.1, (agree session.id enrolled.1).trans enrolled.2⟩

omit [Platform] in
theorem WellKeyed.agree {card' : Uuid → Uuid × Nat} {seed : Nat} {row : UploadChunk}
    (keyed : WellKeyed card seed row) (agree : ∀ id < seed, card' id = card id) :
    WellKeyed card' seed row := by
  apply And.intro keyed.1
  rw [agree row.sessionId keyed.1]
  exact keyed.2

omit [Platform] in
theorem SessionTask.Sound.agree {card' : Uuid → Uuid × Nat} {seed : Nat}
    (sound : task.Sound card seed userId) (agree : ∀ id < seed, card' id = card id) :
    task.Sound card' seed userId := by
  cases task with
  | arriving | ended => trivial
  | listing | checking | naming | inserting | charging | discarding | listingToCancel
  | dropping => exact ⟨sound.1.agree agree, sound.2⟩
  | merging | completing | completed | cancelling | cancelled | saving =>
      exact ⟨⟨sound.1.1.agree agree, sound.1.2⟩, sound.2⟩
  | feeding | fed =>
      exact ⟨⟨sound.1.1.agree agree, sound.1.2⟩, sound.2.1.agree agree, sound.2.2⟩

omit [Platform] in
theorem ServiceTask.Sound.agree {card' : Uuid → Uuid × Nat} {seed : Nat}
    {request : UploadRequest} {each : ServiceTask} (sound : each.Sound card seed request)
    (agree : ∀ id < seed, card' id = card id) : each.Sound card' seed request := by
  cases each with
  | arriving | expiring | emptying | ended => cases request <;> trivial
  | creating => cases request <;> exact Enrolled.agree sound agree
  | working =>
      cases request with
      | create | cleanup => trivial
      | onSession => exact SessionTask.Sound.agree sound agree

/-- What is known of ids that were not drawn yet does not matter. -/
theorem Tidy.agree {card' : Uuid → Uuid × Nat} (tidy : Tidy card requests world)
    (agree : ∀ id < world.store.sys.seed, card' id = card id) : Tidy card' requests world where
  sessions session member := (tidy.sessions session member).agree agree
  rows row member := (tidy.rows row member).agree agree
  active userId sessionId chunkIndex stored := by
    rcases tidy.active userId sessionId chunkIndex stored with ⟨active, isCard⟩
    rcases active with ⟨session, found, isActive⟩
    rcases Table.find?_eq_some.mp found with ⟨member, isKey⟩
    have drawn := (tidy.sessions session member).1
    have isId : session.id = sessionId := isKey
    rw [isId] at drawn
    rw [agree sessionId drawn]
    exact ⟨⟨session, found, isActive⟩, isCard⟩
  recorded := tidy.recorded
  claimed := tidy.claimed
  tasks other := (tidy.tasks other).agree agree

/-- A request that creates a session, step by step. -/
theorem Tidy.creates (tidy : Tidy card requests world)
    (others : ∀ other, other ≠ index → later.task other = world.task other)
    {filename : String} {totalSize : Nat} {parentId : Option Uuid} {mimeType : Option String}
    (isRequest : requests index = .create userId filename totalSize parentId mimeType)
    (acts : (UploadRequest.create userId filename totalSize parentId mimeType).act world.store
      (world.task index) = some (later.store, later.task index)) :
    ∃ card', Tidy card' requests later := by
  have sound := tidy.tasks index
  cases stage : world.task index with
  | working | expiring | emptying | ended =>
      rw [stage] at acts
      cases acts
  | arriving =>
      rw [stage] at acts
      simp only [UploadRequest.act] at acts
      have unwritten : (world.task index).written = none := by rw [stage]; rfl
      have noChunk : ∀ chunk, (world.task index).written = some chunk →
          Stored later.store.sys chunk.storageKey → Recorded later chunk.storageKey := by
        intro chunk isWritten
        rw [unwritten] at isWritten
        cases isWritten
      cases creates : createSession userId filename totalSize parentId mimeType world.store.sys with
      | error error =>
          rw [creates] at acts
          simp only [Option.some.injEq, Prod.mk.injEq] at acts
          rcases acts with ⟨sameStore, isNext⟩
          refine ⟨card, tidy.uncommitted others (by rw [← sameStore]) (by rw [← sameStore])
            (by rw [← sameStore]; exact fun _ _ stored => stored) noChunk ?_ ?_⟩
          · intro sessionId chunks claims
            rw [← isNext] at claims
            cases claims
          · rw [← isNext, isRequest]
            trivial
      | ok made =>
          rcases made with ⟨session, sys⟩
          rcases createSession_ok creates with ⟨_, isId, _⟩
          rw [creates] at acts
          simp only [Option.some.injEq, Prod.mk.injEq] at acts
          rcases acts with ⟨isStore, isNext⟩
          have isSys : later.store.sys = world.store.sys.drawn := by rw [← isStore]
          let card' := Function.update card session.id (session.userId, session.totalChunks)
          have agree : ∀ id < world.store.sys.seed, card' id = card id := by
            intro id drawn
            apply Function.update_of_ne
            intro same
            have new : world.store.sys.seed ≤ world.store.sys.uuid4 := le_max_left _ _
            rw [same, isId] at drawn
            exact absurd drawn (Nat.not_lt.mpr new)
          refine ⟨card', (tidy.agree agree).uncommitted others (by rw [isSys]; rfl)
            (by rw [isSys]; exact world.store.sys.le_drawn)
            (by rw [isSys]; exact fun _ _ stored => stored) noChunk ?_ ?_⟩
          · intro sessionId chunks claims
            rw [← isNext] at claims
            cases claims
          · have enrolled : Enrolled card' later.store.sys.seed session := by
              constructor
              · rw [isSys, isId]
                exact Nat.lt_succ_self _
              · exact Function.update_self ..
            rw [← isNext, isRequest]
            exact enrolled
  | creating session =>
      rw [stage, isRequest] at sound
      rw [stage] at acts
      simp only [UploadRequest.act] at acts
      have unwritten : (world.task index).written = none := by rw [stage]; rfl
      have noChunk : ∀ chunk, (world.task index).written = some chunk →
          Stored later.store.sys chunk.storageKey → Recorded later chunk.storageKey := by
        intro chunk isWritten
        rw [unwritten] at isWritten
        cases isWritten
      cases inserts : world.store.sys.db.sessions.insert? session with
      | none =>
          rw [inserts] at acts
          simp only [Option.some.injEq, Prod.mk.injEq] at acts
          rcases acts with ⟨sameStore, isNext⟩
          refine ⟨card, tidy.uncommitted others (by rw [← sameStore]) (by rw [← sameStore])
            (by rw [← sameStore]; exact fun _ _ stored => stored) noChunk ?_ ?_⟩
          · intro sessionId chunks claims
            rw [← isNext] at claims
            cases claims
          · rw [← isNext, isRequest]
            trivial
      | some sessions =>
          rw [inserts] at acts
          simp only [Option.some.injEq, Prod.mk.injEq] at acts
          rcases acts with ⟨isStore, isNext⟩
          have isSys : later.store.sys = world.store.sys.withSessions sessions := by rw [← isStore]
          refine ⟨card, tidy.shrink others (by rw [isSys]; rfl) ?_ (by rw [isSys]; exact tidy.rows)
            (by rw [isSys]; exact fun _ _ stored => stored) ?_ ?_ noChunk ?_ ?_⟩
          · rw [isSys]
            intro row member
            rcases (Table.mem_of_insert? inserts).mp member with earlier | rfl
            · exact tidy.sessions row earlier
            · exact sound
          · intro anyUser sessionId chunkIndex stored
            rw [isSys] at stored
            rcases (tidy.active anyUser sessionId chunkIndex stored).1 with ⟨row, found, active⟩
            rw [isSys]
            exact ⟨row, Table.find?_insert? inserts found, active⟩
          · intro anyUser sessionId chunkIndex _ hasRow
            apply Or.inl
            rw [isSys]
            exact hasRow
          · intro sessionId chunks claims
            rw [← isNext] at claims
            cases claims
          · rw [← isNext, isRequest]
            trivial

/-- A request on one session, step by step. -/
theorem Tidy.works (tidy : Tidy card requests world)
    (others : ∀ other, other ≠ index → later.task other = world.task other)
    {action : SessionAction} (isRequest : requests index = .onSession userId sessionId action)
    (acts : (UploadRequest.onSession userId sessionId action).act world.store
      (world.task index) = some (later.store, later.task index))
    (saves : ∀ session chunkIndex stream,
      world.task index = .working (.saving session chunkIndex stream) →
        SessionActive world.store.sys session.id ∧
        ∀ other chunks, (world.task other).Claims session.id chunks →
          ∃ chunk ∈ chunks, chunk.storageKey = .chunk session.userId session.id chunkIndex)
    (lists : ∀ sessionId, (world.task index).Lists sessionId → ∀ userId chunkIndex,
      Stored world.store.sys (.chunk userId sessionId chunkIndex) →
        HasRow world.store.sys (.chunk userId sessionId chunkIndex))
    (overflows : ∀ chunk, maxInt4 < chunk.size → (world.task index).written = some chunk →
      Stored world.store.sys chunk.storageKey →
        HasRow world.store.sys chunk.storageKey ∨ ∃ other again, other ≠ index ∧
          (world.task other).written = some again ∧ again.storageKey = chunk.storageKey) :
    Tidy card requests later := by
  have taskSound := tidy.tasks index
  cases stage : world.task index with
  | creating | expiring | emptying | ended =>
      rw [stage] at acts
      cases acts
  | arriving =>
      rw [stage] at acts
      simp only [UploadRequest.act, Option.some.injEq, Prod.mk.injEq] at acts
      rcases acts with ⟨sameStore, isNext⟩
      apply tidy.uncommitted others (by rw [← sameStore]) (by rw [← sameStore])
        (by rw [← sameStore]; exact fun _ _ stored => stored)
      · intro chunk isWritten
        rw [stage] at isWritten
        cases isWritten
      · intro anySession chunks claims
        rw [← isNext] at claims
        cases claims with
        | working isSession _ => cases isSession
      · rw [← isNext, isRequest]
        trivial
  | working task =>
      rw [stage, isRequest] at taskSound
      rw [stage] at acts saves lists overflows
      simp only [UploadRequest.act] at acts
      split_ifs at acts with dangling
      · -- The session of a chunk without a session is not active, so nothing is stored.
        apply tidy.fails others (UploadRequest.fail_failed acts)
        intro chunk isWritten stored
        rw [stage] at isWritten
        cases task with
        | fed session row marks =>
            cases isWritten
            rcases taskSound with ⟨_, keyed, own⟩
            rw [keyed.2, own] at stored
            rcases (tidy.active _ _ _ stored).1 with ⟨live, found, _⟩
            rw [SessionTask.danglingChunk, found] at dangling
            cases dangling
        | _ => cases dangling
      · rcases Option.map_eq_some_iff.mp acts with ⟨⟨after, next⟩, works, isDone⟩
        rw [Prod.mk.injEq] at isDone
        rcases isDone with ⟨isStore, isNext⟩
        have isAfter : later.store.sys = after.sys := by
          rw [← isStore]
          rfl
        have merges : ∀ session chunks key content remaining,
            task = .merging session chunks key content remaining → key.isChunk = false := by
          intro session chunks key content remaining isTask
          rw [isTask] at taskSound
          exact taskSound.2
        have sound : task.Sound card world.store.sys.seed userId := taskSound
        have effect := SessionAction.act_effect sound.own merges works
        have nextSound : next.Sound card after.sys.seed userId :=
          SessionAction.act_sound sound tidy.sessions works
        apply tidy.effect others stage isNext.symm rfl isAfter effect sound isRequest nextSound
        · intro session chunkIndex stream isTask
          exact saves session chunkIndex stream (congrArg _ isTask)
        · intro session isTask
          exact lists session.id (isTask ▸ .cancelling)
        · intro session chunk isTask oversized
          exact overflows chunk oversized (by rw [isTask]; rfl)

end Steps

/-! ## Whole runs -/

section Runs

variable {ι : Type} {requests : ι → UploadRequest} {world later : ServiceWorld ι}

theorem Settled.tidy {start : System} (settled : Settled start) :
    ∃ card, Tidy card requests (serviceStarts start) := by
  let card : Uuid → Uuid × Nat := fun sessionId =>
    match start.db.sessions.find? sessionId with
    | some session => (session.userId, session.totalChunks)
    | none => (0, 0)
  have isCard : ∀ session ∈ start.db.sessions,
      card session.id = (session.userId, session.totalChunks) := by
    intro session member
    have found : start.db.sessions.find? session.id = some session :=
      Table.find?_eq_some.mpr ⟨member, rfl⟩
    simp only [card, found]
  refine ⟨card, ?_⟩
  constructor
  case sessions => exact fun session member => ⟨settled.drawn session member, isCard session member⟩
  case rows =>
    intro row member
    rcases settled.rows row member with ⟨session, sessionMem, isId, isKey⟩
    rw [WellKeyed, ← isId, isCard session sessionMem]
    exact ⟨settled.drawn session sessionMem, isKey⟩
  case active =>
    intro userId sessionId chunkIndex stored
    rcases (settled.blobs userId sessionId chunkIndex stored).2 with
      ⟨session, member, rfl, rfl, active, bound⟩
    rw [isCard session member]
    exact ⟨⟨session, Table.find?_eq_some.mpr ⟨member, rfl⟩, active⟩, rfl, bound⟩
  case recorded =>
    exact fun userId sessionId chunkIndex stored =>
      .inl (settled.blobs userId sessionId chunkIndex stored).1
  case claimed =>
    intro index sessionId chunks claims
    cases claims
  case tasks =>
    intro index
    show ServiceTask.arriving.Sound card _ (requests index)
    cases requests index <;> trivial

variable [DecidableEq ι]

/-- A timely step keeps the invariant. -/
theorem Tidy.step {card : Uuid → Uuid × Nat} (tidy : Tidy card requests world)
    {move : Interleaving.Move ι (ServiceEvent ι)}
    (step : (uploadService requests).Step move world later) (timely : Timely ⟨world, move, later⟩) :
    ∃ card', Tidy card' requests later := by
  rcases step.cases with ⟨index, isTurn, acts, others⟩ | ⟨event, _, happens, tasks⟩
  · simp only [uploadService] at acts
    cases struck : world.store.faults index with
    | some error =>
        rw [struck] at acts
        have isStruck : world.store.faults index ≠ none := by
          rw [struck]
          exact Option.some_ne_none error
        exact ⟨card, tidy.fails others (UploadRequest.fail_failed acts) fun chunk =>
          timely.fails index chunk isTurn (.inl isStruck)⟩
    | none =>
        rw [struck] at acts
        have saves := fun session chunkIndex stream =>
          timely.saves index session chunkIndex stream isTurn struck
        have lists := fun sessionId => timely.lists index sessionId isTurn struck
        cases isRequest : requests index with
        | create userId filename totalSize parentId mimeType =>
            simp only [isRequest] at acts
            exact tidy.creates others isRequest acts
        | onSession userId sessionId action =>
            simp only [isRequest] at acts
            have overflows := fun chunk oversized =>
              timely.fails index chunk isTurn (.inr oversized)
            exact ⟨card, tidy.works others isRequest acts saves lists overflows⟩
        | cleanup =>
            simp only [isRequest] at acts
            exact ⟨card, tidy.cleans others isRequest acts lists⟩
  · -- Neither a fault nor the time changes what is committed or stored.
    have same : later.store.sys.db = world.store.sys.db ∧
        later.store.sys.seed = world.store.sys.seed ∧
        later.store.sys.storage = world.store.sys.storage := by
      cases event with
      | fault struck error =>
          have isStore := Option.some.inj happens
          rw [← isStore]
          exact ⟨rfl, rfl, rfl⟩
      | wait elapsed =>
          have isStore := Option.some.inj happens
          rw [← isStore]
          exact ⟨rfl, rfl, rfl⟩
    rcases same with ⟨db, seed, storage⟩
    refine ⟨card, ?_⟩
    constructor
    case sessions =>
      rw [db, seed]
      exact tidy.sessions
    case rows =>
      rw [db, seed]
      exact tidy.rows
    case active =>
      simp only [Stored, SessionActive, db, storage]
      exact tidy.active
    case recorded =>
      simp only [Recorded, HasRow, Stored, db, storage, tasks]
      exact tidy.recorded
    case claimed =>
      simp only [Stored, storage, tasks]
      exact tidy.claimed
    case tasks =>
      rw [tasks, seed]
      exact tidy.tasks

/-- In a run whose steps are timely, no blob of a chunk outlives its session. -/
theorem noLeak_of_timely {start : System} (settled : Settled start)
    {events : List (Event (ServiceWorld ι) (Interleaving.Move ι (ServiceEvent ι)))}
    {final : ServiceWorld ι}
    (runs : (uploadService requests).Runs (serviceStarts start) events final)
    (timely : ∀ event ∈ events, Timely event) : NoLeak final.store.sys := by
  let Kept : ServiceWorld ι → Prop := fun world => ∃ card, Tidy card requests world
  have atStart : Kept (serviceStarts start) := settled.tidy
  have kept : Kept final := by
    apply runs.keeps atStart
    intro event member kept step
    rcases kept with ⟨card, tidy⟩
    exact tidy.step step (timely event member)
  rcases kept with ⟨card, tidy⟩
  exact fun userId sessionId index stored => (tidy.active userId sessionId index stored).1

end Runs

end Leaks

/-! ## A chunk that is sent before, and while, its session is cancelled

User 1 has sent the first of two chunks. -/

section Cancellation

attribute [local instance] twoByteChunks

private def halfSent : System :=
  match Op.commit (.uploadChunk 1 10 0 [[65, 66]]) (firstOpened "notes" 3) with
  | .ok sys => sys
  | .error _ => quietDay

private theorem halfSent_settled : Settled halfSent where
  drawn := by
    have early : ∀ session ∈ halfSent.db.sessions.rows, session.id < halfSent.seed := by decide
    exact early
  rows := by
    have referring : ∀ row ∈ halfSent.db.chunks.rows, ∃ session ∈ halfSent.db.sessions.rows,
        session.id = row.sessionId ∧
          row.storageKey = .chunk session.userId session.id row.chunkIndex := by decide
    exact referring
  blobs := by
    have traced : ∀ object ∈ halfSent.storage.rows,
        object.key = .chunk 1 10 0 ∧ ∃ row ∈ halfSent.db.chunks.rows, row.storageKey = object.key ∧
          ∃ session ∈ halfSent.db.sessions.rows, session.id = 10 ∧ session.userId = 1 ∧
            session.status.isActive = true ∧ 0 < session.totalChunks := by decide
    intro userId sessionId index stored
    rcases stored with ⟨object, member, isKey⟩
    rcases traced object member with ⟨isFirst, row, rowMem, rowKey, session⟩
    rw [isFirst, StorageKey.chunk.injEq] at isKey
    rcases isKey with ⟨rfl, rfl, rfl⟩
    exact ⟨⟨row, rowMem, rowKey.trans isFirst⟩, session⟩

private def sendsAndCancels (cancels : Bool) : UploadRequest :=
  .onSession 1 10 (if cancels then .cancel else .uploadChunk 1 [[67]])

/-- Some request is ending a session. -/
private def ServiceTask.isEnding : ServiceTask → Bool
  | .working task => task.claim.isSome
  | .expiring .. | .emptying .. => true
  | _ => false

private theorem ServiceTask.Claims.isEnding {each : ServiceTask} {sessionId : Uuid}
    {chunks : List UploadChunk} (claims : each.Claims sessionId chunks) :
    each.isEnding = true := by
  cases claims with
  | working _ claim =>
      rw [ServiceTask.isEnding, claim]
      rfl
  | _ => rfl

/-- The step is no fault, saves a chunk of a few bytes into an active session while none is
ended, and lists chunks for a cancellation when all of them have rows. -/
private def Orderly (event : Event (ServiceWorld Bool)
    (Interleaving.Move Bool (ServiceEvent Bool))) : Prop :=
  match event.action with
  | .event _ => True
  | .turn index => event.before.store.faults index = none ∧
      (event.before.task index).written.all (fun chunk => decide (chunk.size ≤ maxInt4)) = true ∧
      match event.before.task index with
      | .working (.saving session _ _) => SessionActive event.before.store.sys session.id ∧
          ∀ other, (event.before.task other).isEnding = false
      | .working (.listingToCancel _) => ∀ object ∈ event.before.store.sys.storage.rows,
          ∃ row ∈ event.before.store.sys.db.chunks.rows, row.storageKey = object.key
      | .expiring _ _ => False
      | _ => True

private instance (event : Event (ServiceWorld Bool)
    (Interleaving.Move Bool (ServiceEvent Bool))) : Decidable (Orderly event) := by
  unfold Orderly
  split
  · infer_instance
  · refine @instDecidableAnd _ _ inferInstance (@instDecidableAnd _ _ inferInstance ?_)
    split <;> infer_instance

private theorem Orderly.timely {event : Event (ServiceWorld Bool)
    (Interleaving.Move Bool (ServiceEvent Bool))} (orderly : Orderly event) : Timely event := by
  cases isAction : event.action with
  | event what =>
      constructor
      case saves => exact fun _ _ _ _ isTurn => nomatch isAction.symm.trans isTurn
      case lists => exact fun _ _ isTurn => nomatch isAction.symm.trans isTurn
      case fails => exact fun _ _ isTurn => nomatch isAction.symm.trans isTurn
  | turn turned =>
      simp only [Orderly, isAction] at orderly
      rcases orderly with ⟨calm, small, orderly⟩
      constructor
      case saves =>
        intro index session chunkIndex stream isTurn _ stage
        cases isAction.symm.trans isTurn
        rw [stage] at orderly
        apply And.intro orderly.1
        intro other chunks claims
        cases claims.isEnding.symm.trans (orderly.2 other)
      case lists =>
        intro index sessionId isTurn _ lists userId chunkIndex stored
        cases isAction.symm.trans isTurn
        cases isTask : event.before.task turned <;> rw [isTask] at lists orderly
        case working task =>
          cases lists with
          | cancelling =>
              rcases stored with ⟨object, member, isKey⟩
              rcases orderly object member with ⟨row, rowMem, sameKey⟩
              exact ⟨row, rowMem, sameKey.trans isKey⟩
        case expiring => exact absurd orderly id
        all_goals cases lists
      case fails =>
        intro index chunk isTurn fails isWritten
        cases isAction.symm.trans isTurn
        rw [isWritten] at small
        rcases fails with struck | oversized
        · exact absurd calm struck
        · exact absurd oversized (Nat.not_lt_of_le (of_decide_eq_true small))

private def playedService (schedule : List (Interleaving.Move Bool (ServiceEvent Bool))) :
    ServiceWorld Bool :=
  ((uploadService sendsAndCancels).play schedule (serviceStarts halfSent)).getD
    (serviceStarts halfSent)

/-- The chunk is sent and then the session is cancelled. -/
private def sentThenCancelled : List (Interleaving.Move Bool (ServiceEvent Bool)) :=
  List.replicate 5 (.turn false) ++ List.replicate 8 (.turn true)

/-- The database fails when the blob of the chunk is saved. Then the session is cancelled. -/
private def failedThenCancelled : List (Interleaving.Move Bool (ServiceEvent Bool)) :=
  List.replicate 3 (.turn false) ++ [.event (.fault false .integrityError), .turn false] ++
    List.replicate 7 (.turn true)

/-- The session is cancelled while the chunk is sent. -/
private def cancelledMeanwhile : List (Interleaving.Move Bool (ServiceEvent Bool)) :=
  List.replicate 2 (.turn false) ++ List.replicate 7 (.turn true) ++
    List.replicate 3 (.turn false)

theorem noLeak_of_timely_sentThenCancelled :
    ∃ events final, (uploadService sendsAndCancels).Runs (serviceStarts halfSent) events final ∧
      NoLeak final.store.sys ∧
      final.store.sys.db.sessions.rows.map UploadSession.status = [.cancelled] := by
  have played : (uploadService sendsAndCancels).play sentThenCancelled
      (serviceStarts halfSent) = some (playedService sentThenCancelled) := rfl
  have runs := Interleaving.Tasks.runs_of_play played
  have orderly : ∀ event ∈ (uploadService sendsAndCancels).trace sentThenCancelled
      (serviceStarts halfSent), Orderly event := by decide
  exact ⟨_, _, runs, noLeak_of_timely halfSent_settled runs
    fun event member => (orderly event member).timely, by decide⟩

/-- The run ends with the session cancelled and the blob of its second chunk stored. -/
private def LeavesChunk (schedule : List (Interleaving.Move Bool (ServiceEvent Bool))) : Prop :=
  ∃ final,
    (uploadService sendsAndCancels).Runs (serviceStarts halfSent)
      ((uploadService sendsAndCancels).trace schedule (serviceStarts halfSent)) final ∧
    final.store.sys.db.sessions.rows.map UploadSession.status = [.cancelled] ∧
    Stored final.store.sys (.chunk 1 10 1) ∧ ¬ NoLeak final.store.sys

private theorem LeavesChunk.of_play
    {schedule : List (Interleaving.Move Bool (ServiceEvent Bool))} {final : ServiceWorld Bool}
    (played : (uploadService sendsAndCancels).play schedule (serviceStarts halfSent) = some final)
    (cancelled : final.store.sys.db.sessions.rows.map UploadSession.status = [.cancelled])
    (stored : ∃ object ∈ final.store.sys.storage.rows, object.key = .chunk 1 10 1)
    (inactive : ¬ SessionActive final.store.sys 10) : LeavesChunk schedule := by
  refine ⟨final, Interleaving.Tasks.runs_of_play played, cancelled, stored, ?_⟩
  exact fun noLeak => inactive (noLeak 1 10 1 stored)

/-- A blob stays behind when the request fails after it has saved it, and when it saves it
while the session is cancelled. -/
theorem cancelled_session_leaks :
    LeavesChunk failedThenCancelled ∧ LeavesChunk cancelledMeanwhile := by
  constructor
  · have played : (uploadService sendsAndCancels).play failedThenCancelled
        (serviceStarts halfSent) = some (playedService failedThenCancelled) := rfl
    exact .of_play played (by decide) (by decide) (by decide)
  · have played : (uploadService sendsAndCancels).play cancelledMeanwhile
        (serviceStarts halfSent) = some (playedService cancelledMeanwhile) := rfl
    exact .of_play played (by decide) (by decide) (by decide)

end Cancellation

end CloudDrive
