import CloudDrive.Upload.ChunkEffects

/-! # The invariant of the stored chunks

The blobs of chunks are found through their rows. A blob is saved before its row is committed,
and a request that ends the session lists the rows before it commits. -/

namespace CloudDrive

open Outcome Relational UploadSessionService

section ChunkInvariant

variable [Platform] {userId sessionId : Uuid} {store after : UploadStore} {task next : SessionTask}

/-! ## What the requests hold -/

/-- A committed row refers to the blob. -/
def HasRow (sys : System) (key : StorageKey) : Prop :=
  ∃ row ∈ sys.db.chunks, row.storageKey = key

def ServiceTask.written : ServiceTask → Option UploadChunk
  | .working task => task.written
  | _ => none

/-- The request ends the session, and these are the chunks that it will still delete. -/
inductive ServiceTask.Claims : ServiceTask → Uuid → List UploadChunk → Prop where
  | working {task : SessionTask} {session : UploadSession} {chunks : List UploadChunk} :
      task.session = some session → task.claim = some chunks →
      Claims (.working task) session.id chunks
  | emptying {session : UploadSession} {remaining : List UploadChunk}
      {expired gone : List UploadSession} :
      Claims (.emptying session remaining expired gone) session.id remaining
  | emptied {session other : UploadSession} {remaining : List UploadChunk}
      {expired gone : List UploadSession} : other ∈ gone →
      Claims (.emptying session remaining expired gone) other.id []
  | expired {other : UploadSession} {expired gone : List UploadSession} : other ∈ gone →
      Claims (.expiring expired gone) other.id []

/-- The request is about to list the chunks of a session to end it, complete or not. -/
inductive ServiceTask.Lists : ServiceTask → Uuid → Prop where
  | cancelling {session : UploadSession} : Lists (.working (.listingToCancel session)) session.id
  | expiring {session : UploadSession} {expired gone : List UploadSession} :
      Lists (.expiring (session :: expired) gone) session.id

/-! ## The invariant -/

/-- The id was drawn for a session of this user with this number of chunks. -/
def Enrolled (card : Uuid → Uuid × Nat) (seed : Nat) (session : UploadSession) : Prop :=
  session.id < seed ∧ card session.id = (session.userId, session.totalChunks)

/-- The row refers to the blob of its index. -/
def WellKeyed (card : Uuid → Uuid × Nat) (seed : Nat) (row : UploadChunk) : Prop :=
  row.sessionId < seed ∧
    row.storageKey = .chunk (card row.sessionId).1 row.sessionId row.chunkIndex

/-- What a request on a session holds. -/
def SessionTask.Sound (card : Uuid → Uuid × Nat) (seed : Nat) (userId : Uuid) :
    SessionTask → Prop
  | .arriving | .ended _ => True
  | .listing session | .checking session _ | .naming session _ _ _ _ | .inserting session _ _ _
  | .charging session _ _ _ | .discarding session _ _ _ _ | .listingToCancel session
  | .dropping session _ _ => Enrolled card seed session ∧ session.userId = userId
  | .merging session _ key _ _ =>
      (Enrolled card seed session ∧ session.userId = userId) ∧ key.isChunk = false
  | .completing session gone _ _ | .completed session gone _ _ | .cancelling session gone
  | .cancelled session gone => (Enrolled card seed session ∧ session.userId = userId) ∧
      ∀ chunk ∈ gone, chunk.sessionId = session.id
  | .saving session chunkIndex _ =>
      (Enrolled card seed session ∧ session.userId = userId) ∧
        chunkIndex < session.totalChunks
  | .feeding session chunk | .fed session chunk _ =>
      (Enrolled card seed session ∧ session.userId = userId) ∧ WellKeyed card seed chunk ∧
        chunk.sessionId = session.id

def ServiceTask.Sound (card : Uuid → Uuid × Nat) (seed : Nat) :
    UploadRequest → ServiceTask → Prop
  | _, .creating session => Enrolled card seed session
  | .onSession userId _ _, .working task => task.Sound card seed userId
  | _, _ => True

section Invariant

variable {ι : Type} {card : Uuid → Uuid × Nat} {requests : ι → UploadRequest}
  {world later : ServiceWorld ι}

/-- The blob has a committed row, or a request that will commit one. -/
def Recorded (world : ServiceWorld ι) (key : StorageKey) : Prop :=
  HasRow world.store.sys key ∨
    ∃ index chunk, (world.task index).written = some chunk ∧ chunk.storageKey = key

/-- Every stored chunk is recorded and belongs to an active session, and whoever ends the
session will delete it. -/
structure Tidy (card : Uuid → Uuid × Nat) (requests : ι → UploadRequest)
    (world : ServiceWorld ι) : Prop where
  sessions : ∀ session ∈ world.store.sys.db.sessions,
    Enrolled card world.store.sys.seed session
  rows : ∀ row ∈ world.store.sys.db.chunks, WellKeyed card world.store.sys.seed row
  active : ∀ userId sessionId index,
    Stored world.store.sys (.chunk userId sessionId index) →
      SessionActive world.store.sys sessionId ∧ userId = (card sessionId).1 ∧
        index < (card sessionId).2
  recorded : ∀ userId sessionId index,
    Stored world.store.sys (.chunk userId sessionId index) →
      Recorded world (.chunk userId sessionId index)
  claimed : ∀ index sessionId chunks, (world.task index).Claims sessionId chunks →
    ∀ userId chunkIndex, Stored world.store.sys (.chunk userId sessionId chunkIndex) →
      ∃ chunk ∈ chunks, chunk.storageKey = .chunk userId sessionId chunkIndex
  tasks : ∀ index, (world.task index).Sound card world.store.sys.seed (requests index)

omit [Platform] in
theorem Enrolled.raise {seed higher : Nat} {session : UploadSession}
    (enrolled : Enrolled card seed session) (le : seed ≤ higher) :
    Enrolled card higher session :=
  ⟨enrolled.1.trans_le le, enrolled.2⟩

omit [Platform] in
theorem SessionTask.Sound.raise {seed higher : Nat} (sound : task.Sound card seed userId)
    (le : seed ≤ higher) : task.Sound card higher userId := by
  cases task with
  | arriving | ended => trivial
  | listing | checking | naming | inserting | charging | discarding | listingToCancel
  | dropping => exact ⟨sound.1.raise le, sound.2⟩
  | merging | completing | completed | cancelling | cancelled | saving =>
      exact ⟨⟨sound.1.1.raise le, sound.1.2⟩, sound.2⟩
  | feeding | fed =>
      rcases sound with ⟨⟨known, mine⟩, ⟨drawn, isKey⟩, own⟩
      exact ⟨⟨known.raise le, mine⟩, ⟨drawn.trans_le le, isKey⟩, own⟩

omit [Platform] in
theorem ServiceTask.Sound.raise {seed higher : Nat} {request : UploadRequest} {each : ServiceTask}
    (sound : each.Sound card seed request) (le : seed ≤ higher) :
    each.Sound card higher request := by
  cases each with
  | arriving | expiring | emptying | ended => cases request <;> trivial
  | creating => cases request <;> exact Enrolled.raise sound le
  | working =>
      cases request with
      | create | cleanup => trivial
      | onSession => exact SessionTask.Sound.raise sound le

omit [Platform] in
theorem SessionTask.Sound.own {seed : Nat} (sound : task.Sound card seed userId) :
    ∀ session ∈ task.session, ∀ chunk ∈ task.gone, chunk.sessionId = session.id := by
  cases task with
  | completing | completed | cancelling | cancelled =>
      intro session isSession chunk member
      cases isSession
      exact sound.2 chunk member
  | _ => exact fun _ _ _ member => absurd member List.not_mem_nil

omit [Platform] in
theorem SessionTask.Sound.session {seed : Nat} (sound : task.Sound card seed userId) :
    ∀ session ∈ task.session, Enrolled card seed session ∧ session.userId = userId := by
  intro session isSession
  cases task with
  | arriving | ended => cases isSession
  | listing | checking | naming | inserting | charging | discarding | listingToCancel
  | dropping =>
      cases isSession
      exact sound
  | merging | completing | completed | cancelling | cancelled | saving | feeding | fed =>
      cases isSession
      exact sound.1

omit [Platform] in
theorem SessionTask.Sound.written {seed : Nat} (sound : task.Sound card seed userId)
    {chunk : UploadChunk} (isWritten : task.written = some chunk) : WellKeyed card seed chunk := by
  cases task with
  | feeding | fed =>
      cases isWritten
      exact sound.2.1
  | _ => cases isWritten

theorem deletedChunks_own {db : Database} {chunks : List UploadChunk} :
    ∀ chunk ∈ deletedChunks db sessionId chunks, chunk.sessionId = sessionId := by
  intro chunk member
  rw [deletedChunks] at member
  split at member
  · cases member
  · exact (mem_listChunks.mp member).2

/-- A request starts with a committed session of its user. -/
theorem SessionAction.start_sound {seed : Nat} {sys : System} (action : SessionAction)
    (sessions : ∀ session ∈ sys.db.sessions, Enrolled card seed session) :
    (action.start userId sessionId sys).Sound card seed userId := by
  rw [SessionAction.start]
  cases found : getOr404 userId sessionId sys with
  | error error => trivial
  | ok session =>
      rcases getOr404_ok found with ⟨member, _, mine⟩
      have known := sessions session member
      cases action with
      | complete =>
          simp only
          split_ifs
          · trivial
          · exact ⟨known, mine⟩
      | cancel =>
          simp only
          split_ifs
          · trivial
          · trivial
          · exact ⟨known, mine⟩
      | uploadChunk chunkIndex stream =>
          simp only
          split_ifs with _ outside
          · trivial
          · trivial
          · refine ⟨⟨known, mine⟩, ?_⟩
            rw [not_or] at outside
            omega

theorem sound_of_lockRow {seed : Nat} {row : LockedRow} {goesOn : SessionTask}
    (works : lockRow row store goesOn = some (after, next))
    (sound : goesOn.Sound card seed userId) (isSeed : seed = store.sys.seed) :
    next.Sound card after.sys.seed userId := by
  by_cases locked : row ∈ store.locks
  · simp [lockRow, locked] at works
  · simp only [lockRow, locked, if_false, Option.some.injEq, Prod.mk.injEq] at works
    rcases works with ⟨rfl, rfl⟩
    exact isSeed ▸ sound

theorem System.le_drawn (sys : System) : sys.seed ≤ sys.drawn.seed :=
  (le_max_left _ _).trans (Nat.le_succ _)

theorem SessionAction.act_sound {action : SessionAction}
    (sound : task.Sound card store.sys.seed userId)
    (sessions : ∀ session ∈ store.sys.db.sessions, Enrolled card store.sys.seed session)
    (acts : action.act userId sessionId store task = some (after, next)) :
    next.Sound card after.sys.seed userId := by
  cases task with
  | arriving =>
      cases acts
      exact action.start_sound sessions
  | listing session =>
      simp only [act, work, Option.some.injEq, Prod.mk.injEq] at acts
      rcases acts with ⟨rfl, rfl⟩
      split_ifs
      · exact sound
      · trivial
  | checking session chunks =>
      simp only [act, work] at acts
      split at acts
      · cases acts
        trivial
      · cases acts
        exact ⟨⟨sound.1.raise store.sys.le_drawn, sound.2⟩, rfl⟩
  | merging session chunks key content remaining =>
      cases remaining with
      | nil =>
          cases acts
          exact sound.1
      | cons chunk remaining =>
          simp only [act, work] at acts
          split at acts
          · cases acts
            trivial
          · cases acts
            exact sound
  | naming session chunks file counter name =>
      simp only [act, work] at acts
      split at acts
      · cases acts
        trivial
      · cases acts
        exact sound
      · cases acts
        exact sound
  | inserting session chunks file name =>
      simp only [act, work] at acts
      split_ifs at acts
      split at acts
      · cases acts
        trivial
      · cases acts
        exact ⟨sound.1.raise store.sys.le_drawn, sound.2⟩
  | charging session chunks file item => exact sound_of_lockRow acts sound rfl
  | discarding session chunks file item remaining =>
      cases remaining with
      | nil =>
          cases acts
          exact ⟨sound, deletedChunks_own⟩
      | cons chunk remaining =>
          cases acts
          exact sound
  | completing session gone file item => exact sound_of_lockRow acts sound rfl
  | completed session gone file item =>
      simp only [act] at acts
      split at acts <;> cases acts <;> trivial
  | listingToCancel session =>
      cases acts
      exact sound
  | dropping session chunks remaining =>
      cases remaining with
      | nil =>
          cases acts
          exact ⟨sound, deletedChunks_own⟩
      | cons chunk remaining =>
          cases acts
          exact sound
  | cancelling session gone => exact sound_of_lockRow acts sound rfl
  | cancelled session gone =>
      cases acts
      trivial
  | saving session chunkIndex stream =>
      cases acts
      refine ⟨sound.1, ⟨sound.1.1.1, ?_⟩, rfl⟩
      rw [sound.1.1.2, sound.1.2]
  | feeding session chunk =>
      simp only [act, work] at acts
      split_ifs at acts
      · cases acts
        trivial
      · exact sound_of_lockRow acts sound rfl
      · cases acts
        exact sound
  | fed session chunk marks =>
      cases acts
      trivial
  | ended result => cases acts

/-! ## What a step keeps -/

variable {index : ι}

theorem HasRow.of_wellKeyed (rows : ∀ row ∈ world.store.sys.db.chunks,
    WellKeyed card world.store.sys.seed row) {chunkIndex : Nat}
    (hasRow : HasRow world.store.sys (.chunk userId sessionId chunkIndex)) :
    ∃ chunk ∈ listChunks world.store.sys.db sessionId,
      chunk.storageKey = .chunk userId sessionId chunkIndex := by
  rcases hasRow with ⟨row, member, isKey⟩
  have keyed := (rows row member).2
  rw [isKey, StorageKey.chunk.injEq] at keyed
  exact ⟨row, mem_listChunks.mpr ⟨member, keyed.2.1.symm⟩, isKey⟩

/-- A step of one request that saves no chunk. -/
theorem Tidy.shrink (tidy : Tidy card requests world)
    (others : ∀ other, other ≠ index → later.task other = world.task other)
    (seed : world.store.sys.seed ≤ later.store.sys.seed)
    (sessions : ∀ session ∈ later.store.sys.db.sessions,
      Enrolled card later.store.sys.seed session)
    (rows : ∀ row ∈ later.store.sys.db.chunks, WellKeyed card later.store.sys.seed row)
    (blobs : ∀ key, key.isChunk = true → Stored later.store.sys key →
      Stored world.store.sys key)
    (active : ∀ userId sessionId index,
      Stored later.store.sys (.chunk userId sessionId index) →
        SessionActive later.store.sys sessionId)
    (recorded : ∀ userId sessionId index,
      Stored later.store.sys (.chunk userId sessionId index) →
        HasRow world.store.sys (.chunk userId sessionId index) →
          Recorded later (.chunk userId sessionId index))
    (written : ∀ chunk, (world.task index).written = some chunk →
      Stored later.store.sys chunk.storageKey → Recorded later chunk.storageKey)
    (claimed : ∀ sessionId chunks, (later.task index).Claims sessionId chunks →
      ∀ userId chunkIndex, Stored later.store.sys (.chunk userId sessionId chunkIndex) →
        ∃ chunk ∈ chunks, chunk.storageKey = .chunk userId sessionId chunkIndex)
    (sound : (later.task index).Sound card later.store.sys.seed (requests index)) :
    Tidy card requests later := by
  constructor
  case sessions => exact sessions
  case rows => exact rows
  case active =>
    intro userId sessionId chunkIndex stored
    exact ⟨active userId sessionId chunkIndex stored,
      (tidy.active userId sessionId chunkIndex (blobs _ rfl stored)).2⟩
  case recorded =>
    intro userId sessionId chunkIndex stored
    rcases tidy.recorded userId sessionId chunkIndex (blobs _ rfl stored) with
      hasRow | ⟨other, chunk, isWritten, isKey⟩
    · exact recorded userId sessionId chunkIndex stored hasRow
    · by_cases same : other = index
      · rw [same] at isWritten
        rw [← isKey] at stored ⊢
        exact written chunk isWritten stored
      · rw [← others other same] at isWritten
        exact .inr ⟨other, chunk, isWritten, isKey⟩
  case claimed =>
    intro other sessionId chunks claims userId chunkIndex stored
    by_cases same : other = index
    · rw [same] at claims
      exact claimed sessionId chunks claims userId chunkIndex stored
    · rw [others other same] at claims
      exact tidy.claimed other sessionId chunks claims userId chunkIndex (blobs _ rfl stored)
  case tasks =>
    intro other
    by_cases same : other = index
    · rw [same]
      exact sound
    · rw [others other same]
      exact (tidy.tasks other).raise seed

/-- A step of one request that commits nothing. -/
theorem Tidy.uncommitted (tidy : Tidy card requests world)
    (others : ∀ other, other ≠ index → later.task other = world.task other)
    (db : later.store.sys.db = world.store.sys.db)
    (seed : world.store.sys.seed ≤ later.store.sys.seed)
    (blobs : ∀ key, key.isChunk = true → Stored later.store.sys key →
      Stored world.store.sys key)
    (written : ∀ chunk, (world.task index).written = some chunk →
      Stored later.store.sys chunk.storageKey → Recorded later chunk.storageKey)
    (claimed : ∀ sessionId chunks, (later.task index).Claims sessionId chunks →
      ∀ userId chunkIndex, Stored later.store.sys (.chunk userId sessionId chunkIndex) →
        ∃ chunk ∈ chunks, chunk.storageKey = .chunk userId sessionId chunkIndex)
    (sound : (later.task index).Sound card later.store.sys.seed (requests index)) :
    Tidy card requests later := by
  apply tidy.shrink others seed _ _ blobs _ _ written claimed sound
  · rw [db]
    exact fun session member => (tidy.sessions session member).raise seed
  · rw [db]
    intro row member
    rcases tidy.rows row member with ⟨drawn, isKey⟩
    exact ⟨drawn.trans_le seed, isKey⟩
  · intro userId sessionId chunkIndex stored
    rw [SessionActive, db]
    exact (tidy.active userId sessionId chunkIndex (blobs _ rfl stored)).1
  · intro userId sessionId chunkIndex _ hasRow
    apply Or.inl
    rw [HasRow, db]
    exact hasRow

/-- A chunk is saved into an active session, before its blob is deleted. -/
theorem Tidy.saves (tidy : Tidy card requests world)
    (others : ∀ other, other ≠ index → later.task other = world.task other)
    {session : UploadSession} {chunkIndex : Nat} {stream : List Content} {chunk : UploadChunk}
    (isSaved : later.store.sys =
      Storage.saveStream (.chunk userId session.id chunkIndex) stream world.store.sys)
    (isNext : later.task index = .working (.feeding session chunk))
    (isKey : chunk.storageKey = .chunk userId session.id chunkIndex)
    (mine : Enrolled card world.store.sys.seed session ∧ session.userId = userId)
    (bound : chunkIndex < session.totalChunks) (unwritten : (world.task index).written = none)
    (active : SessionActive world.store.sys session.id)
    (ahead : ∀ other chunks, (world.task other).Claims session.id chunks →
      ∃ chunk ∈ chunks, chunk.storageKey = .chunk userId session.id chunkIndex)
    (sound : (later.task index).Sound card later.store.sys.seed (requests index)) :
    Tidy card requests later := by
  have sameDb : later.store.sys.db = world.store.sys.db := by rw [isSaved]; rfl
  have sameSeed : later.store.sys.seed = world.store.sys.seed := by rw [isSaved]; rfl
  have blobs : ∀ key, Stored later.store.sys key →
      key = .chunk userId session.id chunkIndex ∨ Stored world.store.sys key := by
    intro key stored
    rw [isSaved] at stored
    exact Storage.stored_saveStream.mp stored
  constructor
  case sessions =>
    rw [sameDb, sameSeed]
    exact tidy.sessions
  case rows =>
    rw [sameDb, sameSeed]
    exact tidy.rows
  case active =>
    intro anyUser anySession anyIndex stored
    rw [SessionActive, sameDb]
    rcases blobs _ stored with isNew | earlier
    · rw [StorageKey.chunk.injEq] at isNew
      rcases isNew with ⟨rfl, rfl, rfl⟩
      rw [mine.1.2]
      exact ⟨active, mine.2.symm, bound⟩
    · exact tidy.active anyUser anySession anyIndex earlier
  case recorded =>
    intro anyUser anySession anyIndex stored
    rcases blobs _ stored with isNew | earlier
    · refine .inr ⟨index, chunk, ?_, isKey.trans isNew.symm⟩
      rw [isNext]
      rfl
    · rcases tidy.recorded anyUser anySession anyIndex earlier with
        hasRow | ⟨other, again, isWritten, sameKey⟩
      · apply Or.inl
        rw [HasRow, sameDb]
        exact hasRow
      · have different : other ≠ index := by
          intro same
          rw [same, unwritten] at isWritten
          cases isWritten
        rw [← others other different] at isWritten
        exact .inr ⟨other, again, isWritten, sameKey⟩
  case claimed =>
    intro other anySession chunks claims anyUser anyIndex stored
    by_cases same : other = index
    · rw [same, isNext] at claims
      cases claims with
      | working _ claim => cases claim
    · rw [others other same] at claims
      rcases blobs _ stored with isNew | earlier
      · rw [StorageKey.chunk.injEq] at isNew
        rcases isNew with ⟨rfl, rfl, rfl⟩
        exact ahead other chunks claims
      · exact tidy.claimed other anySession chunks claims anyUser anyIndex earlier
  case tasks =>
    intro other
    by_cases same : other = index
    · rw [same]
      exact sound
    · rw [others other same, sameSeed]
      exact tidy.tasks other

theorem Ends.enrolled {closed : Uuid → Prop} {sys sys' : System} (ends : Ends closed sys sys')
    (sessions : ∀ session ∈ sys.db.sessions, Enrolled card sys.seed session) :
    ∀ session ∈ sys'.db.sessions, Enrolled card sys'.seed session := by
  intro row member
  rcases ends.sessions row member with ⟨old, oldMem, sameId, sameUser, sameTotal⟩
  have known := sessions old oldMem
  rw [Enrolled, sameId, sameUser, sameTotal] at known
  rw [Enrolled, ends.seed]
  exact known

theorem Ends.stored {closed : Uuid → Prop} {sys sys' : System} (ends : Ends closed sys sys')
    {key : StorageKey} (stored : Stored sys' key) : Stored sys key := by
  rw [Stored, ends.storage] at stored
  exact stored

/-- Sessions end of which nothing is stored. -/
theorem Tidy.ends (tidy : Tidy card requests world)
    (others : ∀ other, other ≠ index → later.task other = world.task other)
    {closed : Uuid → Prop} (ends : Ends closed world.store.sys later.store.sys)
    (nothing : ∀ sessionId, closed sessionId → ∀ userId chunkIndex,
      ¬ Stored world.store.sys (.chunk userId sessionId chunkIndex))
    (unwritten : (world.task index).written = none)
    (unclaimed : ∀ sessionId chunks, ¬ (later.task index).Claims sessionId chunks)
    (sound : (later.task index).Sound card later.store.sys.seed (requests index)) :
    Tidy card requests later := by
  have stillOpen : ∀ userId sessionId chunkIndex,
      Stored later.store.sys (.chunk userId sessionId chunkIndex) → ¬ closed sessionId :=
    fun userId sessionId chunkIndex stored isClosed =>
      nothing sessionId isClosed userId chunkIndex (ends.stored stored)
  apply tidy.shrink others ends.seed.ge (ends.enrolled tidy.sessions) _
    (fun _ _ stored => ends.stored stored) _ _ _ _ sound
  · intro row member
    rw [ends.seed]
    exact tidy.rows row (ends.rows row member)
  · intro userId sessionId chunkIndex stored
    apply ends.active sessionId (stillOpen userId sessionId chunkIndex stored)
    exact (tidy.active userId sessionId chunkIndex (ends.stored stored)).1
  · intro userId sessionId chunkIndex stored hasRow
    rcases HasRow.of_wellKeyed tidy.rows hasRow with ⟨row, among, isKey⟩
    rcases mem_listChunks.mp among with ⟨member, own⟩
    have notClosed := stillOpen userId sessionId chunkIndex stored
    exact .inl ⟨row, ends.kept row member (own ▸ notClosed), isKey⟩
  · intro chunk isWritten
    rw [unwritten] at isWritten
    cases isWritten
  · exact fun sessionId chunks claims => absurd claims (unclaimed sessionId chunks)

theorem commitChunk_ends (session : UploadSession) (chunk : UploadChunk) (marks : Bool)
    (sys : System) :
    Ends (fun _ => False) (sys.withChunks (sys.db.chunks.save chunk))
      (commitChunk session chunk marks sys) := by
  cases marks with
  | true => exact updateStatus_ends session .uploading none none fun terminal => nomatch terminal
  | false =>
      exact ⟨rfl, rfl, fun row member => ⟨row, member, rfl, rfl, rfl⟩, fun _ _ active => active,
        fun _ member => member, fun _ member _ => member⟩

/-- The row of a chunk is committed. -/
theorem Tidy.feeds (tidy : Tidy card requests world)
    (others : ∀ other, other ≠ index → later.task other = world.task other)
    {session : UploadSession} {chunk : UploadChunk} {marks : Bool}
    (commits : later.store.sys = commitChunk session chunk marks world.store.sys)
    (isWritten : (world.task index).written = some chunk)
    (keyed : WellKeyed card world.store.sys.seed chunk)
    (unclaimed : ∀ sessionId chunks, ¬ (later.task index).Claims sessionId chunks)
    (sound : (later.task index).Sound card later.store.sys.seed (requests index)) :
    Tidy card requests later := by
  have ends := commitChunk_ends session chunk marks world.store.sys
  rw [← commits] at ends
  have rowOf : ∀ row, row = chunk ∨ row ∈ world.store.sys.db.chunks ∧
      Keyed.key row ≠ Keyed.key chunk → row ∈ later.store.sys.db.chunks :=
    fun row either => ends.kept row (Table.mem_save.mpr either) id
  apply tidy.shrink others ends.seed.ge (ends.enrolled tidy.sessions) _
    (fun _ _ stored => ends.stored stored) _ _ _ _ sound
  · intro row member
    rw [ends.seed]
    rcases Table.mem_save.mp (ends.rows row member) with rfl | ⟨earlier, _⟩
    · exact keyed
    · exact tidy.rows row earlier
  · intro userId sessionId chunkIndex stored
    apply ends.active sessionId id
    exact (tidy.active userId sessionId chunkIndex (ends.stored stored)).1
  · intro userId sessionId chunkIndex _ hasRow
    rcases hasRow with ⟨row, member, isKey⟩
    by_cases same : Keyed.key row = Keyed.key chunk
    · -- The new row replaces the old one and refers to the same blob.
      rw [UploadChunk.key_eq, UploadChunk.key_eq, Prod.mk.injEq] at same
      refine .inl ⟨chunk, rowOf chunk (.inl rfl), ?_⟩
      rw [← isKey, keyed.2, (tidy.rows row member).2, same.1, same.2]
    · exact .inl ⟨row, rowOf row (.inr ⟨member, same⟩), isKey⟩
  · intro other sameChunk _
    cases isWritten.symm.trans sameChunk
    exact .inl ⟨chunk, rowOf chunk (.inl rfl), rfl⟩
  · exact fun sessionId chunks claims => absurd claims (unclaimed sessionId chunks)

end Invariant

end ChunkInvariant

end CloudDrive
