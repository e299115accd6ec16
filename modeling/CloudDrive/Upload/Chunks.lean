import CloudDrive.Upload.Effects
import CloudDrive.Storage.Local
import CloudDrive.Foundation.Execution
import Mathlib.Logic.Function.Basic

/-! # What an open session holds

`upload_chunk` on a request body that may raise, and the chunks that a sequence of such
calls leaves in the table and in the storage. -/

namespace CloudDrive

open Outcome Relational Execution

variable [Platform]

namespace UploadSessionService

/-! ## One call -/

/-- Why a call of `upload_chunk` failed. `upsert_chunk` raises when the number of bytes does
not fit its column. -/
inductive ChunkFailure where
  | refused (error : ServiceError)
  | streamRaised
  | upsertRaised

/-- What `upload_chunk` checks before it reads the stream. -/
def admitChunk (userId sessionId : Uuid) (chunkIndex : Int) (sys : System) :
    Except ServiceError UploadSession := do
  let session ← getOr404 userId sessionId sys
  require (session.status.isTerminal = false)
    (.invalidOperation s!"Upload session is already {session.status.text}")
  require (¬ (chunkIndex < 0 ∨ session.totalChunks ≤ chunkIndex))
    (.invalidOperation "Chunk index out of range")
  pure session

/-- The row that `upsert_chunk` writes. -/
def chunkRow (userId sessionId : Uuid) (index size : Nat) (content : Content)
    (createdAt : Timestamp) : UploadChunk where
  sessionId := sessionId
  chunkIndex := index
  size := size
  checksumSha256 := some (Platform.sha256 content)
  storageKey := .chunk userId sessionId index
  createdAt := createdAt

/-- The first chunk makes a pending session an uploading one. -/
def markUploading (session : UploadSession) (sys : System) : System :=
  if session.status = .pending then updateStatus session.id .uploading none none sys else sys

/-- `upload_chunk` on the local storage. A request that raises rolls the database back;
what it did to the storage stays. -/
def receiveChunk (userId sessionId : Uuid) (chunkIndex : Int) (body : List (Option Content))
    (sys : System) : Except ChunkFailure Unit × System :=
  match admitChunk userId sessionId chunkIndex sys with
  | .error error => (.error (.refused error), sys)
  | .ok session =>
      let index := chunkIndex.toNat
      let key := StorageKey.chunk userId session.id index
      match LocalStorageProvider.saveStream key body sys.now ⟨sys.storage, .empty⟩ with
      | (none, directory) => (.error .streamRaised, sys.withStorage directory.objects)
      | (some size, directory) =>
          let content := (LocalStorageProvider.received body).getD []
          let sys := sys.withStorage directory.objects
          if size ≤ maxInt4 then
            let sys := sys.withChunks
              (sys.db.chunks.save (chunkRow userId session.id index size content sys.now))
            (.ok (), markUploading session sys)
          else
            -- The blob has been replaced, and its row has not.
            (.error .upsertRaised, sys)

theorem admitChunk_ok {userId sessionId : Uuid} {chunkIndex : Int} {sys : System}
    {session : UploadSession} (admitted : admitChunk userId sessionId chunkIndex sys = .ok session) :
    sys.db.sessions.find? sessionId = some session ∧ session.userId = userId ∧
      session.status.isTerminal = false ∧ 0 ≤ chunkIndex ∧
        chunkIndex.toNat < session.totalChunks := by
  simp only [admitChunk, getOr404, bind_eq_ok, orRaise_eq_ok, require_eq_ok,
    pure_eq_ok] at admitted
  rcases admitted with ⟨_, ⟨row, found, _, mine, rfl⟩, _, isOpen, _, inRange, rfl⟩
  rw [not_or, Int.not_lt, Int.not_le] at inRange
  exact ⟨found, mine, isOpen, inRange.1, by omega⟩

/-- The state that a stored chunk leaves. -/
def withChunk (userId : Uuid) (session : UploadSession) (index : Nat) (content : Content)
    (sys : System) : System :=
  let sys := Storage.saveStream (.chunk userId session.id index) [content] sys
  markUploading session (sys.withChunks
    (sys.db.chunks.save (chunkRow userId session.id index content.length content sys.now)))

/-- `uploadChunk` in two parts, the checks and the writes. -/
theorem uploadChunk_eq (userId sessionId : Uuid) (chunkIndex : Int) (stream : List Content)
    (sys : System) :
    uploadChunk userId sessionId chunkIndex stream sys =
      admitChunk userId sessionId chunkIndex sys >>= fun session =>
        require (stream.flatten.length ≤ maxInt4) .dataError >>= fun _ =>
          .ok (withChunk userId session chunkIndex.toNat stream.flatten sys) := by
  simp only [uploadChunk, admitChunk, bind_assoc, pure_bind]
  apply bind_congr
  intro session
  apply bind_congr
  intro _
  apply bind_congr
  intro _
  apply bind_congr
  intro _
  rw [withChunk, markUploading, Storage.saveStream, Storage.saveStream]
  simp only [List.flatten_cons, List.flatten_nil, List.append_nil]
  split <;> rfl

/-- The state that a chunk leaves whose row does not fit. -/
def withBlob (userId : Uuid) (session : UploadSession) (index : Nat) (content : Content)
    (sys : System) : System :=
  Storage.saveStream (.chunk userId session.id index) [content] sys

/-- A call on a stream that ends is `uploadChunk` on its bytes where these fit their column,
and otherwise leaves the blob; any other call leaves the state as it was. -/
theorem receiveChunk_eq (userId sessionId : Uuid) (chunkIndex : Int)
    (body : List (Option Content)) (sys : System) :
    receiveChunk userId sessionId chunkIndex body sys =
      match admitChunk userId sessionId chunkIndex sys, LocalStorageProvider.received body with
      | .error error, _ => (.error (.refused error), sys)
      | .ok _, none => (.error .streamRaised, sys)
      | .ok session, some content =>
          if content.length ≤ maxInt4 then
            (.ok (), withChunk userId session chunkIndex.toNat content sys)
          else (.error .upsertRaised, withBlob userId session chunkIndex.toNat content sys) := by
  rw [receiveChunk]
  cases admitChunk userId sessionId chunkIndex sys with
  | error error => rfl
  | ok session =>
      cases ends : LocalStorageProvider.received body with
      | none =>
          simp only [LocalStorageProvider.saveStream_broken _ _ ends]
          rfl
      | some content =>
          simp only [LocalStorageProvider.saveStream_received _ _ ends, Option.getD_some,
            withChunk, withBlob, Storage.saveStream, List.flatten_cons, List.flatten_nil,
            List.append_nil]

/-! ## What a chunk changes -/

theorem markUploading_storage (session : UploadSession) (sys : System) :
    (markUploading session sys).storage = sys.storage := by
  rw [markUploading]
  split <;> rfl

theorem markUploading_chunks (session : UploadSession) (sys : System) :
    (markUploading session sys).db.chunks = sys.db.chunks := by
  rw [markUploading]
  split <;> rfl

theorem find_withBlob_storage (userId : Uuid) (session : UploadSession) (index : Nat)
    (content : Content) (sys : System) (key : StorageKey) :
    (withBlob userId session index content sys).storage.find? key =
      if StorageKey.chunk userId session.id index = key then
        some { key := .chunk userId session.id index, content := content, modifiedAt := sys.now }
      else sys.storage.find? key := by
  have whole : [content].flatten = content := by simp
  rw [withBlob]
  show (sys.storage.save { key := _, content := [content].flatten, modifiedAt := _ }).find? key = _
  rw [Table.find?_save, whole]
  rfl

theorem find_withChunk_storage (userId : Uuid) (session : UploadSession) (index : Nat)
    (content : Content) (sys : System) (key : StorageKey) :
    (withChunk userId session index content sys).storage.find? key =
      if StorageKey.chunk userId session.id index = key then
        some { key := .chunk userId session.id index, content := content, modifiedAt := sys.now }
      else sys.storage.find? key := by
  rw [withChunk, markUploading_storage]
  exact find_withBlob_storage userId session index content sys key

theorem find_withChunk_chunks (userId : Uuid) (session : UploadSession) (index : Nat)
    (content : Content) (sys : System) (key : Uuid × Nat) :
    (withChunk userId session index content sys).db.chunks.find? key =
      if (session.id, index) = key then
        some (chunkRow userId session.id index content.length content sys.now)
      else sys.db.chunks.find? key := by
  rw [withChunk, markUploading_chunks]
  exact Table.find?_save

theorem find_updateStatus (sessionId : Uuid) (status : SessionStatus) (checksum : Option String)
    (driveItemId : Option Uuid) (sys : System) (key : Uuid) :
    (updateStatus sessionId status checksum driveItemId sys).db.sessions.find? key =
      (sys.db.sessions.find? key).map fun session =>
        if session.id = sessionId then
          { session with
            status := status
            updatedAt := sys.now
            checksumSha256 := checksum.orElse fun _ => session.checksumSha256
            driveItemId := driveItemId.orElse fun _ => session.driveItemId }
        else session := by
  rw [updateStatus, System.withSessions, Table.find?_map]

/-- The session is still open; only its status and `updated_at` may have changed. -/
def OpenSession (session : UploadSession) (sys : System) : Prop :=
  ∃ status updatedAt, status.isTerminal = false ∧ sys.db.sessions.find? session.id =
    some { session with status := status, updatedAt := updatedAt }

theorem OpenSession.markUploading {session : UploadSession} {sys : System}
    (isOpen : OpenSession session sys) (other : UploadSession) :
    OpenSession session (markUploading other sys) := by
  rcases isOpen with ⟨status, updatedAt, running, found⟩
  rw [UploadSessionService.markUploading]
  split
  · by_cases same : session.id = other.id
    · apply Exists.intro .uploading
      apply Exists.intro sys.now
      apply And.intro rfl
      rw [find_updateStatus, found, Option.map_some, if_pos same]
      rfl
    · apply Exists.intro status
      apply Exists.intro updatedAt
      apply And.intro running
      rw [find_updateStatus, found, Option.map_some, if_neg same]
  · exact ⟨status, updatedAt, running, found⟩

theorem OpenSession.withChunk {session : UploadSession} {sys : System}
    (isOpen : OpenSession session sys) (userId : Uuid) (other : UploadSession) (index : Nat)
    (content : Content) : OpenSession session (withChunk userId other index content sys) :=
  have saved : OpenSession session ((Storage.saveStream (.chunk userId other.id index) [content]
      sys).withChunks (sys.db.chunks.save
        (chunkRow userId other.id index content.length content sys.now))) := isOpen
  saved.markUploading other

/-! ## What is held -/

/-- The chunk has its row, and the row its blob. -/
def HoldsChunk (session : UploadSession) (index : Nat) (content : Content) (sys : System) :
    Prop :=
  ∃ row object, sys.db.chunks.find? (session.id, index) = some row ∧
    row.storageKey = .chunk session.userId session.id index ∧
    sys.storage.find? (.chunk session.userId session.id index) = some object ∧
    object.content = content

/-- The open session holds these chunks and no others. -/
structure Holding (session : UploadSession) (held : Nat → Option Content) (sys : System) :
    Prop where
  isOpen : OpenSession session sys
  chunk : ∀ index content, held index = some content →
    index < session.totalChunks ∧ HoldsChunk session index content sys
  nothing : ∀ index, held index = none → sys.db.chunks.find? (session.id, index) = none

/-- A chunk of another session leaves what is held. -/
theorem Holding.withOther {session other : UploadSession} {held : Nat → Option Content}
    {sys : System} (holding : Holding session held sys) (userId : Uuid) (index : Nat)
    (content : Content) (different : other.id ≠ session.id) :
    Holding session held (withChunk userId other index content sys) where
  isOpen := holding.isOpen.withChunk userId other index content
  chunk := by
    intro each kept isHeld
    rcases holding.chunk each kept isHeld with ⟨inRange, row, object, found, isKey, stored, same⟩
    apply And.intro inRange
    apply Exists.intro row
    apply Exists.intro object
    rw [find_withChunk_chunks, if_neg fun isRow => different (congrArg Prod.fst isRow),
      find_withChunk_storage, if_neg]
    · exact ⟨found, isKey, stored, same⟩
    · intro isBlob
      rw [StorageKey.chunk.injEq] at isBlob
      exact different isBlob.2.1
  nothing := by
    intro each none
    rw [find_withChunk_chunks, if_neg fun isRow => different (congrArg Prod.fst isRow)]
    exact holding.nothing each none

/-- A chunk of the session is held from then on, over what was held for its index. -/
theorem Holding.withOwn {session row : UploadSession} {held : Nat → Option Content}
    {sys : System} (holding : Holding session held sys) {index : Nat} (content : Content)
    (own : row.id = session.id) (inRange : index < session.totalChunks) :
    Holding session (Function.update held index (some content))
      (withChunk session.userId row index content sys) where
  isOpen := holding.isOpen.withChunk session.userId row index content
  chunk := by
    intro each kept isHeld
    rw [HoldsChunk, find_withChunk_chunks, find_withChunk_storage, own]
    by_cases same : each = index
    · rw [same, Function.update_self, Option.some.injEq] at isHeld
      rw [same, if_pos rfl, if_pos rfl]
      exact ⟨inRange, _, _, rfl, rfl, rfl, isHeld⟩
    · rw [Function.update_of_ne same] at isHeld
      have otherRow : (session.id, index) ≠ (session.id, each) := fun isRow =>
        same (congrArg Prod.snd isRow).symm
      have otherBlob : StorageKey.chunk session.userId session.id index ≠
          .chunk session.userId session.id each := by
        intro isBlob
        rw [StorageKey.chunk.injEq] at isBlob
        exact same isBlob.2.2.symm
      rw [if_neg otherRow, if_neg otherBlob]
      exact holding.chunk each kept isHeld
  nothing := by
    intro each none
    by_cases same : each = index
    · rw [same, Function.update_self] at none
      cases none
    · rw [Function.update_of_ne same] at none
      rw [find_withChunk_chunks, own, if_neg fun isRow => same (congrArg Prod.snd isRow).symm]
      exact holding.nothing each none

/-- A blob that is replaced without its row is what is held, if there is a row. -/
theorem Holding.withBlob {session row : UploadSession} {held : Nat → Option Content}
    {sys : System} (holding : Holding session held sys) {index : Nat} (content : Content)
    (own : row.id = session.id) :
    Holding session (Function.update held index ((held index).map fun _ => content))
      (withBlob session.userId row index content sys) where
  isOpen := holding.isOpen
  chunk := by
    intro each kept isHeld
    rw [HoldsChunk, find_withBlob_storage, own]
    by_cases same : each = index
    · rw [same, Function.update_self] at isHeld
      rcases Option.map_eq_some_iff.mp isHeld with ⟨old, isOld, rfl⟩
      rcases holding.chunk index old isOld with ⟨inRange, found, _, isRow, isKey, _, _⟩
      rw [same, if_pos rfl]
      exact ⟨inRange, found, _, isRow, isKey, rfl, rfl⟩
    · rw [Function.update_of_ne same] at isHeld
      have otherBlob : StorageKey.chunk session.userId session.id index ≠
          .chunk session.userId session.id each := by
        intro isBlob
        rw [StorageKey.chunk.injEq] at isBlob
        exact same isBlob.2.2.symm
      rw [if_neg otherBlob]
      exact holding.chunk each kept isHeld
  nothing := by
    intro each none
    by_cases same : each = index
    · rw [same, Function.update_self, Option.map_eq_none_iff] at none
      exact same ▸ holding.nothing index none
    · rw [Function.update_of_ne same] at none
      exact holding.nothing each none

/-- A blob of another session leaves what is held. -/
theorem Holding.withOtherBlob {session other : UploadSession} {held : Nat → Option Content}
    {sys : System} (holding : Holding session held sys) (userId : Uuid) (index : Nat)
    (content : Content) (different : other.id ≠ session.id) :
    Holding session held (UploadSessionService.withBlob userId other index content sys) where
  isOpen := holding.isOpen
  chunk := by
    intro each kept isHeld
    rcases holding.chunk each kept isHeld with ⟨inRange, row, object, found, isKey, stored, same⟩
    refine ⟨inRange, row, object, found, isKey, ?_, same⟩
    rw [find_withBlob_storage, if_neg]
    · exact stored
    · intro isBlob
      rw [StorageKey.chunk.injEq] at isBlob
      exact different isBlob.2.1
  nothing := holding.nothing

/-! ## Sequences of calls -/

/-- A call of `upload_chunk`. -/
structure ChunkCall where
  userId : Uuid
  sessionId : Uuid
  chunkIndex : Int
  body : List (Option Content)

def ChunkCall.receive (call : ChunkCall) (sys : System) : Except ChunkFailure Unit × System :=
  receiveChunk call.userId call.sessionId call.chunkIndex call.body sys

/-- What happens between the creation of a session and its completion. -/
inductive Sending where
  | upload (call : ChunkCall)
  | tick (seconds : Nat)

def Sending.leads : Sending → System → System
  | .upload call, sys => (call.receive sys).2
  | .tick seconds, sys => { sys with now := sys.now + seconds }

/-- Calls one after the other, successful or not, by any users on any sessions. -/
abbrev Sendings (start : System) (events : List (Event System Sending)) (final : System) : Prop :=
  Run (fun sending before after => after = sending.leads before) start events final

def Sending.leadsAll (sendings : List Sending) (sys : System) : System :=
  sendings.foldl (fun sys sending => sending.leads sys) sys

def Sending.trace : List Sending → System → List (Event System Sending)
  | [], _ => []
  | sending :: rest, sys => ⟨sys, sending, sending.leads sys⟩ :: trace rest (sending.leads sys)

theorem Sending.run_trace : ∀ (sendings : List Sending) (sys : System),
    Sendings sys (Sending.trace sendings sys) (Sending.leadsAll sendings sys)
  | [], _ => .nothing
  | sending :: rest, sys =>
      (Run.single rfl).append (run_trace rest (sending.leads sys))

/-- The content that the event stores for the index, if it is a successful call on it. -/
def stores (sessionId : Uuid) (index : Nat) (event : Event System Sending) : Option Content :=
  match event.action with
  | .tick _ => none
  | .upload call =>
      match (call.receive event.before).1 with
      | .error _ => none
      | .ok _ =>
          if call.sessionId = sessionId ∧ call.chunkIndex = index then
            LocalStorageProvider.received call.body
          else none

theorem stores_upload {sessionId : Uuid} {index : Nat} {before after : System} {call : ChunkCall}
    {content : Content} :
    stores sessionId index ⟨before, .upload call, after⟩ = some content ↔
      (call.receive before).1 = .ok () ∧ call.sessionId = sessionId ∧ call.chunkIndex = index ∧
        LocalStorageProvider.received call.body = some content := by
  simp only [stores]
  cases (call.receive before).1 with
  | error error => simp
  | ok done =>
      by_cases own : call.sessionId = sessionId ∧ call.chunkIndex = index
      · simp [own]
      · rw [not_and] at own
        by_cases same : call.sessionId = sessionId
        · simp [same, own same]
        · simp [same]

/-- The content of the last successful call on the index, over what was there before. -/
def lastStored (sessionId : Uuid) (earlier : Nat → Option Content)
    (events : List (Event System Sending)) (index : Nat) : Option Content :=
  events.foldl (fun last event => stores sessionId index event <|> last) (earlier index)

theorem lastStored_append (sessionId : Uuid) (earlier : Nat → Option Content)
    (past : List (Event System Sending)) (event : Event System Sending) (index : Nat) :
    lastStored sessionId earlier (past ++ [event]) index =
      (stores sessionId index event <|> lastStored sessionId earlier past index) := by
  rw [lastStored, List.foldl_append]
  rfl

/-- The bytes of the event, if it is a call of the owner on the index whose stream ends. -/
def reads (session : UploadSession) (index : Nat) (event : Event System Sending) :
    Option Content :=
  match event.action with
  | .tick _ => none
  | .upload call =>
      if call.userId = session.userId ∧ call.sessionId = session.id ∧ call.chunkIndex = index then
        LocalStorageProvider.received call.body
      else none

/-- The bytes of the last call of the owner on the index whose stream ended, successful or
not. -/
def lastRead (session : UploadSession) (events : List (Event System Sending)) (index : Nat) :
    Option Content :=
  events.foldl (fun last event => reads session index event <|> last) none

theorem lastRead_append (session : UploadSession) (past : List (Event System Sending))
    (event : Event System Sending) (index : Nat) :
    lastRead session (past ++ [event]) index =
      (reads session index event <|> lastRead session past index) := by
  rw [lastRead, List.foldl_append]
  rfl

theorem reads_upload {session : UploadSession} {index : Nat} {before after : System}
    {call : ChunkCall} {content : Content} :
    reads session index ⟨before, .upload call, after⟩ = some content ↔
      (call.userId = session.userId ∧ call.sessionId = session.id ∧ call.chunkIndex = index) ∧
        LocalStorageProvider.received call.body = some content := by
  simp only [reads]
  by_cases own : call.userId = session.userId ∧ call.sessionId = session.id ∧
      call.chunkIndex = index
  · rw [if_pos own]
    exact (and_iff_right own).symm
  · rw [if_neg own]
    exact iff_of_false (fun none => by cases none) fun both => own both.1

/-- What the blob of the index holds after the event, where it has a row. -/
def heldAfter (session : UploadSession) (event : Event System Sending)
    (held : Nat → Option Content) (index : Nat) : Option Content :=
  stores session.id index event <|>
    (held index).map fun old => (reads session index event).getD old

theorem heldAfter_of_stores {session : UploadSession} {event : Event System Sending}
    {held : Nat → Option Content} {index : Nat} {content : Content}
    (storing : stores session.id index event = some content) :
    heldAfter session event held index = some content := by
  rw [heldAfter, storing]
  rfl

theorem heldAfter_of_reads {session : UploadSession} {event : Event System Sending}
    {held : Nat → Option Content} {index : Nat} {content : Content}
    (nothing : stores session.id index event = none)
    (isRead : reads session index event = some content) :
    heldAfter session event held index = (held index).map fun _ => content := by
  rw [heldAfter, nothing, isRead]
  rfl

theorem heldAfter_of_unread {session : UploadSession} {event : Event System Sending}
    {held : Nat → Option Content} {index : Nat}
    (nothing : stores session.id index event = none)
    (unread : ∀ content, reads session index event = some content → held index = none) :
    heldAfter session event held index = held index := by
  cases isRead : reads session index event with
  | none =>
      rw [heldAfter, nothing, isRead]
      show (held index).map (fun old => old) = held index
      rw [Option.map_id_fun']
      rfl
  | some content =>
      rw [heldAfter_of_reads nothing isRead, unread content isRead]
      rfl

/-- The owner of an open session may send every chunk of it. -/
theorem OpenSession.admits {session : UploadSession} {sys : System}
    (isOpen : OpenSession session sys) {index : Nat} (inRange : index < session.totalChunks) :
    ∃ row, admitChunk session.userId session.id index sys = .ok row ∧ row.id = session.id := by
  rcases isOpen with ⟨status, updatedAt, running, found⟩
  have inside : ¬ ((index : Int) < 0 ∨ (session.totalChunks : Int) ≤ index) := by omega
  refine ⟨{ session with status := status, updatedAt := updatedAt }, ?_, rfl⟩
  simp only [admitChunk, getOr404, bind_eq_ok, orRaise_eq_ok, require_eq_ok, pure_eq_ok]
  exact ⟨_, ⟨_, found, (), rfl, rfl⟩, (), running, (), inside, rfl⟩

/-- A call that is admitted to the open session is one of its owner, for one of its chunks. -/
theorem OpenSession.admitted {session row : UploadSession} {sys : System} {call : ChunkCall}
    (isOpen : OpenSession session sys) (own : call.sessionId = session.id)
    (admits : admitChunk call.userId call.sessionId call.chunkIndex sys = .ok row) :
    call.userId = session.userId ∧ row.id = session.id ∧
      call.chunkIndex = (call.chunkIndex.toNat : Int) ∧
        call.chunkIndex.toNat < session.totalChunks := by
  rcases admitChunk_ok admits with ⟨found, mine, _, nonnegative, inRange⟩
  rcases isOpen with ⟨status, updatedAt, _, isSession⟩
  rw [own, isSession, Option.some.injEq] at found
  refine ⟨?_, ?_, (Int.toNat_of_nonneg nonnegative).symm, ?_⟩
  · rw [← mine, ← found]
  · rw [← found]
  · rw [← found] at inRange
    exact inRange

/-- A successful call on the open session is read as one of its owner. -/
theorem OpenSession.reads_of_stores {session : UploadSession} {before after : System}
    {sending : Sending} (isOpen : OpenSession session before) {index : Nat} {content : Content}
    (storing : stores session.id index ⟨before, sending, after⟩ = some content) :
    reads session index ⟨before, sending, after⟩ = some content ∧ content.length ≤ maxInt4 := by
  cases sending with
  | tick seconds => cases storing
  | upload call =>
      rcases stores_upload.mp storing with ⟨done, own, isIndex, ends⟩
      rw [ChunkCall.receive, receiveChunk_eq] at done
      cases admits : admitChunk call.userId call.sessionId call.chunkIndex before with
      | error error =>
          rw [admits] at done
          cases done
      | ok row =>
          have mine := (isOpen.admitted own admits).1
          rw [admits, ends] at done
          dsimp only at done
          split at done
          · rename_i fits
            exact ⟨reads_upload.mpr ⟨⟨mine, own, isIndex⟩, ends⟩, fits⟩
          · cases done

theorem isSome_heldAfter {session : UploadSession} {event : Event System Sending}
    {held : Nat → Option Content} {index : Nat} (isHeld : (held index).isSome) :
    (heldAfter session event held index).isSome := by
  cases storing : stores session.id index event with
  | some content =>
      rw [heldAfter_of_stores storing]
      rfl
  | none =>
      cases isRead : reads session index event with
      | some content =>
          rw [heldAfter_of_reads storing isRead, Option.isSome_map]
          exact isHeld
      | none =>
          rw [heldAfter_of_unread storing fun content isContent => by
            cases isRead.symm.trans isContent]
          exact isHeld

/-- What is held after a call was sent with it or was held before. -/
theorem OpenSession.heldAfter_cases {session : UploadSession} {before after : System}
    {sending : Sending} (isOpen : OpenSession session before) {held : Nat → Option Content}
    {index : Nat} {kept : Content}
    (isKept : heldAfter session ⟨before, sending, after⟩ held index = some kept) :
    reads session index ⟨before, sending, after⟩ = some kept ∨ held index = some kept := by
  cases storing : stores session.id index ⟨before, sending, after⟩ with
  | some content =>
      rw [heldAfter_of_stores storing] at isKept
      exact .inl ((isOpen.reads_of_stores storing).1.trans isKept)
  | none =>
      cases isRead : reads session index ⟨before, sending, after⟩ with
      | some content =>
          rw [heldAfter_of_reads storing isRead] at isKept
          rcases Option.map_eq_some_iff.mp isKept with ⟨_, _, rfl⟩
          exact .inl rfl
      | none =>
          rw [heldAfter_of_unread storing fun content isContent => by
            cases isRead.symm.trans isContent] at isKept
          exact .inr isKept

/-- A call of the owner on a chunk of the open session succeeds if its bytes fit. -/
theorem OpenSession.stores_of_reads {session : UploadSession} {before after : System}
    {sending : Sending} (isOpen : OpenSession session before) {index : Nat}
    (inRange : index < session.totalChunks) {content : Content}
    (isRead : reads session index ⟨before, sending, after⟩ = some content)
    (fits : content.length ≤ maxInt4) :
    stores session.id index ⟨before, sending, after⟩ = some content := by
  cases sending with
  | tick seconds => cases isRead
  | upload call =>
      rcases reads_upload.mp isRead with ⟨⟨mine, own, isIndex⟩, ends⟩
      rcases isOpen.admits inRange with ⟨row, admits, _⟩
      refine stores_upload.mpr ⟨?_, own, isIndex, ends⟩
      rw [ChunkCall.receive, receiveChunk_eq, mine, own, isIndex, admits, ends]
      dsimp only
      rw [if_pos fits]

/-- A call that does not succeed stores nothing. -/
theorem stores_of_fails {sessionId : Uuid} {index : Nat} {before after : System}
    {call : ChunkCall} {failure : ChunkFailure} (fails : (call.receive before).1 = .error failure) :
    stores sessionId index ⟨before, .upload call, after⟩ = none := by
  simp only [stores]
  rw [fails]

/-- A call on another session, or on another index, does not touch what is held. -/
theorem heldAfter_of_other {session : UploadSession} {before after : System} {call : ChunkCall}
    {held : Nat → Option Content} {index : Nat}
    (other : ¬ (call.sessionId = session.id ∧ call.chunkIndex = index)) :
    heldAfter session ⟨before, .upload call, after⟩ held index = held index := by
  apply heldAfter_of_unread
  · apply Option.eq_none_iff_forall_ne_some.mpr
    intro content storing
    have isOwn := stores_upload.mp storing
    exact other ⟨isOwn.2.1, isOwn.2.2.1⟩
  · intro content isRead
    exact absurd (reads_upload.mp isRead).1.2 other

theorem Holding.tick {session : UploadSession} {held : Nat → Option Content} {sys : System}
    (holding : Holding session held sys) (seconds : Nat) :
    Holding session held { sys with now := sys.now + seconds } :=
  ⟨holding.isOpen, holding.chunk, holding.nothing⟩

/-- A call changes what is held under its own index only. -/
theorem heldAfter_eq_update {session : UploadSession} {held : Nat → Option Content}
    {before after : System} {call : ChunkCall} {kept : Option Content}
    (isKept : heldAfter session ⟨before, .upload call, after⟩ held call.chunkIndex.toNat = kept) :
    heldAfter session ⟨before, .upload call, after⟩ held =
      Function.update held call.chunkIndex.toNat kept := by
  funext index
  by_cases same : index = call.chunkIndex.toNat
  · rw [same, Function.update_self, isKept]
  · rw [Function.update_of_ne same]
    exact heldAfter_of_other fun both => same (by omega)

/-- Of a call that is not admitted nothing is read that would count. -/
theorem Holding.heldAfter_of_refused {session : UploadSession} {held : Nat → Option Content}
    {before after : System} {call : ChunkCall} {error : ServiceError}
    (holding : Holding session held before)
    (admits : admitChunk call.userId call.sessionId call.chunkIndex before = .error error)
    (fails : (call.receive before).1 = .error (.refused error)) (index : Nat) :
    heldAfter session ⟨before, .upload call, after⟩ held index = held index := by
  apply heldAfter_of_unread (stores_of_fails fails)
  intro content isRead
  rcases (reads_upload.mp isRead).1 with ⟨mine, own, isIndex⟩
  cases isHeld : held index with
  | none => rfl
  | some kept =>
      rcases holding.isOpen.admits (holding.chunk index kept isHeld).1 with ⟨row, ok, _⟩
      rw [mine, own, isIndex, ok] at admits
      cases admits

/-- One event updates what is held by what it stores, or by what it leaves without a row. -/
theorem Holding.step {session : UploadSession} {held : Nat → Option Content} {before : System}
    (holding : Holding session held before) (sending : Sending) :
    Holding session (heldAfter session ⟨before, sending, sending.leads before⟩ held)
      (sending.leads before) := by
  have unchanged : ∀ {after : System}, Holding session held after →
      (∀ index, heldAfter session ⟨before, sending, sending.leads before⟩ held index =
        held index) →
      Holding session (heldAfter session ⟨before, sending, sending.leads before⟩ held) after := by
    intro after still same
    rw [funext same]
    exact still
  cases sending with
  | tick seconds =>
      apply unchanged (holding.tick seconds)
      exact fun index => heldAfter_of_unread rfl fun content isRead => by cases isRead
  | upload call =>
      have receives := receiveChunk_eq call.userId call.sessionId call.chunkIndex call.body before
      cases admits : admitChunk call.userId call.sessionId call.chunkIndex before with
      | error error =>
          rw [admits] at receives
          have fails : (call.receive before).1 = .error (.refused error) :=
            congrArg Prod.fst receives
          have leads : (Sending.upload call).leads before = before := congrArg Prod.snd receives
          apply unchanged
          · rw [leads]
            exact holding
          · exact holding.heldAfter_of_refused admits fails
      | ok row =>
          rw [admits] at receives
          cases ends : LocalStorageProvider.received call.body with
          | none =>
              rw [ends] at receives
              have fails : (call.receive before).1 = .error .streamRaised :=
                congrArg Prod.fst receives
              have leads : (Sending.upload call).leads before = before :=
                congrArg Prod.snd receives
              apply unchanged
              · rw [leads]
                exact holding
              · intro index
                apply heldAfter_of_unread (stores_of_fails fails)
                intro content isRead
                cases ends.symm.trans (reads_upload.mp isRead).2
          | some content =>
              rw [ends] at receives
              dsimp only at receives
              by_cases own : call.sessionId = session.id
              · rcases holding.isOpen.admitted own admits with
                  ⟨mine, sameId, isIndex, inRange⟩
                by_cases fits : content.length ≤ maxInt4
                · rw [if_pos fits] at receives
                  have done : (call.receive before).1 = .ok () := congrArg Prod.fst receives
                  have leads : (Sending.upload call).leads before =
                      withChunk call.userId row call.chunkIndex.toNat content before :=
                    congrArg Prod.snd receives
                  rw [heldAfter_eq_update (heldAfter_of_stores
                    (stores_upload.mpr ⟨done, own, isIndex, ends⟩)), leads, mine]
                  exact holding.withOwn content sameId inRange
                · rw [if_neg fits] at receives
                  have fails : (call.receive before).1 = .error .upsertRaised :=
                    congrArg Prod.fst receives
                  have leads : (Sending.upload call).leads before =
                      UploadSessionService.withBlob call.userId row call.chunkIndex.toNat content
                        before := congrArg Prod.snd receives
                  rw [heldAfter_eq_update (heldAfter_of_reads (stores_of_fails fails)
                    (reads_upload.mpr ⟨⟨mine, own, isIndex⟩, ends⟩)), leads, mine]
                  exact holding.withBlob content sameId
              · have different : row.id ≠ session.id := by
                  have isRow := (Table.find?_eq_some.mp (admitChunk_ok admits).1).2
                  exact fun same => own (isRow.symm.trans same)
                apply unchanged
                · show Holding session held (receiveChunk _ _ _ _ before).2
                  rw [receives]
                  split
                  · exact holding.withOther _ _ content different
                  · exact holding.withOtherBlob _ _ content different
                · exact fun index => heldAfter_of_other fun both => own both.1

/-- The bytes that were stored, and those that are in the blob: the same, or more than the
column of the size takes. -/
structure Backed (stored content : Content) : Prop where
  fits : stored.length ≤ maxInt4
  same : content = stored ∨ maxInt4 < content.length

/-- What the calls leave under the indexes that have a row. -/
def heldBy (session : UploadSession) (events : List (Event System Sending)) (index : Nat) :
    Option Content :=
  (lastStored session.id (fun _ => none) events index).bind fun _ => lastRead session events index

theorem heldBy_eq_some {session : UploadSession} {events : List (Event System Sending)}
    {index : Nat} {content : Content} :
    heldBy session events index = some content ↔
      (∃ stored, lastStored session.id (fun _ => none) events index = some stored) ∧
        lastRead session events index = some content := by
  rw [heldBy, Option.bind_eq_some_iff, exists_and_right]

/-- A sequence of calls leaves in the blobs what the owner sent last, whether or not the call
succeeded, and rows for the indexes of the successful calls. -/
theorem Holding.sendings {session : UploadSession} {start final : System}
    {events : List (Event System Sending)}
    (holding : Holding session (fun _ => none) start) (run : Sendings start events final) :
    Holding session (heldBy session events) final ∧
      ∀ index stored, lastStored session.id (fun _ => none) events index = some stored →
        ∃ content, lastRead session events index = some content ∧ Backed stored content := by
  induction run with
  | nothing => exact ⟨holding, fun index stored isStored => by cases isStored⟩
  | @next past middle final sending run leads induction =>
      rcases induction with ⟨held, backed⟩
      rw [leads]
      have storing := fun index => lastStored_append session.id (fun _ => none) past
        ⟨middle, sending, sending.leads middle⟩ index
      have reading := lastRead_append session past ⟨middle, sending, sending.leads middle⟩
      constructor
      · have same : heldBy session (past ++ [⟨middle, sending, sending.leads middle⟩]) =
            heldAfter session ⟨middle, sending, sending.leads middle⟩ (heldBy session past) := by
          funext index
          rw [heldBy, storing, reading]
          cases stored : stores session.id index ⟨middle, sending, sending.leads middle⟩ with
          | some content =>
              rw [heldAfter_of_stores stored, (held.isOpen.reads_of_stores stored).1]
              rfl
          | none =>
              cases isRead : reads session index ⟨middle, sending, sending.leads middle⟩ with
              | none =>
                  rw [heldAfter_of_unread stored fun content some_ => by cases isRead.symm.trans some_]
                  rfl
              | some content =>
                  rw [heldAfter_of_reads stored isRead, heldBy]
                  cases earlier : lastStored session.id (fun _ => none) past index with
                  | none => rfl
                  | some old =>
                      rcases backed index old earlier with ⟨kept, isKept, _⟩
                      rw [isKept]
                      rfl
        rw [same]
        exact held.step sending
      · intro index stored isStored
        rw [storing] at isStored
        rw [reading]
        cases now : stores session.id index ⟨middle, sending, sending.leads middle⟩ with
        | some content =>
            rw [now] at isStored
            cases isStored
            rcases held.isOpen.reads_of_stores now with ⟨isRead, fits⟩
            rw [isRead]
            exact ⟨stored, rfl, fits, .inl rfl⟩
        | none =>
            rw [now] at isStored
            have earlier : lastStored session.id (fun _ => none) past index = some stored := isStored
            rcases backed index stored earlier with ⟨kept, isKept, isBacked⟩
            cases isRead : reads session index ⟨middle, sending, sending.leads middle⟩ with
            | none => exact ⟨kept, isKept, isBacked⟩
            | some content =>
                refine ⟨content, rfl, isBacked.fits, .inr ?_⟩
                have isHeld : heldBy session past index = some kept := by
                  rw [heldBy, earlier, isKept]
                  rfl
                have inRange := (held.chunk index kept isHeld).1
                by_contra short
                cases now.symm.trans
                  (held.isOpen.stores_of_reads inRange isRead (Nat.le_of_not_lt short))

/-- A new session holds nothing. -/
theorem createSession_holding {userId : Uuid} {filename : String} {totalSize : Nat}
    {parentId : Option Uuid} {mimeType : Option String} {sys opened : System}
    {session : UploadSession}
    (created : createSession userId filename totalSize parentId mimeType sys =
      .ok (session, opened)) :
    Holding session (fun _ => none) opened := by
  simp only [createSession, bind_eq_ok, require_eq_ok, whenSome_eq_ok, orRaise_eq_ok,
    pure_eq_ok, Prod.mk.injEq] at created
  rcases created with ⟨_, _, _, _, _, _, _, _, _, _, sessions, inserted, rfl, rfl⟩
  constructor
  case isOpen =>
    apply Exists.intro .pending
    apply Exists.intro sys.now
    apply And.intro rfl
    exact Table.find?_eq_some.mpr ⟨(Table.mem_of_insert? inserted).mpr (.inr rfl), rfl⟩
  case chunk =>
    intro index content held
    cases held
  case nothing =>
    intro index _
    apply Table.find?_eq_none.mpr
    intro row member isKey
    exact sys.uuid4_unused.chunks row member (congrArg Prod.fst isKey)

end UploadSessionService

end CloudDrive
