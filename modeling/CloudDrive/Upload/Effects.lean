import CloudDrive.Upload

/-! # What the upload operations do

One lemma for each operation: what it has checked when it succeeds, and how the
tables and the storage differ afterwards. -/

namespace CloudDrive

open Outcome Relational DriveService DriveItemRepository

variable [Platform]

/-! ## The storage -/

/-- A blob is stored under `key`. -/
def Stored (sys : System) (key : StorageKey) : Prop :=
  ∃ object ∈ sys.storage, object.key = key

namespace Storage

theorem stored_saveStream {key other : StorageKey} {stream : List Content} {sys : System} :
    Stored (saveStream key stream sys) other ↔ other = key ∨ Stored sys other := by
  constructor
  · intro stored
    rcases stored with ⟨object, member, rfl⟩
    rcases Table.mem_save.mp member with rfl | ⟨earlier, _⟩
    · exact .inl rfl
    · exact .inr ⟨object, earlier, rfl⟩
  · intro either
    by_cases same : other = key
    · exact ⟨_, Table.mem_save.mpr (.inl rfl), same.symm⟩
    · rcases either with isKey | ⟨object, member, rfl⟩
      · exact absurd isKey same
      · exact ⟨object, Table.mem_save.mpr (.inr ⟨member, same⟩), rfl⟩

/-- A loop of deletions removes the named blobs and nothing else. -/
theorem foldl_delete {α : Type} (keyOf : α → StorageKey) : ∀ (elements : List α) (sys : System),
    elements.foldl (fun sys element => delete (keyOf element) sys) sys =
      sys.withStorage (sys.storage.filter fun object =>
        decide (object.key ∉ elements.map keyOf))
  | [], sys => by
      have all : sys.storage.filter (fun object =>
          decide (object.key ∉ ([] : List α).map keyOf)) = sys.storage :=
        Table.ext_rows (by simp [Table.filter])
      rw [all]
      rfl
  | element :: rest, sys => by
      rw [List.foldl_cons, foldl_delete keyOf rest]
      have both : (delete (keyOf element) sys).storage.filter (fun object =>
            decide (object.key ∉ rest.map keyOf)) =
          sys.storage.filter fun object =>
            decide (object.key ∉ (element :: rest).map keyOf) := by
        apply Table.ext_rows
        simp only [delete, System.withStorage, Table.filter, List.filter_filter, List.map_cons,
          List.mem_cons, not_or]
        congr 1
        funext object
        rw [Bool.decide_and, Bool.and_comm]
      rw [both]
      rfl

end Storage

/-! ## Creating a file -/

/-- Between `before` and `after` the file `item` was created from `file`, with
its first version. -/
structure FileCreated (userId : Uuid) (parentId : Option Uuid) (file : StoredFile)
    (item : DriveItem) (before after : System) : Prop where
  isNew : item.id = before.uuid4
  ownerId : item.ownerId = userId
  parentId : item.parentId = parentId
  itemType : item.itemType = .file
  live : item.isDeleted = false
  storageKey : item.storageKey = some file.key
  items : ∀ row, row ∈ after.db.items ↔ row ∈ before.db.items ∨ row = item
  versions : ∀ row, row ∈ after.db.versions ↔ row ∈ before.db.versions ∨
    row = {
      fileId := item.id
      versionNo := 1
      storageKey := file.key
      sizeBytes := file.content.length
      checksumSha256 := some (Platform.sha256 file.content)
      createdBy := userId
      createdAt := before.now }
  frame : ∃ items versions users, after = { before.drawn with
    db := { before.db with items := items, versions := versions, users := users } }

theorem createFile_item {userId : Uuid} {parentId : Option Uuid} {name : String}
    {file : StoredFile} {sys after : System} {item : DriveItem}
    (created : createFile userId parentId name file sys = .ok (item, after)) :
    item = withContent file (newItem sys userId parentId .file name userId) := by
  simp only [createFile, bind_eq_ok, pure_eq_ok, Prod.mk.injEq] at created
  rcases created with ⟨⟨row, middle⟩, added, _, _, _, _, rfl, _⟩
  rcases DriveService.create_ok added with ⟨rfl, _⟩
  rfl

theorem createFile_ok {userId : Uuid} {parentId : Option Uuid} {name : String}
    {file : StoredFile} {sys after : System} {item : DriveItem}
    (created : createFile userId parentId name file sys = .ok (item, after)) :
    FileCreated userId parentId file item sys after := by
  simp only [createFile, bind_eq_ok, pure_eq_ok, Prod.mk.injEq,
    FileVersionRepository.create, orRaise_eq_ok] at created
  rcases created with ⟨⟨row, middle⟩, added, items, changed, _, ⟨versions, inserted, rfl⟩,
    rfl, rfl⟩
  rcases create_ok added with ⟨rfl, addedItems, isAdded, rfl⟩
  have inserts := (Table.insert?_eq_some.mp inserted).2
  have fresh := ItemTable.fresh_of_add isAdded
  have isNewRow := (ItemTable.mem_of_add isAdded).mpr (.inr rfl)
  have replaced := ItemTable.change_replaced isNewRow rfl changed
  constructor
  case isNew => rfl
  case ownerId => rfl
  case parentId => rfl
  case itemType => rfl
  case live => rfl
  case storageKey => rfl
  case items =>
    intro other
    apply (replaced.rows other).trans
    rw [ItemTable.mem_of_add isAdded]
    constructor
    · intro either
      rcases either with isItem | ⟨earlier | isRow, different⟩
      · exact .inr isItem
      · exact .inl earlier
      · exact absurd (congrArg DriveItem.id isRow) different
    · intro either
      rcases either with earlier | isItem
      · exact .inr ⟨.inl earlier, fresh other earlier⟩
      · exact .inl isItem
  case versions =>
    intro other
    rw [← Table.mem_rows]
    show other ∈ versions.rows ↔ _
    rw [inserts, List.mem_append, List.mem_singleton]
    rfl
  case frame => exact ⟨_, _, _, rfl⟩

theorem FileCreated.fresh {userId : Uuid} {parentId : Option Uuid} {file : StoredFile}
    {item : DriveItem} {before after : System}
    (created : FileCreated userId parentId file item before after) :
    before.Unused item.id :=
  created.isNew ▸ before.uuid4_unused

namespace UploadService

theorem target_ok {userId folderId : Uuid} {sys : System} {done : Unit}
    (passed : target userId folderId sys = .ok done) : Writable sys.db userId folderId := by
  simp only [target, bind_eq_ok, orRaise_eq_ok, require_eq_ok] at passed
  rcases passed with ⟨folder, found, _, live, _, kind, passed⟩
  exact ⟨folder, found, live, kind, assertCanEdit_ok passed⟩

theorem uploadSimple_ok {userId : Uuid} {parentId : Option Uuid} {filename : String}
    {stream : List Content} {sizeBytes : Nat} {mimeType : Option String}
    {sys after : System} {item : DriveItem}
    (runs : uploadSimple userId parentId filename stream sizeBytes mimeType sys =
      .ok (item, after)) :
    (∀ folderId ∈ parentId, Writable sys.db userId folderId) ∧
      ∃ file : StoredFile, file.key = .file userId sys.uuid4 1 ∧
        FileCreated userId parentId file item
          (Storage.saveStream file.key stream sys.drawn) after := by
  simp only [uploadSimple, bind_eq_ok, whenSome_eq_ok] at runs
  rcases runs with ⟨accepted, _, _, checked, _, _, name, _, created⟩
  exact ⟨fun folderId named => target_ok (checked folderId named), _, rfl,
    createFile_ok created⟩

end UploadService

namespace UploadSessionService

theorem getOr404_ok {userId sessionId : Uuid} {sys : System} {session : UploadSession}
    (found : getOr404 userId sessionId sys = .ok session) :
    session ∈ sys.db.sessions ∧ session.id = sessionId ∧ session.userId = userId := by
  simp only [getOr404, bind_eq_ok, orRaise_eq_ok, require_eq_ok, pure_eq_ok] at found
  rcases found with ⟨row, isRow, _, mine, rfl⟩
  rcases Table.find?_eq_some.mp isRow with ⟨member, sameId⟩
  exact ⟨member, sameId, mine⟩

/-- `before` and `after` differ in sessions, chunks and the blobs of chunks. -/
structure SessionWork (before after : System) : Prop where
  frame : ∃ sessions chunks, after.db =
    { before.db with sessions := sessions, chunks := chunks }
  now : after.now = before.now
  stored : ∀ key, Stored after key → Stored before key ∨ key.isChunk = true
  kept : ∀ key, Stored before key → Stored after key ∨ key.isChunk = true ∨
    ∃ chunk ∈ before.db.chunks, chunk.storageKey = key
  chunks : ∀ chunk ∈ after.db.chunks, chunk ∈ before.db.chunks ∨
    chunk.storageKey.isChunk = true

/-- The sessions of `after` are those of `before`, further on. -/
def SessionsKept (before after : System) : Prop :=
  ∀ row ∈ after.db.sessions, ∃ old ∈ before.db.sessions,
    old.id = row.id ∧ old.userId = row.userId ∧ old.parentId = row.parentId

theorem SessionWork.refl (sys : System) : SessionWork sys sys where
  frame := ⟨_, _, rfl⟩
  now := rfl
  stored _ stored := .inl stored
  kept _ stored := .inl stored
  chunks _ member := .inl member

theorem SessionWork.trans {before middle after : System} (first : SessionWork before middle)
    (second : SessionWork middle after) : SessionWork before after where
  frame := by
    rcases first.frame with ⟨_, _, firstDb⟩
    rcases second.frame with ⟨sessions, chunks, secondDb⟩
    exact ⟨sessions, chunks, by rw [secondDb, firstDb]⟩
  now := second.now.trans first.now
  stored key stored := by
    rcases second.stored key stored with earlier | isChunk
    · exact first.stored key earlier
    · exact .inr isChunk
  kept key stored := by
    rcases first.kept key stored with later | gone
    · rcases second.kept key later with still | isChunk | ⟨chunk, member, rfl⟩
      · exact .inl still
      · exact .inr (.inl isChunk)
      · rcases first.chunks chunk member with earlier | isChunk
        · exact .inr (.inr ⟨chunk, earlier, rfl⟩)
        · exact .inr (.inl isChunk)
    · exact .inr gone
  chunks chunk member := by
    rcases second.chunks chunk member with earlier | isChunk
    · exact first.chunks chunk earlier
    · exact .inr isChunk

theorem SessionsKept.refl (sys : System) : SessionsKept sys sys :=
  fun row member => ⟨row, member, rfl, rfl, rfl⟩

theorem SessionsKept.trans {before middle after : System} (first : SessionsKept before middle)
    (second : SessionsKept middle after) : SessionsKept before after := by
  intro row member
  rcases second row member with ⟨between, betweenMem, sameId, sameUser, sameParent⟩
  rcases first between betweenMem with ⟨old, oldMem, oldId, oldUser, oldParent⟩
  exact ⟨old, oldMem, oldId.trans sameId, oldUser.trans sameUser, oldParent.trans sameParent⟩

theorem updateStatus_kept (sessionId : Uuid) (status : SessionStatus)
    (checksum : Option String) (driveItemId : Option Uuid) (sys : System) :
    SessionsKept sys (updateStatus sessionId status checksum driveItemId sys) := by
  intro row member
  simp only [updateStatus, System.withSessions, Table.mem_map] at member
  rcases member with ⟨old, oldMem, rfl⟩
  refine ⟨old, oldMem, ?_⟩
  split <;> exact ⟨rfl, rfl, rfl⟩

theorem updateStatus_work (sessionId : Uuid) (status : SessionStatus)
    (checksum : Option String) (driveItemId : Option Uuid) (sys : System) :
    SessionWork sys (updateStatus sessionId status checksum driveItemId sys) where
  frame := ⟨_, _, rfl⟩
  now := rfl
  stored _ stored := .inl stored
  kept _ stored := .inl stored
  chunks _ member := .inl member

theorem discardChunks_eq (chunks : List UploadChunk) (sys : System) :
    ∃ rows, discardChunks chunks sys =
        (sys.withStorage (sys.storage.filter fun object =>
          decide (object.key ∉ chunks.map UploadChunk.storageKey))).withChunks rows ∧
      ∀ chunk ∈ rows, chunk ∈ sys.db.chunks := by
  cases chunks with
  | nil =>
      have all : sys.storage.filter (fun object =>
          decide (object.key ∉ ([] : List UploadChunk).map UploadChunk.storageKey)) =
            sys.storage := Table.ext_rows (by simp [Table.filter])
      rw [all]
      exact ⟨sys.db.chunks, rfl, fun _ member => member⟩
  | cons first rest =>
      rw [discardChunks, Storage.foldl_delete UploadChunk.storageKey]
      exact ⟨_, rfl, fun _ member => (Table.mem_filter.mp member).1⟩

theorem mem_listChunks {db : Database} {sessionId : Uuid} {chunk : UploadChunk} :
    chunk ∈ listChunks db sessionId ↔ chunk ∈ db.chunks ∧ chunk.sessionId = sessionId := by
  rw [listChunks, List.Perm.mem_iff (List.perm_insertionSort _ _), List.mem_filter,
    decide_eq_true_eq, Table.mem_rows]

theorem discardChunks_work {chunks : List UploadChunk} {sys : System}
    (known : ∀ chunk ∈ chunks, chunk ∈ sys.db.chunks) :
    SessionWork sys (discardChunks chunks sys) := by
  rcases discardChunks_eq chunks sys with ⟨rows, equal, sub⟩
  rw [equal]
  constructor
  case frame => exact ⟨_, _, rfl⟩
  case now => rfl
  case stored =>
    intro key stored
    rcases stored with ⟨object, member, rfl⟩
    exact .inl ⟨object, (Table.mem_filter.mp member).1, rfl⟩
  case kept =>
    intro key stored
    rcases stored with ⟨object, member, rfl⟩
    by_cases among : object.key ∈ chunks.map UploadChunk.storageKey
    · rcases List.mem_map.mp among with ⟨chunk, chunkMem, sameKey⟩
      exact .inr (.inr ⟨chunk, known chunk chunkMem, sameKey⟩)
    · exact .inl ⟨object, Table.mem_filter.mpr ⟨member, decide_eq_true among⟩, rfl⟩
  case chunks => exact fun chunk member => .inl (sub chunk member)

theorem discardChunks_sessions (chunks : List UploadChunk) (sys : System) :
    (discardChunks chunks sys).db.sessions = sys.db.sessions := by
  rcases discardChunks_eq chunks sys with ⟨rows, equal, _⟩
  rw [equal]
  rfl

/-! ### The operations -/

theorem createSession_ok {userId : Uuid} {filename : String} {totalSize : Nat}
    {parentId : Option Uuid} {mimeType : Option String} {sys after : System}
    {session : UploadSession}
    (runs : createSession userId filename totalSize parentId mimeType sys =
      .ok (session, after)) :
    (∀ folderId ∈ parentId, Writable sys.db userId folderId) ∧
      session.id = sys.uuid4 ∧ session.userId = userId ∧ session.parentId = parentId ∧
      ∃ sessions, sessions.rows = sys.db.sessions.rows ++ [session] ∧
        after = sys.drawn.withSessions sessions := by
  simp only [createSession, bind_eq_ok, require_eq_ok, whenSome_eq_ok, orRaise_eq_ok,
    pure_eq_ok, Prod.mk.injEq] at runs
  rcases runs with ⟨_, _, _, _, _, checked, _, _, _, _, sessions, inserted, rfl, rfl⟩
  exact ⟨fun folderId named => UploadService.target_ok (checked folderId named), rfl, rfl, rfl,
    sessions, (Table.insert?_eq_some.mp inserted).2, rfl⟩

theorem uploadChunk_ok {userId sessionId : Uuid} {chunkIndex : Int} {stream : List Content}
    {sys after : System} (runs : uploadChunk userId sessionId chunkIndex stream sys = .ok after) :
    SessionWork sys after ∧ SessionsKept sys after := by
  simp only [uploadChunk, bind_eq_ok, require_eq_ok] at runs
  rcases runs with ⟨session, _, _, _, _, _, _, _, runs⟩
  let key := StorageKey.chunk userId session.id chunkIndex.toNat
  let middle := (Storage.saveStream key stream sys).withChunks (sys.db.chunks.save {
    sessionId := session.id
    chunkIndex := chunkIndex.toNat
    size := stream.flatten.length
    checksumSha256 := some (Platform.sha256 stream.flatten)
    storageKey := key
    createdAt := sys.now })
  have saved : SessionWork sys middle := by
    constructor
    case frame => exact ⟨_, _, rfl⟩
    case now => rfl
    case stored =>
      intro other stored
      rcases Storage.stored_saveStream.mp stored with rfl | earlier
      · exact .inr rfl
      · exact .inl earlier
    case kept => exact fun other stored => .inl (Storage.stored_saveStream.mpr (.inr stored))
    case chunks =>
      intro chunk member
      rcases Table.mem_save.mp member with rfl | ⟨earlier, _⟩
      · exact .inr rfl
      · exact .inl earlier
  split at runs
  · cases pure_eq_ok.mp runs
    exact ⟨saved.trans (updateStatus_work _ _ _ _ middle), updateStatus_kept _ _ _ _ middle⟩
  · cases pure_eq_ok.mp runs
    exact ⟨saved, SessionsKept.refl sys⟩

/-- `complete_session` creates the file under the parent that the session was
created with; it does not look at that folder again. -/
theorem completeSession_ok {userId sessionId : Uuid} {sys after : System} {item : DriveItem}
    (runs : completeSession userId sessionId sys = .ok (item, after)) :
    ∃ session ∈ sys.db.sessions, session.id = sessionId ∧ session.userId = userId ∧
      session.status.isTerminal = false ∧
      ∃ (file : StoredFile) (middle : System), file.key = .file userId sys.uuid4 1 ∧
        FileCreated userId session.parentId file item
          (Storage.saveStream file.key [file.content] sys.drawn) middle ∧
        SessionWork middle after ∧ SessionsKept middle after := by
  simp only [completeSession, bind_eq_ok, require_eq_ok, pure_eq_ok, Storage.concat,
    createItem, Prod.mk.injEq] at runs
  rcases runs with ⟨session, found, _, open_, _, _, ⟨content, merged⟩,
    ⟨_, _, rfl, rfl⟩, ⟨created, middle⟩, ⟨name, _, creates⟩, rfl, rfl⟩
  rcases getOr404_ok found with ⟨member, sameId, mine⟩
  have file := createFile_ok creates
  refine ⟨session, member, sameId, mine, open_, _, middle, rfl, file, ?_, ?_⟩
  · rcases file.frame with ⟨_, _, _, rfl⟩
    exact SessionWork.trans
      (discardChunks_work fun chunk among => (mem_listChunks.mp among).1)
      (updateStatus_work _ _ _ _ _)
  · have later := updateStatus_kept session.id .completed (some (Platform.sha256 content))
      (some created.id) (discardChunks (listChunks sys.db session.id) middle)
    intro row rowMem
    rw [← discardChunks_sessions (listChunks sys.db session.id) middle]
    exact later row rowMem

theorem cancelSession_ok {userId sessionId : Uuid} {sys after : System}
    (runs : cancelSession userId sessionId sys = .ok after) :
    SessionWork sys after ∧ SessionsKept sys after := by
  simp only [cancelSession, bind_eq_ok, require_eq_ok] at runs
  rcases runs with ⟨session, _, _, _, runs⟩
  split at runs
  · cases pure_eq_ok.mp runs
    exact ⟨SessionWork.refl sys, SessionsKept.refl sys⟩
  · cases pure_eq_ok.mp runs
    constructor
    · exact SessionWork.trans
        (discardChunks_work fun chunk among => (mem_listChunks.mp among).1)
        (updateStatus_work _ _ _ _ _)
    · have later := updateStatus_kept session.id .cancelled none none
        (discardChunks (listChunks sys.db session.id) sys)
      intro row rowMem
      rw [← discardChunks_sessions (listChunks sys.db session.id) sys]
      exact later row rowMem

private theorem deleteSession_work (sessionId : Uuid) (sys : System) :
    SessionWork sys (deleteSession sessionId sys) ∧
      SessionsKept sys (deleteSession sessionId sys) := by
  constructor
  · constructor
    case frame => exact ⟨_, _, rfl⟩
    case now => rfl
    case stored => exact fun key stored => .inl stored
    case kept => exact fun key stored => .inl stored
    case chunks => exact fun chunk member => .inl (Table.mem_filter.mp member).1
  · intro row member
    exact ⟨row, (Table.mem_filter.mp member).1, rfl, rfl, rfl⟩

theorem cleanupExpired_work (sys : System) :
    SessionWork sys (cleanupExpired sys) ∧ SessionsKept sys (cleanupExpired sys) := by
  have each : ∀ (expired : List UploadSession) (sys : System),
      SessionWork sys (expired.foldl (fun sys session => deleteSession session.id
        (discardChunks (listChunks sys.db session.id) sys)) sys) ∧
      SessionsKept sys (expired.foldl (fun sys session => deleteSession session.id
        (discardChunks (listChunks sys.db session.id) sys)) sys) := by
    intro expired
    induction expired with
    | nil => exact fun sys => ⟨SessionWork.refl sys, SessionsKept.refl sys⟩
    | cons session rest induction =>
        intro sys
        have discarded :
            SessionWork sys (discardChunks (listChunks sys.db session.id) sys) :=
          discardChunks_work fun chunk among => (mem_listChunks.mp among).1
        rcases deleteSession_work session.id
          (discardChunks (listChunks sys.db session.id) sys) with ⟨work, kept⟩
        rcases induction (deleteSession session.id
          (discardChunks (listChunks sys.db session.id) sys)) with ⟨restWork, restKept⟩
        refine ⟨(discarded.trans work).trans restWork, SessionsKept.trans ?_ restKept⟩
        intro row rowMem
        rw [← discardChunks_sessions (listChunks sys.db session.id) sys]
        exact kept row rowMem
  exact each (listExpired sys) sys

end UploadSessionService

end CloudDrive
