import CloudDrive.Upload.Chunks
import CloudDrive.Upload.Interrupted
import Mathlib.Data.List.Sort

/-! # Assembling the chunks

`complete_session` on what a session holds: it is refused while a chunk is missing, and
otherwise stores the chunks one after the other as a new file. -/

namespace CloudDrive

open Outcome Relational Execution Interruption

section Completion

variable [Platform]

/-! ## The file that is created -/

/-- The item is a file of this content, and so are its first version and its blob. -/
structure FileStored (item : DriveItem) (content : Content) (sys : System) : Prop where
  row : item ∈ sys.db.items
  sizeBytes : item.sizeBytes = content.length
  checksumSha256 : item.checksumSha256 = some (Platform.sha256 content)
  version : ∃ version, sys.db.versions.find? (item.id, 1) = some version ∧
    item.storageKey = some version.storageKey ∧ version.sizeBytes = content.length ∧
      version.checksumSha256 = some (Platform.sha256 content)
  blob : ∃ key object, item.storageKey = some key ∧ sys.storage.find? key = some object ∧
    object.content = content

theorem createFile_stored {userId : Uuid} {parentId : Option Uuid} {name : String}
    {file : StoredFile} {sys after : System} {item : DriveItem}
    (blob : ∃ object, sys.storage.find? file.key = some object ∧ object.content = file.content)
    (created : createFile userId parentId name file sys = .ok (item, after)) :
    FileStored item file.content after := by
  have file_ := createFile_ok created
  simp only [createFile, bind_eq_ok, pure_eq_ok, Prod.mk.injEq] at created
  rcases created with ⟨⟨row, middle⟩, _, items, _, _, _, rfl, rfl⟩
  constructor
  case row => exact (file_.items _).mpr (.inr rfl)
  case sizeBytes => rfl
  case checksumSha256 => rfl
  case version =>
    have isVersion := (file_.versions _).mpr (.inr rfl)
    exact ⟨_, Table.find?_eq_some.mpr ⟨isVersion, rfl⟩, file_.storageKey, rfl, rfl⟩
  case blob =>
    rcases blob with ⟨object, found, same⟩
    apply Exists.intro file.key
    apply Exists.intro object
    apply And.intro file_.storageKey
    apply And.intro _ same
    rcases file_.frame with ⟨_, _, _, frame⟩
    rw [frame]
    exact found

namespace UploadSessionService

/-! ## The chunks in their order -/

/-- The chunks are listed by their index, each index once. -/
theorem listChunks_sorted (db : Database) (sessionId : Uuid) :
    ((listChunks db sessionId).map UploadChunk.chunkIndex).Pairwise (· < ·) := by
  have total : Std.Total fun left right : UploadChunk => left.chunkIndex ≤ right.chunkIndex :=
    ⟨fun left right => Nat.le_total left.chunkIndex right.chunkIndex⟩
  have transitive : IsTrans UploadChunk fun left right => left.chunkIndex ≤ right.chunkIndex :=
    ⟨fun _ _ _ first second => Nat.le_trans first second⟩
  have ascending : ((listChunks db sessionId).map UploadChunk.chunkIndex).Pairwise (· ≤ ·) := by
    rw [List.pairwise_map]
    exact List.pairwise_insertionSort _ _
  have distinct : ((listChunks db sessionId).map UploadChunk.chunkIndex).Nodup := by
    have keys : ((listChunks db sessionId).map fun chunk =>
        (chunk.sessionId, chunk.chunkIndex)).Nodup := by
      have perm := (List.perm_insertionSort (fun left right : UploadChunk =>
        left.chunkIndex ≤ right.chunkIndex) (db.chunks.rows.filter fun chunk =>
          decide (chunk.sessionId = sessionId))).map fun chunk =>
            (chunk.sessionId, chunk.chunkIndex)
      apply perm.nodup_iff.mpr
      exact db.chunks.nodup.sublist (List.filter_sublist.map _)
    have constant : (listChunks db sessionId).map (fun chunk =>
        (chunk.sessionId, chunk.chunkIndex)) =
          ((listChunks db sessionId).map UploadChunk.chunkIndex).map (Prod.mk sessionId) := by
      rw [List.map_map]
      apply List.map_congr_left
      intro chunk member
      rw [(mem_listChunks.mp member).2]
      rfl
    rw [constant] at keys
    exact keys.of_map _
  exact (ascending.and distinct).imp fun both => Nat.lt_of_le_of_ne both.1 both.2

theorem Holding.indexes {session : UploadSession} {held : Nat → Option Content} {sys : System}
    (holding : Holding session held sys) :
    (listChunks sys.db session.id).map UploadChunk.chunkIndex =
      (List.range session.totalChunks).filter fun index => (held index).isSome := by
  have members : ∀ index, index ∈ (listChunks sys.db session.id).map UploadChunk.chunkIndex ↔
      index ∈ (List.range session.totalChunks).filter fun index => (held index).isSome := by
    intro index
    rw [List.mem_map, List.mem_filter, List.mem_range]
    constructor
    · intro listed
      rcases listed with ⟨chunk, member, rfl⟩
      rcases mem_listChunks.mp member with ⟨inTable, own⟩
      have found : sys.db.chunks.find? (session.id, chunk.chunkIndex) = some chunk :=
        Table.find?_eq_some.mpr ⟨inTable, by rw [UploadChunk.key_eq, own]⟩
      cases isHeld : held chunk.chunkIndex with
      | none =>
          rw [holding.nothing _ isHeld] at found
          cases found
      | some content => exact ⟨(holding.chunk _ content isHeld).1, rfl⟩
    · intro both
      rcases Option.isSome_iff_exists.mp both.2 with ⟨content, isHeld⟩
      rcases (holding.chunk index content isHeld).2 with ⟨row, _, found, _⟩
      rcases Table.find?_eq_some.mp found with ⟨inTable, isKey⟩
      rw [UploadChunk.key_eq, Prod.mk.injEq] at isKey
      exact ⟨row, mem_listChunks.mpr ⟨inTable, isKey.1⟩, isKey.2⟩
  exact (listChunks_sorted sys.db session.id).eq_of_mem_iff
    (List.pairwise_lt_range.filter _) members

/-- What `complete_session` finds missing is what is not held. -/
theorem Holding.missing {session : UploadSession} {held : Nat → Option Content} {sys : System}
    (holding : Holding session held sys) :
    missing session (listChunks sys.db session.id) =
      (List.range session.totalChunks).filter fun index => (held index).isNone := by
  rw [UploadSessionService.missing, holding.indexes]
  apply List.filter_congr
  intro index inRange
  cases isHeld : held index with
  | none => simp [isHeld]
  | some content => simp [isHeld, List.mem_range.mp inRange]

/-- When every chunk is held, the chunks are listed under their keys from the first to the
last. -/
theorem Holding.keys {session : UploadSession} {held : Nat → Option Content} {sys : System}
    (holding : Holding session held sys)
    (complete : ∀ index < session.totalChunks, (held index).isSome) :
    (listChunks sys.db session.id).map UploadChunk.storageKey =
      (List.range session.totalChunks).map (StorageKey.chunk session.userId session.id) := by
  have indexes := holding.indexes
  rw [List.filter_eq_self.mpr fun index inRange =>
    complete index (List.mem_range.mp inRange)] at indexes
  rw [← indexes, List.map_map]
  apply List.map_congr_left
  intro chunk member
  rcases mem_listChunks.mp member with ⟨inTable, own⟩
  have found : sys.db.chunks.find? (session.id, chunk.chunkIndex) = some chunk :=
    Table.find?_eq_some.mpr ⟨inTable, by rw [UploadChunk.key_eq, own]⟩
  cases isHeld : held chunk.chunkIndex with
  | none =>
      rw [holding.nothing _ isHeld] at found
      cases found
  | some content =>
      rcases (holding.chunk _ content isHeld).2 with ⟨row, _, isRow, isKey, _⟩
      rw [found, Option.some.injEq] at isRow
      rw [isRow]
      exact isKey.trans (by rw [← isRow]; rfl)

omit [Platform] in
/-- Objects under the given keys are read one after the other. -/
theorem readAll_map {storage : Table StoredObject} {keyOf : Nat → StorageKey}
    {contents : Nat → Content} : ∀ {indexes : List Nat},
    (∀ index ∈ indexes, ∃ object, storage.find? (keyOf index) = some object ∧
      object.content = contents index) →
    Storage.readAll storage (indexes.map keyOf) = .ok (indexes.flatMap contents)
  | [], _ => rfl
  | first :: rest, stored => by
      rcases stored first List.mem_cons_self with ⟨object, found, same⟩
      have later := readAll_map fun index member => stored index (List.mem_cons_of_mem _ member)
      rw [List.map_cons, Storage.readAll, found, later, List.flatMap_cons, ← same]
      rfl

theorem Holding.readAll {session : UploadSession} {held : Nat → Option Content} {sys : System}
    (holding : Holding session held sys) {contents : Nat → Content}
    (complete : ∀ index < session.totalChunks, held index = some (contents index)) :
    Storage.readAll sys.storage
        ((listChunks sys.db session.id).map UploadChunk.storageKey) =
      .ok ((List.range session.totalChunks).flatMap contents) := by
  rw [holding.keys fun index inRange => Option.isSome_iff_exists.mpr ⟨_, complete index inRange⟩]
  apply readAll_map
  intro index inRange
  rcases (holding.chunk index _ (complete index (List.mem_range.mp inRange))).2 with
    ⟨_, object, _, _, found, same⟩
  exact ⟨object, found, same⟩

/-! ## The completion -/

theorem Holding.getOr404 {session : UploadSession} {held : Nat → Option Content} {sys : System}
    (holding : Holding session held sys) (actorId : Uuid) :
    ∃ status updatedAt, status.isTerminal = false ∧
      UploadSessionService.getOr404 actorId session.id sys =
        if session.userId = actorId then
          .ok { session with status := status, updatedAt := updatedAt }
        else .error (.notFound "Upload session not found") := by
  rcases holding.isOpen with ⟨status, updatedAt, running, found⟩
  apply Exists.intro status
  apply Exists.intro updatedAt
  apply And.intro running
  rw [UploadSessionService.getOr404, found]
  by_cases mine : session.userId = actorId
  · rw [if_pos mine]
    show (require (session.userId = actorId) _ >>= fun _ => _) = _
    rw [require_true mine]
    rfl
  · rw [if_neg mine]
    show (require (session.userId = actorId) _ >>= fun _ => _) = _
    rw [require_false mine]
    rfl

/-- While a chunk is missing the completion is refused before it gives a command. -/
theorem Holding.incomplete {session : UploadSession} {held : Nat → Option Content} {sys : System}
    (holding : Holding session held sys)
    (lacks : ∃ index < session.totalChunks, held index = none) (actorId : Uuid) :
    (∃ error, completeSession actorId session.id sys = .error error ∧
      (actorId = session.userId → error = .invalidOperation
        s!"Upload is incomplete: {((List.range session.totalChunks).filter fun index =>
          (held index).isNone).length} chunk(s) missing")) ∧
      ∀ given ∈ (completion actorId session.id sys).failures, rolledBack sys given = sys := by
  rcases holding.getOr404 actorId with ⟨status, updatedAt, running, answer⟩
  have isMissing := holding.missing
  have gaps : (List.range session.totalChunks).filter (fun index => (held index).isNone) ≠ [] := by
    rcases lacks with ⟨index, inRange, lacking⟩
    intro none
    have among : index ∈ (List.range session.totalChunks).filter fun index =>
        (held index).isNone :=
      List.mem_filter.mpr ⟨List.mem_range.mpr inRange, by rw [lacking]; rfl⟩
    rw [none] at among
    cases among
  by_cases mine : session.userId = actorId
  · rw [if_pos mine] at answer
    have refused : ∀ error : ServiceError, require (UploadSessionService.missing session
        (listChunks sys.db session.id) = []) error = .error error :=
      fun error => require_false (isMissing ▸ gaps)
    constructor
    · apply Exists.intro (.invalidOperation
        s!"Upload is incomplete: {((List.range session.totalChunks).filter fun index =>
          (held index).isNone).length} chunk(s) missing")
      apply And.intro _ fun _ => rfl
      rw [completeSession, answer, ← isMissing]
      show (require (status.isTerminal = false) _ >>= fun _ => _) = _
      rw [require_true running]
      show (require (UploadSessionService.missing session
        (listChunks sys.db session.id) = []) _ >>= fun _ => _) = _
      rw [refused]
      rfl
    · intro given fails
      rw [completion, answer] at fails
      rcases Work.mem_failures_of_bind fails with rfl | ⟨_, done, fails⟩
      · rfl
      cases done
      rcases Work.mem_failures_of_bind fails with rfl | ⟨_, _, fails⟩
      · rfl
      rcases Work.mem_failures_of_bind fails with rfl | ⟨_, none, _⟩
      · rfl
      · rw [require_eq_ok] at none
        exact absurd none (isMissing ▸ gaps)
  · rw [if_neg mine] at answer
    constructor
    · apply Exists.intro (.notFound "Upload session not found")
      apply And.intro
      · rw [completeSession, answer]
        rfl
      · exact fun same => absurd same.symm mine
    · intro given fails
      rw [completion, answer] at fails
      rcases Work.mem_failures_of_bind fails with rfl | ⟨_, done, _⟩
      · rfl
      · cases done

/-- Discarding chunks spares the blob of a file. -/
theorem find_discardChunks {chunks : List UploadChunk} {sys : System} {key : StorageKey}
    (apart : key ∉ chunks.map UploadChunk.storageKey) :
    (discardChunks chunks sys).storage.find? key = sys.storage.find? key := by
  rcases discardChunks_eq chunks sys with ⟨_, discards, _⟩
  rw [discards]
  apply Option.ext
  intro object
  rw [Table.find?_eq_some, Table.find?_eq_some]
  apply and_congr_left
  intro isKey
  apply Table.mem_filter.trans
  rw [decide_eq_true_eq]
  apply and_iff_left
  rw [StoredObject.key_eq] at isKey
  rwa [isKey]

/-- What `complete_session` does after the item exists leaves the file alone. -/
theorem finished_stored {item : DriveItem} {content : Content} {sys : System}
    {chunks : List UploadChunk} (stored : FileStored item content sys)
    (apart : ∀ key ∈ item.storageKey, key ∉ chunks.map UploadChunk.storageKey)
    (sessionId : Uuid) (status : SessionStatus) (checksum : Option String)
    (driveItemId : Option Uuid) :
    FileStored item content
      (updateStatus sessionId status checksum driveItemId (discardChunks chunks sys)) := by
  rcases discardChunks_eq chunks sys with ⟨rows, discards, _⟩
  constructor
  case row =>
    rw [discards]
    exact stored.row
  case sizeBytes => exact stored.sizeBytes
  case checksumSha256 => exact stored.checksumSha256
  case version =>
    rw [discards]
    exact stored.version
  case blob =>
    rcases stored.blob with ⟨key, object, isKey, found, same⟩
    exact ⟨key, object, isKey, (find_discardChunks (apart key isKey)).trans found, same⟩

/-- With every chunk held, the completion creates the file from their concatenation. -/
theorem Holding.completes {session : UploadSession} {held : Nat → Option Content} {sys : System}
    (holding : Holding session held sys) {contents : Nat → Content}
    (complete : ∀ index < session.totalChunks, held index = some (contents index)) :
    completeSession session.userId session.id sys =
      createItem session session.userId (mergedKey session.userId sys)
          ((List.range session.totalChunks).flatMap contents)
          (Storage.saveStream (mergedKey session.userId sys)
            [(List.range session.totalChunks).flatMap contents] sys.drawn) >>= fun created =>
        .ok (created.1, updateStatus session.id .completed
          (some (Platform.sha256 ((List.range session.totalChunks).flatMap contents)))
          (some created.1.id) (discardChunks (listChunks sys.db session.id) created.2)) := by
  rcases holding.getOr404 session.userId with ⟨status, updatedAt, running, answer⟩
  rw [if_pos rfl] at answer
  have none : UploadSessionService.missing session (listChunks sys.db session.id) = [] := by
    rw [holding.missing, List.filter_eq_nil_iff]
    intro index inRange
    rw [complete index (List.mem_range.mp inRange)]
    exact Bool.false_ne_true
  rw [completeSession, answer]
  show (require (status.isTerminal = false) _ >>= fun _ => _) = _
  rw [require_true running]
  show (require (UploadSessionService.missing session
    (listChunks sys.db session.id) = []) _ >>= fun _ => _) = _
  rw [require_true none]
  show (Storage.concat ((listChunks sys.db session.id).map UploadChunk.storageKey)
    (mergedKey session.userId sys) sys.drawn >>= fun merged => _) = _
  have merges : Storage.concat ((listChunks sys.db session.id).map UploadChunk.storageKey)
      (mergedKey session.userId sys) sys.drawn =
        .ok ((List.range session.totalChunks).flatMap contents,
          Storage.saveStream (mergedKey session.userId sys)
            [(List.range session.totalChunks).flatMap contents] sys.drawn) := by
    rw [Storage.concat, System.drawn, holding.readAll complete]
    rfl
  rw [merges]
  rfl

/-- Only the owner of the session completes it. -/
theorem Holding.completed_mine {session : UploadSession} {held : Nat → Option Content}
    {sys after : System} {item : DriveItem} {actorId : Uuid}
    (holding : Holding session held sys)
    (completes : completeSession actorId session.id sys = .ok (item, after)) :
    session.userId = actorId := by
  rcases holding.getOr404 actorId with ⟨_, _, _, answer⟩
  by_contra other
  rw [if_neg other] at answer
  rw [completeSession, answer] at completes
  cases completes

/-- A completion that succeeds finds every chunk held, and stores them in their order. -/
theorem Holding.completed {session : UploadSession} {held : Nat → Option Content}
    {sys after : System} {item : DriveItem} {actorId : Uuid}
    (holding : Holding session held sys)
    (completes : completeSession actorId session.id sys = .ok (item, after)) :
    ∃ contents : Nat → Content,
      (∀ index < session.totalChunks, held index = some (contents index)) ∧
      FileStored item ((List.range session.totalChunks).flatMap contents) after := by
  have mine := holding.completed_mine completes
  have complete : ∀ index < session.totalChunks, (held index).isSome := by
    intro index inRange
    cases isHeld : held index with
    | some content => rfl
    | none =>
        rcases (holding.incomplete ⟨index, inRange, isHeld⟩ actorId).1 with ⟨_, fails, _⟩
        rw [fails] at completes
        cases completes
  let contents : Nat → Content := fun index => (held index).getD []
  have isContent : ∀ index < session.totalChunks, held index = some (contents index) := by
    intro index inRange
    rcases Option.isSome_iff_exists.mp (complete index inRange) with ⟨content, isHeld⟩
    show held index = some ((held index).getD [])
    rw [isHeld]
    rfl
  apply Exists.intro contents
  apply And.intro isContent
  rw [← mine, holding.completes isContent, bind_eq_ok] at completes
  rcases completes with ⟨created, creates, finishes⟩
  rw [Except.ok.injEq, Prod.mk.injEq] at finishes
  rcases finishes with ⟨rfl, rfl⟩
  simp only [createItem, bind_eq_ok] at creates
  rcases creates with ⟨name, _, creates⟩
  have stored := createFile_stored
    ⟨_, Table.find?_save.trans (if_pos rfl), List.append_nil _⟩ creates
  apply finished_stored stored
  intro key isKey among
  rw [holding.keys complete] at among
  rcases List.mem_map.mp among with ⟨index, _, rfl⟩
  rw [(createFile_ok creates).storageKey] at isKey
  cases isKey

end UploadSessionService

end Completion

/-! ## A deployment with chunks of two bytes -/

@[reducible] def twoByteChunks : Platform := { smallPlatform with chunkSize := 2 }

section TwoByteChunks

attribute [local instance] twoByteChunks

private theorem quietDay_keys : [(1 : Uuid)].Nodup :=
  List.nodup_singleton 1

/-- One user, and nothing stored. -/
def quietDay : System where
  db := { Database.empty with
    users := ⟨[{ id := 1, email := "a@example.org", quotaBytes := 1000, usedBytes := 0 }],
      quietDay_keys⟩ }
  storage := .empty
  now := 100
  seed := 10

namespace UploadSessionService

/-- The session that the first request of the day opens. -/
def firstSession (filename : String) (totalSize : Nat) : UploadSession where
  id := 10
  userId := 1
  parentId := none
  filename := filename
  mimeType := none
  totalSize := totalSize
  chunkSize := 2
  totalChunks := (totalSize + 2 - 1) / 2
  status := .pending
  checksumSha256 := none
  driveItemId := none
  createdAt := 100
  updatedAt := 100
  expiresAt := 100 + 7 * 86400

/-- The state in which it is open. -/
def firstOpened (filename : String) (totalSize : Nat) : System :=
  match createSession 1 filename totalSize none none quietDay with
  | .ok (_, sys) => sys
  | .error _ => quietDay

end UploadSessionService

end TwoByteChunks

end CloudDrive
