import CloudDrive.Storage.Commands
import CloudDrive.Operation

/-! # Completing a session that fails on the way

`complete_session` merges the chunks, creates the item and then deletes the blobs of
the chunks, all before the request commits. A failure before these deletions leaves
the session as it was; one after them leaves rows of chunks without their blobs. -/

namespace CloudDrive

open Outcome Relational Interruption Execution

namespace UploadSessionService

section Interrupted

variable [Platform]

/-! ## The request, command by command -/

/-- The loop of `_discard_chunks`. -/
def discardBlob (chunk : UploadChunk) (sys : System) : Request System := do
  let _ ← Work.command (.delete chunk.storageKey)
  pure (Storage.delete chunk.storageKey sys)

/-- `_discard_chunks`. -/
def discarding (chunks : List UploadChunk) (sys : System) : Request System :=
  match chunks with
  | [] => pure sys
  | first :: _ => do
      let sys ← Work.forEach discardBlob chunks sys
      pure (sys.withChunks (sys.db.chunks.filter fun chunk =>
        decide (chunk.sessionId ≠ first.sessionId)))

/-- The blob that `complete_session` merges the chunks into. -/
def mergedKey (userId : Uuid) (sys : System) : StorageKey :=
  .file userId sys.uuid4 1

/-- `complete_session`. The activity log and the commit come last and may fail. -/
def completion (userId sessionId : Uuid) (sys : System) : Request (DriveItem × System) := do
  let session ← Work.of (getOr404 userId sessionId sys)
  let _ ← Work.of (require (session.status.isTerminal = false)
    (.invalidOperation s!"Upload session is already {session.status.text}"))
  let chunks := listChunks sys.db session.id
  let _ ← Work.of (require (missing session chunks = []) (.invalidOperation
    s!"Upload is incomplete: {(missing session chunks).length} chunk(s) missing"))
  let key := mergedKey userId sys
  let merged ← Work.of (Storage.concat (chunks.map UploadChunk.storageKey) key sys.drawn)
  let _ ← Work.command (.save key merged.1)
  let created ← (Work.of (createItem session userId key merged.1 merged.2)).orElseClean
    [.delete key]
  let sys ← discarding chunks created.2
  pure (created.1, updateStatus session.id .completed (some (Platform.sha256 merged.1))
    (some created.1.id) sys)

/-! ## Undisturbed -/

theorem discardBlobs_outcome : ∀ (chunks : List UploadChunk) (sys : System),
    (Work.forEach discardBlob chunks sys).outcome =
      .ok (chunks.foldl (fun sys chunk => Storage.delete chunk.storageKey sys) sys)
  | [], _ => rfl
  | chunk :: rest, sys => by
      rw [Work.forEach, Work.outcome_bind, List.foldl_cons]
      exact discardBlobs_outcome rest _

theorem discarding_outcome (chunks : List UploadChunk) (sys : System) :
    (discarding chunks sys).outcome = .ok (discardChunks chunks sys) := by
  cases chunks with
  | nil => rfl
  | cons first rest =>
      rw [discarding, Work.outcome_bind, discardBlobs_outcome]
      rfl

/-- Undisturbed, the request is `completeSession`. -/
theorem completion_outcome (userId sessionId : Uuid) (sys : System) :
    (completion userId sessionId sys).outcome = completeSession userId sessionId sys := by
  simp only [completion, completeSession, Work.outcome_bind, Work.outcome_of,
    Work.outcome_command, Work.outcome_orElseClean, discarding_outcome]
  rfl

/-! ## What is commanded -/

/-- The commands of a completion: they save or clean up the merged blob, or delete the
blob of a chunk, and none is given unless every chunk has its blob. -/
structure CompletionCommand (userId sessionId : Uuid) (sys : System)
    (command : StorageCommand) : Prop where
  stored : ∀ chunk ∈ listChunks sys.db sessionId, Stored sys chunk.storageKey
  kind : command.key = mergedKey userId sys ∨
    ∃ chunk ∈ listChunks sys.db sessionId, command = .delete chunk.storageKey

theorem mergedKey_fresh (userId : Uuid) (sys : System) : ¬ Stored sys (mergedKey userId sys) := by
  intro stored
  rcases stored with ⟨object, member, same⟩
  have unused := sys.uuid4_unused.storage object member
  rw [same] at unused
  simp [mergedKey, StorageKey.ids] at unused

omit [Platform] in
theorem readAll_stored {storage : Table StoredObject} : ∀ {keys : List StorageKey}
    {content : Content}, Storage.readAll storage keys = .ok content →
    ∀ key ∈ keys, ∃ object, storage.find? key = some object
  | [], _, _, _, member => by cases member
  | first :: rest, content, runs, key, member => by
      simp only [Storage.readAll, bind_eq_ok, orRaise_eq_ok, pure_eq_ok] at runs
      rcases runs with ⟨object, found, later, readsLater, _⟩
      rcases List.mem_cons.mp member with rfl | inRest
      · exact ⟨object, found⟩
      · exact readAll_stored readsLater key inRest

theorem discarding_only {Allowed : StorageCommand → Prop} {chunks : List UploadChunk}
    (allowed : ∀ chunk ∈ chunks, Allowed (.delete chunk.storageKey)) (sys : System) :
    (discarding chunks sys).Only Allowed := by
  cases chunks with
  | nil => exact Work.only_of _ _
  | cons first rest =>
      rw [discarding]
      apply Work.Only.bind
      · apply Work.only_forEach fun _ => True
        · intro chunk member before _
          rw [discardBlob]
          exact ⟨(Work.only_command (allowed chunk member)).bind fun _ _ => Work.only_of _ _,
            fun _ _ => trivial⟩
        · trivial
      · exact fun _ _ => Work.only_of _ _

theorem completion_only (userId sessionId : Uuid) (sys : System) :
    (completion userId sessionId sys).Only (CompletionCommand userId sessionId sys) := by
  rw [completion]
  apply (Work.only_of _ _).bind
  intro session found
  rcases getOr404_ok found with ⟨_, rfl, _⟩
  apply (Work.only_of _ _).bind
  intro _ _
  apply (Work.only_of _ _).bind
  intro _ _
  apply (Work.only_of _ _).bind
  intro merged merges
  have stored : ∀ chunk ∈ listChunks sys.db session.id, Stored sys chunk.storageKey := by
    intro chunk member
    simp only [Work.outcome_of, Storage.concat, bind_eq_ok, pure_eq_ok] at merges
    rcases merges with ⟨content, reads, _⟩
    exact stored_iff_find.mpr
      (readAll_stored reads chunk.storageKey (List.mem_map_of_mem member))
  apply (Work.only_command ⟨stored, .inl rfl⟩).bind
  intro _ _
  apply ((Work.only_of _ _).orElseClean _).bind
  · intro created _
    apply (discarding_only _ _).bind
    · exact fun _ _ => Work.only_of _ _
    · exact fun chunk member => ⟨stored, .inr ⟨chunk, member, rfl⟩⟩
  · intro each among
    rw [List.mem_singleton.mp among]
    exact ⟨stored, .inl rfl⟩

/-! ## When a failure leaves the session completable -/

/-- `complete_session` finds the session open, no chunk missing, and can merge the
chunks. -/
def CanMerge (sys : System) (sessionId : Uuid) : Prop :=
  ∃ session ∈ sys.db.sessions, session.id = sessionId ∧ session.status.isTerminal = false ∧
    missing session (listChunks sys.db sessionId) = [] ∧ ∃ content,
      Storage.readAll sys.storage ((listChunks sys.db sessionId).map UploadChunk.storageKey) =
        .ok content

/-- After the failure every chunk row has the blob it had, the chunks can be merged if
they could, and no blob is hidden from the collection without a row that names it
unless it was there before. -/
structure StillCompletable (sessionId : Uuid) (before after : System) : Prop where
  chunks : ∀ chunk ∈ after.db.chunks, Stored before chunk.storageKey →
    Stored after chunk.storageKey
  merges : CanMerge before sessionId → CanMerge after sessionId
  collectable : ∀ object ∈ after.storage, object ∉ SnapshotService.listObjects after →
    NamesBlob after.db object.key ∨ Stored before object.key

omit [Platform] in
theorem readAll_congr {storage other : Table StoredObject} : ∀ {keys : List StorageKey}
    {content : Content}, (∀ key ∈ keys, other.find? key = storage.find? key) →
    Storage.readAll storage keys = .ok content → Storage.readAll other keys = .ok content
  | [], _, _, runs => runs
  | first :: rest, content, same, runs => by
      simp only [Storage.readAll, bind_eq_ok, orRaise_eq_ok, pure_eq_ok] at runs ⊢
      rcases runs with ⟨object, found, later, readsLater, isContent⟩
      have readsOther := readAll_congr
        (fun key member => same key (List.mem_cons_of_mem _ member)) readsLater
      exact ⟨object, (same first List.mem_cons_self).trans found, later, readsOther, isContent⟩

/-- A completion that fails leaves the session completable exactly when it fails before
it has deleted the blob of a chunk. -/
theorem stillCompletable_iff (userId sessionId : Uuid) (sys : System)
    {given : List StorageCommand} (fails : given ∈ (completion userId sessionId sys).failures) :
    StillCompletable sessionId sys (rolledBack sys given) ↔
      ∀ chunk ∈ listChunks sys.db sessionId, .delete chunk.storageKey ∉ given := by
  have only := (completion_only userId sessionId sys).onFailure given fails
  have fresh := mergedKey_fresh userId sys
  constructor
  · intro still chunk member deleted
    rcases only _ deleted with ⟨stored, _⟩
    have isStored := stored chunk member
    have notSaved : ∀ content, .save chunk.storageKey content ∉ given := by
      intro content saved
      rcases (only _ saved).kind with isMerged | ⟨_, _, isDelete⟩
      · exact fresh (isMerged ▸ isStored)
      · cases isDelete
    have inRows : chunk ∈ (rolledBack sys given).db.chunks := by
      rw [rolledBack_db]
      exact (mem_listChunks.mp member).1
    exact not_stored_of_delete notSaved (.inl deleted) (still.chunks chunk inRows isStored)
  · intro spared
    have isMerged : ∀ command ∈ given, command.key = mergedKey userId sys := by
      intro command among
      rcases (only command among).kind with merged | ⟨chunk, member, rfl⟩
      · exact merged
      · exact absurd among (spared chunk member)
    have same : ∀ {key}, key ≠ mergedKey userId sys →
        (rolledBack sys given).storage.find? key = sys.storage.find? key := by
      intro key different
      exact rolledBack_find fun command among isKey =>
        different (isKey.symm.trans (isMerged command among))
    constructor
    case chunks =>
      intro chunk _ stored
      have different : chunk.storageKey ≠ mergedKey userId sys := fun isKey =>
        fresh (isKey ▸ stored)
      rw [stored_iff_find, same different, ← stored_iff_find]
      exact stored
    case merges =>
      intro canMerge
      rcases canMerge with ⟨session, member, isSession, isOpen, complete, content, reads⟩
      rw [CanMerge, rolledBack_db]
      apply Exists.intro session
      apply And.intro member
      apply And.intro isSession
      apply And.intro isOpen
      apply And.intro complete
      apply Exists.intro content
      apply readAll_congr _ reads
      intro key among
      apply same
      intro isKey
      exact fresh (isKey ▸ stored_iff_find.mpr (readAll_stored reads key among))
    case collectable =>
      intro object member hidden
      apply Or.inr
      have different : object.key ≠ mergedKey userId sys := by
        intro isKey
        apply hidden
        apply List.mem_filter.mpr
        apply And.intro member
        rw [isKey]
        rfl
      rw [stored_iff_find, ← same different]
      exact ⟨object, Table.find?_key member⟩

end Interrupted

/-! ## A commit that fails

The only chunk of the session is stored and the completion runs to its end. Its blob
is gone by the time the commit fails, and its row is back. -/

section UnluckyCommit

attribute [local instance] smallPlatform

private def uploadChunked : List Op :=
  [.createSession 1 "notes" 1 none none, .uploadChunk 1 10 0 [[65]]]

private def allUploaded : System := afterFirstDay uploadChunked

private theorem allUploaded_commands :
    (completion 1 10 allUploaded).commands =
      [.save (.file 1 11 1) [65], .delete (.chunk 1 10 0)] := by
  decide

theorem stillCompletable_iff_unlucky :
    StillCompletable 10 allUploaded
        (rolledBack allUploaded (completion 1 10 allUploaded).commands) ↔
      ∀ chunk ∈ listChunks allUploaded.db 10,
        .delete chunk.storageKey ∉ (completion 1 10 allUploaded).commands :=
  stillCompletable_iff 1 10 allUploaded (completion 1 10 allUploaded).atTheEnd

theorem unluckyCommit_losesChunk :
    (∃ events, History firstDay events allUploaded) ∧
      CanMerge allUploaded 10 ∧
      (completion 1 10 allUploaded).commands ∈ (completion 1 10 allUploaded).failures ∧
      ¬ StillCompletable 10 allUploaded
        (rolledBack allUploaded (completion 1 10 allUploaded).commands) := by
  have history : History firstDay (Op.trace uploadChunked firstDay) allUploaded :=
    firstDay_trace (by simp [uploadChunked, Op.Offered]) rfl
  have stored : ∃ object ∈ allUploaded.storage.rows, object.key = .chunk 1 10 0 := by decide
  have recorded : ∃ chunk ∈ allUploaded.db.chunks.rows, chunk.storageKey = .chunk 1 10 0 := by
    decide
  have lost : ¬ ∃ object ∈ (rolledBack allUploaded
      [.save (.file 1 11 1) [65], .delete (.chunk 1 10 0)]).storage.rows,
      object.key = .chunk 1 10 0 := by decide
  have canMerge : CanMerge allUploaded 10 := by
    have session : ∃ session ∈ allUploaded.db.sessions.rows, session.id = 10 ∧
        session.status.isTerminal = false ∧
        missing session (listChunks allUploaded.db 10) = [] := by decide
    rcases session with ⟨session, member, isSession, isOpen, complete⟩
    exact ⟨session, member, isSession, isOpen, complete, [65], rfl⟩
  apply And.intro ⟨_, history⟩
  apply And.intro canMerge
  apply And.intro (completion 1 10 allUploaded).atTheEnd
  rw [allUploaded_commands]
  intro still
  rcases recorded with ⟨chunk, member, isKey⟩
  have kept := still.chunks chunk (by rwa [rolledBack_db]) (by rwa [isKey])
  rw [isKey] at kept
  exact lost kept

end UnluckyCommit

end UploadSessionService

end CloudDrive
