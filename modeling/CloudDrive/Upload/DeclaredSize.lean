import CloudDrive.Upload.ChunkedUpload
import CloudDrive.Upload.Naming

/-! # The declared size of a session

The total size that `create_session` checks against the maximum and the quota is not
compared with the chunks again: `complete_session` looks at their indexes only. -/

namespace CloudDrive

open Outcome Relational Execution Interruption DriveItemRepository

namespace UploadSessionService

section DeclaredSize

variable [Platform] {userId : Uuid} {session : UploadSession}

/-- Where a completion puts its file. -/
def completionPlace (userId : Uuid) (session : UploadSession) : Place where
  parentId := session.parentId
  ownerId := userId
  filename := session.filename
  extension := extensionOf (splitName session.filename).2
  trashed := none

/-- A completion can create its file: the columns take its name and type, and the folder
its name. -/
structure Creatable (items : ItemTable) (userId : Uuid) (session : UploadSession) : Prop where
  mime : ∀ text ∈ session.mimeType, text.length ≤ 255
  place : Admits items (completionPlace userId session)

theorem createFile_mime {parentId : Option Uuid} {name : String} {file : StoredFile}
    {sys : System} (creates : Succeeds (createFile userId parentId name file sys)) :
    ∀ text ∈ file.mimeType, text.length ≤ 255 := by
  rcases creates with ⟨⟨item, after⟩, created⟩
  have member : item ∈ after.db.items := ((createFile_ok created).items item).mpr (.inr rfl)
  have fits := after.db.items.fits item member
  rw [createFile_item created] at fits
  exact fits.2.1

theorem createItem_succeeds_iff {key : StorageKey} {content : Content} {sys : System}
    (parent : ∀ top ∈ session.parentId, top ∈ sys.db.items.rows.map DriveItem.id) :
    Succeeds (createItem session userId key content sys) ↔
      Creatable sys.db.items userId session := by
  rw [createItem, succeeds_bind]
  constructor
  · intro creates
    rcases creates with ⟨name, resolved, created⟩
    have mime := createFile_mime created
    rcases (createFile_named_iff parent mime).mp created with ⟨extension, short, free⟩
    rcases resolveName_eq_ok_iff.mp resolved with ⟨round, rfl, stops⟩
    apply Creatable.mk mime
    constructor
    case extension => exact extension
    case oldPlace => exact fun _ isTrashed => absurd isTrashed (Option.not_mem_none _)
    case named => exact ⟨round, stops, short, free⟩
  · intro creatable
    rcases creatable.place.named with ⟨round, stops, short, free⟩
    have resolved := resolveName_eq_ok_iff.mpr ⟨round, rfl, stops⟩
    apply Exists.intro _
    apply And.intro resolved
    exact (createFile_named_iff parent creatable.mime).mpr
      ⟨creatable.place.extension, short, free⟩

/-! ## The bytes that are stored -/

/-- The number of bytes that the chunk calls have left under the indexes of the session. -/
def storedSize (session : UploadSession) (events : List (Event System Sending)) : Nat :=
  ((List.range session.totalChunks).flatMap fun index =>
    (lastRead session events index).getD []).length

theorem sendings_items {start final : System} {events : List (Event System Sending)}
    (run : Sendings start events final) : final.db.items = start.db.items := by
  induction run with
  | nothing => rfl
  | @next past middle final sending run leads induction =>
      rw [leads, ← induction]
      cases sending with
      | upload call => exact ChunkedUpload.receive_items call middle
      | tick seconds => rfl

/-- A file is created only with the declared size; otherwise the completion is refused, and
when it fails at any point the session is still open. -/
structure SizeHonoured (actorId : Uuid) (session : UploadSession)
    (events : List (Event System Sending)) (final : System) : Prop where
  created : ∀ item after, completeSession actorId session.id final = .ok (item, after) →
    item.sizeBytes = session.totalSize
  refused : storedSize session events ≠ session.totalSize →
    ∃ error, completeSession actorId session.id final = .error error
  staysOpen : ∀ given ∈ (completion actorId session.id final).failures,
    OpenSession session (rolledBack final given)

/-- Every index has a chunk. -/
def EveryChunk (session : UploadSession) (events : List (Event System Sending)) : Prop :=
  ∀ index < session.totalChunks, (lastStored session.id (fun _ => none) events index).isSome

/-- The file of a completion has the bytes that are stored. -/
theorem Holding.completed_stored {events : List (Event System Sending)} {final after : System}
    {item : DriveItem} {actorId : Uuid} (holding : Holding session (heldBy session events) final)
    (completes : completeSession actorId session.id final = .ok (item, after)) :
    EveryChunk session events ∧ FileStored item ((List.range session.totalChunks).flatMap
      fun index => (lastRead session events index).getD []) after := by
  rcases holding.completed completes with ⟨contents, isContent, stored⟩
  constructor
  · intro index inRange
    rcases (heldBy_eq_some.mp (isContent index inRange)).1 with ⟨_, isStored⟩
    rw [isStored]
    rfl
  · have same : (List.range session.totalChunks).flatMap contents =
        (List.range session.totalChunks).flatMap fun index =>
          (lastRead session events index).getD [] := by
      apply List.flatMap_congr
      intro index inRange
      rw [(heldBy_eq_some.mp (isContent index (List.mem_range.mp inRange))).2]
      rfl
    exact same ▸ stored

/-- With every chunk there, the owner's completion succeeds when the file can be created. -/
theorem Holding.completes_iff {events : List (Event System Sending)} {final : System}
    (holding : Holding session (heldBy session events) final)
    (backed : ∀ index stored, lastStored session.id (fun _ => none) events index = some stored →
      ∃ content, lastRead session events index = some content ∧ Backed stored content)
    (every : EveryChunk session events)
    (parent : ∀ top ∈ session.parentId, top ∈ final.db.items.rows.map DriveItem.id) :
    Succeeds (completeSession session.userId session.id final) ↔
      Creatable final.db.items session.userId session := by
  have isContent : ∀ index < session.totalChunks,
      heldBy session events index = some ((lastRead session events index).getD []) := by
    intro index inRange
    rcases Option.isSome_iff_exists.mp (every index inRange) with ⟨stored, isStored⟩
    rcases backed index stored isStored with ⟨content, isRead, _⟩
    exact heldBy_eq_some.mpr ⟨⟨stored, isStored⟩, by rw [isRead]; rfl⟩
  rw [holding.completes isContent, succeeds_bind_ok]
  exact createItem_succeeds_iff parent

/-- The parent of a session that was created is there still. -/
theorem createSession_parent {filename : String} {totalSize : Nat} {parentId : Option Uuid}
    {mimeType : Option String} {sys opened final : System} {events : List (Event System Sending)}
    (created : createSession userId filename totalSize parentId mimeType sys =
      .ok (session, opened)) (run : Sendings opened events final) :
    ∀ top ∈ session.parentId, top ∈ final.db.items.rows.map DriveItem.id := by
  intro top isParent
  rcases createSession_ok created with ⟨writable, _, _, sameParent, _, _, frame⟩
  have known := writable_mem_ids (writable top (sameParent ▸ isParent))
  rw [sendings_items run, frame]
  exact known

/-- After any calls of `upload_chunk`, by anyone on any sessions, a completion honours the
declared size exactly when the stored bytes have that size, or a chunk is missing, or the
caller is not the owner, or the file cannot be created. -/
theorem sizeHonoured_iff {filename : String} {totalSize : Nat} {parentId : Option Uuid}
    {mimeType : Option String} {sys opened final : System}
    {events : List (Event System Sending)}
    (created : createSession userId filename totalSize parentId mimeType sys =
      .ok (session, opened))
    (run : Sendings opened events final) (actorId : Uuid) :
    SizeHonoured actorId session events final ↔
      (actorId = session.userId → EveryChunk session events →
        Creatable final.db.items session.userId session →
        storedSize session events = session.totalSize) := by
  rcases (createSession_holding created).sendings run with ⟨holding, backed⟩
  have parent := createSession_parent created run
  constructor
  · intro honoured mine every creatable
    rcases (holding.completes_iff backed every parent).mpr creatable with
      ⟨⟨item, after⟩, completes⟩
    rw [storedSize, ← (holding.completed_stored completes).2.sizeBytes]
    exact honoured.created item after (mine ▸ completes)
  · intro condition
    have sized : ∀ item after, completeSession actorId session.id final = .ok (item, after) →
        storedSize session events = session.totalSize ∧
          item.sizeBytes = storedSize session events := by
      intro item after completes
      rcases holding.completed_stored completes with ⟨every, stored⟩
      have mine := (holding.completed_mine completes).symm
      rw [mine] at completes
      have creatable := (holding.completes_iff backed every parent).mp ⟨_, completes⟩
      exact ⟨condition mine every creatable, stored.sizeBytes⟩
    constructor
    case created =>
      intro item after completes
      rcases sized item after completes with ⟨same, size⟩
      exact size.trans same
    case refused =>
      intro different
      cases completes : completeSession actorId session.id final with
      | error error => exact ⟨error, rfl⟩
      | ok result => exact absurd (sized result.1 result.2 completes).1 different
    case staysOpen =>
      intro given _
      rw [OpenSession, rolledBack_db]
      exact holding.isOpen

end DeclaredSize

/-! ## A short chunk

Three bytes are declared and go up in chunks of two; the first chunk has one byte. -/

section ShortChunk

attribute [local instance] twoByteChunks

private def sentShort : List Sending :=
  [.upload ⟨1, 10, 0, [some [65]]⟩, .upload ⟨1, 10, 1, [some [67]]⟩]

private def shortSent : System := Sending.leadsAll sentShort (firstOpened "notes" 3)

private def shortEvents : List (Event System Sending) :=
  Sending.trace sentShort (firstOpened "notes" 3)

private def sentWhole : List Sending :=
  sentShort ++ [.upload ⟨1, 10, 0, [some [65, 66]]⟩]

/-- The first chunk is sent again, with both of its bytes. -/
theorem sizeHonoured_iff_sentAgain :
    SizeHonoured 1 (firstSession "notes" 3) (Sending.trace sentWhole (firstOpened "notes" 3))
        (Sending.leadsAll sentWhole (firstOpened "notes" 3)) ∧
      (completeSession 1 10 (Sending.leadsAll sentWhole (firstOpened "notes" 3))).isOk = true := by
  have created : createSession 1 "notes" 3 none none quietDay =
      .ok (firstSession "notes" 3, firstOpened "notes" 3) := rfl
  have whole : storedSize (firstSession "notes" 3)
      (Sending.trace sentWhole (firstOpened "notes" 3)) = 3 := by decide
  exact ⟨(sizeHonoured_iff created (Sending.run_trace sentWhole (firstOpened "notes" 3)) 1).mpr
    fun _ _ _ => whole, by decide⟩

/-- Two bytes are stored as a file whose declared size is three. -/
theorem short_completes :
    createSession 1 "notes" 3 none none quietDay =
        .ok (firstSession "notes" 3, firstOpened "notes" 3) ∧
      Sendings (firstOpened "notes" 3) shortEvents shortSent ∧
      ¬ SizeHonoured 1 (firstSession "notes" 3) shortEvents shortSent := by
  apply And.intro rfl
  apply And.intro (Sending.run_trace sentShort (firstOpened "notes" 3))
  intro honoured
  have accepted : (completeSession 1 (firstSession "notes" 3).id shortSent).isOk = true := by
    decide
  rcases honoured.refused (by decide) with ⟨error, refused⟩
  rw [refused] at accepted
  cases accepted

end ShortChunk

end UploadSessionService

end CloudDrive
