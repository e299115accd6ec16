import CloudDrive.Upload.ChunkedUpload

/-! # The file of a chunked upload

A chunked upload that sends everything stores the file of the client, byte for byte, when
the database takes the row of the new file, and is refused at its last request otherwise. -/

namespace CloudDrive

open Outcome Relational LocalStorageProvider UploadSessionService DriveItemRepository

section RoundTrip

variable [Platform]

/-! ## When the row of a new file is taken -/

theorem ItemTable.consistent_append {table : ItemTable} {row : DriveItem}
    (fresh : ∀ old ∈ table, old.id ≠ row.id) :
    Consistent (table.rows ++ [row]) ↔ row.Fits ∧ (∀ old ∈ table, ¬ SameSlot old row) ∧
      ∀ top ∈ row.parentId, top ∈ (table.rows ++ [row]).map DriveItem.id := by
  constructor
  · intro consistent
    rcases consistent with ⟨_, fits, slots, parents⟩
    have isRow : row ∈ table.rows ++ [row] := by simp
    exact ⟨fits row isRow, fun old member => (List.pairwise_append.mp slots).2.2 old member row
      (List.mem_singleton_self row), parents row isRow⟩
  · intro taken
    rcases taken with ⟨fits, slots, parent⟩
    constructor
    · rw [List.map_append, List.nodup_append]
      apply And.intro table.nodup
      apply And.intro (by simp)
      intro left leftMem right rightMem
      rcases List.mem_map.mp leftMem with ⟨old, member, rfl⟩
      rw [List.map_singleton, List.mem_singleton] at rightMem
      exact rightMem ▸ fresh old member
    constructor
    · intro other member
      rcases List.mem_append.mp member with inTable | isRow
      · exact table.fits other inTable
      · rwa [List.mem_singleton.mp isRow]
    constructor
    · rw [List.pairwise_append]
      apply And.intro table.slotsFree
      apply And.intro (List.pairwise_singleton _ _)
      intro old member other isRow
      rw [List.mem_singleton.mp isRow]
      exact slots old member
    · intro other member top isParent
      rcases List.mem_append.mp member with inTable | isRow
      · rw [List.map_append]
        exact List.mem_append_left _ (table.parentsExist other inTable top isParent)
      · rw [List.mem_singleton.mp isRow] at isParent
        exact parent top isParent

theorem createFile_taken {userId : Uuid} {parentId : Option Uuid} {name : String}
    {file : StoredFile} {sys : System} :
    (∃ result, createFile userId parentId name file sys = .ok result) ↔
      Consistent (sys.db.items.rows ++ [newItem sys userId parentId .file name userId]) ∧
      Consistent (sys.db.items.rows ++
        [withContent file (newItem sys userId parentId .file name userId)]) := by
  have rewritten : ∀ table : ItemTable, table.rows = sys.db.items.rows ++
      [newItem sys userId parentId .file name userId] →
      table.rows.map (fun row => if row.id = sys.uuid4 then withContent file row else row) =
        sys.db.items.rows ++
          [withContent file (newItem sys userId parentId .file name userId)] := by
    intro table rows
    have same : (newItem sys userId parentId .file name userId).id = sys.uuid4 := rfl
    rw [rows, List.map_append, List.map_singleton, if_pos same]
    apply congrArg (· ++ _)
    apply (List.map_congr_left fun row member => if_neg (sys.uuid4_unused.items row member)).trans
    exact List.map_id' _
  constructor
  · intro created
    rcases created with ⟨result, created⟩
    simp only [createFile, DriveItemRepository.create, bind_eq_ok, pure_eq_ok] at created
    rcases created with ⟨_, ⟨items, added, rfl⟩, changed, rewrites, _⟩
    apply And.intro (flush_eq_ok_iff.mp ⟨items, added⟩)
    rw [← rewritten items (flush_ok added)]
    exact flush_eq_ok_iff.mp ⟨changed, rewrites⟩
  · intro consistent
    rcases flush_eq_ok_iff.mpr consistent.1 with ⟨items, added⟩
    rw [← rewritten items (flush_ok added)] at consistent
    rcases flush_eq_ok_iff.mpr consistent.2 with ⟨changed, rewrites⟩
    have freshVersion : sys.db.versions.Fresh (sys.uuid4, 1) := fun row member isKey =>
      sys.uuid4_unused.versions row member (congrArg Prod.fst isKey)
    let version : FileVersion := {
      fileId := sys.uuid4
      versionNo := 1
      storageKey := file.key
      sizeBytes := file.content.length
      checksumSha256 := some (Platform.sha256 file.content)
      createdBy := userId
      createdAt := sys.now }
    have inserts : ∃ after, sys.db.versions.insert? version = some after ∧
        after.rows = sys.db.versions.rows ++ [version] := Table.insert?_of_fresh freshVersion
    rcases inserts with ⟨versions, inserted, _⟩
    simp only [createFile, DriveItemRepository.create, FileVersionRepository.create, bind_eq_ok,
      pure_eq_ok, orRaise_eq_ok]
    exact ⟨_, _, ⟨items, added, rfl⟩, changed, rewrites, _, ⟨versions, inserted, rfl⟩, rfl⟩

/-- The folder of the session takes a row for its file: a name that is free there and the
widths of the columns allow it. The name is looked for as it is written, but the index on
the folder compares names in lower case. -/
def TakesFile (items : ItemTable) (session : UploadSession) : Prop :=
  ∃ name, resolveName items session.parentId session.userId session.filename = .ok name ∧
    name.length ≤ 512 ∧ (∀ text ∈ session.mimeType, text.length ≤ 255) ∧
    (∀ text ∈ extensionOf (splitName session.filename).2, text.length ≤ 50) ∧
    ∀ row ∈ items.rows, row.isDeleted = false → row.ownerId = session.userId →
      session.parentId ≠ none → row.parentId = session.parentId →
        Platform.lower row.name ≠ Platform.lower name

theorem createItem_taken (session : UploadSession) (key : StorageKey) (content : Content)
    (sys : System)
    (parent : ∀ top ∈ session.parentId, top ∈ sys.db.items.rows.map DriveItem.id) :
    (∃ result, createItem session session.userId key content sys = .ok result) ↔
      TakesFile sys.db.items session := by
  have fresh : ∀ old ∈ sys.db.items, old.id ≠ sys.uuid4 := sys.uuid4_unused.items
  have exists_ : ∀ row : DriveItem, ∀ top ∈ session.parentId,
      top ∈ (sys.db.items.rows ++ [row]).map DriveItem.id := by
    intro row top isParent
    rw [List.map_append]
    exact List.mem_append_left _ (parent top isParent)
  simp only [createItem, bind_eq_ok, TakesFile]
  constructor
  · intro created
    rcases created with ⟨result, name, resolved, created⟩
    have consistent := (createFile_taken.mp ⟨result, created⟩).2
    rw [ItemTable.consistent_append fresh] at consistent
    rcases consistent with ⟨⟨short, mime, extension⟩, slots, _⟩
    apply Exists.intro name
    apply And.intro resolved
    apply And.intro short
    apply And.intro mime
    apply And.intro extension
    intro row member live own inFolder sameFolder sameName
    exact slots row member
      ⟨live, rfl, own, sameFolder ▸ inFolder, sameFolder, sameName⟩
  · intro taken
    rcases taken with ⟨name, resolved, short, mime, extension, free⟩
    have slots : ∀ row ∈ sys.db.items, ∀ new : DriveItem, new.ownerId = session.userId →
        new.parentId = session.parentId → new.name = name → ¬ SameSlot row new := by
      intro row member new owner folder isName same
      rcases same with ⟨live, _, sameOwner, inFolder, sameFolder, sameName⟩
      rw [folder] at sameFolder
      exact free row member live (sameOwner.trans owner) (sameFolder ▸ inFolder) sameFolder
        (sameName.trans (by rw [isName]))
    have created : ∃ result, createFile session.userId session.parentId name
        { key := key, content := content, mimeType := session.mimeType,
          ext := (splitName session.filename).2 } sys = .ok result := by
      apply createFile_taken.mpr
      constructor
      · apply (ItemTable.consistent_append fresh).mpr
        apply And.intro ⟨short, by simp [newItem], by simp [newItem]⟩
        exact ⟨fun row member => slots row member _ rfl rfl rfl, exists_ _⟩
      · apply (ItemTable.consistent_append fresh).mpr
        apply And.intro ⟨short, mime, extension⟩
        exact ⟨fun row member => slots row member _ rfl rfl rfl, exists_ _⟩
    rcases created with ⟨result, created⟩
    exact ⟨result, name, resolved, created⟩

/-! ## The completion of what is held -/

/-- With every chunk held, the completion does what the creation of the file does. -/
theorem completeSession_taken {session : UploadSession} {held : Nat → Option Content}
    {sys : System} (holding : Holding session held sys)
    (complete : ∀ index < session.totalChunks, (held index).isSome)
    (parent : ∀ top ∈ session.parentId, top ∈ sys.db.items.rows.map DriveItem.id) :
    (∃ result, completeSession session.userId session.id sys = .ok result) ↔
      TakesFile sys.db.items session := by
  have isContent : ∀ index < session.totalChunks,
      held index = some ((held index).getD []) := by
    intro index inRange
    rcases Option.isSome_iff_exists.mp (complete index inRange) with ⟨content, isHeld⟩
    rw [isHeld]
    rfl
  let content : Content :=
    (List.range session.totalChunks).flatMap fun index => (held index).getD []
  have taken := createItem_taken session (mergedKey session.userId sys) content
    (Storage.saveStream (mergedKey session.userId sys) [content] sys.drawn) parent
  rw [holding.completes isContent]
  apply Iff.trans _ taken
  constructor
  · intro completes
    rcases completes with ⟨result, completes⟩
    rcases bind_eq_ok.mp completes with ⟨created, creates, _⟩
    exact ⟨created, creates⟩
  · intro creates
    rcases creates with ⟨created, creates⟩
    rw [creates]
    exact ⟨_, rfl⟩

/-! ## The upload -/

/-- The upload has sent everything it had to and heard the answer to its last request. -/
def ReachesCompletion : Except ChunkedUpload.UploadError DriveItem → Prop
  | .ok _ => True
  | .error (.completion _) => True
  | .error _ => False

namespace ChunkedUpload

/-- The session of the task is resumable, and the client knows what it holds. -/
theorem establish_resumable (positive : 0 < Platform.chunkSize) {userId : Uuid}
    {task : UploadTask} {file : File} {sys opened : System} {info : SessionInfo}
    (resumes : ∀ sessionId ∈ task.sessionId, ∃ session held, session.id = sessionId ∧
      Resumable userId file.content session held sys)
    (establishes : establish userId task file sys = .ok (info, opened)) :
    opened.db.items = sys.db.items ∧ ∃ session held,
      info = ⟨session.id, session.chunkSize, session.totalChunks,
        (listChunks opened.db session.id).map UploadChunk.chunkIndex⟩ ∧
      Resumable userId file.content session held opened := by
  rw [establish] at establishes
  cases isSession : task.sessionId with
  | some sessionId =>
      rcases resumes sessionId isSession with ⟨session, held, rfl, resumable⟩
      rcases resumable.holding.getOr404 userId with ⟨status, updatedAt, _, answer⟩
      rw [if_pos resumable.mine] at answer
      simp only [isSession, getSession, answer, bind_eq_ok, pure_eq_ok, Except.ok.injEq,
        Prod.mk.injEq] at establishes
      rcases establishes with ⟨_, ⟨_, rfl, rfl⟩, rfl, rfl⟩
      exact ⟨rfl, session, held, rfl, resumable⟩
  | none =>
      simp only [isSession, bind_eq_ok, pure_eq_ok, Prod.mk.injEq] at establishes
      rcases establishes with ⟨⟨session, after⟩, created, rfl, rfl⟩
      have holding := createSession_holding created
      rcases createSession_ok created with ⟨writable, _, mine, sameParent, sessions, _, isAfter⟩
      have sameItems : after.db.items = sys.db.items := by rw [isAfter]; rfl
      apply And.intro sameItems
      apply Exists.intro session
      apply Exists.intro fun _ => none
      constructor
      · have unlisted : (List.range session.totalChunks).filter
            (fun _ => (none : Option Content).isSome) = [] :=
          List.filter_eq_nil_iff.mpr fun _ _ => Bool.false_ne_true
        rw [holding.indexes, unlisted]
      · simp only [createSession, bind_eq_ok, require_eq_ok, orRaise_eq_ok, pure_eq_ok,
          Prod.mk.injEq] at created
        rcases created with ⟨_, _, _, _, _, _, _, _, _, _, _, _, rfl, _⟩
        constructor
        case holding => exact holding
        case mine => rfl
        case totalSize => rfl
        case totalChunks => rfl
        case positive => exact positive
        case blocks => exact fun index kept isHeld => by cases isHeld
        case parent =>
          intro top isParent
          rcases writable top isParent with ⟨folder, found, _⟩
          rcases ItemTable.find?_eq_some.mp found with ⟨member, isFolder⟩
          rw [sameItems, ← isFolder]
          exact List.mem_map_of_mem member

section Whole

variable {userId : Uuid} {content : Content} {session : UploadSession} {indexes : List Nat}
  {held later : Nat → Option Content} {before after : Progress} {sys : System}

/-- Once all is sent, the block of every chunk is held. -/
theorem Sent.isBlock (sent : Sent userId content session indexes held later before after)
    (all : AllSent indexes later before after)
    (asked : ∀ index < session.totalChunks, index ∈ indexes)
    (known : ∀ index ∈ before.done, (held index).isSome) :
    ∀ index < session.totalChunks,
      later index = some (Blocks.block session.chunkSize content index) := by
  intro index inRange
  have isHeld : (later index).isSome := by
    rcases all.held index (asked index inRange) with isKnown | isHeld
    · exact sent.grows index (known index isKnown)
    · exact isHeld
  rcases Option.isSome_iff_exists.mp isHeld with ⟨kept, isKept⟩
  rw [isKept, sent.resumable.blocks index kept isKept]

/-- The first requests of an upload are those for what was asked for and not known. -/
theorem Sent.puts_iff (sent : Sent userId content session indexes held later before after)
    (all : AllSent indexes later before after) (none : before.puts = []) (index : Nat) :
    (∃ put ∈ after.puts, put.1 = index) ↔ index ∈ indexes ∧ index ∉ before.done := by
  rcases sent.puts with ⟨puts, isPuts, sound⟩
  rw [none, List.nil_append] at isPuts
  constructor
  · intro isPut
    rcases isPut with ⟨put, among, rfl⟩
    rcases sound put (isPuts ▸ among) with ⟨asked, missing, _⟩
    exact ⟨asked, missing⟩
  · exact fun both => (all.sent index both.1).resolve_left both.2

theorem Sent.puts_block (sent : Sent userId content session indexes held later before after)
    (none : before.puts = []) :
    ∀ put ∈ after.puts, put.2 = Blocks.block session.chunkSize content put.1 := by
  rcases sent.puts with ⟨puts, isPuts, sound⟩
  rw [none, List.nil_append] at isPuts
  exact fun put among => (sound put (isPuts ▸ among)).2.2

theorem Resumable.isCount (resumable : Resumable userId content session held sys) :
    session.totalChunks = Blocks.count session.chunkSize content.length := by
  rw [resumable.totalChunks, resumable.totalSize]

theorem Resumable.flatMap_blocks (resumable : Resumable userId content session held sys) :
    (List.range session.totalChunks).flatMap (Blocks.block session.chunkSize content) =
      content := by
  rw [resumable.isCount]
  exact Blocks.flatMap_blocks resumable.positive content

theorem Resumable.length_block (resumable : Resumable userId content session held sys)
    {index : Nat} (inRange : index < session.totalChunks) :
    0 < (Blocks.block session.chunkSize content index).length ∧
      (Blocks.block session.chunkSize content index).length ≤ session.chunkSize := by
  have positiveSize := resumable.positive
  rw [resumable.isCount, Blocks.lt_count_iff positiveSize] at inRange
  rw [Blocks.length_block]
  omega

/-- The completion of the blocks stores the file. -/
theorem Resumable.completed (resumable : Resumable userId content session held sys)
    (isBlock : ∀ index < session.totalChunks,
      held index = some (Blocks.block session.chunkSize content index))
    {item : DriveItem} {final : System}
    (completes : completeSession userId session.id sys = .ok (item, final)) :
    FileStored item content final := by
  rcases resumable.holding.completed completes with ⟨contents, isContent, stored⟩
  have sameBlocks : (List.range session.totalChunks).flatMap contents = content := by
    rw [← resumable.flatMap_blocks]
    apply List.flatMap_congr
    intro index inRange
    have inside := List.mem_range.mp inRange
    exact Option.some.inj ((isContent index inside).symm.trans (isBlock index inside))
  exact sameBlocks ▸ stored

end Whole

/-- An upload that sends everything cuts the file into the blocks that the server counts,
sends exactly those that the session did not hold, and stores the file as it is exactly
when the database takes the row of the new file. -/
theorem runChunkedUpload_stores_iff (positive : 0 < Platform.chunkSize) {userId : Uuid}
    {task : UploadTask} {file : File} (hasFile : task.file = some file) {sys : System}
    (resumes : ∀ sessionId ∈ task.sessionId, ∃ session held, session.id = sessionId ∧
      Resumable userId file.content session held sys)
    {network : Network} {statusAt : Nat → Option UploadStatus}
    {outcome : Except UploadError DriveItem} {progress : Progress}
    (runs : runChunkedUpload userId task network statusAt sys = (outcome, progress))
    (toTheEnd : ReachesCompletion outcome) :
    ∃ (info : SessionInfo) (session : UploadSession) (opened : System),
      let sliceAt := fun index => slice file.content (index * info.chunkSize)
        (min (index * info.chunkSize + info.chunkSize) file.content.length)
      establish userId task file sys = .ok (info, opened) ∧
      opened.db.sessions.find? info.id = some session ∧
      info.totalChunks =
        (file.content.length + info.chunkSize - 1) / info.chunkSize ∧
      (List.range info.totalChunks).flatMap sliceAt = file.content ∧
      (∀ index < info.totalChunks,
        0 < (sliceAt index).length ∧ (sliceAt index).length ≤ info.chunkSize) ∧
      (∀ index, (∃ put ∈ progress.puts, put.1 = index) ↔ index < info.totalChunks ∧
        index ∉ (listChunks opened.db info.id).map UploadChunk.chunkIndex) ∧
      (∀ put ∈ progress.puts, put.2 = sliceAt put.1) ∧
      ((∃ item, outcome = .ok item ∧ FileStored item file.content progress.sys) ↔
        TakesFile sys.db.items session) := by
  rw [runChunkedUpload, hasFile] at runs
  simp only at runs
  split at runs
  · cases runs
    exact toTheEnd.elim
  rename_i info opened establishes
  rcases establish_resumable positive resumes establishes with
    ⟨sameItems, session, held, isInfo, resumable⟩
  split at runs
  · cases runs
    exact toTheEnd.elim
  rename_i middle sends
  have isSession : info.id = session.id := by rw [isInfo]
  have sameSize : info.chunkSize = session.chunkSize := by rw [isInfo]
  have sameChunks : info.totalChunks = session.totalChunks := by rw [isInfo]
  have known : info.uploadedChunks =
      (listChunks opened.db session.id).map UploadChunk.chunkIndex := by rw [isInfo]
  rcases sendGaps_sent isSession sameSize network statusAt resumable sends with
    ⟨later, sent, all⟩
  have isHeld : ∀ index ∈ info.uploadedChunks, (held index).isSome := by
    intro index isKnown
    rw [known, resumable.holding.indexes] at isKnown
    exact (List.mem_filter.mp isKnown).2
  have isBlock := sent.isBlock (all rfl)
    (fun index inRange => List.mem_range.mpr (sameChunks ▸ inRange)) isHeld
  have takes : (∃ result, completeSession userId session.id middle.sys = .ok result) ↔
      TakesFile sys.db.items session := by
    have taken := completeSession_taken sent.resumable.holding
      (fun index inRange => by rw [isBlock index inRange]; rfl) sent.resumable.parent
    rwa [sent.items, sameItems, resumable.mine] at taken
  rcases resumable.holding.isOpen with ⟨status, updatedAt, _, found⟩
  apply Exists.intro info
  apply Exists.intro { session with status := status, updatedAt := updatedAt }
  apply Exists.intro opened
  simp only [sameSize, isSession, sameChunks, slice_eq_block]
  apply And.intro establishes
  apply And.intro found
  apply And.intro resumable.isCount
  apply And.intro resumable.flatMap_blocks
  apply And.intro fun index inRange => resumable.length_block inRange
  have onlyMissing : ∀ index, (∃ put ∈ middle.puts, put.1 = index) ↔
      index < session.totalChunks ∧
        index ∉ (listChunks opened.db session.id).map UploadChunk.chunkIndex := by
    intro index
    rw [sent.puts_iff (all rfl) rfl index, List.mem_range, sameChunks, ← known]
  have onlyBlocks := sent.puts_block rfl
  rw [isSession] at runs
  split at runs
  · rename_i error refused
    cases runs
    apply And.intro onlyMissing
    apply And.intro onlyBlocks
    constructor
    · intro stored
      rcases stored with ⟨_, impossible, _⟩
      cases impossible
    · intro taken
      rcases takes.mpr taken with ⟨result, completes⟩
      rw [refused] at completes
      cases completes
  · rename_i item after completes
    cases runs
    apply And.intro onlyMissing
    apply And.intro onlyBlocks
    constructor
    · exact fun _ => takes.mp ⟨_, completes⟩
    · exact fun _ => ⟨item, rfl, sent.resumable.completed isBlock completes⟩

/-- An upload that stops on the way leaves a session to resume. -/
theorem runChunkedUpload_resumable (positive : 0 < Platform.chunkSize) {userId : Uuid}
    {task : UploadTask} {file : File} (hasFile : task.file = some file) {sys : System}
    (resumes : ∀ sessionId ∈ task.sessionId, ∃ session held, session.id = sessionId ∧
      Resumable userId file.content session held sys)
    {network : Network} {statusAt : Nat → Option UploadStatus} {error : SendError}
    {progress : Progress}
    (runs : runChunkedUpload userId task network statusAt sys =
      (.error (.sending error), progress)) :
    ∃ session held, Resumable userId file.content session held progress.sys := by
  rw [runChunkedUpload, hasFile] at runs
  simp only at runs
  split at runs
  · cases runs
  rename_i info opened establishes
  rcases establish_resumable positive resumes establishes with
    ⟨_, session, held, isInfo, resumable⟩
  split at runs
  · rename_i middle sends
    cases runs
    rcases sendGaps_sent (by rw [isInfo]) (by rw [isInfo]) network statusAt resumable sends with
      ⟨later, sent, _⟩
    exact ⟨session, later, sent.resumable⟩
  · split at runs <;> cases runs

end ChunkedUpload

end RoundTrip

/-! ## Two small uploads -/

section TwoByteChunks

attribute [local instance] twoByteChunks

namespace ChunkedUpload

private def wholeBody (answer : Answer) : Delivery where
  body chunk := [some chunk]
  sound := by
    intro chunk content ends
    rw [received, received, Option.map_some, List.append_nil, Option.some.injEq] at ends
    exact ends.symm
  answer := answer
  seconds := 1

private def cutBody : Delivery where
  body _ := [none]
  sound := fun ends => by cases ends
  answer := .lost
  seconds := 1

/-- The first request is cut off, and the answer of the second is lost. -/
private def flaky : Network
  | 0 => cutBody
  | 1 => wholeBody .lost
  | _ => wholeBody .arrived

private def notesFile : File := { name := "notes", type := "text/plain", content := [65, 66, 67] }

private def notesTask : UploadTask :=
  { file := some notesFile, parentId := none, sessionId := none }

theorem runChunkedUpload_stores_iff_flaky :
    ∃ item progress, runChunkedUpload 1 notesTask flaky (fun _ => some .uploading) quietDay =
      (.ok item, progress) ∧ FileStored item [65, 66, 67] progress.sys := by
  have opens : establish 1 notesTask notesFile quietDay = .ok (⟨10, 2, 2, []⟩,
      (establish 1 notesTask notesFile quietDay).toOption.elim quietDay Prod.snd) := rfl
  have ended : (runChunkedUpload 1 notesTask flaky (fun _ => some .uploading)
      quietDay).1.isOk = true := by decide
  cases runs : runChunkedUpload 1 notesTask flaky (fun _ => some .uploading) quietDay with
  | mk outcome progress =>
      rw [runs] at ended
      cases outcome with
      | error error => cases ended
      | ok item =>
          rcases runChunkedUpload_stores_iff (by decide) rfl (fun _ none => by cases none) runs
            trivial with ⟨info, session, opened, establishes, found, _, _, _, _, _, stores⟩
          have both := establishes.symm.trans opens
          rw [Except.ok.injEq, Prod.mk.injEq] at both
          rcases both with ⟨rfl, rfl⟩
          have isNotes : ((establish 1 notesTask notesFile quietDay).toOption.elim quietDay
              Prod.snd).db.sessions.find? 10 =
                some { firstSession "notes" 3 with mimeType := some "text/plain" } := rfl
          have isSession := Option.some.inj (found.symm.trans isNotes)
          have taken : TakesFile quietDay.db.items session := by
            rw [isSession]
            exact ⟨"notes", rfl, by decide, by decide, by decide, fun _ none => by cases none⟩
          rcases stores.mpr taken with ⟨_, isItem, stored⟩
          cases isItem
          exact ⟨item, progress, rfl, stored⟩

/-! A folder holds `notes`, and `Notes` goes up beside it. No name that is written like
that is there, so the upload is admitted and every chunk is sent. -/

private def besideNotes : List Op :=
  [.createFolder 1 none "box", .uploadSimple 1 (some 10) "notes" [[65]] 1 none]

private def boxOfNotes : System :=
  match Op.commitAll besideNotes quietDay with
  | .ok sys => sys
  | .error _ => quietDay

private def capitalTask : UploadTask :=
  { file := some { notesFile with name := "Notes" }, parentId := some 10, sessionId := none }

private def reliable : Network := fun _ => wholeBody .arrived

private def refusal : Except UploadError DriveItem → Option ServiceError
  | .error (.completion error) => some error
  | _ => none

theorem runChunkedUpload_capital_refused :
    Op.commitAll besideNotes quietDay = .ok boxOfNotes ∧
    ∃ outcome progress, runChunkedUpload 1 capitalTask reliable (fun _ => some .uploading)
        boxOfNotes = (outcome, progress) ∧
      ReachesCompletion outcome ∧
      progress.puts = [(0, [65, 66]), (1, [67])] ∧
      ¬ ∃ item, outcome = .ok item ∧ FileStored item [65, 66, 67] progress.sys := by
  apply And.intro rfl
  have refused : refusal (runChunkedUpload 1 capitalTask reliable (fun _ => some .uploading)
      boxOfNotes).1 = some .integrityError := by decide
  have sent : (runChunkedUpload 1 capitalTask reliable (fun _ => some .uploading)
      boxOfNotes).2.puts = [(0, [65, 66]), (1, [67])] := by decide
  cases runs : runChunkedUpload 1 capitalTask reliable (fun _ => some .uploading) boxOfNotes with
  | mk outcome progress =>
      rw [runs] at refused sent
      apply Exists.intro outcome
      apply Exists.intro progress
      apply And.intro rfl
      rcases outcome with error | item
      · rcases error with _ | _ | _ | error
        · cases refused
        · cases refused
        · cases refused
        · apply And.intro trivial
          apply And.intro sent
          intro stored
          rcases stored with ⟨_, impossible, _⟩
          cases impossible
      · cases refused

end ChunkedUpload

end TwoByteChunks

end CloudDrive
