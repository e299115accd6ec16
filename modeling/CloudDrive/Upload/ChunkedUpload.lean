import CloudDrive.Upload.Assembly

/-! # The client of a chunked upload

`runChunkedUpload` of `frontend/src/lib/chunkedUpload.ts` against the service: create or
resume a session, send the missing chunks one after the other, complete. -/

namespace CloudDrive

open Outcome Relational LocalStorageProvider UploadSessionService

variable [Platform]

namespace ChunkedUpload

/-! ## The network -/

/-- What the client sees of a request: its answer, a failure, or that it was aborted. -/
inductive Answer where
  | arrived
  | lost
  | canceled
  deriving DecidableEq

/-- What the network does with one `putChunk`. A body that reaches its end on the server
is the chunk; one that is cut off raises there. -/
structure Delivery where
  body : Content → List (Option Content)
  sound : ∀ {chunk content}, received (body chunk) = some content → content = chunk
  answer : Answer
  seconds : Nat

/-- Every attempt is delivered in its own way. -/
abbrev Network := Nat → Delivery

/-! ## The client -/

structure File where
  name : String
  type : String
  content : Content

inductive UploadStatus where
  | pending
  | queued
  | uploading
  | paused
  | needsFile
  | completed
  | failed
  | canceled
  deriving DecidableEq

structure UploadTask where
  file : Option File
  parentId : Option Uuid
  sessionId : Option Uuid

/-- Why the chunks were not all sent. -/
inductive SendError where
  | aborted
  | paused
  | chunk

inductive UploadError where
  | noFile
  | session (error : ServiceError)
  | sending (error : SendError)
  | completion (error : ServiceError)

/-- The fields of an `UploadSessionResponse` that the client reads. -/
structure SessionInfo where
  id : Uuid
  chunkSize : Nat
  totalChunks : Nat
  uploadedChunks : List Nat

/-- The set `done`, the requests sent so far and the state of the server. -/
structure Progress where
  done : List Nat
  puts : List (Nat × Content)
  sys : System

/-- `CHUNK_RETRY_LIMIT`. -/
def chunkRetryLimit : Nat := 3

/-- `file.slice(start, end)`. -/
def slice (content : Content) (first last : Nat) : Content :=
  (content.take last).drop first

/-- One call of `uploadApi.putChunk`. -/
def putChunk (userId sessionId : Uuid) (network : Network) (index : Nat) (chunk : Content)
    (progress : Progress) : Answer × Progress :=
  let delivery := network progress.puts.length
  let outcome := receiveChunk userId sessionId index (delivery.body chunk) progress.sys
  let answer := match outcome.1 with
    | .ok () => delivery.answer
    | .error _ => if delivery.answer = .canceled then .canceled else .lost
  (answer, { progress with
    puts := progress.puts ++ [(index, chunk)]
    sys := { outcome.2 with now := outcome.2.now + delivery.seconds } })

/-- `_putChunkWithRetry`, with the retries that are left. -/
def putChunkWithRetry (userId sessionId : Uuid) (network : Network) (index : Nat)
    (chunk : Content) : Nat → Progress → Except SendError Unit × Progress
  | retries, progress =>
      match putChunk userId sessionId network index chunk progress with
      | (.arrived, progress) => (.ok (), progress)
      | (.canceled, progress) => (.error .aborted, progress)
      | (.lost, progress) =>
          match retries with
          | 0 => (.error .chunk, progress)
          | retries + 1 =>
              putChunkWithRetry userId sessionId network index chunk retries progress

/-- The loop over the chunks. `statusAt` is the status of the task before a chunk, or
`none` when the task is gone. -/
def sendGaps (userId : Uuid) (info : SessionInfo) (content : Content) (network : Network)
    (statusAt : Nat → Option UploadStatus) :
    List Nat → Progress → Except SendError Unit × Progress
  | [], progress => (.ok (), progress)
  | index :: rest, progress =>
      if index ∈ progress.done then
        sendGaps userId info content network statusAt rest progress
      else if statusAt index = none ∨ statusAt index = some .canceled then
        (.error .aborted, progress)
      else if statusAt index = some .paused then
        (.error .paused, progress)
      else
        let start := index * info.chunkSize
        let chunk := slice content start (min (start + info.chunkSize) content.length)
        match putChunkWithRetry userId info.id network index chunk chunkRetryLimit progress with
        | (.error error, progress) => (.error error, progress)
        | (.ok (), progress) =>
            sendGaps userId info content network statusAt rest
              { progress with done := progress.done ++ [index] }

/-- `get_session`, with `list_completed_indexes`. -/
def getSession (userId sessionId : Uuid) (sys : System) :
    Except ServiceError (UploadSession × List Nat) := do
  let session ← getOr404 userId sessionId sys
  pure (session, (listChunks sys.db session.id).map UploadChunk.chunkIndex)

/-- Step 1: the session of the task, read again or created. -/
def establish (userId : Uuid) (task : UploadTask) (file : File) (sys : System) :
    Except ServiceError (SessionInfo × System) :=
  match task.sessionId with
  | some sessionId => do
      let (session, uploaded) ← getSession userId sessionId sys
      pure (⟨session.id, session.chunkSize, session.totalChunks, uploaded⟩, sys)
  | none => do
      let (session, sys) ← createSession userId file.name file.content.length task.parentId
        (if file.type = "" then none else some file.type) sys
      pure (⟨session.id, session.chunkSize, session.totalChunks, []⟩, sys)

def runChunkedUpload (userId : Uuid) (task : UploadTask) (network : Network)
    (statusAt : Nat → Option UploadStatus) (sys : System) :
    Except UploadError DriveItem × Progress :=
  match task.file with
  | none => (.error .noFile, ⟨[], [], sys⟩)
  | some file =>
      match establish userId task file sys with
      | .error error => (.error (.session error), ⟨[], [], sys⟩)
      | .ok (info, sys) =>
          match sendGaps userId info file.content network statusAt
              (List.range info.totalChunks) ⟨info.uploadedChunks, [], sys⟩ with
          | (.error error, progress) => (.error (.sending error), progress)
          | (.ok (), progress) =>
              match completeSession userId info.id progress.sys with
              | .error error => (.error (.completion error), progress)
              | .ok (item, sys) => (.ok item, { progress with sys := sys })

/-! ## The slices -/

omit [Platform] in
/-- A slice between the bounds of the client is a block of the file. -/
theorem slice_eq_block (content : Content) (size index : Nat) :
    slice content (index * size) (min (index * size + size) content.length) =
      Blocks.block size content index := by
  rw [slice, Blocks.block, List.drop_take, List.take_eq_take_iff, List.length_drop]
  omega

/-! ## What an attempt leaves -/

/-- The session is open for this file, and every chunk it holds is the block of the file. -/
structure Resumable (userId : Uuid) (content : Content) (session : UploadSession)
    (held : Nat → Option Content) (sys : System) : Prop where
  holding : Holding session held sys
  mine : session.userId = userId
  totalSize : session.totalSize = content.length
  totalChunks : session.totalChunks = Blocks.count session.chunkSize session.totalSize
  positive : 0 < session.chunkSize
  blocks : ∀ index kept, held index = some kept →
    kept = Blocks.block session.chunkSize content index
  -- The foreign key of the row of the session.
  parent : ∀ top ∈ session.parentId, top ∈ sys.db.items.rows.map DriveItem.id

/-- Whatever was held is held still. -/
def Grows (held later : Nat → Option Content) : Prop :=
  ∀ index, (held index).isSome → (later index).isSome

omit [Platform] in
theorem Grows.trans {held middle later : Nat → Option Content} (first : Grows held middle)
    (second : Grows middle later) : Grows held later :=
  fun index isHeld => second index (first index isHeld)

theorem receive_items (call : ChunkCall) (sys : System) :
    (call.receive sys).2.db.items = sys.db.items := by
  rw [ChunkCall.receive, receiveChunk_eq]
  split
  · rfl
  · rfl
  · split
    · rw [withChunk, markUploading]
      split <;> rfl
    · rfl

/-- One request, whether it arrives or not, leaves the session resumable, and holding the
chunk when its answer arrives. -/
theorem putChunk_resumable {userId : Uuid} {content : Content} {session : UploadSession}
    {held : Nat → Option Content} {progress : Progress}
    (resumable : Resumable userId content session held progress.sys) (network : Network)
    (index : Nat) {answer : Answer} {after : Progress}
    (puts : putChunk userId session.id network index
      (Blocks.block session.chunkSize content index) progress = (answer, after)) :
    after.done = progress.done ∧
      after.puts = progress.puts ++ [(index, Blocks.block session.chunkSize content index)] ∧
      after.sys.db.items = progress.sys.db.items ∧
      ∃ later, Resumable userId content session later after.sys ∧ Grows held later ∧
        (answer = .arrived → (later index).isSome) := by
  let delivery := network progress.puts.length
  let call : ChunkCall := ⟨userId, session.id, index,
    delivery.body (Blocks.block session.chunkSize content index)⟩
  let event : Execution.Event System Sending :=
    ⟨progress.sys, .upload call, (call.receive progress.sys).2⟩
  let stored : Nat → Option Content := heldAfter session event held
  -- Whatever reaches the storage is the block of the file.
  have isBlock : ∀ each sent, reads session each event = some sent →
      sent = Blocks.block session.chunkSize content each := by
    intro each sent isRead
    rcases reads_upload.mp isRead with ⟨⟨_, _, isIndex⟩, ends⟩
    rw [delivery.sound ends, Int.ofNat.inj isIndex]
  have blocks : ∀ each kept, stored each = some kept →
      kept = Blocks.block session.chunkSize content each := by
    intro each kept isStored
    rcases resumable.holding.isOpen.heldAfter_cases isStored with isRead | isHeld
    · exact isBlock each kept isRead
    · exact resumable.blocks each kept isHeld
  have later : Resumable userId content session stored (call.receive progress.sys).2 := by
    constructor
    case holding => exact resumable.holding.step (.upload call)
    case blocks => exact blocks
    case mine => exact resumable.mine
    case totalSize => exact resumable.totalSize
    case totalChunks => exact resumable.totalChunks
    case positive => exact resumable.positive
    case parent =>
      rw [receive_items]
      exact resumable.parent
  have grows : Grows held stored := fun each isHeld => isSome_heldAfter isHeld
  have arrives : (call.receive progress.sys).1 = .ok () → (stored index).isSome := by
    intro done
    have ends : ∃ sent, received call.body = some sent := by
      rw [ChunkCall.receive, receiveChunk_eq] at done
      split at done
      · cases done
      · cases done
      · rename_i sent _ ends
        exact ⟨sent, ends⟩
    rcases ends with ⟨sent, ends⟩
    have storing : stores session.id index event = some sent :=
      stores_upload.mpr ⟨done, rfl, rfl, ends⟩
    exact Option.isSome_iff_exists.mpr ⟨sent, heldAfter_of_stores storing⟩
  have ticked : Resumable userId content session stored
      { (call.receive progress.sys).2 with
        now := (call.receive progress.sys).2.now + delivery.seconds } :=
    { later with holding := later.holding.tick delivery.seconds }
  rw [putChunk, Prod.mk.injEq] at puts
  rcases puts with ⟨isAnswer, rfl⟩
  apply And.intro rfl
  apply And.intro rfl
  apply And.intro (receive_items call progress.sys)
  apply Exists.intro stored
  apply And.intro ticked
  apply And.intro grows
  intro arrived
  apply arrives
  rw [arrived] at isAnswer
  show (receiveChunk userId session.id index _ progress.sys).1 = .ok ()
  split at isAnswer
  · rename_i done
    exact done
  · split at isAnswer <;> cases isAnswer

/-! ## What the loop leaves -/

/-- From `before` to `after` the client has sent blocks of the file, of chunks among
`indexes` that it did not know to be there. -/
structure Sent (userId : Uuid) (content : Content) (session : UploadSession)
    (indexes : List Nat) (held later : Nat → Option Content) (before after : Progress) :
    Prop where
  resumable : Resumable userId content session later after.sys
  grows : Grows held later
  items : after.sys.db.items = before.sys.db.items
  puts : ∃ sent, after.puts = before.puts ++ sent ∧ ∀ put ∈ sent, put.1 ∈ indexes ∧
    put.1 ∉ before.done ∧ put.2 = Blocks.block session.chunkSize content put.1

theorem Sent.nothing {userId : Uuid} {content : Content} {session : UploadSession}
    {held : Nat → Option Content} {progress : Progress}
    (resumable : Resumable userId content session held progress.sys) (indexes : List Nat) :
    Sent userId content session indexes held held progress progress where
  resumable := resumable
  grows := fun _ isHeld => isHeld
  items := rfl
  puts := ⟨[], by simp, by simp⟩

/-- What is asked for is known to be there or was sent, and is held in the end. -/
structure AllSent (indexes : List Nat) (later : Nat → Option Content) (before after : Progress) :
    Prop where
  held : ∀ index ∈ indexes, index ∈ before.done ∨ (later index).isSome
  sent : ∀ index ∈ indexes, index ∈ before.done ∨ ∃ put ∈ after.puts, put.1 = index

theorem Sent.trans {userId : Uuid} {content : Content} {session : UploadSession}
    {first second indexes : List Nat} {held middle later : Nat → Option Content}
    {before between after : Progress}
    (sent : Sent userId content session first held middle before between)
    (rest : Sent userId content session second middle later between after)
    (known : ∀ index ∈ before.done, index ∈ between.done)
    (firstAmong : ∀ index ∈ first, index ∈ indexes)
    (secondAmong : ∀ index ∈ second, index ∈ indexes) :
    Sent userId content session indexes held later before after where
  resumable := rest.resumable
  grows := sent.grows.trans rest.grows
  items := rest.items.trans sent.items
  puts := by
    rcases sent.puts with ⟨early, isEarly, earlySound⟩
    rcases rest.puts with ⟨late, isLate, lateSound⟩
    apply Exists.intro (early ++ late)
    apply And.intro (by rw [isLate, isEarly, List.append_assoc])
    intro put among
    rcases List.mem_append.mp among with inEarly | inLate
    · rcases earlySound put inEarly with ⟨asked, missing, isBlock⟩
      exact ⟨firstAmong _ asked, missing, isBlock⟩
    · rcases lateSound put inLate with ⟨asked, missing, isBlock⟩
      exact ⟨secondAmong _ asked, fun isKnown => missing (known _ isKnown), isBlock⟩

theorem putChunk_sent {userId : Uuid} {content : Content} {session : UploadSession}
    {held : Nat → Option Content} {before : Progress}
    (resumable : Resumable userId content session held before.sys) (network : Network)
    {index : Nat} (missing : index ∉ before.done) {answer : Answer} {after : Progress}
    (puts : putChunk userId session.id network index
      (Blocks.block session.chunkSize content index) before = (answer, after)) :
    after.done = before.done ∧ ∃ later,
      Sent userId content session [index] held later before after ∧
        (answer = .arrived → (later index).isSome) ∧ ∃ put ∈ after.puts, put.1 = index := by
  rcases putChunk_resumable resumable network index puts with
    ⟨sameDone, isPut, sameItems, later, isResumable, grows, arrives⟩
  apply And.intro sameDone
  apply Exists.intro later
  apply And.intro
  · constructor
    case resumable => exact isResumable
    case grows => exact grows
    case items => exact sameItems
    case puts =>
      apply Exists.intro [(index, Blocks.block session.chunkSize content index)]
      apply And.intro isPut
      intro put among
      rw [List.mem_singleton.mp among]
      exact ⟨List.mem_singleton_self index, missing, rfl⟩
  · apply And.intro arrives
    rw [isPut]
    exact ⟨_, List.mem_append_right _ (List.mem_singleton_self _), rfl⟩

/-- The attempts on one chunk send it, and the last of them succeeds or the upload ends. -/
theorem putChunkWithRetry_sent {userId : Uuid} {content : Content} {session : UploadSession}
    (network : Network) {index : Nat} {retries : Nat} {before : Progress}
    (missing : index ∉ before.done) : ∀ {held : Nat → Option Content} {after : Progress}
    {outcome : Except SendError Unit}, Resumable userId content session held before.sys →
    putChunkWithRetry userId session.id network index
      (Blocks.block session.chunkSize content index) retries before = (outcome, after) →
    after.done = before.done ∧ ∃ later,
      Sent userId content session [index] held later before after ∧
        (outcome = .ok () → (later index).isSome ∧ ∃ put ∈ after.puts, put.1 = index) := by
  fun_induction putChunkWithRetry userId session.id network index
    (Blocks.block session.chunkSize content index) retries before with
  | case1 retries before progress puts =>
      intro held after outcome resumable runs
      cases runs
      rcases putChunk_sent resumable network missing puts with
        ⟨sameDone, later, sent, arrives, isPut⟩
      exact ⟨sameDone, later, sent, fun _ => ⟨arrives rfl, isPut⟩⟩
  | case2 retries before progress puts =>
      intro held after outcome resumable runs
      cases runs
      rcases putChunk_sent resumable network missing puts with ⟨sameDone, later, sent, _⟩
      exact ⟨sameDone, later, sent, fun failed => by cases failed⟩
  | case3 before progress puts =>
      intro held after outcome resumable runs
      cases runs
      rcases putChunk_sent resumable network missing puts with ⟨sameDone, later, sent, _⟩
      exact ⟨sameDone, later, sent, fun failed => by cases failed⟩
  | case4 before progress puts retries induction =>
      intro held after outcome resumable runs
      rcases putChunk_sent resumable network missing puts with ⟨sameDone, middle, sent, _⟩
      rcases induction (sameDone ▸ missing) sent.resumable runs with
        ⟨sameAgain, later, rest, arrives⟩
      apply And.intro (sameAgain.trans sameDone)
      apply Exists.intro later
      apply And.intro _ arrives
      exact sent.trans rest (fun _ isKnown => sameDone ▸ isKnown) (fun _ asked => asked)
        (fun _ asked => asked)

/-- The loop sends only what is missing, and when it ends everything is held. -/
theorem sendGaps_sent {userId : Uuid} {content : Content} {session : UploadSession}
    {info : SessionInfo} (isSession : info.id = session.id)
    (sameSize : info.chunkSize = session.chunkSize) (network : Network)
    (statusAt : Nat → Option UploadStatus) : ∀ {indexes : List Nat}
    {held : Nat → Option Content} {before after : Progress} {outcome : Except SendError Unit},
    Resumable userId content session held before.sys →
    sendGaps userId info content network statusAt indexes before = (outcome, after) →
    ∃ later, Sent userId content session indexes held later before after ∧
      (outcome = .ok () → AllSent indexes later before after)
  | [], held, before, after, outcome, resumable, runs => by
      cases runs
      exact ⟨held, Sent.nothing resumable [], fun _ => ⟨by simp, by simp⟩⟩
  | index :: rest, held, before, after, outcome, resumable, runs => by
      have stopped : ∀ error : SendError, (Except.error error, before) = (outcome, after) →
          ∃ later, Sent userId content session (index :: rest) held later before after ∧
            (outcome = .ok () → AllSent (index :: rest) later before after) := by
        intro error ends
        cases ends
        exact ⟨held, Sent.nothing resumable _, fun failed => by cases failed⟩
      rw [sendGaps] at runs
      split at runs
      · rename_i known
        rcases sendGaps_sent isSession sameSize network statusAt resumable runs with
          ⟨later, sent, all⟩
        apply Exists.intro later
        constructor
        · exact (Sent.nothing resumable []).trans sent (fun _ isKnown => isKnown) (by simp)
            fun _ among => List.mem_cons_of_mem _ among
        · intro done
          constructor
          · intro other asked
            rcases List.mem_cons.mp asked with rfl | inRest
            · exact .inl known
            · exact (all done).held other inRest
          · intro other asked
            rcases List.mem_cons.mp asked with rfl | inRest
            · exact .inl known
            · exact (all done).sent other inRest
      · rename_i missing
        split at runs
        · exact stopped _ runs
        split at runs
        · exact stopped _ runs
        simp only [sameSize, isSession, slice_eq_block] at runs
        split at runs
        · rename_i error progress puts
          cases runs
          rcases putChunkWithRetry_sent network missing resumable puts with
            ⟨sameDone, later, sent, _⟩
          apply Exists.intro later
          constructor
          · exact sent.trans (Sent.nothing sent.resumable [])
              (fun _ isKnown => sameDone ▸ isKnown) (by simp) (by simp)
          · exact fun failed => by cases failed
        · rename_i progress puts
          rcases putChunkWithRetry_sent network missing resumable puts with
            ⟨sameDone, middle, sent, arrives⟩
          rcases arrives rfl with ⟨isHeld, put, isPut, isIndex⟩
          have first : Sent userId content session [index] held middle before
              { progress with done := progress.done ++ [index] } :=
            ⟨sent.resumable, sent.grows, sent.items, sent.puts⟩
          rcases sendGaps_sent isSession sameSize network statusAt first.resumable runs with
            ⟨later, sentRest, all⟩
          apply Exists.intro later
          constructor
          · apply first.trans sentRest
            · intro other isKnown
              exact List.mem_append_left _ (sameDone ▸ isKnown)
            · simp
            · exact fun _ among => List.mem_cons_of_mem _ among
          · intro done
            have known : ∀ other ∈ progress.done ++ [index],
                other ∈ before.done ∨ other = index := by
              intro other among
              rw [List.mem_append, List.mem_singleton, sameDone] at among
              exact among
            rcases sentRest.puts with ⟨more, isMore, _⟩
            have firstPut : ∃ put ∈ after.puts, put.1 = index :=
              ⟨put, isMore ▸ List.mem_append_left more isPut, isIndex⟩
            constructor
            · intro other asked
              rcases List.mem_cons.mp asked with rfl | inRest
              · exact .inr (sentRest.grows other isHeld)
              rcases (all done).held other inRest with isKnown | heldLater
              · rcases known other isKnown with earlier | rfl
                · exact .inl earlier
                · exact .inr (sentRest.grows other isHeld)
              · exact .inr heldLater
            · intro other asked
              rcases List.mem_cons.mp asked with rfl | inRest
              · exact .inr firstPut
              rcases (all done).sent other inRest with isKnown | sentLater
              · rcases known other isKnown with earlier | rfl
                · exact .inl earlier
                · exact .inr firstPut
              · exact .inr sentLater

end ChunkedUpload

end CloudDrive
