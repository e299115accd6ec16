import CloudDrive.Upload.DeclaredSize
import Mathlib.Algebra.Order.BigOperators.Group.List

/-! # A chunk whose row is refused

`save_stream` replaces the blob of a chunk before `upsert_chunk` writes the row. Where the
number of bytes does not fit the column, the row keeps what it was, and a completion stores
the bytes of the call that failed. -/

namespace CloudDrive

open Outcome Relational Execution Interruption

namespace UploadSessionService

section Assembled

variable [Platform] {userId : Uuid} {session : UploadSession}
  {events : List (Event System Sending)} {final : System}

/-- A completion that succeeds stores the concatenation of the last contents that were stored
for the indexes. It is refused, and changes nothing, while nothing was ever stored for one of
them. -/
structure Assembles (actorId : Uuid) (session : UploadSession)
    (events : List (Event System Sending)) (final : System) : Prop where
  completed : ∀ item after, completeSession actorId session.id final = .ok (item, after) →
    ∃ contents : Nat → Content,
      (∀ index < session.totalChunks,
        lastStored session.id (fun _ => none) events index = some (contents index)) ∧
      FileStored item ((List.range session.totalChunks).flatMap contents) after
  incomplete : (∃ index < session.totalChunks,
      lastStored session.id (fun _ => none) events index = none) →
    (∃ error, completeSession actorId session.id final = .error error ∧
      (actorId = session.userId → error = .invalidOperation
        s!"Upload is incomplete: {((List.range session.totalChunks).filter fun index =>
          (lastStored session.id (fun _ => none) events index).isNone).length} chunk(s) missing")) ∧
    ∀ given ∈ (completion actorId session.id final).failures, rolledBack final given = final

/-- Of the calls of the owner whose streams ended, the last on each index fits the column. -/
def LastFits (session : UploadSession) (events : List (Event System Sending)) : Prop :=
  ∀ index < session.totalChunks, ∀ content, lastRead session events index = some content →
    content.length ≤ maxInt4

/-- The rows and the blobs that a sequence of calls leaves. -/
structure Sent (session : UploadSession) (events : List (Event System Sending))
    (final : System) : Prop where
  holding : Holding session (heldBy session events) final
  backed : ∀ index stored, lastStored session.id (fun _ => none) events index = some stored →
    ∃ content, lastRead session events index = some content ∧ Backed stored content

theorem Sent.isNone_heldBy (sent : Sent session events final) (index : Nat) :
    (heldBy session events index).isNone =
      (lastStored session.id (fun _ => none) events index).isNone := by
  cases isStored : lastStored session.id (fun _ => none) events index with
  | none =>
      rw [heldBy, isStored]
      rfl
  | some stored =>
      rcases sent.backed index stored isStored with ⟨content, isRead, _⟩
      rw [heldBy, isStored, isRead]
      rfl

theorem Sent.incomplete (sent : Sent session events final) (actorId : Uuid)
    (lacks : ∃ index < session.totalChunks,
      lastStored session.id (fun _ => none) events index = none) :
    (∃ error, completeSession actorId session.id final = .error error ∧
      (actorId = session.userId → error = .invalidOperation
        s!"Upload is incomplete: {((List.range session.totalChunks).filter fun index =>
          (lastStored session.id (fun _ => none) events index).isNone).length} chunk(s) missing")) ∧
    ∀ given ∈ (completion actorId session.id final).failures, rolledBack final given = final := by
  rcases lacks with ⟨index, inRange, lacking⟩
  have unheld : heldBy session events index = none := by
    rw [heldBy, lacking]
    rfl
  have refused := sent.holding.incomplete ⟨index, inRange, unheld⟩ actorId
  have same : ((List.range session.totalChunks).filter fun index =>
      (heldBy session events index).isNone) = (List.range session.totalChunks).filter fun index =>
        (lastStored session.id (fun _ => none) events index).isNone :=
    List.filter_congr fun index _ => sent.isNone_heldBy index
  rwa [same] at refused

/-- Where the last calls fit, the blobs hold what was stored last. -/
theorem Sent.lastStored_eq (sent : Sent session events final) (fits : LastFits session events)
    {index : Nat} (inRange : index < session.totalChunks)
    (isStored : (lastStored session.id (fun _ => none) events index).isSome) :
    lastStored session.id (fun _ => none) events index =
      some ((lastRead session events index).getD []) := by
  rcases Option.isSome_iff_exists.mp isStored with ⟨stored, isStored⟩
  rcases sent.backed index stored isStored with ⟨content, isRead, backed⟩
  rw [isStored, isRead]
  rcases backed.same with same | oversized
  · exact congrArg some same.symm
  · exact absurd oversized (Nat.not_lt_of_le (fits index inRange content isRead))

/-- The stored contents are no longer than those in the blobs, and shorter if one does not
fit. -/
theorem Sent.length_lt (sent : Sent session events final) {contents : Nat → Content}
    (isStored : ∀ index < session.totalChunks,
      lastStored session.id (fun _ => none) events index = some (contents index))
    (oversized : ¬ LastFits session events) :
    ((List.range session.totalChunks).flatMap contents).length <
      ((List.range session.totalChunks).flatMap fun index =>
        (lastRead session events index).getD []).length := by
  have each : ∀ index < session.totalChunks, ∃ content,
      lastRead session events index = some content ∧ Backed (contents index) content :=
    fun index inRange => sent.backed index _ (isStored index inRange)
  rw [List.length_flatMap, List.length_flatMap]
  apply List.sum_lt_sum
  · intro index among
    rcases each index (List.mem_range.mp among) with ⟨content, isRead, backed⟩
    rw [isRead]
    rcases backed.same with same | oversized
    · exact Nat.le_of_eq (congrArg List.length same.symm)
    · exact Nat.le_of_lt (Nat.lt_of_le_of_lt backed.fits oversized)
  · simp only [LastFits, not_forall] at oversized
    rcases oversized with ⟨index, inRange, content, isRead, long⟩
    rcases each index inRange with ⟨other, isOther, backed⟩
    refine ⟨index, List.mem_range.mpr inRange, ?_⟩
    rw [isRead]
    exact Nat.lt_of_le_of_lt backed.fits (Nat.lt_of_not_le long)

theorem Sent.assembles_iff (sent : Sent session events final) (actorId : Uuid)
    (parent : ∀ top ∈ session.parentId, top ∈ final.db.items.rows.map DriveItem.id) :
    Assembles actorId session events final ↔
      (actorId = session.userId → EveryChunk session events →
        Creatable final.db.items session.userId session → LastFits session events) := by
  constructor
  · intro assembles mine every creatable
    rcases (sent.holding.completes_iff sent.backed every parent).mpr creatable with
      ⟨⟨item, after⟩, completes⟩
    rcases assembles.completed item after (mine ▸ completes) with ⟨contents, isStored, stored⟩
    by_contra oversized
    have shorter := sent.length_lt isStored oversized
    have sameSize := stored.sizeBytes.symm.trans
      (sent.holding.completed_stored completes).2.sizeBytes
    exact absurd sameSize (Nat.ne_of_lt shorter)
  · intro condition
    constructor
    case completed =>
      intro item after completes
      rcases sent.holding.completed_stored completes with ⟨every, stored⟩
      have mine := (sent.holding.completed_mine completes).symm
      have creatable := (sent.holding.completes_iff sent.backed every parent).mp
        ⟨_, mine ▸ completes⟩
      exact ⟨_, fun index inRange =>
        sent.lastStored_eq (condition mine every creatable) inRange (every index inRange), stored⟩
    case incomplete => exact sent.incomplete actorId

/-- Between the creation of a session and its completion, any calls of `upload_chunk` are
made by anyone on any sessions. The completion assembles the last contents that were stored
exactly when the last call of the owner on each index whose stream ended has no more bytes
than the column of the size takes, or there is no file to assemble. -/
theorem completeSession_assembles_iff {filename : String} {totalSize : Nat}
    {parentId : Option Uuid} {mimeType : Option String} {sys opened : System}
    (created : createSession userId filename totalSize parentId mimeType sys =
      .ok (session, opened))
    (run : Sendings opened events final) (actorId : Uuid) :
    Assembles actorId session events final ↔
      (actorId = session.userId → EveryChunk session events →
        Creatable final.db.items session.userId session → LastFits session events) := by
  rcases (createSession_holding created).sendings run with ⟨holding, backed⟩
  exact Sent.assembles_iff ⟨holding, backed⟩ actorId (createSession_parent created run)

end Assembled

/-! ## Chunks out of order

Three bytes go up in chunks of two. The second chunk comes first, another user tries one,
and the stream of the first breaks once before it is sent again. -/

section TwoByteChunks

attribute [local instance] twoByteChunks

private def sentNotes : List Sending :=
  [.upload ⟨1, 10, 1, [some [67]]⟩, .upload ⟨2, 10, 0, [some [90]]⟩,
    .upload ⟨1, 10, 0, [some [88], none]⟩, .tick 5, .upload ⟨1, 10, 0, [some [65], some [66]]⟩]

private def notesSent : System := Sending.leadsAll sentNotes (firstOpened "notes" 3)

private def notesEvents : List (Event System Sending) :=
  Sending.trace sentNotes (firstOpened "notes" 3)

theorem completeSession_assembles_iff_notes :
    Assembles 1 (firstSession "notes" 3) notesEvents notesSent ∧
      ∃ item after, completeSession 1 10 notesSent = .ok (item, after) ∧
        item.sizeBytes = 3 := by
  have created : createSession 1 "notes" 3 none none quietDay =
      .ok (firstSession "notes" 3, firstOpened "notes" 3) := rfl
  have firstChunk : lastRead (firstSession "notes" 3) notesEvents 0 = some [65, 66] := by decide
  have secondChunk : lastRead (firstSession "notes" 3) notesEvents 1 = some [67] := by decide
  constructor
  · apply (completeSession_assembles_iff created
      (Sending.run_trace sentNotes (firstOpened "notes" 3)) 1).mpr
    intro _ _ _ index inRange content isRead
    have bound : index < 2 := inRange
    obtain rfl | rfl : index = 0 ∨ index = 1 := by omega
    · cases firstChunk.symm.trans isRead
      decide
    · cases secondChunk.symm.trans isRead
      decide
  · have accepted : (completeSession 1 10 notesSent).isOk = true := by decide
    cases completes : completeSession 1 10 notesSent with
    | error error =>
        rw [completes] at accepted
        cases accepted
    | ok result =>
        have size : (completeSession 1 10 notesSent).map (fun result => result.1.sizeBytes) =
            .ok 3 := by rfl
        rw [completes] at size
        exact ⟨result.1, result.2, rfl, Except.ok.inj size⟩

/-! ## A chunk of 2 GiB

The one chunk of a session succeeds with a byte, and is sent again with 2147483648 bytes. -/

private def oneByte : Event System Sending :=
  let sending : Sending := .upload ⟨1, 10, 0, [some [65]]⟩
  ⟨firstOpened "notes" 2, sending, sending.leads (firstOpened "notes" 2)⟩

private def sentAgain (content : Content) : Event System Sending :=
  let sending : Sending := .upload ⟨1, 10, 0, [some content]⟩
  ⟨oneByte.after, sending, sending.leads oneByte.after⟩

private theorem run_sentAgain (content : Content) : Sendings (firstOpened "notes" 2)
    ([oneByte] ++ [sentAgain content]) (sentAgain content).after :=
  (Run.single rfl).next rfl

private theorem creatable_notes :
    Creatable (firstOpened "notes" 2).db.items 1 (firstSession "notes" 2) := by
  have accepted : (createItem (firstSession "notes" 2) 1 (.file 1 11 1) []
      (firstOpened "notes" 2)).isOk = true := by decide
  cases creates : createItem (firstSession "notes" 2) 1 (.file 1 11 1) []
      (firstOpened "notes" 2) with
  | error error =>
      rw [creates] at accepted
      cases accepted
  | ok result =>
      have parent : ∀ top ∈ (firstSession "notes" 2).parentId,
          top ∈ (firstOpened "notes" 2).db.items.rows.map DriveItem.id :=
        fun top isParent => by cases isParent
      exact (createItem_succeeds_iff parent).mp ⟨result, creates⟩

private theorem sentAgain_oversized {content : Content} (oversized : maxInt4 < content.length) :
    ¬ Assembles 1 (firstSession "notes" 2) ([oneByte] ++ [sentAgain content])
      (sentAgain content).after := by
  have created : createSession 1 "notes" 2 none none quietDay =
      .ok (firstSession "notes" 2, firstOpened "notes" 2) := rfl
  have run := run_sentAgain content
  rcases (createSession_holding created).sendings run with ⟨holding, backed⟩
  rw [Sent.assembles_iff ⟨holding, backed⟩ 1 (createSession_parent created run)]
  intro fits
  have every : EveryChunk (firstSession "notes" 2) ([oneByte] ++ [sentAgain content]) := by
    intro index inRange
    have isFirst : index = 0 := Nat.lt_one_iff.mp inRange
    rw [isFirst, lastStored_append]
    cases stores (firstSession "notes" 2).id 0 (sentAgain content) with
    | some stored => rfl
    | none =>
        show (lastStored (firstSession "notes" 2).id (fun _ => none) [oneByte] 0).isSome
        decide
  have creatable : Creatable (sentAgain content).after.db.items 1 (firstSession "notes" 2) := by
    rw [sendings_items run]
    exact creatable_notes
  have isRead : lastRead (firstSession "notes" 2) ([oneByte] ++ [sentAgain content]) 0 =
      some content := by
    have whole : LocalStorageProvider.received [some content] = some content := by
      simp [LocalStorageProvider.received]
    have read : reads (firstSession "notes" 2) 0 (sentAgain content) = some content :=
      reads_upload.mpr ⟨⟨rfl, rfl, rfl⟩, whole⟩
    rw [lastRead_append, read]
    rfl
  exact absurd oversized
    (Nat.not_lt_of_le (fits rfl every creatable 0 Nat.zero_lt_one content isRead))

/-- The completion stores the bytes of the call that failed. -/
theorem oversized_assembled :
    Sendings (firstOpened "notes" 2)
        ([oneByte] ++ [sentAgain (List.replicate 2147483648 66)])
        (sentAgain (List.replicate 2147483648 66)).after ∧
      ¬ Assembles 1 (firstSession "notes" 2)
        ([oneByte] ++ [sentAgain (List.replicate 2147483648 66)])
        (sentAgain (List.replicate 2147483648 66)).after :=
  ⟨run_sentAgain _, sentAgain_oversized (by rw [List.length_replicate]; decide)⟩

end TwoByteChunks

end UploadSessionService

end CloudDrive
