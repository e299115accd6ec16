import CloudDrive.Operation

/-! # Who may write when the file appears

`upload_simple` checks its folder in the request that writes. An upload session
checks it when it is created, and `complete_session` writes later without looking
again. -/

namespace CloudDrive

open Outcome Relational Execution DriveService TrashService UploadSessionService

section Authorization

variable [Platform]

/-! ## Where the targets of sessions come from -/

/-- Every target of a session was a target of the same user's session before. -/
def TargetsKept (before after : System) : Prop :=
  ∀ row ∈ after.db.sessions, ∀ folderId ∈ row.parentId,
    ∃ old ∈ before.db.sessions, old.userId = row.userId ∧ old.parentId = some folderId

namespace TargetsKept

variable {before middle after : System}

theorem of_eq (same : after.db.sessions = before.db.sessions) : TargetsKept before after := by
  intro row member folderId named
  exact ⟨row, same ▸ member, rfl, named⟩

theorem trans (first : TargetsKept before middle) (second : TargetsKept middle after) :
    TargetsKept before after := by
  intro row member folderId named
  rcases second row member folderId named with ⟨between, betweenMem, sameUser, points⟩
  rcases first between betweenMem folderId points with ⟨old, oldMem, oldUser, oldPoints⟩
  exact ⟨old, oldMem, oldUser.trans sameUser, oldPoints⟩

theorem of_kept (kept : SessionsKept before after) : TargetsKept before after := by
  intro row member folderId named
  rcases kept row member with ⟨old, oldMem, _, sameUser, sameParent⟩
  exact ⟨old, oldMem, sameUser, sameParent.trans named⟩

theorem of_permanentDelete {userId itemId : Uuid}
    (runs : permanentDelete userId itemId before = .ok after) : TargetsKept before after := by
  rcases permanentDelete_ok runs with ⟨_, _, _, _, _, _, _, reclaimed, middle, erased, _, rfl⟩
  rcases settle_eq userId reclaimed middle with ⟨users, same⟩
  rw [same]
  intro row member folderId named
  have listed : row ∈ middle.db.sessions.rows := member
  rw [erased.sessions] at listed
  rcases List.mem_map.mp listed with ⟨old, oldMem, rfl⟩
  exact ⟨old, oldMem, rfl, (Option.filter_eq_some_iff.mp named).1⟩

theorem of_fileCreated {userId : Uuid} {parentId : Option Uuid} {file : StoredFile}
    {stream : List Content} {item : DriveItem}
    (created : FileCreated userId parentId file item
      (Storage.saveStream file.key stream before.drawn) after) : TargetsKept before after := by
  rcases created.frame with ⟨_, _, _, frame⟩
  apply of_eq
  rw [frame]
  rfl

end TargetsKept

/-- A request brings in no target but one the user may write into now. -/
theorem targets_from {op : Op} {before after : System} (effect : op.Effect before after) :
    ∀ session ∈ after.db.sessions, ∀ folderId ∈ session.parentId,
      (∃ old ∈ before.db.sessions, old.userId = session.userId ∧
        old.parentId = some folderId) ∨ Writable before.db session.userId folderId := by
  have kept : ∀ {after : System}, TargetsKept before after → ∀ session ∈ after.db.sessions,
      ∀ folderId ∈ session.parentId, (∃ old ∈ before.db.sessions,
        old.userId = session.userId ∧ old.parentId = some folderId) ∨
        Writable before.db session.userId folderId :=
    fun targets session member folderId named => .inl (targets session member folderId named)
  cases effect with
  | nothing => exact kept (.of_eq rfl)
  | folderCreated => exact kept (.of_eq rfl)
  | rewritten => exact kept (.of_eq rfl)
  | moved runs =>
      rcases move_ok runs with ⟨_, _, _, _, items, _, rfl⟩
      exact kept (.of_eq rfl)
  | deleted runs => exact kept (.of_permanentDelete runs)
  | emptied runs =>
      exact kept (forEach_keeps (TargetsKept before)
        (fun _ _ _ middle step => middle.trans (.of_permanentDelete step)) (.of_eq rfl) runs)
  | shared => exact kept (.of_eq rfl)
  | unshared => exact kept (.of_eq rfl)
  | uploaded _ _ created => exact kept (.of_fileCreated created)
  | @sessionOpened _ _ _ _ _ new sessions writable user parent rows =>
      intro session member folderId named
      have listed : session ∈ before.db.sessions.rows ++ [new] := rows ▸ member
      rcases List.mem_append.mp listed with old | isNew
      · exact .inl ⟨session, old, rfl, named⟩
      · rw [List.mem_singleton.mp isNew] at named ⊢
        rw [parent] at named
        exact .inr (user ▸ writable folderId named)
  | sessionWorked _ sessions => exact kept (.of_kept sessions)
  | completed _ _ _ _ created _ sessions =>
      exact kept ((TargetsKept.of_fileCreated created).trans (.of_kept sessions))
  | snapshotsWorked _ work => exact kept (.of_eq work.sessions)
  | snapshotRestored runs => exact kept (.of_eq (SnapshotService.restore_sessions runs))
  | collected => exact kept (.of_eq rfl)
  | ticked => exact kept (.of_eq rfl)

/-! ## From the creation of a session to its completion -/

/-- The target of every session was writable for its user when an earlier
request of the run began. -/
theorem History.targets_authorised {start final : System} {events : List (Event System Op)}
    (history : History start events final) : ∀ session ∈ final.db.sessions,
    ∀ folderId ∈ session.parentId, ∃ past event rest, events = past ++ event :: rest ∧
      Writable event.before.db session.userId folderId := by
  rcases history with ⟨untouched, run⟩
  induction run with
  | nothing =>
      intro session member
      rw [untouched.sessions] at member
      cases member
  | @next past middle final action run taken induction =>
      intro session member folderId named
      rcases targets_from (Op.effect taken) session member folderId named with
        ⟨old, oldMem, sameUser, points⟩ | writable
      · rcases induction old oldMem folderId points with ⟨before, event, rest, rfl, writable⟩
        exact ⟨before, event, rest ++ [⟨middle, action, final⟩], by simp, sameUser ▸ writable⟩
      · exact ⟨past, _, [], rfl, writable⟩

/-- Whenever a step of the run took from the user the right to write into the
folder, a later one gave it back. -/
def AccessReturns (past : List (Event System Op)) (userId folderId : Uuid) : Prop :=
  ∀ earlier loss between, past = earlier ++ loss :: between →
    Writable loss.before.db userId folderId → ¬ Writable loss.after.db userId folderId →
    ∃ gain ∈ between, ¬ Writable gain.before.db userId folderId ∧
      Writable gain.after.db userId folderId

/-- The upload request put a new file into the folder. -/
def FileAppears (event : Event System Op) (userId folderId : Uuid) : Prop :=
  ((∃ sessionId, event.action = .completeSession userId sessionId) ∨
    ∃ parentId filename stream sizeBytes mimeType,
      event.action = .uploadSimple userId parentId filename stream sizeBytes mimeType) ∧
  ∃ item ∈ event.after.db.items, item ∉ event.before.db.items ∧ item.parentId = some folderId

theorem uploadSimple_appears {event : Event System Op} {userId folderId : Uuid}
    {parentId : Option Uuid} {filename : String} {stream : List Content} {sizeBytes : Nat}
    {mimeType : Option String}
    (action : event.action = .uploadSimple userId parentId filename stream sizeBytes mimeType)
    (taken : event.action.Commits event.before event.after)
    (appears : FileAppears event userId folderId) : Writable event.before.db userId folderId := by
  have runs := taken.2
  simp only [action, Op.commit, bind_eq_ok, pure_eq_ok] at runs
  rcases runs with ⟨⟨created, after⟩, runs, same⟩
  rcases UploadService.uploadSimple_ok runs with ⟨writable, file, _, creates⟩
  rcases appears.2 with ⟨item, member, isNew, inFolder⟩
  rw [← same] at member
  rcases (creates.items item).mp member with earlier | rfl
  · exact absurd earlier isNew
  · exact writable folderId (creates.parentId.symm.trans inFolder)

theorem completeSession_appears {event : Event System Op} {userId folderId sessionId : Uuid}
    (action : event.action = .completeSession userId sessionId)
    (taken : event.action.Commits event.before event.after)
    (appears : FileAppears event userId folderId) :
    ∃ session ∈ event.before.db.sessions, session.userId = userId ∧
      session.parentId = some folderId := by
  have runs := taken.2
  simp only [action, Op.commit, bind_eq_ok, pure_eq_ok] at runs
  rcases runs with ⟨⟨created, after⟩, runs, same⟩
  rcases completeSession_ok runs with
    ⟨session, member, _, mine, _, file, middle, _, creates, work, _⟩
  rcases work.frame with ⟨_, _, frame⟩
  rcases appears.2 with ⟨item, itemMem, isNew, inFolder⟩
  rw [← same, frame] at itemMem
  rcases (creates.items item).mp itemMem with earlier | rfl
  · exact absurd earlier isNew
  · exact ⟨session, member, mine, creates.parentId.symm.trans inFolder⟩

/-- In every run, a file that an upload puts into a folder is put there with the
right to write at that moment exactly when the upload is a simple one or access
that was lost before has come back. -/
theorem fileAppears_writable_iff {start final : System} {events past rest : List (Event System Op)}
    {event : Event System Op} (history : History start events final)
    (split : events = past ++ event :: rest) {userId folderId : Uuid}
    (appears : FileAppears event userId folderId) :
    Writable event.before.db userId folderId ↔
      (∃ parentId filename stream sizeBytes mimeType,
        event.action = .uploadSimple userId parentId filename stream sizeBytes mimeType) ∨
      AccessReturns past userId folderId := by
  rcases history.2.upTo split with ⟨run, taken⟩
  constructor
  · intro writable
    apply Or.inr
    intro earlier loss between pastSplit _ lost
    exact run.exists_gained (fun sys => Writable sys.db userId folderId) pastSplit lost writable
  · intro allowed
    rcases allowed with ⟨_, _, _, _, _, action⟩ | returns
    · exact uploadSimple_appears action taken appears
    · rcases appears.1 with ⟨sessionId, action⟩ | ⟨_, _, _, _, _, action⟩
      · rcases completeSession_appears action taken appears with ⟨session, member, mine, target⟩
        rcases History.targets_authorised ⟨history.1, run⟩ session member folderId target with
          ⟨before, creation, after, pastSplit, writable⟩
        rw [mine] at writable
        by_contra notWritable
        rcases (run.onFrom pastSplit).exists_lost (fun sys => Writable sys.db userId folderId)
          writable notWritable with
          ⟨earlier, loss, between, lossSplit, held, lost, never⟩
        have whole : past = (before ++ earlier) ++ loss :: between := by
          rw [pastSplit, lossSplit, List.append_assoc]
        rcases returns (before ++ earlier) loss between whole held lost with
          ⟨gain, gainMem, _, gained⟩
        exact never gain gainMem gained
      · exact uploadSimple_appears action taken appears

end Authorization

/-! ## A collaborator who was removed

User 1 shares a folder with user 2, who opens an upload into it. The share is
removed, and user 2 completes the upload. -/

section Removed

attribute [local instance] smallPlatform

private def shareAndOpen : List Op :=
  [.createFolder 1 none "Team", .shareItem 1 10 "b@example.org" .editor,
    .createSession 2 "late.txt" 0 (some 10) none, .removeShare 1 10 2]

private def removedSharer : System :=
  match Op.commitAll shareAndOpen firstDay with
  | .ok sys => sys
  | .error _ => firstDay

private def afterwards : System :=
  match (Op.completeSession 2 11).commit removedSharer with
  | .ok sys => sys
  | .error _ => removedSharer

private def lateCompletion : Event System Op := ⟨removedSharer, .completeSession 2 11, afterwards⟩

private def beforeRemoval : System := afterFirstDay (shareAndOpen.take 3)

/-- Before the share is removed, user 2 uploads a file in one request. -/
private def simpleUpload : Event System Op :=
  let upload : Op := .uploadSimple 2 (some 10) "early.txt" [[65]] 1 none
  ⟨beforeRemoval, upload, match upload.commit beforeRemoval with
    | .ok sys => sys
    | .error _ => beforeRemoval⟩

theorem fileAppears_writable_iff_simpleUpload :
    (∃ past, History firstDay (past ++ [simpleUpload]) simpleUpload.after) ∧
      FileAppears simpleUpload 2 10 ∧ Writable simpleUpload.before.db 2 10 := by
  rcases firstDay_history (by simp [shareAndOpen, Op.Offered])
    (show Op.commitAll (shareAndOpen.take 3) firstDay = .ok beforeRemoval from rfl)
    with ⟨past, history, _⟩
  have next : History firstDay (past ++ [simpleUpload]) simpleUpload.after :=
    ⟨history.1, history.2.next ⟨trivial, rfl⟩⟩
  have appears : FileAppears simpleUpload 2 10 := by
    refine ⟨.inr ⟨_, _, _, _, _, rfl⟩, ?_⟩
    show ∃ item ∈ simpleUpload.after.db.items.rows,
      item ∉ beforeRemoval.db.items.rows ∧ item.parentId = some 10
    decide
  exact ⟨⟨past, next⟩, appears,
    (fileAppears_writable_iff next rfl appears).mpr (.inl ⟨_, _, _, _, _, rfl⟩)⟩

private theorem late_history : ∃ past, History firstDay (past ++ [lateCompletion]) afterwards := by
  rcases firstDay_history (by simp [shareAndOpen, Op.Offered])
    (show Op.commitAll shareAndOpen firstDay = .ok removedSharer from rfl)
    with ⟨past, history, _⟩
  exact ⟨past, history.1, history.2.next ⟨trivial, rfl⟩⟩

private theorem late_appears : FileAppears lateCompletion 2 10 := by
  refine ⟨.inl ⟨11, rfl⟩, ?_⟩
  show ∃ item ∈ afterwards.db.items.rows,
    item ∉ removedSharer.db.items.rows ∧ item.parentId = some 10
  decide

theorem late_unauthorised :
    (∃ past, History firstDay (past ++ [lateCompletion]) afterwards) ∧
      FileAppears lateCompletion 2 10 ∧ ¬ Writable lateCompletion.before.db 2 10 :=
  ⟨late_history, late_appears, by decide⟩

end Removed

end CloudDrive
