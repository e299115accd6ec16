import CloudDrive.PublicShare.Subtree

/-! # Sibling names on a drive of one owner

The unique index does not see items at the root, so there every operation looks for
itself whether a name is taken. -/

namespace CloudDrive

open Outcome Relational Execution DriveService DriveItemRepository PublicShareService

section Unique

variable [Platform]

/-- Two live items of the owner under one parent, or both at the root, with one name. -/
structure Alike (ownerId : Uuid) (left right : DriveItem) : Prop where
  leftOwned : left.ownerId = ownerId
  rightOwned : right.ownerId = ownerId
  leftLive : left.isDeleted = false
  rightLive : right.isDeleted = false
  parent : left.parentId = right.parentId
  name : left.name = right.name

def NamesUnique (ownerId : Uuid) (items : ItemTable) : Prop :=
  ∀ left ∈ items, ∀ right ∈ items, Alike ownerId left right → left.id = right.id

/-- The name of the item is not taken by another one where the item is. -/
def NameFree (ownerId : Uuid) (items : ItemTable) (item : DriveItem) : Prop :=
  ∀ row ∈ items, Alike ownerId row item → row.id = item.id

omit [Platform] in
theorem Alike.symm {ownerId : Uuid} {left right : DriveItem} (alike : Alike ownerId left right) :
    Alike ownerId right left where
  leftOwned := alike.rightOwned
  rightOwned := alike.leftOwned
  leftLive := alike.rightLive
  rightLive := alike.leftLive
  parent := alike.parent.symm
  name := alike.name.symm

variable {ownerId : Uuid}

/-- A row that is written where its name is free keeps the names unique. -/
theorem NamesUnique.write {before after : ItemTable} {new : DriveItem}
    (unique : NamesUnique ownerId before)
    (rows : ∀ row, row ∈ after ↔ row = new ∨ (row ∈ before ∧ row.id ≠ new.id))
    (free : NameFree ownerId before new) : NamesUnique ownerId after := by
  intro left leftMem right rightMem alike
  rcases (rows left).mp leftMem with rfl | ⟨leftOld, _⟩
  · rcases (rows right).mp rightMem with rfl | ⟨rightOld, _⟩
    · rfl
    · exact (free right rightOld alike.symm).symm
  · rcases (rows right).mp rightMem with rfl | ⟨rightOld, _⟩
    · exact free left leftOld alike
    · exact unique left leftOld right rightOld alike

theorem NamesUnique.replaced {before after : ItemTable} {old new : DriveItem}
    (unique : NamesUnique ownerId before) (replaced : ItemTable.Replaced before after old new)
    (free : NameFree ownerId before new) : NamesUnique ownerId after := by
  have rows : ∀ row, row ∈ after ↔ row = new ∨ (row ∈ before ∧ row.id ≠ new.id) := by
    rw [replaced.sameId]
    exact replaced.rows
  exact unique.write rows free

theorem NamesUnique.added {before after : ItemTable} {item : DriveItem}
    (unique : NamesUnique ownerId before)
    (rows : ∀ row, row ∈ after ↔ row ∈ before ∨ row = item)
    (fresh : ∀ row ∈ before, row.id ≠ item.id) (free : NameFree ownerId before item) :
    NamesUnique ownerId after := by
  have written : ∀ row, row ∈ after ↔ row = item ∨ (row ∈ before ∧ row.id ≠ item.id) := by
    intro row
    rw [rows row]
    constructor
    · intro either
      rcases either with earlier | isItem
      · exact .inr ⟨earlier, fresh row earlier⟩
      · exact .inl isItem
    · intro either
      rcases either with isItem | earlier
      · exact .inr isItem
      · exact .inl earlier.1
  exact unique.write written free

theorem NamesUnique.smaller {before after : ItemTable} (unique : NamesUnique ownerId before)
    (sub : ∀ row ∈ after, row ∈ before) : NamesUnique ownerId after := by
  intro left leftMem right rightMem alike
  exact unique left (sub left leftMem) right (sub right rightMem) alike

/-! ## What the check of a name says -/

theorem nameFree_of_check {items : ItemTable} {item : DriveItem} {excludeId : Option Uuid}
    (checked : nameExistsInParent items item.name item.parentId ownerId excludeId = .ok false)
    (excluded : excludeId = none ∨ excludeId = some item.id) : NameFree ownerId items item := by
  intro row member alike
  have found := nameExists_free checked member alike.leftOwned alike.leftLive alike.name
    alike.parent
  rcases excluded with rfl | rfl
  · cases found
  · exact (Option.some.inj found).symm

theorem createFolder_nameFree {userId : Uuid} {parentId : Option Uuid} {name : String}
    {sys after : System} {item : DriveItem}
    (runs : DriveService.createFolder userId parentId name sys = .ok (item, after)) :
    NameFree userId sys.db.items item := by
  simp only [DriveService.createFolder, bind_eq_ok, require_eq_ok] at runs
  rcases runs with ⟨accepted, _, _, _, taken, checked, _, rfl, created⟩
  rcases create_ok created with ⟨rfl, _⟩
  exact nameFree_of_check checked (.inl rfl)

/-- What a folder that is created has passed, and what it leaves. -/
theorem createFolder_created {userId : Uuid} {parentId : Option Uuid} {name : String}
    {sys after : System} {item : DriveItem}
    (runs : DriveService.createFolder userId parentId name sys = .ok (item, after)) :
    ∃ accepted, validateName name = .ok accepted ∧
      (∀ folderId ∈ parentId, Writable sys.db userId folderId) ∧
      nameExistsInParent sys.db.items accepted parentId userId none = .ok false ∧
      item = newItem sys userId parentId .folder accepted userId ∧ after.now = sys.now ∧
      ∀ row, row ∈ after.db.items ↔ row ∈ sys.db.items ∨ row = item := by
  simp only [DriveService.createFolder, bind_eq_ok, require_eq_ok, whenSome_eq_ok] at runs
  rcases runs with ⟨accepted, valid, _, target, _, checked, _, rfl, creates⟩
  rcases create_ok creates with ⟨rfl, items, added, rfl⟩
  refine ⟨accepted, valid, ?_, checked, rfl, rfl, fun row => ItemTable.mem_of_add added⟩
  intro folderId named
  rcases target folderId named with ⟨parent, found, _⟩
  exact destination_ok found

theorem rename_nameFree {userId itemId : Uuid} {newName : String} {sys after : System}
    (runs : DriveService.rename userId itemId newName sys = .ok after) :
    after = sys ∨ ∃ items old new, ItemTable.Replaced sys.db.items items old new ∧
      NameFree userId sys.db.items new ∧ after = sys.withItems items := by
  simp only [DriveService.rename, bind_eq_ok] at runs
  rcases runs with ⟨accepted, _, item, found, runs⟩
  rcases getEditable_ok found with ⟨rfl, editable⟩
  split at runs
  · exact .inl (pure_eq_ok.mp runs).symm
  · simp only [bind_eq_ok, require_eq_ok, updateName, pure_eq_ok] at runs
    rcases runs with ⟨_, checked, _, rfl, items, changed, rfl⟩
    exact .inr ⟨items, item, _, ItemTable.change_replaced editable.member rfl changed,
      nameFree_of_check checked (.inr rfl), rfl⟩

theorem move_nameFree {userId itemId : Uuid} {newParentId : Option Uuid} {sys after : System}
    (runs : DriveService.move userId itemId newParentId sys = .ok after) :
    ∃ items old new, ItemTable.Replaced sys.db.items items old new ∧
      NameFree userId sys.db.items new ∧ after = sys.withItems items := by
  simp only [DriveService.move, bind_eq_ok, require_eq_ok, updateParent, pure_eq_ok] at runs
  rcases runs with ⟨item, found, _, _, _, checked, _, rfl, items, changed, rfl⟩
  rcases getEditable_ok found with ⟨rfl, editable⟩
  exact ⟨items, item, _, ItemTable.change_replaced editable.member rfl changed,
    nameFree_of_check checked (.inr rfl), rfl⟩

theorem restore_nameFree {userId itemId : Uuid} {sys after : System}
    (runs : TrashService.restore userId itemId sys = .ok after) :
    ∃ items old new, ItemTable.Replaced sys.db.items items old new ∧
      NameFree userId sys.db.items new ∧ after = sys.withItems items := by
  rcases TrashService.restore_ok runs with
    ⟨item, _, _, _, _, items, new, replaced, _, _, _, resolved, rfl⟩
  exact ⟨items, item, new, replaced, nameFree_of_check (resolveName_free resolved) (.inl rfl),
    rfl⟩

theorem createFile_nameFree {userId : Uuid} {parentId : Option Uuid} {filename name : String}
    {file : StoredFile} {items : ItemTable} {sys after : System} {item : DriveItem}
    (resolved : resolveName items parentId userId filename = .ok name)
    (created : createFile userId parentId name file sys = .ok (item, after)) :
    NameFree userId items item := by
  simp only [createFile, bind_eq_ok, pure_eq_ok, Prod.mk.injEq] at created
  rcases created with ⟨⟨row, middle⟩, added, _, _, _, _, rfl, rfl⟩
  rcases create_ok added with ⟨rfl, _⟩
  exact nameFree_of_check (resolveName_free resolved) (.inl rfl)

theorem uploadSimple_nameFree {userId : Uuid} {parentId : Option Uuid} {filename : String}
    {stream : List Content} {sizeBytes : Nat} {mimeType : Option String}
    {sys after : System} {item : DriveItem}
    (runs : UploadService.uploadSimple userId parentId filename stream sizeBytes mimeType sys =
      .ok (item, after)) : NameFree userId sys.db.items item := by
  simp only [UploadService.uploadSimple, bind_eq_ok] at runs
  rcases runs with ⟨accepted, _, _, _, _, _, name, resolved, created⟩
  exact createFile_nameFree resolved created

theorem completeSession_nameFree {userId sessionId : Uuid} {sys after : System}
    {item : DriveItem}
    (runs : UploadSessionService.completeSession userId sessionId sys = .ok (item, after)) :
    NameFree userId sys.db.items item := by
  simp only [UploadSessionService.completeSession, bind_eq_ok, pure_eq_ok, Storage.concat,
    UploadSessionService.createItem, Prod.mk.injEq] at runs
  rcases runs with ⟨session, _, _, _, _, _, ⟨content, merged⟩, ⟨_, _, rfl, rfl⟩,
    ⟨created, middle⟩, ⟨name, resolved, creates⟩, rfl, rfl⟩
  exact createFile_nameFree resolved creates

/-! ## The requests of one owner -/

/-- The requests on the items of the owner, and those that lead to a complete upload. -/
def Op.OfOwner (ownerId : Uuid) : Op → Prop
  | .createFolder userId .. | .rename userId .. | .move userId .. | .trashItem userId ..
  | .restoreItem userId .. | .permanentDelete userId .. | .uploadSimple userId ..
  | .completeSession userId .. => userId = ownerId
  | .createSession .. | .uploadChunk .. | .cancelSession .. | .cleanupExpired | .tick .. => True
  | _ => False

/-- What the owner asks for, or a guest who acts as the owner. -/
inductive DriveRequest where
  | own (op : Op)
  | guest (request : GuestRequest)

/-- A guest acts as the owner of the item that the link shares. -/
def DriveRequest.Commits (ownerId : Uuid) : DriveRequest → System → System → Prop
  | .own op, before, after => op.OfOwner ownerId ∧ op.Commits before after
  | .guest request, before, after => ∃ auth,
      authorize request.links before.db.items request.now request.token = .ok auth ∧
        auth.root.ownerId = ownerId ∧ request.op.commit auth before = .ok after

theorem Op.namesUnique {op : Op} {before after : System} (ofOwner : op.OfOwner ownerId)
    (commits : op.commit before = .ok after) (unique : NamesUnique ownerId before.db.items) :
    NamesUnique ownerId after.db.items := by
  cases op with
  | createFolder userId parentId name =>
      cases ofOwner
      simp only [Op.commit, bind_eq_ok, pure_eq_ok] at commits
      rcases commits with ⟨⟨item, _⟩, runs, rfl⟩
      rcases createFolder_ok runs with ⟨_, _, _, items, added, rfl⟩
      exact unique.added (fun row => ItemTable.mem_of_add added) (ItemTable.fresh_of_add added)
        (createFolder_nameFree runs)
  | rename userId itemId newName =>
      cases ofOwner
      rcases rename_nameFree commits with rfl | ⟨items, old, new, replaced, free, rfl⟩
      · exact unique
      · exact unique.replaced replaced free
  | move userId itemId newParentId =>
      cases ofOwner
      rcases move_nameFree commits with ⟨items, old, new, replaced, free, rfl⟩
      exact unique.replaced replaced free
  | trashItem userId itemId =>
      rcases TrashService.trashItem_ok commits with ⟨item, member, rfl, _, _, items, changed, rfl⟩
      apply unique.replaced (ItemTable.change_replaced member rfl changed)
      intro row _ alike
      cases alike.rightLive
  | restoreItem userId itemId =>
      cases ofOwner
      rcases restore_nameFree commits with ⟨items, old, new, replaced, free, rfl⟩
      exact unique.replaced replaced free
  | permanentDelete userId itemId =>
      rcases TrashService.permanentDelete_ok commits with
        ⟨item, _, _, _, _, _, _, reclaimed, middle, erased, _, rfl⟩
      rcases TrashService.settle_eq userId reclaimed middle with ⟨users, same⟩
      rw [same]
      exact unique.smaller fun row member => ((erased.items row).mp member).1
  | uploadSimple userId parentId filename stream sizeBytes mimeType =>
      cases ofOwner
      simp only [Op.commit, bind_eq_ok, pure_eq_ok] at commits
      rcases commits with ⟨⟨item, _⟩, runs, rfl⟩
      rcases UploadService.uploadSimple_ok runs with ⟨_, file, _, created⟩
      exact unique.added created.items created.fresh.items (uploadSimple_nameFree runs)
  | createSession userId filename totalSize parentId mimeType =>
      simp only [Op.commit, bind_eq_ok, pure_eq_ok] at commits
      rcases commits with ⟨⟨session, _⟩, runs, rfl⟩
      rcases UploadSessionService.createSession_ok runs with ⟨_, _, _, _, sessions, _, rfl⟩
      exact unique
  | uploadChunk userId sessionId chunkIndex stream =>
      rcases (UploadSessionService.uploadChunk_ok commits).1.frame with ⟨_, _, same⟩
      rw [same]
      exact unique
  | completeSession userId sessionId =>
      cases ofOwner
      simp only [Op.commit, bind_eq_ok, pure_eq_ok] at commits
      rcases commits with ⟨⟨item, _⟩, runs, rfl⟩
      rcases UploadSessionService.completeSession_ok runs with
        ⟨session, _, _, _, _, file, middle, _, created, work, _⟩
      rcases work.frame with ⟨_, _, same⟩
      rw [same]
      exact unique.added created.items created.fresh.items (completeSession_nameFree runs)
  | cancelSession userId sessionId =>
      rcases (UploadSessionService.cancelSession_ok commits).1.frame with ⟨_, _, same⟩
      rw [same]
      exact unique
  | cleanupExpired =>
      cases commits
      rcases (UploadSessionService.cleanupExpired_work before).1.frame with ⟨_, _, same⟩
      rw [same]
      exact unique
  | tick seconds =>
      cases commits
      exact unique
  | emptyTrash | shareItem | removeShare | createSnapshot | updateSettings | pruneSnapshots
  | restoreSnapshot | collectGarbage => cases ofOwner

/-- What a guest commits, the owner of the shared item could commit. -/
theorem GuestOp.asOwner {auth : Authorized} {op : GuestOp} {before after : System}
    (commits : op.commit auth before = .ok after) :
    ∃ own : Op, own.OfOwner auth.root.ownerId ∧ own.commit before = .ok after := by
  cases op with
  | createFolder parentId name =>
      simp only [GuestOp.commit, PublicShareService.createFolder, bind_eq_ok, pure_eq_ok,
        downstream_eq_ok] at commits
      rcases commits with ⟨_, ⟨_, _, parent, _, ⟨item, final⟩, runs, _, _, rfl⟩, same⟩
      cases same
      apply Exists.intro (.createFolder auth.root.ownerId (some parent.id) name)
      exact ⟨rfl, bind_eq_ok.mpr ⟨_, runs, rfl⟩⟩
  | rename itemId newName =>
      simp only [GuestOp.commit, PublicShareService.rename, bind_eq_ok, pure_eq_ok,
        downstream_eq_ok] at commits
      rcases commits with ⟨_, ⟨_, _, item, _, final, runs, _, _, rfl⟩, same⟩
      cases same
      exact ⟨.rename auth.root.ownerId item.id newName, rfl, runs⟩
  | move itemId newParentId =>
      simp only [GuestOp.commit, PublicShareService.move, bind_eq_ok, pure_eq_ok,
        downstream_eq_ok] at commits
      rcases commits with ⟨_, ⟨_, _, item, _, parent, _, final, runs, _, _, rfl⟩, same⟩
      cases same
      exact ⟨.move auth.root.ownerId item.id (some parent.id), rfl, runs⟩
  | trash itemId =>
      simp only [GuestOp.commit, PublicShareService.trash, bind_eq_ok, downstream_eq_ok] at commits
      rcases commits with ⟨_, _, item, _, _, _, runs⟩
      exact ⟨.trashItem auth.root.ownerId item.id, rfl, runs⟩
  | upload parentId filename stream sizeBytes mimeType =>
      simp only [GuestOp.commit, PublicShareService.upload, bind_eq_ok, pure_eq_ok,
        downstream_eq_ok] at commits
      rcases commits with ⟨_, ⟨_, _, parent, _, ⟨item, final⟩, runs, _, _, rfl⟩, same⟩
      cases same
      apply Exists.intro (.uploadSimple auth.root.ownerId (some parent.id) filename stream
        sizeBytes mimeType)
      exact ⟨rfl, bind_eq_ok.mpr ⟨_, runs, rfl⟩⟩

theorem DriveRequest.namesUnique {request : DriveRequest} {before after : System}
    (commits : request.Commits ownerId before after)
    (unique : NamesUnique ownerId before.db.items) : NamesUnique ownerId after.db.items := by
  cases request with
  | own op => exact Op.namesUnique commits.1 commits.2.2 unique
  | guest request =>
      rcases commits with ⟨auth, _, rfl, commits⟩
      rcases GuestOp.asOwner commits with ⟨own, ofOwner, ownCommits⟩
      exact Op.namesUnique ofOwner ownCommits unique

/-- Whatever the owner and the guests of the owner's editor links do, one after the other,
no two live items of the owner come to have one name under one parent. -/
theorem namesUnique_of_run {start final : System} {events : List (Event System DriveRequest)}
    (empty : ∀ item ∈ start.db.items, item.ownerId ≠ ownerId)
    (run : Run (DriveRequest.Commits ownerId) start events final) :
    NamesUnique ownerId final.db.items := by
  have initial : NamesUnique ownerId start.db.items := by
    intro left leftMem _ _ alike
    exact absurd alike.leftOwned (empty left leftMem)
  have each : ∀ event ∈ events, NamesUnique ownerId event.before.db.items →
      event.action.Commits ownerId event.before event.after →
      NamesUnique ownerId event.after.db.items :=
    fun event _ unique commits => DriveRequest.namesUnique commits unique
  exact @Run.keeps _ _ _ _ _ _ (fun sys => NamesUnique ownerId sys.db.items) initial each run

end Unique

/-! ## A name that comes back

A guest makes `Shared/a`, the owner moves it to the root and trashes it. Once another `a`
is there, the first comes back under a number. -/

section ComesBack

attribute [local instance] smallPlatform

private def madeAgain : List Op :=
  [.createFolder 1 none "Shared", .createFolder 1 (some 10) "a", .move 1 11 none,
    .trashItem 1 11, .createFolder 1 none "a", .restoreItem 1 11]

private theorem shareLinkOnTen_keys : [(20 : Uuid)].Nodup :=
  List.nodup_singleton 20

private def shareLinkOnTen : Table ShareLink where
  rows := [{
    id := 20
    itemId := 10
    tokenHash := ""
    permission := .editor
    passwordHash := none
    expiresAt := none
    isActive := true
    attemptWindowStart := none
    attemptCount := 0
    lockedUntil := none }]
  nodup := shareLinkOnTen_keys

private def guestRequest : GuestRequest where
  token := { sub := 20, itm := 10, prm := .editor, cst := 0, iat := 0, exp := 900 }
  links := shareLinkOnTen
  now := minute
  op := .createFolder 10 "a"

private theorem guestRequest_commits :
    DriveRequest.Commits 1 (.guest guestRequest) (afterFirstDay (madeAgain.take 1))
      (afterFirstDay (madeAgain.take 2)) := by
  apply Exists.intro {
    claims := { linkId := 20, rootItemId := 10, permission := .editor, chainStartedAt := 0 }
    root := newItem firstDay 1 none .folder "Shared" 1
    permission := .editor }
  apply And.intro
  · exact authorize_eq_ok.mpr ⟨⟨by decide, by decide⟩, _, rfl, rfl, rfl, _, rfl, rfl, rfl⟩
  · exact ⟨rfl, rfl⟩

private theorem ownRequest_commits (count : Nat) (op : Op) (ofOwner : op.OfOwner 1)
    (offered : op.Offered (afterFirstDay (madeAgain.take count)))
    (commits : op.commit (afterFirstDay (madeAgain.take count)) =
      .ok (afterFirstDay (madeAgain.take (count + 1)))) :
    DriveRequest.Commits 1 (.own op) (afterFirstDay (madeAgain.take count))
      (afterFirstDay (madeAgain.take (count + 1))) :=
  ⟨ofOwner, offered, commits⟩

theorem namesUnique_of_run_comesBack :
    NamesUnique 1 (afterFirstDay madeAgain).db.items ∧
      (afterFirstDay madeAgain).db.items.rows.map DriveItem.name = ["Shared", "a (1)", "a"] := by
  have run := (((((Run.single (ownRequest_commits 0 (.createFolder 1 none "Shared") rfl trivial
    rfl)).next guestRequest_commits).next
    (ownRequest_commits 2 (.move 1 11 none) rfl trivial rfl)).next
    (ownRequest_commits 3 (.trashItem 1 11) rfl trivial rfl)).next
    (ownRequest_commits 4 (.createFolder 1 none "a") rfl trivial rfl)).next
    (ownRequest_commits 5 (.restoreItem 1 11) rfl trivial rfl)
  have empty : ∀ item ∈ firstDay.db.items, item.ownerId ≠ 1 := by
    intro item member
    cases member
  exact ⟨namesUnique_of_run empty run, by decide⟩

end ComesBack

end CloudDrive
