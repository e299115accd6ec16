import CloudDrive.Trash.Recovery
import CloudDrive.Operation

/-! # The check of a name and the unique index

`name_exists_in_parent` compares names as they are written, the index on a folder compares
them in lower case. Six requests write a row after the check has said that its name is
free. -/

namespace CloudDrive

open Outcome Relational DriveService DriveItemRepository TrashRepository

section CaseVariants

variable [Platform]

/-- Another live item of the owner in the folder of `row` has another name that is the same
in lower case. -/
def CaseVariant (items : ItemTable) (row : DriveItem) : Prop :=
  ∃ other ∈ items.rows, other.id ≠ row.id ∧ other.isDeleted = false ∧
    other.ownerId = row.ownerId ∧ other.parentId = row.parentId ∧ other.name ≠ row.name ∧
    Platform.lower other.name = Platform.lower row.name

instance (items : ItemTable) (row : DriveItem) : Decidable (CaseVariant items row) :=
  inferInstanceAs (Decidable (∃ other ∈ items.rows, _))

/-- Where the check says free, only a case variant is in the way of the write. -/
theorem indexAllows_iff {items : ItemTable} {row : DriveItem} {folderId : Uuid}
    {excludeId : Option Uuid} (live : row.isDeleted = false) (inside : row.parentId = some folderId)
    (free : sameName items row.name (some folderId) row.ownerId excludeId = [])
    (excluded : ∀ other ∈ items.rows, other.id ≠ row.id → excludeId ≠ some other.id) :
    items.IndexAllows row ↔ ¬ CaseVariant items row := by
  have nested : row.parentId ≠ none := by
    rw [inside]
    exact Option.some_ne_none _
  constructor
  · intro allows variants
    rcases variants with ⟨other, member, different, otherLive, owned, sameParent, _, sameName⟩
    exact allows other member different
      ⟨otherLive, live, owned, sameParent ▸ nested, sameParent, sameName⟩
  · intro none other member different same
    rcases same with ⟨otherLive, _, owned, _, sameParent, sameLower⟩
    apply none
    apply Exists.intro other
    apply And.intro member
    apply And.intro different
    apply And.intro otherLive
    apply And.intro owned
    apply And.intro sameParent
    apply And.intro _ sameLower
    intro named
    have selected : other ∈ sameName items row.name (some folderId) row.ownerId excludeId :=
      List.mem_filter.mpr ⟨member, decide_eq_true
        ⟨owned, otherLive, named, sameParent.trans inside, excluded other member different⟩⟩
    rw [free] at selected
    cases selected

theorem indexAllows_iff_new {items : ItemTable} {row : DriveItem} {folderId : Uuid}
    (live : row.isDeleted = false) (inside : row.parentId = some folderId)
    (free : sameName items row.name (some folderId) row.ownerId none = []) :
    items.IndexAllows row ↔ ¬ CaseVariant items row :=
  indexAllows_iff live inside free fun _ _ _ => (Option.some_ne_none _).symm

/-! ## The six requests

What a request has passed when its last check says that `name` is free in the folder, and
the versions of the row that it then flushes. The actor is the owner of the row. -/

/-- The blob of `upload_simple` and of the session, and the row that names it. -/
def uploadedFile (userId : Uuid) (filename : String) (stream : List Content)
    (mimeType : Option String) (sys : System) : StoredFile where
  key := .file userId sys.uuid4 1
  content := stream.flatten
  mimeType := mimeType
  ext := (splitName filename).2

def uploaded (userId : Uuid) (stream : List Content) (sys : System) : System :=
  Storage.saveStream (.file userId sys.uuid4 1) stream sys.drawn

inductive FreeName (sys : System) : Op → String → List DriveItem → Prop
  | createFolder {userId folderId : Uuid} {given name : String} {folder : DriveItem} :
      validateName given = .ok name →
      destination userId folderId "Parent folder not found" "Parent must be a folder" sys =
        .ok folder →
      nameExistsInParent sys.db.items name (some folderId) userId none = .ok false →
      FreeName sys (.createFolder userId (some folderId) given) name
        [newItem sys userId (some folderId) .folder name userId]
  | rename {userId itemId folderId : Uuid} {given name : String} {item : DriveItem} :
      validateName given = .ok name → getEditable itemId userId sys = .ok item →
      item.ownerId = userId → item.parentId = some folderId → item.name ≠ name →
      nameExistsInParent sys.db.items name (some folderId) userId (some itemId) = .ok false →
      FreeName sys (.rename userId itemId given) name [renamed sys name userId item]
  | move {userId itemId folderId : Uuid} {item : DriveItem} :
      getEditable itemId userId sys = .ok item → item.ownerId = userId →
      moveTarget userId item folderId sys = .ok () →
      nameExistsInParent sys.db.items item.name (some folderId) userId (some itemId) =
        .ok false →
      FreeName sys (.move userId itemId (some folderId)) item.name
        [reparented sys (some folderId) userId item]
  | uploadSimple {userId folderId : Uuid} {given filename name : String}
      {stream : List Content} {sizeBytes : Nat} {mimeType : Option String} :
      safeFilename given = .ok filename → UploadService.target userId folderId sys = .ok () →
      QuotaService.assertHasSpace sys.db userId sizeBytes = .ok () →
      resolveName sys.db.items (some folderId) userId filename = .ok name →
      FreeName sys (.uploadSimple userId (some folderId) given stream sizeBytes mimeType) name
        [newItem (uploaded userId stream sys) userId (some folderId) .file name userId,
          withContent (uploadedFile userId filename stream mimeType sys)
            (newItem (uploaded userId stream sys) userId (some folderId) .file name userId)]
  | completeSession {userId folderId : Uuid} {session : UploadSession} {name : String}
      {content : Content} {merged : System} :
      UploadSessionService.getOr404 userId session.id sys = .ok session →
      session.status.isTerminal = false → session.parentId = some folderId →
      -- The foreign key of `upload_sessions.parent_id`.
      folderId ∈ sys.db.items.rows.map DriveItem.id →
      UploadSessionService.missing session
        (UploadSessionService.listChunks sys.db session.id) = [] →
      Storage.concat ((UploadSessionService.listChunks sys.db session.id).map
        UploadChunk.storageKey) (.file userId sys.uuid4 1) sys.drawn = .ok (content, merged) →
      resolveName sys.db.items (some folderId) userId session.filename = .ok name →
      FreeName sys (.completeSession userId session.id) name
        [newItem merged userId (some folderId) .file name userId,
          withContent (uploadedFile userId session.filename [content] session.mimeType sys)
            (newItem merged userId (some folderId) .file name userId)]
  | restoreItem {userId folderId : Uuid} {item : DriveItem} {name : String} :
      item ∈ sys.db.items → item.ownerId = userId → item.isDeleted = true →
      TrashService.restoreParent sys.db.items item = some folderId →
      resolveName sys.db.items (some folderId) userId item.name = .ok name →
      FreeName sys (.restoreItem userId item.id) name
        (markedRestored sys item ::
          if name ≠ item.name then [renamed sys name userId (markedRestored sys item)] else [])

/-- An item goes back to a folder where its place is free under its own name. -/
theorem restored_under_own_name {userId folderId : Uuid} {items : ItemTable} {item : DriveItem}
    {name : String} (oldPlace : TrashService.OldPlaceFree items item)
    (owned : item.ownerId = userId)
    (returns : TrashService.restoreParent items item = some folderId)
    (resolved : resolveName items (TrashService.restoreParent items item) userId item.name =
      .ok name) : name = item.name := by
  have same : TrashService.restoreParent items item = item.parentId := by
    rcases TrashService.restoreParent_cases items item with same | root
    · exact same
    · rw [root] at returns
      cases returns
  have nested : item.parentId ≠ none := by
    rw [← same, returns]
    exact Option.some_ne_none _
  rcases resolveName_eq_ok_iff.mp resolved with ⟨round, isName, stops⟩
  rw [← owned] at stops
  rw [isName, TrashService.round_eq_zero oldPlace same nested stops]
  rfl

/-- The names that the requests write: the checked one, and before it the old one of an item
that comes out of the trash. -/
theorem FreeName.indexAllows_iff {sys : System} {op : Op} {name : String}
    {rows : List DriveItem} (write : FreeName sys op name rows) :
    (∀ row ∈ rows, sys.db.items.IndexAllows row) ↔
      ∀ row ∈ rows, row.name = name ∧ ¬ CaseVariant sys.db.items row := by
  cases write with
  | createFolder accepted target free =>
      rw [List.forall_mem_singleton, List.forall_mem_singleton,
        indexAllows_iff_new rfl rfl (nameExists_eq_false_iff.mp free)]
      exact (and_iff_right rfl).symm
  | @rename userId itemId folderId given name item accepted found owned inside changes free =>
      rcases getEditable_ok found with ⟨rfl, editable⟩
      have notTaken := nameExists_eq_false_iff.mp free
      rw [← owned] at notTaken
      rw [List.forall_mem_singleton, List.forall_mem_singleton,
        @CloudDrive.indexAllows_iff _ _ (renamed sys name userId item) _ (some item.id)
          editable.live inside notTaken
          fun other _ different same => different (Option.some.inj same).symm]
      exact (and_iff_right rfl).symm
  | @move userId itemId folderId item found owned target free =>
      rcases getEditable_ok found with ⟨rfl, editable⟩
      have notTaken := nameExists_eq_false_iff.mp free
      rw [← owned] at notTaken
      rw [List.forall_mem_singleton, List.forall_mem_singleton,
        @CloudDrive.indexAllows_iff _ _ (reparented sys (some folderId) userId item) _
          (some item.id) editable.live rfl notTaken
          fun other _ different same => different (Option.some.inj same).symm]
      exact (and_iff_right rfl).symm
  | uploadSimple accepted target space resolved =>
      have notTaken := nameExists_eq_false_iff.mp (resolveName_free resolved)
      rw [List.forall_mem_cons, List.forall_mem_singleton, List.forall_mem_cons,
        List.forall_mem_singleton, indexAllows_iff_new rfl rfl notTaken,
        indexAllows_iff_new rfl rfl notTaken]
      exact and_congr (and_iff_right rfl).symm (and_iff_right rfl).symm
  | completeSession found active inside isFolder complete merges resolved =>
      have notTaken := nameExists_eq_false_iff.mp (resolveName_free resolved)
      rw [List.forall_mem_cons, List.forall_mem_singleton, List.forall_mem_cons,
        List.forall_mem_singleton, indexAllows_iff_new rfl rfl notTaken,
        indexAllows_iff_new rfl rfl notTaken]
      exact and_congr (and_iff_right rfl).symm (and_iff_right rfl).symm
  | @restoreItem userId folderId item name member owned trashed returns resolved =>
      have inside : item.parentId = some folderId := by
        rcases TrashService.restoreParent_cases sys.db.items item with same | root
        · rw [← same, returns]
        · rw [root] at returns
          cases returns
      have variants : name = item.name →
          (sys.db.items.IndexAllows (markedRestored sys item) ↔
            ¬ CaseVariant sys.db.items (markedRestored sys item)) := by
        intro same
        have notTaken := nameExists_eq_false_iff.mp (resolveName_free resolved)
        rw [same, ← owned] at notTaken
        exact @indexAllows_iff_new _ _ (markedRestored sys item) _ rfl inside notTaken
      constructor
      · intro allows
        have first := allows _ List.mem_cons_self
        have same : name = item.name := restored_under_own_name
          ((TrashService.indexAllows_markedRestored member trashed).mp first) owned returns
          (returns.symm ▸ resolved)
        rw [if_neg (not_not.mpr same), List.forall_mem_singleton]
        exact ⟨same.symm, (variants same).mp first⟩
      · intro free
        have first := free _ List.mem_cons_self
        have same : name = item.name := first.1.symm
        rw [if_neg (not_not.mpr same), List.forall_mem_singleton]
        exact (variants same).mpr first.2

/-! ## The requests and their flushes -/

theorem add_succeeds_iff {items : ItemTable} {row : DriveItem} {folderId : Uuid}
    (fresh : ∀ old ∈ items, old.id ≠ row.id) (inside : row.parentId = some folderId)
    (isFolder : folderId ∈ items.rows.map DriveItem.id) :
    Succeeds (items.add row) ↔ row.Fits ∧ items.IndexAllows row := by
  rw [ItemTable.indexAllows_of_fresh fresh]
  apply Iff.trans flush_eq_ok_iff
  rw [ItemTable.consistent_append fresh]
  constructor
  · exact fun taken => ⟨taken.1, taken.2.1⟩
  · intro taken
    apply And.intro taken.1
    apply And.intro taken.2
    intro top isParent
    cases inside.symm.trans isParent
    rw [List.map_append]
    exact List.mem_append_left _ isFolder

theorem createFile_succeeds_iff {userId folderId : Uuid} {name : String} {file : StoredFile}
    {sys : System} (isFolder : folderId ∈ sys.db.items.rows.map DriveItem.id) :
    Succeeds (createFile userId (some folderId) name file sys) ↔
      ∀ row ∈ [newItem sys userId (some folderId) .file name userId,
        withContent file (newItem sys userId (some folderId) .file name userId)],
        row.Fits ∧ sys.db.items.IndexAllows row := by
  have fresh : ∀ old ∈ sys.db.items, old.id ≠ sys.uuid4 := sys.uuid4_unused.items
  rw [List.forall_mem_cons, List.forall_mem_singleton]
  apply Iff.trans createFile_taken
  apply and_congr
  · exact flush_eq_ok_iff.symm.trans (add_succeeds_iff fresh rfl isFolder)
  · exact flush_eq_ok_iff.symm.trans (add_succeeds_iff fresh rfl isFolder)

theorem version_raises (version : FileVersion) (sys : System) :
    Raises (· = .integrityError) (FileVersionRepository.create version sys) := by
  apply Raises.bind
  · exact Raises.orRaise rfl
  · exact fun _ => .ok

theorem createFile_refused (userId : Uuid) (parentId : Option Uuid) (name : String)
    (file : StoredFile) (sys : System) :
    Raises (· = .integrityError) (createFile userId parentId name file sys) := by
  apply Raises.bind
  · exact (ItemTable.add_raises _ _).bind fun _ => .ok
  · intro created
    apply (ItemTable.change_raises _ _ _).bind
    intro items
    exact (version_raises _ _).bind fun _ => .ok

theorem restore_raises {userId : Uuid} {sys : System} {item : DriveItem} {name : String}
    (member : item ∈ sys.db.items) (owned : item.ownerId = userId)
    (trashed : item.isDeleted = true)
    (resolved : resolveName sys.db.items (TrashService.restoreParent sys.db.items item) userId
      item.name = .ok name) :
    Raises (· = .integrityError) (TrashService.restore userId item.id sys) := by
  let finish : System → Except ServiceError System := fun sys =>
    if name ≠ item.name then updateName item.id name userId sys else pure sys
  have finishes : ∀ sys : System, Raises (· = .integrityError) (finish sys) := by
    intro sys
    by_cases changes : name ≠ item.name
    · simp only [finish, if_pos changes]
      exact (ItemTable.change_raises _ _ _).bind fun _ => .ok
    · simp only [finish, if_neg changes]
      exact .ok
  simp only [TrashService.restore, ItemTable.find?_id member, orRaise, ok_bind,
    require_true owned, require_true trashed, resolved]
  apply (ItemTable.change_raises _ _ _).bind
  intro items
  by_cases moves : TrashService.restoreParent sys.db.items item ≠ item.parentId
  · rw [if_pos moves]
    apply Raises.bind
    · exact (ItemTable.change_raises _ _ _).bind fun _ => .ok
    · exact finishes
  · rw [if_neg moves]
    exact finishes _

/-- A request that ends in one write fails with an integrity error exactly when the write
does. -/
theorem refused_iff {α : Type} {write : Except ServiceError α} {finish : α → System}
    {result : Except ServiceError System} {condition : Prop}
    (runs : result = write >>= fun value => .ok (finish value))
    (only : Raises (· = .integrityError) write) (taken : Succeeds write ↔ condition) :
    result ≠ .error .integrityError ↔ condition := by
  have onlyHere : Raises (· = .integrityError) result := by
    rw [runs]
    exact only.bind fun _ => .ok
  rw [← onlyHere.succeeds_iff, runs, succeeds_bind_ok, taken]

theorem writable_mem_ids {db : Database} {userId folderId : Uuid}
    (writable : Writable db userId folderId) : folderId ∈ db.items.rows.map DriveItem.id := by
  rcases writable with ⟨row, found, _⟩
  rcases ItemTable.find?_eq_some.mp found with ⟨member, rfl⟩
  exact List.mem_map_of_mem member

/-! A request whose name is free fails with an integrity error unless the database takes every
version of the row. -/

theorem createFolder_commit_iff {sys : System} {userId folderId : Uuid} {given name : String}
    {folder : DriveItem} (accepted : validateName given = .ok name)
    (target : destination userId folderId "Parent folder not found" "Parent must be a folder"
      sys = .ok folder)
    (free : nameExistsInParent sys.db.items name (some folderId) userId none = .ok false) :
    (Op.createFolder userId (some folderId) given).commit sys ≠ .error .integrityError ↔
      ∀ row ∈ [newItem sys userId (some folderId) .folder name userId],
        row.Fits ∧ sys.db.items.IndexAllows row := by
  have fresh : ∀ old ∈ sys.db.items, old.id ≠ sys.uuid4 := sys.uuid4_unused.items
  have runs : (Op.createFolder userId (some folderId) given).commit sys =
      (sys.db.items.add (newItem sys userId (some folderId) .folder name userId) >>=
        fun items => .ok (sys.drawn.withItems items)) := by
    simp only [Op.commit, DriveService.createFolder, accepted, whenSome, target, ok_bind,
      free, require_true, DriveItemRepository.create]
    cases sys.db.items.add (newItem sys userId (some folderId) .folder name userId) with
    | error => rfl
    | ok => rfl
  rw [List.forall_mem_singleton]
  exact refused_iff runs (ItemTable.add_raises _ _)
    (add_succeeds_iff fresh rfl (writable_mem_ids (destination_ok target)))

theorem rename_commit_iff {sys : System} {userId itemId folderId : Uuid} {given name : String}
    {item : DriveItem} (accepted : validateName given = .ok name)
    (found : getEditable itemId userId sys = .ok item) (inside : item.parentId = some folderId)
    (changes : item.name ≠ name)
    (free : nameExistsInParent sys.db.items name (some folderId) userId (some itemId) =
      .ok false) :
    (Op.rename userId itemId given).commit sys ≠ .error .integrityError ↔
      ∀ row ∈ [renamed sys name userId item], row.Fits ∧ sys.db.items.IndexAllows row := by
  rcases getEditable_ok found with ⟨rfl, editable⟩
  have runs : (Op.rename userId item.id given).commit sys =
      (sys.db.items.change item.id (renamed sys name userId) >>=
        fun items => .ok (sys.withItems items)) := by
    simp only [Op.commit, DriveService.rename, accepted, found, ok_bind, if_neg changes,
      inside, free, require_true, updateName]
    rfl
  rw [List.forall_mem_singleton]
  apply refused_iff runs (ItemTable.change_raises _ _ _)
  apply (ItemTable.change_taken editable.member rfl).trans
  exact and_congr_right fun _ => and_iff_left (sys.db.items.parentsExist item editable.member)

theorem move_commit_iff {sys : System} {userId itemId folderId : Uuid} {item : DriveItem}
    (found : getEditable itemId userId sys = .ok item)
    (target : moveTarget userId item folderId sys = .ok ())
    (free : nameExistsInParent sys.db.items item.name (some folderId) userId (some itemId) =
      .ok false) :
    (Op.move userId itemId (some folderId)).commit sys ≠ .error .integrityError ↔
      ∀ row ∈ [reparented sys (some folderId) userId item],
        row.Fits ∧ sys.db.items.IndexAllows row := by
  rcases getEditable_ok found with ⟨rfl, editable⟩
  have runs : (Op.move userId item.id (some folderId)).commit sys =
      (sys.db.items.change item.id (reparented sys (some folderId) userId) >>=
        fun items => .ok (sys.withItems items)) := by
    simp only [Op.commit, DriveService.move, found, ok_bind, whenSome, target, free,
      require_true, updateParent]
    rfl
  have isFolder : folderId ∈ sys.db.items.rows.map DriveItem.id := by
    simp only [moveTarget, bind_eq_ok] at target
    rcases target with ⟨parent, checked, _⟩
    exact writable_mem_ids (destination_ok checked)
  rw [List.forall_mem_singleton]
  apply refused_iff runs (ItemTable.change_raises _ _ _)
  apply (ItemTable.change_taken editable.member rfl).trans
  apply and_congr_right
  intro _
  apply and_iff_left
  intro top isParent
  cases isParent
  exact isFolder

theorem uploadSimple_commit_iff {sys : System} {userId folderId : Uuid}
    {given filename name : String} {stream : List Content} {sizeBytes : Nat}
    {mimeType : Option String} (accepted : safeFilename given = .ok filename)
    (target : UploadService.target userId folderId sys = .ok ())
    (space : QuotaService.assertHasSpace sys.db userId sizeBytes = .ok ())
    (resolved : resolveName sys.db.items (some folderId) userId filename = .ok name) :
    (Op.uploadSimple userId (some folderId) given stream sizeBytes mimeType).commit sys ≠
        .error .integrityError ↔
      ∀ row ∈ [newItem (uploaded userId stream sys) userId (some folderId) .file name userId,
        withContent (uploadedFile userId filename stream mimeType sys)
          (newItem (uploaded userId stream sys) userId (some folderId) .file name userId)],
        row.Fits ∧ sys.db.items.IndexAllows row := by
  have runs : (Op.uploadSimple userId (some folderId) given stream sizeBytes
      mimeType).commit sys =
      (createFile userId (some folderId) name (uploadedFile userId filename stream mimeType sys)
        (uploaded userId stream sys) >>= fun result => .ok result.2) := by
    simp only [Op.commit, UploadService.uploadSimple, accepted, whenSome, target, ok_bind,
      space, resolved]
    rfl
  exact refused_iff runs (createFile_refused _ _ _ _ _)
    (createFile_succeeds_iff (writable_mem_ids (UploadService.target_ok target)))

theorem completeSession_commit_iff {sys merged : System} {userId folderId : Uuid}
    {session : UploadSession} {name : String} {content : Content}
    (found : UploadSessionService.getOr404 userId session.id sys = .ok session)
    (active : session.status.isTerminal = false) (inside : session.parentId = some folderId)
    (isFolder : folderId ∈ sys.db.items.rows.map DriveItem.id)
    (complete : UploadSessionService.missing session
      (UploadSessionService.listChunks sys.db session.id) = [])
    (merges : Storage.concat ((UploadSessionService.listChunks sys.db session.id).map
      UploadChunk.storageKey) (.file userId sys.uuid4 1) sys.drawn = .ok (content, merged))
    (resolved : resolveName sys.db.items (some folderId) userId session.filename = .ok name) :
    (Op.completeSession userId session.id).commit sys ≠ .error .integrityError ↔
      ∀ row ∈ [newItem merged userId (some folderId) .file name userId,
        withContent (uploadedFile userId session.filename [content] session.mimeType sys)
          (newItem merged userId (some folderId) .file name userId)],
        row.Fits ∧ sys.db.items.IndexAllows row := by
  have sameItems : merged.db.items = sys.db.items := by
    simp only [Storage.concat, bind_eq_ok, pure_eq_ok, Prod.mk.injEq] at merges
    rcases merges with ⟨_, _, rfl, rfl⟩
    rfl
  have resolvedHere : resolveName merged.db.items (some folderId) userId session.filename =
      .ok name := by rw [sameItems, resolved]
  let chunks := UploadSessionService.listChunks sys.db session.id
  have runs : (Op.completeSession userId session.id).commit sys =
      (createFile userId (some folderId) name
        (uploadedFile userId session.filename [content] session.mimeType sys) merged >>=
        fun result => .ok (UploadSessionService.updateStatus session.id .completed
          (some (Platform.sha256 content)) (some result.1.id)
          (UploadSessionService.discardChunks chunks result.2))) := by
    have isContent : [content].flatten = content := List.append_nil content
    simp only [Op.commit, UploadSessionService.completeSession, found, ok_bind,
      require_true active, require_true complete, merges, UploadSessionService.createItem,
      inside, resolvedHere, uploadedFile, isContent]
    cases createFile userId (some folderId) name
        { key := .file userId sys.uuid4 1, content := content,
          mimeType := session.mimeType, ext := (splitName session.filename).2 } merged with
    | error => rfl
    | ok => rfl
  rw [← sameItems] at isFolder ⊢
  exact refused_iff runs (createFile_refused _ _ _ _ _) (createFile_succeeds_iff isFolder)

theorem restoreItem_commit_iff {sys : System} {userId folderId : Uuid} {item : DriveItem}
    {name : String} (member : item ∈ sys.db.items) (owned : item.ownerId = userId)
    (trashed : item.isDeleted = true)
    (returns : TrashService.restoreParent sys.db.items item = some folderId)
    (resolved : resolveName sys.db.items (some folderId) userId item.name = .ok name) :
    (Op.restoreItem userId item.id).commit sys ≠ .error .integrityError ↔
      ∀ row ∈ markedRestored sys item ::
          if name ≠ item.name then [renamed sys name userId (markedRestored sys item)] else [],
        row.Fits ∧ sys.db.items.IndexAllows row := by
  rw [← returns] at resolved
  have runs : Succeeds ((Op.restoreItem userId item.id).commit sys) ↔
      TrashService.Recoverable sys.db.items item :=
    TrashService.restore_succeeds_iff member owned trashed
  have only : Raises (· = .integrityError) ((Op.restoreItem userId item.id).commit sys) :=
    restore_raises member owned trashed resolved
  rw [← only.succeeds_iff, runs]
  constructor
  · intro recoverable
    have same := restored_under_own_name recoverable.oldPlace owned returns resolved
    rw [if_neg (not_not.mpr same), List.forall_mem_singleton]
    exact ⟨sys.db.items.fits item member,
      (TrashService.indexAllows_markedRestored member trashed).mpr recoverable.oldPlace⟩
  · intro taken
    have oldPlace := (TrashService.indexAllows_markedRestored member trashed).mp
      (taken _ List.mem_cons_self).2
    have same := restored_under_own_name oldPlace owned returns resolved
    rcases resolveName_eq_ok_iff.mp resolved with ⟨round, isName, stops⟩
    apply TrashService.Recoverable.mk oldPlace
    apply Exists.intro round
    rw [owned, ← isName, same]
    exact ⟨stops, (sys.db.items.fits item member).1⟩

theorem FreeName.commit_iff {sys : System} {op : Op} {name : String} {rows : List DriveItem}
    (write : FreeName sys op name rows) :
    op.commit sys ≠ .error .integrityError ↔
      ∀ row ∈ rows, row.Fits ∧ sys.db.items.IndexAllows row := by
  cases write with
  | createFolder accepted target free => exact createFolder_commit_iff accepted target free
  | rename accepted found owned inside changes free =>
      exact rename_commit_iff accepted found inside changes free
  | move found owned target free => exact move_commit_iff found target free
  | uploadSimple accepted target space resolved =>
      exact uploadSimple_commit_iff accepted target space resolved
  | completeSession found active inside isFolder complete merges resolved =>
      exact completeSession_commit_iff found active inside isFolder complete merges resolved
  | restoreItem member owned trashed returns resolved =>
      exact restoreItem_commit_iff member owned trashed returns resolved

end CaseVariants

/-! ## A name in two spellings -/

section TwoSpellings

attribute [local instance] smallPlatform

private def planFolder : List Op :=
  [.createFolder 1 none "Work", .createFolder 1 (some 10) "Plan"]

private def planned : System := afterFirstDay planFolder

private def secondPlan (name : String) : DriveItem :=
  newItem planned 1 (some 10) .folder name 1

private theorem planned_free (name : String) (accepted : validateName name = .ok name)
    (free : nameExistsInParent planned.db.items name (some 10) 1 none = .ok false) :
    FreeName planned (.createFolder 1 (some 10) name) name [secondPlan name] :=
  .createFolder accepted rfl free

end TwoSpellings

end CloudDrive
