import CloudDrive.Drive.CaseVariants

/-! # Automatic renaming

A name that is taken gets a number between its stem and its extension. The numbering knows
neither the width of the columns nor the index on the folder. -/

namespace CloudDrive

open Outcome Relational DriveItemRepository

/-! ## The last dot -/

theorem splitName_dotted {before after : List Char} (noDot : '.' ∉ after) :
    splitName (String.ofList (before ++ '.' :: after)) =
      if before = [] then (String.ofList ('.' :: after), "")
      else (String.ofList before, String.ofList ('.' :: after)) := by
  have stops : ((before ++ '.' :: after).reverse.takeWhile (· ≠ '.')).reverse = after := by
    have reversed : (before ++ '.' :: after).reverse = after.reverse ++ '.' :: before.reverse := by
      simp
    have through : ∀ char ∈ after.reverse, decide (char ≠ '.') = true := by
      intro char member
      apply decide_eq_true
      intro isDot
      rw [isDot] at member
      exact noDot (List.mem_reverse.mp member)
    rw [reversed, List.takeWhile_append_of_pos through,
      List.takeWhile_cons_of_neg (by simp), List.append_nil, List.reverse_reverse]
  have index : (before ++ '.' :: after).length - after.length - 1 = before.length := by
    simp only [List.length_append, List.length_cons]
    omega
  simp only [splitName, String.toList_ofList, stops, index]
  by_cases empty : before = []
  · subst empty
    rw [if_pos rfl, if_neg, List.nil_append]
    exact fun both => absurd both.2 (Nat.lt_irrefl 0)
  · rw [if_neg empty, if_pos]
    · rw [List.take_left, List.drop_left]
    · exact ⟨by simp, List.length_pos_iff.mpr empty⟩

theorem splitName_plain {name : String} (noDot : '.' ∉ name.toList) :
    splitName name = (name, "") := by
  apply if_neg
  intro both
  exact noDot (List.contains_iff_mem.mp both.1)

/-- A name with a dot, cut at the last one. -/
theorem exists_last_dot {chars : List Char} (dotted : '.' ∈ chars) :
    ∃ before after, chars = before ++ '.' :: after ∧ '.' ∉ after := by
  rcases List.eq_append_cons_of_mem (List.mem_reverse.mpr dotted) with
    ⟨after, before, cut, noDot⟩
  apply Exists.intro before.reverse
  apply Exists.intro after.reverse
  constructor
  · rw [← List.reverse_reverse chars, cut]
    simp
  · exact fun member => noDot (List.mem_reverse.mp member)

/-- The numbered names keep the extension: their last dot is that of the name. -/
theorem splitName_variant (filename : String) (round : Nat) :
    (splitName (variant filename round)).2 = (splitName filename).2 := by
  cases round with
  | zero => rfl
  | succ round =>
      let counter := ' ' :: '(' :: (toString (1 + round)).toList ++ [')']
      have named : (variant filename (round + 1)).toList =
          (splitName filename).1.toList ++ counter ++ (splitName filename).2.toList :=
        numberedName_toList _ _ _
      have noDot : '.' ∉ counter := notMem_counter (by decide) (by decide) _
      by_cases dotted : '.' ∈ filename.toList
      · rcases exists_last_dot dotted with ⟨before, after, cut, plain⟩
        have isName : filename = String.ofList (before ++ '.' :: after) := by
          rw [← cut, String.ofList_toList]
        have parts := @splitName_dotted before after plain
        rw [← isName] at parts
        by_cases empty : before = []
        · rw [if_pos empty] at parts
          have isVariant : variant filename (round + 1) =
              String.ofList ([] ++ '.' :: (after ++ counter)) := by
            rw [← String.toList_inj, named, parts]
            simp
          have stillPlain : '.' ∉ after ++ counter := by
            rw [List.mem_append]
            exact not_or.mpr ⟨plain, noDot⟩
          rw [isVariant, splitName_dotted stillPlain, if_pos rfl, parts]
        · rw [if_neg empty] at parts
          have isVariant : variant filename (round + 1) =
              String.ofList ((before ++ counter) ++ '.' :: after) := by
            rw [← String.toList_inj, named, parts]
            simp
          have nonempty : before ++ counter ≠ [] := by simp [empty]
          rw [isVariant, splitName_dotted plain, if_neg nonempty, parts]
      · have parts := splitName_plain dotted
        have stillPlain : '.' ∉ (variant filename (round + 1)).toList := by
          rw [named, parts, String.toList_empty, List.append_nil, List.mem_append]
          exact not_or.mpr ⟨dotted, noDot⟩
        rw [splitName_plain stillPlain, parts]

section Naming

variable [Platform]

/-! ## What is promised -/

/-- Where a request puts a live row, and what it has of its name: the one it was given, the
extension column, and the item itself if it comes out of the trash. -/
structure Place where
  parentId : Option Uuid
  ownerId : Uuid
  filename : String
  extension : Option String
  trashed : Option DriveItem

/-- The three requests that number a name, when all that is left to do is to write. -/
inductive Numbers (sys : System) : Op → Place → Prop
  | uploadSimple {userId : Uuid} {parentId : Option Uuid} {given filename : String}
      {stream : List Content} {sizeBytes : Nat} {mimeType : Option String} :
      safeFilename given = .ok filename →
      whenSome parentId (fun parentId => UploadService.target userId parentId sys) = .ok () →
      QuotaService.assertHasSpace sys.db userId sizeBytes = .ok () →
      (∀ text ∈ mimeType, text.length ≤ 255) →
      Numbers sys (.uploadSimple userId parentId given stream sizeBytes mimeType)
        { parentId := parentId, ownerId := userId, filename := filename,
          extension := extensionOf (splitName filename).2, trashed := none }
  | completeSession {userId : Uuid} {session : UploadSession} {content : Content}
      {merged : System} :
      UploadSessionService.getOr404 userId session.id sys = .ok session →
      session.status.isTerminal = false →
      -- The foreign key of `upload_sessions.parent_id`.
      (∀ top ∈ session.parentId, top ∈ sys.db.items.rows.map DriveItem.id) →
      UploadSessionService.missing session
        (UploadSessionService.listChunks sys.db session.id) = [] →
      Storage.concat ((UploadSessionService.listChunks sys.db session.id).map
        UploadChunk.storageKey) (.file userId sys.uuid4 1) sys.drawn = .ok (content, merged) →
      (∀ text ∈ session.mimeType, text.length ≤ 255) →
      Numbers sys (.completeSession userId session.id)
        { parentId := session.parentId, ownerId := userId, filename := session.filename,
          extension := extensionOf (splitName session.filename).2, trashed := none }
  | restoreItem {item : DriveItem} :
      item ∈ sys.db.items → item.isDeleted = true →
      Numbers sys (.restoreItem item.ownerId item.id)
        { parentId := TrashService.restoreParent sys.db.items item, ownerId := item.ownerId,
          filename := item.name, extension := item.extension, trashed := some item }

/-- The request succeeds; its row has a name that none of its siblings had and that keeps the
extension, and fits the columns. -/
def Named (sys : System) (op : Op) (place : Place) : Prop :=
  ∃ after, op.commit sys = .ok after ∧ ∃ new ∈ after.db.items,
    new.isDeleted = false ∧ new.ownerId = place.ownerId ∧ new.parentId = place.parentId ∧
    NotTaken sys.db.items place.parentId place.ownerId new.name ∧
    (splitName new.name).2 = (splitName place.filename).2 ∧
    new.name.length ≤ 512 ∧ ∀ text ∈ new.extension, text.length ≤ 50

/-- No live item of the owner in the folder has the name, up to case. -/
def FreeUpToCase (items : ItemTable) (parentId : Option Uuid) (ownerId : Uuid)
    (name : String) : Prop :=
  ∀ row ∈ items.rows, row.isDeleted = false → row.ownerId = ownerId → parentId ≠ none →
    row.parentId = parentId → Platform.lower row.name ≠ Platform.lower name

/-- The extension fits its column, the numbering stops, at a name that fits and that the
index on the folder takes. -/
structure Admits (items : ItemTable) (place : Place) : Prop where
  extension : ∀ text ∈ place.extension, text.length ≤ 50
  oldPlace : ∀ item ∈ place.trashed, TrashService.OldPlaceFree items item
  named : ∃ round, StopsAt items place.parentId place.ownerId place.filename round ∧
    (variant place.filename round).length ≤ 512 ∧
    FreeUpToCase items place.parentId place.ownerId (variant place.filename round)

/-! ## The creation of the file -/

theorem freeUpToCase_iff {items : ItemTable} {row : DriveItem} (live : row.isDeleted = false) :
    (∀ old ∈ items, ¬ SameSlot old row) ↔
      FreeUpToCase items row.parentId row.ownerId row.name := by
  constructor
  · intro apart old member oldLive owned nested sameParent sameName
    exact apart old member ⟨oldLive, live, owned, sameParent ▸ nested, sameParent, sameName⟩
  · intro free old member same
    rcases same with ⟨oldLive, _, owned, nested, sameParent, sameName⟩
    exact free old member oldLive owned (sameParent ▸ nested) sameParent sameName

theorem createFile_named_iff {userId : Uuid} {parentId : Option Uuid} {name : String}
    {file : StoredFile} {sys : System}
    (parent : ∀ top ∈ parentId, top ∈ sys.db.items.rows.map DriveItem.id)
    (mime : ∀ text ∈ file.mimeType, text.length ≤ 255) :
    Succeeds (createFile userId parentId name file sys) ↔
      (∀ text ∈ extensionOf file.ext, text.length ≤ 50) ∧ name.length ≤ 512 ∧
        FreeUpToCase sys.db.items parentId userId name := by
  have fresh : ∀ old ∈ sys.db.items, old.id ≠ sys.uuid4 := sys.uuid4_unused.items
  have parents : ∀ row : DriveItem, ∀ top ∈ parentId,
      top ∈ (sys.db.items.rows ++ [row]).map DriveItem.id := by
    intro row top isParent
    rw [List.map_append]
    exact List.mem_append_left _ (parent top isParent)
  apply createFile_taken.trans
  constructor
  · intro consistent
    rcases (ItemTable.consistent_append fresh).mp consistent.2 with
      ⟨⟨short, _, extension⟩, apart, _⟩
    apply And.intro extension
    apply And.intro short
    exact (freeUpToCase_iff rfl).mp apart
  · intro named
    rcases named with ⟨extension, short, free⟩
    constructor
    · apply (ItemTable.consistent_append fresh).mpr
      apply And.intro ⟨short, nofun, nofun⟩
      exact ⟨(freeUpToCase_iff rfl).mpr free, parents _⟩
    · apply (ItemTable.consistent_append fresh).mpr
      apply And.intro ⟨short, mime, extension⟩
      exact ⟨(freeUpToCase_iff rfl).mpr free, parents _⟩

/-- A request that stores a file under a numbered name and then leaves the items alone. -/
theorem named_iff_of_createFile {sys stored : System} {op : Op} {userId : Uuid}
    {parentId : Option Uuid} {filename : String} {file : StoredFile}
    {finish : DriveItem × System → System}
    (runs : op.commit sys = resolveName sys.db.items parentId userId filename >>= fun name =>
      createFile userId parentId name file stored >>= fun result => .ok (finish result))
    (finishKeeps : ∀ result, (finish result).db.items = result.2.db.items)
    (storedKeeps : stored.db.items = sys.db.items) (isExt : file.ext = (splitName filename).2)
    (parent : ∀ top ∈ parentId, top ∈ sys.db.items.rows.map DriveItem.id)
    (mime : ∀ text ∈ file.mimeType, text.length ≤ 255) :
    Named sys op
        { parentId := parentId, ownerId := userId, filename := filename,
          extension := extensionOf (splitName filename).2, trashed := none } ↔
      Admits sys.db.items
        { parentId := parentId, ownerId := userId, filename := filename,
          extension := extensionOf (splitName filename).2, trashed := none } := by
  rw [← storedKeeps] at parent
  constructor
  · intro named
    rcases named with ⟨after, commits, _⟩
    rw [runs] at commits
    simp only [bind_eq_ok] at commits
    rcases commits with ⟨name, resolved, result, created, _⟩
    rcases (createFile_named_iff parent mime).mp ⟨result, created⟩ with
      ⟨extension, short, free⟩
    rcases resolveName_eq_ok_iff.mp resolved with ⟨round, rfl, stops⟩
    rw [isExt] at extension
    rw [storedKeeps] at free
    constructor
    case extension => exact extension
    case oldPlace => exact fun _ isTrashed => absurd isTrashed (Option.not_mem_none _)
    case named => exact ⟨round, stops, short, free⟩
  · intro admits
    rcases admits.named with ⟨round, stops, short, free⟩
    have resolved : resolveName sys.db.items parentId userId filename =
        .ok (variant filename round) := resolveName_eq_ok_iff.mpr ⟨round, rfl, stops⟩
    have extension := admits.extension
    rw [← storedKeeps] at free
    have creates : Succeeds (createFile userId parentId (variant filename round) file stored) :=
      (createFile_named_iff parent mime).mpr ⟨isExt ▸ extension, short, free⟩
    rcases creates with ⟨⟨item, after⟩, created⟩
    apply Exists.intro (finish (item, after))
    constructor
    · rw [runs]
      simp only [bind_eq_ok]
      exact ⟨_, resolved, _, created, rfl⟩
    · apply Exists.intro item
      constructor
      · rw [finishKeeps]
        exact ((createFile_ok created).items item).mpr (.inr rfl)
      rw [createFile_item created]
      apply And.intro rfl
      apply And.intro rfl
      apply And.intro rfl
      apply And.intro stops.2
      apply And.intro (splitName_variant filename round)
      apply And.intro short
      intro text isText
      apply extension
      rw [← isExt]
      exact isText

/-! ## The item out of the trash -/

theorem recoverable_iff_admits {items : ItemTable} {item : DriveItem} (member : item ∈ items) :
    TrashService.Recoverable items item ↔
      Admits items
        { parentId := TrashService.restoreParent items item, ownerId := item.ownerId,
          filename := item.name, extension := item.extension, trashed := some item } := by
  constructor
  · intro recoverable
    rcases recoverable.named with ⟨round, stops, short⟩
    constructor
    case extension => exact (items.fits item member).2.2
    case oldPlace =>
      intro trashed isItem
      cases isItem
      exact recoverable.oldPlace
    case named =>
      apply Exists.intro round
      apply And.intro stops
      apply And.intro short
      intro row rowMem live owned nested sameParent
      rcases TrashService.restoreParent_cases items item with returns | root
      · have inside : item.parentId ≠ none := returns ▸ nested
        have same := TrashService.round_eq_zero recoverable.oldPlace returns inside stops
        subst same
        exact recoverable.oldPlace row rowMem live owned inside (sameParent.trans returns)
      · exact absurd root nested
  · intro admits
    rcases admits.named with ⟨round, stops, short, _⟩
    constructor
    case oldPlace => exact admits.oldPlace item rfl
    case named => exact ⟨round, stops, short⟩

theorem restored_named {sys : System} {item : DriveItem} (member : item ∈ sys.db.items)
    (trashed : item.isDeleted = true) {place : Place}
    (isPlace : place =
      { parentId := TrashService.restoreParent sys.db.items item, ownerId := item.ownerId,
        filename := item.name, extension := item.extension, trashed := some item }) :
    Named sys (.restoreItem item.ownerId item.id) place ↔
      TrashService.Recoverable sys.db.items item := by
  rw [← TrashService.restore_succeeds_iff member rfl trashed]
  constructor
  · intro named
    rcases named with ⟨after, commits, _⟩
    exact ⟨after, commits⟩
  · intro succeeds
    rcases succeeds with ⟨after, runs⟩
    apply Exists.intro after
    apply And.intro runs
    rcases TrashService.restore_ok runs with ⟨old, oldMem, sameId, _, _, items, new, replaced,
      content, live, parent, resolved, rfl⟩
    cases ItemTable.eq_of_id_eq oldMem member sameId
    rcases resolveName_eq_ok_iff.mp resolved with ⟨round, isName, stops⟩
    have fits := items.fits new replaced.newMem
    apply Exists.intro new
    apply And.intro replaced.newMem
    rw [isPlace]
    apply And.intro live
    apply And.intro content.ownerId
    apply And.intro parent
    constructor
    · rw [← parent, isName]
      exact stops.2
    constructor
    · rw [isName]
      exact splitName_variant item.name round
    · exact ⟨fits.1, fits.2.2⟩

/-! ## The three requests -/

/-- A request that numbers a name succeeds with a free name that keeps the extension and
fits exactly when the name is admitted. -/
theorem Numbers.named_iff {sys : System} {op : Op} {place : Place}
    (numbers : Numbers sys op place) : Named sys op place ↔ Admits sys.db.items place := by
  cases numbers with
  | @uploadSimple userId parentId given filename stream sizeBytes mimeType accepted target space
      mime =>
      have runs : (Op.uploadSimple userId parentId given stream sizeBytes mimeType).commit sys =
          resolveName sys.db.items parentId userId filename >>= fun name =>
            createFile userId parentId name (uploadedFile userId filename stream mimeType sys)
              (uploaded userId stream sys) >>= fun result => .ok result.2 := by
        simp only [Op.commit, UploadService.uploadSimple, accepted, target, ok_bind, space]
        cases resolveName sys.db.items parentId userId filename with
        | error => rfl
        | ok => rfl
      have parent : ∀ top ∈ parentId, top ∈ sys.db.items.rows.map DriveItem.id := by
        intro top isParent
        exact writable_mem_ids (UploadService.target_ok (whenSome_eq_ok.mp target top isParent))
      exact named_iff_of_createFile runs (fun _ => rfl) rfl rfl parent mime
  | @completeSession userId session content merged found active parent complete merges mime =>
      let chunks := UploadSessionService.listChunks sys.db session.id
      have sameItems : merged.db.items = sys.db.items := by
        simp only [Storage.concat, bind_eq_ok, pure_eq_ok, Prod.mk.injEq] at merges
        rcases merges with ⟨_, _, rfl, rfl⟩
        rfl
      have runs : (Op.completeSession userId session.id).commit sys =
          resolveName sys.db.items session.parentId userId session.filename >>= fun name =>
            createFile userId session.parentId name
              (uploadedFile userId session.filename [content] session.mimeType sys) merged >>=
              fun result => .ok (UploadSessionService.updateStatus session.id .completed
                (some (Platform.sha256 content)) (some result.1.id)
                (UploadSessionService.discardChunks chunks result.2)) := by
        have isContent : [content].flatten = content := List.append_nil content
        simp only [Op.commit, UploadSessionService.completeSession, found, ok_bind,
          require_true active, require_true complete, merges, UploadSessionService.createItem,
          sameItems, uploadedFile, isContent]
        cases resolveName sys.db.items session.parentId userId session.filename with
        | error => rfl
        | ok name =>
            simp only [ok_bind]
            cases createFile userId session.parentId name
                { key := .file userId sys.uuid4 1, content := content,
                  mimeType := session.mimeType, ext := (splitName session.filename).2 }
                merged with
            | error => rfl
            | ok => rfl
      have finishKeeps : ∀ result : DriveItem × System,
          (UploadSessionService.updateStatus session.id .completed
            (some (Platform.sha256 content)) (some result.1.id)
            (UploadSessionService.discardChunks chunks result.2)).db.items =
              result.2.db.items := by
        intro result
        rcases UploadSessionService.discardChunks_eq chunks result.2 with ⟨_, same, _⟩
        rw [same]
        rfl
      exact named_iff_of_createFile runs finishKeeps sameItems rfl parent mime
  | restoreItem member trashed =>
      exact (restored_named member trashed rfl).trans (recoverable_iff_admits member)

end Naming

/-! ## A long extension -/

section LongExtension

attribute [local instance] smallPlatform

/-- `a.` and 51 letters. -/
private def longExtension : String :=
  "a.bcdefghijkbcdefghijkbcdefghijkbcdefghijkbcdefghijkb"

private def uploadPlace (filename : String) : Place :=
  { parentId := none, ownerId := 1, filename := filename,
    extension := extensionOf (splitName filename).2, trashed := none }

private theorem upload_numbers {filename : String} {sys : System}
    (accepted : safeFilename filename = .ok filename)
    (space : QuotaService.assertHasSpace sys.db 1 1 = .ok ()) :
    Numbers sys (.uploadSimple 1 none filename [[65]] 1 none) (uploadPlace filename) :=
  .uploadSimple accepted rfl space fun _ none => by cases none

private def nameTaken : System := afterFirstDay [.uploadSimple 1 none "a.txt" [[65]] 1 none]

/-- The name is taken once, and the file gets the first number. -/
theorem Numbers.named_iff_firstDay :
    Named nameTaken (.uploadSimple 1 none "a.txt" [[65]] 1 none) (uploadPlace "a.txt") ∧
      resolveName nameTaken.db.items none 1 "a.txt" = .ok "a (1).txt" := by
  have taken : TakenOnce nameTaken.db.items none 1 "a.txt" := by decide
  have free : NotTaken nameTaken.db.items none 1 "a (1).txt" := by decide
  have stops : StopsAt nameTaken.db.items none 1 "a.txt" 1 := by
    constructor
    · intro earlier before
      rw [Nat.lt_one_iff.mp before]
      exact taken
    · exact free
  constructor
  · apply (Numbers.named_iff (upload_numbers (by decide) rfl)).mpr
    constructor
    case extension => decide
    case oldPlace => exact fun item isTrashed => by cases isTrashed
    case named =>
      exact ⟨1, stops, by decide, fun _ _ _ _ nested => absurd rfl nested⟩
  · exact resolveName_eq_ok_iff.mpr ⟨1, rfl, stops⟩

/-- The name is accepted and free, and the column of the extension is too narrow for it. -/
theorem longExtension_refused :
    safeFilename longExtension = .ok longExtension ∧
    Numbers firstDay (.uploadSimple 1 none longExtension [[65]] 1 none)
      (uploadPlace longExtension) ∧
    resolveName firstDay.db.items none 1 longExtension = .ok longExtension ∧
    (Op.uploadSimple 1 none longExtension [[65]] 1 none).commit firstDay =
      .error .integrityError ∧
    ¬ Named firstDay (.uploadSimple 1 none longExtension [[65]] 1 none)
      (uploadPlace longExtension) := by
  have accepted : safeFilename longExtension = .ok longExtension := by decide
  have refused : (Op.uploadSimple 1 none longExtension [[65]] 1 none).commit firstDay =
      .error .integrityError := rfl
  apply And.intro accepted
  apply And.intro (upload_numbers accepted rfl)
  apply And.intro (by decide)
  apply And.intro refused
  intro named
  rcases named with ⟨after, commits, _⟩
  cases refused.symm.trans commits

end LongExtension

end CloudDrive
