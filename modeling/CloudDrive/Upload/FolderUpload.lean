import CloudDrive.Drive.Browsing
import CloudDrive.Drive.UniqueNames
import CloudDrive.Upload.UploadLoops

/-! # Folder uploads

`useUploadFolders` of `frontend/src/hooks/useUpload.ts` against the drive service: the
directories of the relative paths are created parents first, then every admitted file is
handed to `uploadOne` with the folder of its directory. -/

namespace CloudDrive

open Outcome Relational Execution DriveService DriveItemRepository

namespace FolderUpload

/-! ## Paths -/

/-- `path.split('/')`. -/
def splitPath (path : String) : List String :=
  (path.toList.splitOn '/').map String.ofList

/-- `parts.join('/')`. -/
def joinPath (parts : List String) : String :=
  "/".intercalate parts

/-- A path that is not set is empty. -/
structure File where
  relativePath : String
  webkitRelativePath : String
  name : String
  size : Nat
  deriving DecidableEq

def relativePathOf (file : File) : String :=
  if file.relativePath ≠ "" then
    file.relativePath
  else if file.webkitRelativePath ≠ "" then
    file.webkitRelativePath
  else
    file.name

/-- The parts of the path before the name of the file. -/
def dirParts (file : File) : List String :=
  (splitPath (relativePathOf file)).dropLast

/-- The values of `acc` over the parts. -/
def directoryPaths : String → List String → List String
  | _, [] => []
  | acc, part :: rest =>
      let acc := if acc = "" then part else acc ++ "/" ++ part
      acc :: directoryPaths acc rest

/-- `Set.add`. -/
def insertNew (paths : List String) (path : String) : List String :=
  if path ∈ paths then paths else paths ++ [path]

def dirPaths (files : List File) : List String :=
  (files.flatMap fun file => directoryPaths "" (dirParts file)).foldl insertNew []

def depth (path : String) : Nat :=
  (splitPath path).length

/-- Parents first. -/
def ordered (files : List File) : List String :=
  (dirPaths files).insertionSort fun left right => depth left ≤ depth right

/-- `path.split('/').pop()`. -/
def nameOf (path : String) : String :=
  (splitPath path).getLastD ""

/-- `path.split('/').slice(0, -1).join('/')`. -/
def parentPathOf (path : String) : String :=
  joinPath (splitPath path).dropLast

/-! ## The directories -/

/-- What the client sees of a refused request. -/
inductive ApiError where
  | validation
  | service (error : ServiceError)
  deriving DecidableEq

section Server

variable [Platform]

/-- `POST /folders`, with the bounds of `CreateFolderRequest`. -/
def createFolderRequest (userId : Uuid) (name : String) (parentId : Option Uuid)
    (sys : System) : Except ApiError (Uuid × System) :=
  if name.length < 1 ∨ 512 < name.length then
    .error .validation
  else
    match createFolder userId parentId name sys with
    | .ok (item, after) => .ok (item.id, after)
    | .error error => .error (.service error)

/-- `GET /items`, with the bounds of its query parameters. -/
def listItemsRequest [Collation] (userId : Uuid) (parentId : Option Uuid) (page pageSize : Nat)
    (sys : System) : Except ApiError (List DriveItem) :=
  if page < 1 ∨ pageSize < 1 ∨ 200 < pageSize then
    .error .validation
  else
    match listItems userId parentId page pageSize .name .asc sys with
    | .ok (items, _) => .ok items
    | .error error => .error (.service error)

def ensureFolder [Collation] (userId : Uuid) (name : String) (parentId : Option Uuid)
    (sys : System) : Except ApiError (Uuid × System) :=
  match createFolderRequest userId name parentId sys with
  | .ok created => .ok created
  | .error error =>
      match listItemsRequest userId parentId 1 1000 sys with
      | .error listError => .error listError
      | .ok items =>
          match items.find? fun item => decide (item.itemType = .folder ∧ item.name = name) with
          | some existing => .ok (existing.id, sys)
          | none => .error error

end Server

/-- The map `idByPath`, newest entry first. -/
abbrev IdByPath := List (String × Uuid)

def parentFor (dropId : Option Uuid) (path : String) (ids : IdByPath) : Option Uuid :=
  if parentPathOf path ≠ "" then ids.lookup (parentPathOf path) else dropId

/-- The loop over the ordered paths. -/
def createFolders [Platform] [Collation] (userId : Uuid) (dropId : Option Uuid) :
    List String → IdByPath → System → Except ApiError (IdByPath × System)
  | [], ids, sys => .ok (ids, sys)
  | path :: rest, ids, sys => do
      let (id, sys) ← ensureFolder userId (nameOf path) (parentFor dropId path ids) sys
      createFolders userId dropId rest ((path, id) :: ids) sys

/-! ## The files -/

structure Task where
  file : File
  parentId : Option Uuid
  deriving DecidableEq

def addTasks (files : List File) (parentId : Option Uuid) : List Task :=
  files.map fun file => { file := file, parentId := parentId }

inductive UploadRejectionCode where
  | fileTooLarge
  | quotaExceeded
  deriving DecidableEq

/-- `MAX_CHUNKED_UPLOAD_SIZE_BYTES`. -/
def maxChunkedUploadSize : Nat := 5 * 1024 * 1024 * 1024

def precheckBatch (maxFileSize : Nat) :
    Option Nat → List Nat → List (Option UploadRejectionCode)
  | _, [] => []
  | budget, size :: rest =>
      if size > maxFileSize then
        some .fileTooLarge :: precheckBatch maxFileSize budget rest
      else
        match budget with
        | none => none :: precheckBatch maxFileSize none rest
        | some left =>
            if size > left then
              some .quotaExceeded :: precheckBatch maxFileSize (some left) rest
            else
              none :: precheckBatch maxFileSize (some (left - size)) rest

/-- The tasks that no verdict rejects. -/
def admitTasks (tasks : List Task) (availableBytes : Option Nat) : List Task :=
  let verdicts := precheckBatch maxChunkedUploadSize availableBytes
    (tasks.map fun task => task.file.size)
  ((tasks.zip verdicts).filter fun judged => judged.2.isNone).map Prod.fst

def admitted (files : List File) (dropId : Option Uuid) (availableBytes : Option Nat) :
    List Task :=
  admitTasks (addTasks files dropId) availableBytes

/-- The request that stores a file: `upload/simple` or a session. -/
structure Request where
  task : Task
  parentId : Option Uuid
  chunked : Bool
  deriving DecidableEq

/-- `runChunkedUpload` takes the parent from the task of the store. -/
def uploadOne (task : Task) (targetParentId : Option Uuid) : Request :=
  if UploadLoop.chunkedUploadThreshold ≤ task.file.size then
    { task := task, parentId := task.parentId, chunked := true }
  else
    { task := task, parentId := targetParentId, chunked := false }

def targetOf (dropId : Option Uuid) (ids : IdByPath) (task : Task) : Option Uuid :=
  let dir := joinPath (dirParts task.file)
  if dir ≠ "" then ids.lookup dir else dropId

/-- `runWithConcurrency`: the positions that are in flight and the requests sent. -/
structure Queue where
  cursor : Nat
  inFlight : List Nat
  sent : List Request
  deriving DecidableEq

def Queue.empty : Queue where
  cursor := 0
  inFlight := []
  sent := []

inductive QueueAction where
  | take
  | settle (position : Nat)

/-- `UPLOAD_CONCURRENCY`. -/
def uploadConcurrency : Nat := 3

def Queue.Step (items : List Task) (worker : Task → Request) :
    QueueAction → Queue → Queue → Prop
  | .take, before, after => ∃ task, items[before.cursor]? = some task ∧
      before.inFlight.length < max 1 (min uploadConcurrency items.length) ∧
      after = {
        cursor := before.cursor + 1
        inFlight := before.inFlight ++ [before.cursor]
        sent := before.sent ++ [worker task] }
  | .settle position, before, after => position ∈ before.inFlight ∧
      after = { before with inFlight := before.inFlight.erase position }

/-- What the third part of `uploadFolders` does with an admitted task. -/
def worker (dropId : Option Uuid) (ids : IdByPath) (task : Task) : Request :=
  uploadOne task (targetOf dropId ids task)

/-! ## The law -/

section Law

variable [Platform]

/-- The live folder that the names lead to from the drop folder. -/
inductive FolderAt (items : ItemTable) (dropId : Option Uuid) : List String → Option Uuid → Prop
  | drop : FolderAt items dropId [] dropId
  | inside {names : List String} {above : Option Uuid} {folder : DriveItem} :
      FolderAt items dropId names above → folder ∈ items → folder.isDeleted = false →
      folder.itemType = .folder → folder.parentId = above →
      FolderAt items dropId (names ++ [folder.name]) (some folder.id)

/-- The user has a live folder of that name there. -/
def FolderExists (userId : Uuid) (parentId : Option Uuid) (name : String) (sys : System) : Prop :=
  ∃ row ∈ sys.db.items.rows, row.ownerId = userId ∧ row.isDeleted = false ∧
    row.itemType = .folder ∧ row.parentId = parentId ∧ row.name = name

instance (userId : Uuid) (parentId : Option Uuid) (name : String) (sys : System) :
    Decidable (FolderExists userId parentId name sys) :=
  inferInstanceAs (Decidable (∃ row ∈ sys.db.items.rows, _))

/-- The server accepts the requests for the directories: it creates each folder, unless
the folder is already there. -/
def Accepts (userId : Uuid) (dropId : Option Uuid) :
    List String → IdByPath → System → Prop
  | [], _, _ => True
  | path :: rest, ids, sys =>
      match createFolderRequest userId (nameOf path) (parentFor dropId path ids) sys with
      | .ok (id, after) => Accepts userId dropId rest ((path, id) :: ids) after
      | .error _ => FolderExists userId (parentFor dropId path ids) (nameOf path) sys

instance (userId : Uuid) (dropId : Option Uuid) : ∀ (paths : List String) (ids : IdByPath)
    (sys : System), Decidable (Accepts userId dropId paths ids sys)
  | [], _, _ => .isTrue trivial
  | path :: rest, ids, sys =>
      match made : createFolderRequest userId (nameOf path) (parentFor dropId path ids) sys with
      | .ok (id, after) =>
          have := instDecidableAccepts userId dropId rest ((path, id) :: ids) after
          decidable_of_iff (Accepts userId dropId rest ((path, id) :: ids) after)
            (by simp only [Accepts, made])
      | .error _ =>
          decidable_of_iff (FolderExists userId (parentFor dropId path ids) (nameOf path) sys)
            (by simp only [Accepts, made])

/-- The folder of the directory of a file. -/
def folderOf (dropId : Option Uuid) (ids : IdByPath) (task : Task) : Option Uuid :=
  if dirParts task.file = [] then dropId else ids.lookup (joinPath (dirParts task.file))

/-- Every directory path is mapped to a folder with that chain of names, and in every run
of the queue each admitted file is sent with the folder of its own directory. -/
def Reproduces [Collation] (userId : Uuid) (dropId : Option Uuid)
    (files : List File) (availableBytes : Option Nat) (sys : System) : Prop :=
  ∃ ids after, createFolders userId dropId (ordered files) [] sys = .ok (ids, after) ∧
    (∀ path ∈ dirPaths files, ∃ id, ids.lookup path = some id ∧
      FolderAt after.db.items dropId (splitPath path) (some id)) ∧
    ∀ events final,
      Run (Queue.Step (admitted files dropId availableBytes) (worker dropId ids)) .empty
        events final →
      (∀ request ∈ final.sent, request.parentId = folderOf dropId ids request.task) ∧
      (final.cursor = (admitted files dropId availableBytes).length →
        ∀ task ∈ admitted files dropId availableBytes, ∃ request ∈ final.sent,
          request.task = task)

end Law

/-! ## Paths and their parts -/

theorem splitPath_ne_nil (path : String) : splitPath path ≠ [] := by
  simp [splitPath, List.splitOn_ne_nil]

theorem splitPath_noSlash {path part : String} (member : part ∈ splitPath path) :
    '/' ∉ part.toList := by
  have each : ∀ chars : List Char, ∀ piece ∈ chars.splitOn '/', '/' ∉ piece := by
    intro chars
    induction chars with
    | nil => simp
    | cons head tail induction =>
        intro piece isPiece
        rw [List.splitOn_cons_eq_if_modifyHead] at isPiece
        split at isPiece
        · rcases List.mem_cons.mp isPiece with rfl | later
          · simp
          · exact induction piece later
        · rename_i different
          cases pieces : tail.splitOn '/' with
          | nil => simp [pieces] at isPiece
          | cons first rest =>
              rw [pieces] at isPiece induction
              rcases List.mem_cons.mp isPiece with rfl | later
              · have noSlash := induction first List.mem_cons_self
                simp only [List.mem_cons, not_or]
                exact ⟨fun same => different (by simp [same.symm]), noSlash⟩
              · exact induction piece (List.mem_cons_of_mem _ later)
  rcases List.mem_map.mp member with ⟨piece, isPiece, rfl⟩
  simpa using each _ piece isPiece

theorem splitPath_joinPath {parts : List String} (named : parts ≠ [])
    (noSlash : ∀ part ∈ parts, '/' ∉ part.toList) : splitPath (joinPath parts) = parts := by
  have split : (['/'].intercalate (parts.map String.toList)).splitOn '/' =
      parts.map String.toList :=
    List.splitOn_intercalate '/' (by simpa using noSlash) (by simpa using named)
  have slash : "/".toList = ['/'] := rfl
  rw [splitPath, joinPath, String.toList_intercalate, slash, split, List.map_map]
  simp [Function.comp_def]

theorem joinPath_splitPath (path : String) : joinPath (splitPath path) = path := by
  apply String.toList_injective
  have slash : "/".toList = ['/'] := rfl
  rw [joinPath, splitPath, String.toList_intercalate, slash, List.map_map]
  have same : (String.toList ∘ String.ofList) = id := by
    funext chars
    exact String.toList_ofList
  rw [same, List.map_id, List.intercalate_splitOn]

theorem joinPath_ne_empty {parts : List String} (named : parts ≠ []) (whole : "" ∉ parts)
    (noSlash : ∀ part ∈ parts, '/' ∉ part.toList) : joinPath parts ≠ "" := by
  intro isEmpty
  have split := splitPath_joinPath named noSlash
  rw [isEmpty] at split
  rw [← split] at whole
  exact whole (by decide)

theorem joinPath_concat {parts : List String} (named : parts ≠ []) (part : String) :
    joinPath (parts ++ [part]) = joinPath parts ++ "/" ++ part := by
  simp [joinPath, String.intercalate_append_of_ne_nil named]

/-- The paths from a path on that is not empty. -/
theorem mem_directoryPaths_from {path : String} : ∀ {rest done : List String},
    done ≠ [] → joinPath done ≠ "" →
    (path ∈ directoryPaths (joinPath done) rest ↔
      ∃ more, more ≠ [] ∧ more <+: rest ∧ path = joinPath (done ++ more))
  | [], done, _, _ => by
      simp only [directoryPaths, List.not_mem_nil, List.prefix_nil, false_iff]
      rintro ⟨more, named, isNil, _⟩
      exact named isNil
  | part :: rest, done, named, notEmpty => by
      have longer : joinPath (done ++ [part]) ≠ "" := by
        rw [joinPath_concat named]
        intro isEmpty
        have lengths := congrArg String.length isEmpty
        simp at lengths
      rw [directoryPaths]
      simp only [notEmpty, if_false, ← joinPath_concat named]
      rw [List.mem_cons, mem_directoryPaths_from (by simp) longer]
      constructor
      · rintro (rfl | ⟨more, _, isPrefix, rfl⟩)
        · exact ⟨[part], by simp, by simp, rfl⟩
        · exact ⟨part :: more, by simp, by simpa using isPrefix, by simp⟩
      · rintro ⟨more, moreNamed, isPrefix, rfl⟩
        cases more with
        | nil => exact absurd rfl moreNamed
        | cons first others =>
            rcases List.cons_prefix_cons.mp isPrefix with ⟨rfl, othersPrefix⟩
            by_cases last : others = []
            · subst last
              exact .inl rfl
            · exact .inr ⟨others, last, othersPrefix, by simp⟩

theorem mem_directoryPaths {path : String} {parts : List String} (started : parts.head? ≠ some "") :
    path ∈ directoryPaths "" parts ↔
      ∃ shorter, shorter ≠ [] ∧ shorter <+: parts ∧ path = joinPath shorter := by
  cases parts with
  | nil =>
      simp only [directoryPaths, List.not_mem_nil, List.prefix_nil, false_iff]
      rintro ⟨shorter, named, isNil, _⟩
      exact named isNil
  | cons first rest =>
      have single : joinPath [first] = first := String.intercalate_singleton
      have notEmpty : joinPath [first] ≠ "" := by
        rw [single]
        exact fun same => started (by rw [same]; rfl)
      rw [directoryPaths]
      simp only [if_true]
      rw [List.mem_cons]
      nth_rewrite 2 [← single]
      rw [mem_directoryPaths_from (by simp) notEmpty]
      constructor
      · rintro (rfl | ⟨more, _, isPrefix, rfl⟩)
        · exact ⟨[path], by simp, by simp, single.symm⟩
        · exact ⟨first :: more, by simp, by simpa using isPrefix, rfl⟩
      · rintro ⟨shorter, named, isPrefix, rfl⟩
        cases shorter with
        | nil => exact absurd rfl named
        | cons head others =>
            rcases List.cons_prefix_cons.mp isPrefix with ⟨rfl, othersPrefix⟩
            by_cases last : others = []
            · subst last
              exact .inl single
            · exact .inr ⟨others, last, othersPrefix, rfl⟩

theorem mem_foldl_insertNew {path : String} : ∀ {given paths : List String},
    path ∈ given.foldl insertNew paths ↔ path ∈ paths ∨ path ∈ given
  | [], paths => by simp
  | first :: rest, paths => by
      rw [List.foldl_cons, mem_foldl_insertNew, insertNew]
      split_ifs with known
      · simp only [List.mem_cons]
        constructor
        · rintro (old | later)
          · exact .inl old
          · exact .inr (.inr later)
        · rintro (old | rfl | later)
          · exact .inl old
          · exact .inl known
          · exact .inr later
      · simp [or_assoc]

theorem nodup_foldl_insertNew : ∀ {given paths : List String},
    paths.Nodup → (given.foldl insertNew paths).Nodup
  | [], _, nodup => nodup
  | first :: rest, paths, nodup => by
      rw [List.foldl_cons, insertNew]
      split_ifs with known
      · exact nodup_foldl_insertNew nodup
      · exact nodup_foldl_insertNew (List.nodup_append.mpr ⟨nodup, by simp, by
          rintro path isOld other isNew rfl
          exact known (List.mem_singleton.mp isNew ▸ isOld)⟩)

theorem mem_dirPaths {path : String} {files : List File} :
    path ∈ dirPaths files ↔ ∃ file ∈ files, path ∈ directoryPaths "" (dirParts file) := by
  rw [dirPaths, mem_foldl_insertNew, List.mem_flatMap]
  simp

theorem mem_ordered {path : String} {files : List File} :
    path ∈ ordered files ↔ path ∈ dirPaths files :=
  (List.perm_insertionSort _ _).mem_iff

theorem nodup_ordered (files : List File) : (ordered files).Nodup :=
  (List.perm_insertionSort _ _).nodup_iff.mpr (nodup_foldl_insertNew .nil)

theorem dirParts_noSlash {file : File} {part : String} (member : part ∈ dirParts file) :
    '/' ∉ part.toList :=
  splitPath_noSlash (List.mem_of_mem_dropLast member)

/-- The server keeps the name of every directory as it is. -/
def Kept (files : List File) : Prop :=
  ∀ path ∈ dirPaths files, validateName (nameOf path) = .ok (nameOf path)

theorem Kept.name_ne_empty {files : List File} (kept : Kept files) {path : String}
    (member : path ∈ dirPaths files) : nameOf path ≠ "" :=
  (checkName_ok (kept path member)).2.notEmpty

theorem Kept.started {files : List File} (kept : Kept files) {file : File}
    (member : file ∈ files) : (dirParts file).head? ≠ some "" := by
  intro first
  cases parts : dirParts file with
  | nil => simp [parts] at first
  | cons head rest =>
      rw [parts] at first
      cases first
      have isPath : "" ∈ dirPaths files :=
        mem_dirPaths.mpr ⟨file, member, by simp [parts, directoryPaths]⟩
      exact kept.name_ne_empty isPath (by decide)

theorem nameOf_joinPath {parts : List String} {name : String}
    (noSlash : ∀ part ∈ parts ++ [name], '/' ∉ part.toList) :
    nameOf (joinPath (parts ++ [name])) = name := by
  rw [nameOf, splitPath_joinPath (by simp) noSlash]
  simp

theorem Kept.whole {files : List File} (kept : Kept files) {file : File}
    (member : file ∈ files) : "" ∉ dirParts file := by
  intro isPart
  rcases List.append_of_mem isPart with ⟨front, back, parts⟩
  have isPrefix : front ++ [""] <+: dirParts file := ⟨back, by simp [parts]⟩
  have isPath : joinPath (front ++ [""]) ∈ dirPaths files :=
    mem_dirPaths.mpr ⟨file, member, (mem_directoryPaths (kept.started member)).mpr
      ⟨_, by simp, isPrefix, rfl⟩⟩
  apply kept.name_ne_empty isPath
  apply nameOf_joinPath
  intro part isShorter
  exact dirParts_noSlash (isPrefix.subset isShorter)

/-- A directory of the upload hangs under the drop folder or under another one. -/
theorem Kept.path_cases {files : List File} (kept : Kept files) {path : String}
    (member : path ∈ dirPaths files) :
    (parentPathOf path = "" ∧ splitPath path = [nameOf path]) ∨
      (parentPathOf path ≠ "" ∧ parentPathOf path ∈ dirPaths files ∧
        splitPath path = splitPath (parentPathOf path) ++ [nameOf path]) := by
  rcases mem_dirPaths.mp member with ⟨file, isFile, isPath⟩
  rcases (mem_directoryPaths (kept.started isFile)).mp isPath with
    ⟨shorter, named, isPrefix, rfl⟩
  rcases List.eq_nil_or_concat shorter with rfl | ⟨front, name, rfl⟩
  · exact absurd rfl named
  · rw [List.concat_eq_append] at isPrefix named ⊢
    have noSlash : ∀ part ∈ front ++ [name], '/' ∉ part.toList := fun part isPart =>
      dirParts_noSlash (isPrefix.subset isPart)
    have frontNoSlash : ∀ part ∈ front, '/' ∉ part.toList := fun part isPart =>
      noSlash part (List.mem_append_left _ isPart)
    have parent : parentPathOf (joinPath (front ++ [name])) = joinPath front := by
      rw [parentPathOf, splitPath_joinPath named noSlash, List.dropLast_concat]
    rw [parent, splitPath_joinPath named noSlash, nameOf_joinPath noSlash]
    by_cases top : front = []
    · subst top
      exact .inl ⟨rfl, rfl⟩
    · right
      have frontPrefix : front <+: dirParts file := (List.prefix_append _ _).trans isPrefix
      refine ⟨?_, ?_, ?_⟩
      · apply joinPath_ne_empty top _ frontNoSlash
        exact fun isPart => kept.whole isFile (frontPrefix.subset isPart)
      · exact mem_dirPaths.mpr ⟨file, isFile,
          (mem_directoryPaths (kept.started isFile)).mpr ⟨front, top, frontPrefix, rfl⟩⟩
      · rw [splitPath_joinPath top frontNoSlash]

/-- The directory of a file is one of the paths. -/
theorem Kept.dir_mem {files : List File} (kept : Kept files) {file : File}
    (member : file ∈ files) (nested : dirParts file ≠ []) :
    joinPath (dirParts file) ∈ dirPaths files ∧ joinPath (dirParts file) ≠ "" := by
  constructor
  · exact mem_dirPaths.mpr ⟨file, member, (mem_directoryPaths (kept.started member)).mpr
      ⟨_, nested, List.prefix_refl _, rfl⟩⟩
  · exact joinPath_ne_empty nested (kept.whole member) fun _ => dirParts_noSlash

/-- The path under which a directory is created, `none` in the drop folder. -/
def upOf (path : String) : Option String :=
  if parentPathOf path = "" then none else some (parentPathOf path)

theorem Kept.topDown {files : List File} (kept : Kept files) :
    Forest.TopDown id upOf [] (ordered files) := by
  apply Forest.TopDown.of_sorted depth
  · exact List.pairwise_insertionSort _ _
  · intro path member top step
    rcases kept.path_cases (mem_ordered.mp member) with ⟨isTop, _⟩ | ⟨nested, isPath, split⟩
    · simp [upOf, isTop] at step
    · right
      have isParent : parentPathOf path = top := by simpa [upOf, nested] using step
      refine ⟨_, mem_ordered.mpr isPath, isParent, ?_⟩
      simp [depth, split]

/-- The name and the parent tell the directories apart. -/
theorem Kept.path_eq {files : List File} (kept : Kept files) {left right : String}
    (leftMem : left ∈ dirPaths files) (rightMem : right ∈ dirPaths files)
    (sameName : nameOf left = nameOf right) (sameUp : upOf left = upOf right) :
    left = right := by
  have split : splitPath left = splitPath right := by
    rcases kept.path_cases leftMem with ⟨leftTop, leftSplit⟩ | ⟨leftTop, _, leftSplit⟩ <;>
      rcases kept.path_cases rightMem with ⟨rightTop, rightSplit⟩ | ⟨rightTop, _, rightSplit⟩
    · rw [leftSplit, rightSplit, sameName]
    · simp [upOf, leftTop, rightTop] at sameUp
    · simp [upOf, leftTop, rightTop] at sameUp
    · have sameParent : parentPathOf left = parentPathOf right := by
        simpa [upOf, leftTop, rightTop] using sameUp
      rw [leftSplit, rightSplit, sameName, sameParent]
  rw [← joinPath_splitPath left, split, joinPath_splitPath]

theorem parentFor_none {dropId : Option Uuid} {path : String} {ids : IdByPath}
    (top : upOf path = none) :
    parentFor dropId path ids = dropId := by
  have isTop : parentPathOf path = "" := by simpa [upOf] using top
  simp [parentFor, isTop]

theorem parentFor_some {dropId : Option Uuid} {path top : String} {ids : IdByPath}
    (nested : upOf path = some top) :
    parentFor dropId path ids = ids.lookup top := by
  rw [upOf] at nested
  split_ifs at nested with isTop
  cases nested
  simp [parentFor, isTop]

/-! ## The requests -/

section Requests

variable [Platform] {userId : Uuid} {dropId : Option Uuid}

/-- What a created folder is and what it leaves. -/
theorem createFolderRequest_ok {name : String} {parentId : Option Uuid} {id : Uuid}
    {sys after : System}
    (created : createFolderRequest userId name parentId sys = .ok (id, after)) :
    ∃ accepted, validateName name = .ok accepted ∧
      (∀ folderId ∈ parentId, ∃ folder ∈ sys.db.items, folder.id = folderId) ∧
      nameExistsInParent sys.db.items accepted parentId userId none = .ok false ∧
      id = sys.uuid4 ∧
      ∀ row, row ∈ after.db.items ↔
        row ∈ sys.db.items ∨ row = newItem sys userId parentId .folder accepted userId := by
  rw [createFolderRequest] at created
  split_ifs at created
  cases runs : createFolder userId parentId name sys with
  | error error => simp [runs] at created
  | ok result =>
      rcases result with ⟨item, state⟩
      simp only [runs, Except.ok.injEq, Prod.mk.injEq] at created
      rcases created with ⟨rfl, rfl⟩
      rcases createFolder_created runs with ⟨accepted, valid, writable, free, rfl, _, rows⟩
      refine ⟨accepted, valid, ?_, free, rfl, rows⟩
      intro folderId named
      rcases writable folderId named with ⟨folder, isFolder, _⟩
      exact ⟨folder, ItemTable.find?_eq_some.mp isFolder⟩

section Loop

variable [Collation]

/-- The search for an existing folder asks for a page that the server never lists. -/
theorem ensureFolder_ok {name : String} {parentId : Option Uuid} {created : Uuid × System}
    {sys : System} : ensureFolder userId name parentId sys = .ok created ↔
      createFolderRequest userId name parentId sys = .ok created := by
  rw [ensureFolder]
  cases createFolderRequest userId name parentId sys with
  | ok result => rfl
  | error error => simp [listItemsRequest]

theorem createFolders_cons {path : String} {rest : List String} {ids final : IdByPath}
    {sys after : System} :
    createFolders userId dropId (path :: rest) ids sys = .ok (final, after) ↔
      ∃ id middle, createFolderRequest userId (nameOf path) (parentFor dropId path ids) sys =
        .ok (id, middle) ∧
        createFolders userId dropId rest ((path, id) :: ids) middle = .ok (final, after) := by
  simp only [createFolders, bind_eq_ok, ensureFolder_ok, Prod.exists]

/-- The mapping keeps the paths of earlier rounds, and the drive its items. -/
theorem createFolders_keeps : ∀ {paths : List String} {ids final : IdByPath}
    {sys after : System}, createFolders userId dropId paths ids sys = .ok (final, after) →
    (∀ path, path ∉ paths → final.lookup path = ids.lookup path) ∧
      ∀ row ∈ sys.db.items, row ∈ after.db.items
  | [], ids, final, sys, after, runs => by
      cases runs
      exact ⟨fun _ _ => rfl, fun _ member => member⟩
  | path :: rest, ids, final, sys, after, runs => by
      rcases createFolders_cons.mp runs with ⟨id, middle, created, later⟩
      rcases createFolders_keeps later with ⟨lookups, items⟩
      rcases createFolderRequest_ok created with ⟨accepted, _, _, _, _, rows⟩
      constructor
      · intro other notMember
        rw [List.mem_cons, not_or] at notMember
        rw [lookups other notMember.2, lookup_cons_of_ne notMember.1]
      · exact fun row member => items row ((rows row).mpr (.inl member))

/-- Every path of a finished loop was created in one of its rounds. -/
theorem createFolders_created : ∀ {paths : List String} {ids final : IdByPath}
    {sys after : System}, paths.Nodup →
    createFolders userId dropId paths ids sys = .ok (final, after) →
    ∀ path ∈ paths, ∃ known middle next id,
      createFolderRequest userId (nameOf path) (parentFor dropId path known) middle =
        .ok (id, next) ∧ final.lookup path = some id ∧
      (∀ row ∈ sys.db.items, row ∈ middle.db.items) ∧
      ∀ row ∈ next.db.items, row ∈ after.db.items
  | [], _, _, _, _, _, _, _, member => by cases member
  | first :: rest, ids, final, sys, after, nodup, runs, path, member => by
      rw [List.nodup_cons] at nodup
      rcases createFolders_cons.mp runs with ⟨id, middle, created, later⟩
      rcases createFolders_keeps later with ⟨lookups, items⟩
      rcases List.mem_cons.mp member with rfl | isLater
      · refine ⟨ids, sys, middle, id, created, ?_, fun _ isRow => isRow, items⟩
        rw [lookups path nodup.1, List.lookup_cons_self]
      · rcases createFolders_created nodup.2 later path isLater with
          ⟨known, before, next, other, creates, found, earlier, kept⟩
        rcases createFolderRequest_ok created with ⟨accepted, _, _, _, _, rows⟩
        exact ⟨known, before, next, other, creates, found,
          fun row isRow => earlier row ((rows row).mpr (.inl isRow)), kept⟩

end Loop

/-! ## The folders made so far -/

/-- The folder of a path. -/
structure IsFolder (dropId : Option Uuid) (ids : IdByPath) (path : String) (row : DriveItem) :
    Prop where
  live : row.isDeleted = false
  folder : row.itemType = .folder
  name : row.name = nameOf path
  parent : row.parentId = parentFor dropId path ids
  mapped : ids.lookup path = some row.id

/-- What the rounds over the paths `done` have made of the drive `sys`. -/
structure Made (dropId : Option Uuid) (sys : System) (done : List String) (ids : IdByPath)
    (now : System) : Prop where
  rows : ∀ row ∈ now.db.items, row ∈ sys.db.items ∨ ∃ path ∈ done, IsFolder dropId ids path row
  kept : ∀ row ∈ sys.db.items, row ∈ now.db.items
  folders : ∀ path ∈ done, ∃ row ∈ now.db.items, IsFolder dropId ids path row ∧
    ∀ old ∈ sys.db.items, old.id ≠ row.id
  parents : ∀ path ∈ done, ∀ top ∈ upOf path, top ∈ done
  distinct : ∀ left ∈ done, ∀ right ∈ done, ids.lookup left = ids.lookup right → left = right
  drop : done ≠ [] → ∀ folderId ∈ dropId, ∃ folder ∈ sys.db.items, folder.id = folderId

omit [Platform] in
theorem IsFolder.cons {ids : IdByPath} {path other : String} {row : DriveItem} {id : Uuid}
    (isFolder : IsFolder dropId ids other row) (different : other ≠ path)
    (under : ∀ top ∈ upOf other, top ≠ path) :
    IsFolder dropId ((path, id) :: ids) other row where
  live := isFolder.live
  folder := isFolder.folder
  name := isFolder.name
  mapped := (lookup_cons_of_ne different).trans isFolder.mapped
  parent := by
    rw [isFolder.parent]
    cases up : upOf other with
    | none => rw [parentFor_none up, parentFor_none up]
    | some top => rw [parentFor_some up, parentFor_some up, lookup_cons_of_ne (under top up)]

theorem Made.nothing (sys : System) : Made dropId sys [] [] sys where
  rows := fun _ member => .inl member
  kept := fun _ member => member
  folders := by simp
  parents := by simp
  distinct := by simp
  drop := by simp

/-- One round makes the folder of its path. -/
theorem Made.next {sys now after : System} {done : List String} {ids : IdByPath}
    {path : String} {id : Uuid} (made : Made dropId sys done ids now) (isNew : path ∉ done)
    (under : ∀ top ∈ upOf path, top ∈ done)
    (valid : validateName (nameOf path) = .ok (nameOf path))
    (created : createFolderRequest userId (nameOf path) (parentFor dropId path ids) now =
      .ok (id, after)) : Made dropId sys (path :: done) ((path, id) :: ids) after := by
  rcases createFolderRequest_ok created with ⟨accepted, isValid, target, _, isId, rows⟩
  cases valid.symm.trans isValid
  have other : ∀ {earlier : String}, earlier ∈ done → earlier ≠ path := by
    rintro earlier member rfl
    exact isNew member
  have carried : ∀ {earlier : String} {row : DriveItem}, earlier ∈ done →
      IsFolder dropId ids earlier row → IsFolder dropId ((path, id) :: ids) earlier row := by
    intro earlier row member isFolder
    exact isFolder.cons (other member) fun top step => other (made.parents earlier member top step)
  have newFolder : IsFolder dropId ((path, id) :: ids) path
      (newItem now userId (parentFor dropId path ids) .folder (nameOf path) userId) := by
    constructor
    case parent =>
      cases up : upOf path with
      | none => rw [parentFor_none up, newItem, parentFor_none up]
      | some top =>
          rw [parentFor_some up, newItem, parentFor_some up,
            lookup_cons_of_ne (other (under top up))]
    case mapped =>
      rw [List.lookup_cons_self, isId]
      rfl
    all_goals rfl
  have unused : ∀ row ∈ now.db.items, row.id ≠ id := by
    rw [isId]
    exact now.uuid4_unused.items
  constructor
  case rows =>
    intro row member
    rcases (rows row).mp member with old | rfl
    · rcases made.rows row old with initial | ⟨earlier, isEarlier, isFolder⟩
      · exact .inl initial
      · exact .inr ⟨earlier, List.mem_cons_of_mem _ isEarlier, carried isEarlier isFolder⟩
    · exact .inr ⟨path, List.mem_cons_self, newFolder⟩
  case kept => exact fun row member => (rows row).mpr (.inl (made.kept row member))
  case folders =>
    intro earlier member
    rcases List.mem_cons.mp member with rfl | isEarlier
    · refine ⟨_, (rows _).mpr (.inr rfl), newFolder, ?_⟩
      intro old isOld
      have different := unused old (made.kept old isOld)
      rwa [isId] at different
    · rcases made.folders earlier isEarlier with ⟨row, isRow, isFolder, fresh⟩
      exact ⟨row, (rows row).mpr (.inl isRow), carried isEarlier isFolder, fresh⟩
  case parents =>
    intro earlier member top step
    rcases List.mem_cons.mp member with rfl | isEarlier
    · exact List.mem_cons_of_mem _ (under top step)
    · exact List.mem_cons_of_mem _ (made.parents earlier isEarlier top step)
  case distinct =>
    have notNew : ∀ earlier ∈ done, List.lookup earlier ((path, id) :: ids) ≠ some id := by
      intro earlier member same
      rcases made.folders earlier member with ⟨row, isRow, isFolder, _⟩
      rw [lookup_cons_of_ne (other member), isFolder.mapped] at same
      exact unused row isRow (Option.some.inj same)
    intro left leftMem right rightMem same
    rcases List.mem_cons.mp leftMem with rfl | leftOld <;>
      rcases List.mem_cons.mp rightMem with rfl | rightOld
    · rfl
    · exact absurd (same.symm.trans List.lookup_cons_self) (notNew right rightOld)
    · exact absurd (same.trans List.lookup_cons_self) (notNew left leftOld)
    · rw [lookup_cons_of_ne (other leftOld), lookup_cons_of_ne (other rightOld)] at same
      exact made.distinct left leftOld right rightOld same
  case drop =>
    intro _ folderId isDrop
    cases done with
    | cons first rest => exact made.drop (by simp) folderId isDrop
    | nil =>
        have top : upOf path = none :=
          Option.eq_none_iff_forall_not_mem.mpr fun above step => nomatch under above step
        rw [parentFor_none top] at target
        rcases target folderId isDrop with ⟨folder, isFolder, isId⟩
        rcases made.rows folder isFolder with initial | ⟨_, none, _⟩
        · exact ⟨folder, initial, isId⟩
        · cases none

/-- Every mapped path leads from the drop folder to its folder. -/
theorem Made.folderAt {sys now : System} {done : List String} {ids : IdByPath}
    {files : List File} (made : Made dropId sys done ids now) (names : Kept files)
    (among : ∀ path ∈ done, path ∈ dirPaths files) : ∀ (levels : Nat) (path : String),
    depth path = levels → path ∈ done → ∃ id, ids.lookup path = some id ∧
      FolderAt now.db.items dropId (splitPath path) (some id) := by
  intro levels
  induction levels using Nat.strong_induction_on with
  | _ levels induction =>
      intro path isDepth member
      rcases made.folders path member with ⟨row, isRow, isFolder, _⟩
      refine ⟨row.id, isFolder.mapped, ?_⟩
      rcases names.path_cases (among path member) with ⟨isTop, split⟩ | ⟨nested, _, split⟩
      · have top : upOf path = none := by simp [upOf, isTop]
        rw [split, ← isFolder.name]
        have inDrop : row.parentId = dropId := by rw [isFolder.parent, parentFor_none top]
        exact @FolderAt.inside _ _ _ [] _ _ .drop isRow isFolder.live isFolder.folder inDrop
      · have up : upOf path = some (parentPathOf path) := by simp [upOf, nested]
        have lower : depth (parentPathOf path) < levels := by
          rw [← isDepth, depth, depth, split]
          simp
        rcases induction _ lower _ rfl (made.parents path member _ up) with
          ⟨above, isAbove, leads⟩
        rw [split, ← isFolder.name]
        apply FolderAt.inside leads isRow isFolder.live isFolder.folder
        rw [isFolder.parent, parentFor_some up, isAbove]

/-- The place of a new path is free, unless it is in the drop folder and taken there. -/
theorem Made.free {sys now : System} {done : List String} {ids : IdByPath}
    {files : List File} {path : String} (made : Made dropId sys done ids now)
    (names : Kept files) (among : ∀ earlier ∈ done, earlier ∈ dirPaths files)
    (member : path ∈ dirPaths files) (isNew : path ∉ done) (under : ∀ top ∈ upOf path, top ∈ done)
    (topFree : upOf path = none → ¬ FolderExists userId dropId (nameOf path) sys) :
    ¬ FolderExists userId (parentFor dropId path ids) (nameOf path) now := by
  rintro ⟨row, isRow, owned, live, isFolder, there, named⟩
  rcases made.rows row isRow with initial | ⟨earlier, isEarlier, placed⟩
  · cases up : upOf path with
    | none =>
        rw [parentFor_none up] at there
        exact topFree up ⟨row, initial, owned, live, isFolder, there, named⟩
    | some top =>
        rcases made.folders top (under top up) with ⟨above, _, aboveFolder, fresh⟩
        rw [parentFor_some up, aboveFolder.mapped] at there
        rcases ItemTable.parent_mem initial there with ⟨parent, isParent, sameId⟩
        exact fresh parent isParent sameId
  · have sameUp : upOf earlier = upOf path := by
      have sameParent := placed.parent.symm.trans there
      have notDrop : ∀ top ∈ done, ids.lookup top ≠ dropId := by
        intro top isTop same
        rcases made.folders top isTop with ⟨above, _, aboveFolder, fresh⟩
        rw [aboveFolder.mapped] at same
        rcases made.drop (List.ne_nil_of_mem isTop) above.id same.symm with
          ⟨folder, initial, sameId⟩
        exact fresh folder initial sameId
      cases earlierUp : upOf earlier with
      | none =>
          cases up : upOf path with
          | none => rfl
          | some top =>
              rw [parentFor_none earlierUp, parentFor_some up] at sameParent
              exact absurd sameParent.symm (notDrop top (under top up))
      | some earlierTop =>
          have isDone := made.parents earlier isEarlier earlierTop earlierUp
          cases up : upOf path with
          | none =>
              rw [parentFor_some earlierUp, parentFor_none up] at sameParent
              exact absurd sameParent (notDrop earlierTop isDone)
          | some top =>
              rw [parentFor_some earlierUp, parentFor_some up] at sameParent
              exact congrArg some (made.distinct _ isDone _ (under top up) sameParent)
    have same := names.path_eq (among earlier isEarlier) member
      (placed.name.symm.trans named) sameUp
    exact isNew (same ▸ isEarlier)

section Loop

variable [Collation]

/-- The rest of the loop, from what it has made so far. -/
theorem Made.run {sys : System} {files : List File} (names : Kept files) :
    ∀ {paths done : List String} {ids final : IdByPath} {now after : System},
      Made dropId sys done ids now → paths.Nodup → (∀ path ∈ paths, path ∉ done) →
      (∀ path ∈ paths, path ∈ dirPaths files) → Forest.TopDown id upOf done paths →
      createFolders userId dropId paths ids now = .ok (final, after) →
      Made dropId sys (paths.reverse ++ done) final after
  | [], done, ids, final, now, after, made, _, _, _, _, runs => by
      cases runs
      exact made
  | path :: rest, done, ids, final, now, after, made, nodup, isNew, among, topDown, runs => by
      rw [List.nodup_cons] at nodup
      rcases createFolders_cons.mp runs with ⟨id, middle, created, later⟩
      have next := made.next (isNew path List.mem_cons_self) topDown.1
        (names path (among path List.mem_cons_self)) created
      rw [List.reverse_cons, List.append_assoc]
      apply Made.run names next nodup.2 _ _ topDown.2 later
      · intro other member
        rw [List.mem_cons, not_or]
        constructor
        · rintro rfl
          exact nodup.1 member
        · exact isNew other (List.mem_cons_of_mem _ member)
      · exact fun other member => among other (List.mem_cons_of_mem _ member)

/-- The server that accepts the requests creates every folder when no directory of the
upload is in the drop folder already. -/
theorem Made.accepted {sys : System} {files : List File} (names : Kept files)
    (topFree : ∀ path ∈ dirPaths files, upOf path = none →
      ¬ FolderExists userId dropId (nameOf path) sys) :
    ∀ {paths done : List String} {ids : IdByPath} {now : System},
      Made dropId sys done ids now → paths.Nodup → (∀ path ∈ paths, path ∉ done) →
      (∀ path ∈ done, path ∈ dirPaths files) → (∀ path ∈ paths, path ∈ dirPaths files) →
      Forest.TopDown id upOf done paths → Accepts userId dropId paths ids now →
      ∃ final after, createFolders userId dropId paths ids now = .ok (final, after)
  | [], _, ids, now, _, _, _, _, _, _, _ => ⟨ids, now, rfl⟩
  | path :: rest, done, ids, now, made, nodup, isNew, doneAmong, among, topDown, accepts => by
      rw [List.nodup_cons] at nodup
      have isPath := among path List.mem_cons_self
      rw [Accepts] at accepts
      split at accepts
      case h_2 => exact absurd accepts (made.free names doneAmong isPath
        (isNew path List.mem_cons_self) topDown.1 (topFree path isPath))
      case h_1 id middle created =>
        have next := made.next (isNew path List.mem_cons_self) topDown.1 (names path isPath)
          created
        have continues : ∃ final after,
            createFolders userId dropId rest ((path, id) :: ids) middle = .ok (final, after) := by
          apply Made.accepted names topFree next nodup.2 _ _ _ topDown.2 accepts
          · intro other member
            rw [List.mem_cons, not_or]
            constructor
            · rintro rfl
              exact nodup.1 member
            · exact isNew other (List.mem_cons_of_mem _ member)
          · intro other member
            rcases List.mem_cons.mp member with rfl | isDone
            · exact isPath
            · exact doneAmong other isDone
          · exact fun other member => among other (List.mem_cons_of_mem _ member)
        rcases continues with ⟨final, after, later⟩
        exact ⟨final, after, createFolders_cons.mpr ⟨id, middle, created, later⟩⟩

end Loop

end Requests

/-! ## The queue -/

section Sending

variable {items : List Task} {send : Task → Request}

/-- A step keeps the requests those of the tasks in front of the cursor. -/
theorem Queue.Step.sent {action : QueueAction} {before after : Queue}
    (taken : Queue.Step items send action before after)
    (sent : before.sent = (items.take before.cursor).map send) :
    after.sent = (items.take after.cursor).map send := by
  cases action with
  | settle position =>
      rcases taken with ⟨_, rfl⟩
      exact sent
  | take =>
      rcases taken with ⟨task, isNext, _, rfl⟩
      rw [List.take_add_one, isNext, List.map_append, ← sent]
      rfl

theorem sent_of_run {events : List (Event Queue QueueAction)} {final : Queue}
    (run : Run (Queue.Step items send) .empty events final) :
    final.sent = (items.take final.cursor).map send := by
  induction run with
  | nothing => rfl
  | next _ taken induction => exact taken.sent induction

/-- One task after the other. -/
theorem exists_run_sending (items : List Task) (send : Task → Request) :
    ∀ count ≤ items.length, ∃ events, Run (Queue.Step items send) .empty events
      { cursor := count, inFlight := [], sent := (items.take count).map send } := by
  intro count
  induction count with
  | zero => exact fun _ => ⟨[], .nothing⟩
  | succ count induction =>
      intro inBounds
      rcases induction (by omega) with ⟨events, run⟩
      have isNext : items[count]? = some items[count] := List.getElem?_eq_getElem (by omega)
      have taken : Queue.Step items send .take
          { cursor := count, inFlight := [], sent := (items.take count).map send }
          { cursor := count + 1, inFlight := [count],
            sent := (items.take (count + 1)).map send } := by
        refine ⟨items[count], isNext, by simp, ?_⟩
        rw [List.take_add_one, isNext, List.map_append]
        rfl
      have settled : Queue.Step items send (.settle count)
          { cursor := count + 1, inFlight := [count],
            sent := (items.take (count + 1)).map send }
          { cursor := count + 1, inFlight := [],
            sent := (items.take (count + 1)).map send } := by
        refine ⟨by simp, ?_⟩
        simp
      exact ⟨_, (run.next taken).next settled⟩

end Sending

theorem uploadOne_task (task : Task) (target : Option Uuid) :
    (uploadOne task target).task = task := by
  rw [uploadOne]
  split_ifs <;> rfl

theorem uploadOne_parentId (task : Task) (target : Option Uuid) :
    (uploadOne task target).parentId =
      if UploadLoop.chunkedUploadThreshold ≤ task.file.size then task.parentId else target := by
  rw [uploadOne]
  split_ifs <;> rfl

theorem mem_admitted {files : List File} {dropId : Option Uuid} {availableBytes : Option Nat}
    {task : Task} (member : task ∈ admitted files dropId availableBytes) :
    task.file ∈ files ∧ task.parentId = dropId := by
  rcases List.mem_map.mp member with ⟨⟨judged, verdict⟩, isJudged, rfl⟩
  have isTask := (List.of_mem_zip (List.mem_filter.mp isJudged).1).1
  rcases List.mem_map.mp isTask with ⟨file, isFile, rfl⟩
  exact ⟨isFile, rfl⟩

/-! ## What a folder upload reproduces -/

theorem targetOf_eq_folderOf {files : List File} (names : Kept files) {dropId : Option Uuid}
    {ids : IdByPath} {task : Task} (member : task.file ∈ files) :
    targetOf dropId ids task = folderOf dropId ids task := by
  by_cases nested : dirParts task.file = []
  · simp [targetOf, folderOf, nested, joinPath]
  · simp [targetOf, folderOf, nested, (names.dir_mem member nested).2]

section Result

variable [Platform] [Collation] {userId : Uuid} {dropId : Option Uuid} {files : List File}
  {availableBytes : Option Nat} {sys after : System} {ids : IdByPath}

/-- A mapped folder has the name that the path asks for. -/
theorem kept_of_folders
    (runs : createFolders userId dropId (ordered files) [] sys = .ok (ids, after))
    (folders : ∀ path ∈ dirPaths files, ∃ id, ids.lookup path = some id ∧
      FolderAt after.db.items dropId (splitPath path) (some id)) : Kept files := by
  intro path member
  rcases createFolders_created (nodup_ordered files) runs path (mem_ordered.mpr member) with
    ⟨known, middle, next, id, created, mapped, _, later⟩
  rcases createFolderRequest_ok created with ⟨accepted, valid, _, _, isId, rows⟩
  rcases folders path member with ⟨other, otherMapped, leads⟩
  cases mapped.symm.trans otherMapped
  generalize isSplit : splitPath path = names at leads
  generalize isTarget : some id = target at leads
  cases leads with
  | drop => exact absurd isSplit (splitPath_ne_nil path)
  | @inside front above folder _ isRow live kind parent =>
      have isNew := later _ ((rows _).mpr (.inr rfl))
      have same := ItemTable.eq_of_id_eq isRow isNew
        ((Option.some.inj isTarget).symm.trans isId)
      have isName : nameOf path = accepted := by
        rw [nameOf, isSplit, same]
        simp [newItem]
      rw [isName] at valid ⊢
      exact valid

/-- A directory of the drop folder that exists cannot be created. -/
theorem topFree_of_runs
    (runs : createFolders userId dropId (ordered files) [] sys = .ok (ids, after))
    (names : Kept files) {path : String} (member : path ∈ dirPaths files)
    (top : parentPathOf path = "") : ¬ FolderExists userId dropId (nameOf path) sys := by
  rintro ⟨row, isRow, owned, live, _, there, named⟩
  rcases createFolders_created (nodup_ordered files) runs path (mem_ordered.mpr member) with
    ⟨known, middle, next, id, created, _, earlier, _⟩
  rcases createFolderRequest_ok created with ⟨accepted, valid, _, free, _, _⟩
  cases (names path member).symm.trans valid
  rw [parentFor_none (by simp [upOf, top])] at free
  cases nameExists_free free (earlier row isRow) owned live named there

/-- The folder phase of an upload whose names are kept. -/
theorem made_of_runs (names : Kept files)
    (runs : createFolders userId dropId (ordered files) [] sys = .ok (ids, after)) :
    Made dropId sys ((ordered files).reverse ++ []) ids after :=
  Made.run names (Made.nothing sys) (nodup_ordered files) (by simp)
    (fun _ member => mem_ordered.mp member) names.topDown runs

/-- A folder upload that the server accepts reproduces the tree exactly when the server
keeps the names, no directory of it exists under the drop folder and every chunked file
lies in the drop folder itself. -/
theorem uploadFolders_reproduces_iff (accepts : Accepts userId dropId (ordered files) [] sys) :
    Reproduces userId dropId files availableBytes sys ↔
      (∀ path ∈ dirPaths files, validateName (nameOf path) = .ok (nameOf path)) ∧
      (∀ path ∈ dirPaths files, parentPathOf path = "" →
        ¬ FolderExists userId dropId (nameOf path) sys) ∧
      ∀ task ∈ admitted files dropId availableBytes,
        UploadLoop.chunkedUploadThreshold ≤ task.file.size → dirParts task.file = [] := by
  constructor
  · rintro ⟨ids, after, runs, folders, queue⟩
    have names : Kept files := kept_of_folders runs folders
    refine ⟨names, fun path member top => topFree_of_runs runs names member top, ?_⟩
    intro task member isBig
    by_contra nested
    rcases mem_admitted member with ⟨isFile, parent⟩
    rcases exists_run_sending (admitted files dropId availableBytes)
      (worker dropId ids) _ (Nat.le_refl _) with ⟨events, run⟩
    have isSent : worker dropId ids task ∈
        ((admitted files dropId availableBytes).take
          (admitted files dropId availableBytes).length).map (worker dropId ids) :=
      List.mem_map_of_mem (by simpa using member)
    have right := (queue events _ run).1 _ isSent
    rw [worker, uploadOne_task, uploadOne_parentId, if_pos isBig, folderOf, if_neg nested,
      parent] at right
    have made := made_of_runs names runs
    have isPath : joinPath (dirParts task.file) ∈ (ordered files).reverse ++ [] := by
      simpa [mem_ordered] using (names.dir_mem isFile nested).1
    rcases made.folders _ isPath with ⟨row, _, isFolder, fresh⟩
    rw [isFolder.mapped] at right
    rcases made.drop (List.ne_nil_of_mem isPath) row.id right with ⟨folder, initial, sameId⟩
    exact fresh folder initial sameId
  · rintro ⟨names, topFree, small⟩
    have isFree : ∀ path ∈ dirPaths files, upOf path = none →
        ¬ FolderExists userId dropId (nameOf path) sys := by
      intro path member top
      exact topFree path member (by simpa [upOf] using top)
    rcases Made.accepted names isFree (Made.nothing sys) (nodup_ordered files) (by simp) (by simp)
      (fun _ member => mem_ordered.mp member) (Kept.topDown names) accepts with
      ⟨ids, after, runs⟩
    have made := made_of_runs names runs
    refine ⟨ids, after, runs, ?_, ?_⟩
    · intro path member
      apply made.folderAt names _ _ path rfl
      · simpa [mem_ordered] using member
      · intro other isDone
        simpa [mem_ordered] using isDone
    · intro events final run
      have sent := sent_of_run run
      constructor
      · intro request isSent
        rw [sent] at isSent
        rcases List.mem_map.mp isSent with ⟨task, isTask, rfl⟩
        have member := List.mem_of_mem_take isTask
        rcases mem_admitted member with ⟨isFile, parent⟩
        rw [worker, uploadOne_task, uploadOne_parentId]
        split_ifs with isBig
        · rw [folderOf, if_pos (small task member isBig), parent]
        · exact targetOf_eq_folderOf names isFile
      · intro finished task member
        refine ⟨worker dropId ids task, ?_, ?_⟩
        · rw [sent, finished, List.take_length]
          exact List.mem_map_of_mem member
        · exact uploadOne_task task _

end Result

/-! ## A folder uploaded twice, and a large file in a folder -/

section Examples

attribute [local instance] smallPlatform smallCollation

private def note : File where
  relativePath := "Docs/Old/a.txt"
  webkitRelativePath := ""
  name := "a.txt"
  size := 10

private def movie : File where
  relativePath := ""
  webkitRelativePath := "Docs/movie.mkv"
  name := "movie.mkv"
  size := 104857600

theorem uploadFolders_reproduces_note : Reproduces 1 none [note] (some 1000) firstDay := by
  have accepts : Accepts 1 none (ordered [note]) [] firstDay := by decide +kernel
  apply (uploadFolders_reproduces_iff accepts).mpr
  decide +kernel

/-- The directory exists, or the file is sent in chunks. -/
theorem uploadFolders_misses :
    (Accepts 1 none (ordered [note]) [] (afterFirstDay [.createFolder 1 none "Docs"]) ∧
      ¬ Reproduces 1 none [note] none (afterFirstDay [.createFolder 1 none "Docs"])) ∧
    Accepts 1 none (ordered [movie]) [] firstDay ∧ ¬ Reproduces 1 none [movie] none firstDay := by
  refine ⟨⟨by decide +kernel, ?_⟩, by decide +kernel, ?_⟩
  · rintro ⟨ids, after, runs, _⟩
    have refused : createFolders 1 none (ordered [note]) []
        (afterFirstDay [.createFolder 1 none "Docs"]) = .error .validation := by
      rfl
    cases refused.symm.trans runs
  · rintro ⟨ids, after, runs, _, queue⟩
    have made : ∃ state, createFolders 1 none (ordered [movie]) [] firstDay =
        .ok ([("Docs", 10)], state) := ⟨_, rfl⟩
    rcases made with ⟨state, made⟩
    cases made.symm.trans runs
    rcases exists_run_sending (admitted [movie] none none) (worker none [("Docs", 10)]) 1
      (by decide +kernel) with ⟨events, run⟩
    have isSent : Request.mk { file := movie, parentId := none } none true ∈
        ((admitted [movie] none none).take 1).map (worker none [("Docs", 10)]) := by
      decide +kernel
    have right := (queue events _ run).1 _ isSent
    have nested : folderOf none [("Docs", 10)] { file := movie, parentId := none } = some 10 := by
      decide +kernel
    cases right.trans nested

end Examples

end FolderUpload

end CloudDrive
