import CloudDrive.PublicShare
import CloudDrive.Drive.Pagination

/-! # Archives

`archive` of `app/download` and of the public links: the selected items are packed into one
zip, and folders are walked page by page. -/

namespace CloudDrive

open Outcome Relational

/-- What a query for the children of a folder from an offset on cuts its page out of. Rows
that the order does not separate may stand in any order, a different one each time. -/
abbrev Listings := Uuid → Nat → List DriveItem

section Archives

variable [Platform]

namespace PermissionService

def assertCanDownload (db : Database) (userId : Uuid) (item : DriveItem) :
    Except ServiceError Unit := do
  let perm ← getPermission db userId item
  require (hasAtLeast perm .downloader) (.forbidden "Forbidden")

end PermissionService

namespace DownloadService

open PermissionService

def folderPage : Nat := 500

/-- `name.rpartition(".")`: what stands before and behind the last dot, if there is one. -/
def rpartition (name : String) : Option (String × String) :=
  if '.' ∈ name.toList then
    let ext := (name.toList.reverse.takeWhile (· ≠ '.')).reverse
    some (String.ofList (name.toList.take (name.length - ext.length - 1)), String.ofList ext)
  else
    none

def stripExt (name : String) : String :=
  match rpartition name with
  | some (stem, _) => stem
  | none => name

def firstUnused (used : List String) (base suffix : String) :
    Nat → Nat → Except ServiceError String
  | 0, _ => .error .diverged
  | fuel + 1, i =>
      let candidate := numberedName base i suffix
      if candidate ∉ used then .ok candidate else firstUnused used base suffix fuel (i + 1)

/-- `_dedupe`. Every round of the loop that goes on has met another used name. -/
def dedupe (used : List String) (name : String) : Except ServiceError String :=
  if name ∉ used then
    .ok name
  else
    let (base, suffix) := match rpartition name with
      | some (stem, ext) => (stem, "." ++ ext)
      | none => (name, "")
    firstUnused used base suffix (used.length + 1) 1

/-- An arcname and the key of the blob that is packed under it. The row that it was packed
for stands beside them and is not packed. -/
structure ArchiveEntry where
  arcname : String
  storageKey : StorageKey
  item : DriveItem

def maybeAdd (sys : System) (arcname : String) (item : DriveItem) : List ArchiveEntry :=
  match item.storageKey with
  | some key => if (sys.storage.find? key).isSome then [⟨arcname, key, item⟩] else []
  | none => []

def listChildrenOf (listed : List DriveItem) (offset limit : Nat) : List DriveItem × Nat :=
  ((listed.drop offset).take limit, listed.length)

/-- `_collect_folder`: `fuel` bounds the depth, the number of items the pages. -/
def collectFolder (listings : Listings) (userId : Uuid) (sys : System) :
    Nat → DriveItem → String → Except ServiceError (List ArchiveEntry)
  | 0, _, _ => .error .diverged
  | fuel + 1, folder, above =>
      DriveService.visitPages
        (fun child => do
          let path := above ++ "/" ++ child.name
          if child.itemType = .file then do
            assertCanDownload sys.db userId child
            pure (maybeAdd sys path child)
          else
            collectFolder listings userId sys fuel child path)
        (fun offset => listChildrenOf (listings folder.id offset) offset folderPage)
        (sys.db.items.rows.length + 1) 0

def collectItem (listings : Listings) (userId : Uuid) (sys : System) (item : DriveItem)
    (topName : String) : Except ServiceError (List ArchiveEntry) :=
  if item.itemType = .file then
    .ok (maybeAdd sys topName item)
  else
    collectFolder listings userId sys (sys.db.items.rows.length + 1) item topName

structure Packing where
  files : List ArchiveEntry
  usedTop : List String
  firstName : Option String

def packItem (listings : Listings) (userId : Uuid) (sys : System) (itemId : Uuid)
    (packing : Packing) : Except ServiceError Packing := do
  let item ← orRaise (sys.db.items.find? itemId) (.notFound "Item not found")
  require (item.isDeleted = false) (.notFound "Item not found")
  assertCanDownload sys.db userId item
  let itemName := if item.itemType = .folder then item.name else stripExt item.name
  let topName ← dedupe packing.usedTop item.name
  let found ← collectItem listings userId sys item topName
  pure { files := packing.files ++ found
         usedTop := packing.usedTop ++ [topName]
         firstName := some (packing.firstName.getD itemName) }

structure ArchiveResult where
  filename : String
  files : List ArchiveEntry

def archive (listings : Listings) (userId : Uuid) (itemIds : List Uuid) (sys : System) :
    Except ServiceError ArchiveResult := do
  require (itemIds ≠ []) (.invalidOperation "No items selected to download")
  let packing ← forEach (packItem listings userId sys) itemIds ⟨[], [], none⟩
  require (packing.files ≠ []) (.invalidOperation "Selection contains no downloadable files")
  -- `first_name or "download"`
  let label := match packing.firstName with
    | some name => if name = "" then "download" else name
    | none => "download"
  let label := if 1 < itemIds.length then s!"{label} 等 {itemIds.length} 項" else label
  pure ⟨label ++ ".zip", packing.files⟩

end DownloadService

namespace PublicShareService

def assertCanDownload (auth : Authorized) : Except ShareError Unit :=
  require (auth.permission ≠ .viewer) (.forbidden "This link does not allow downloads")

/-- `archive`, once the credential is authorised. The packer runs as the owner of the root. -/
def archiveOf (listings : Listings) (auth : Authorized) (itemIds : Option (List Uuid))
    (sys : System) : Except ShareError DownloadService.ArchiveResult := do
  assertCanDownload auth
  match itemIds with
  | none => downstream (DownloadService.archive listings auth.root.ownerId [auth.root.id] sys)
  | some itemIds => do
      require (itemIds ≠ []) (.invalidOperation "No items selected to download")
      let _ ← itemIds.mapM fun itemId => resolveInSubtree auth.root.id itemId sys.db.items
      downstream (DownloadService.archive listings auth.root.ownerId itemIds sys)

def archive (listings : Listings) (links : Table ShareLink) (now : Instant)
    (accessToken : ShareAccessToken) (itemIds : Option (List Uuid)) (sys : System) :
    Except ShareError DownloadService.ArchiveResult := do
  let auth ← authorize links sys.db.items now accessToken
  archiveOf listings auth itemIds sys

end PublicShareService

end Archives

end CloudDrive
