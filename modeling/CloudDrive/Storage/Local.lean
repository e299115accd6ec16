import CloudDrive.Upload
import CloudDrive.Foundation.Blocks
import Mathlib.Data.List.MinMax

/-! # Writing to the local file system

`save_stream` and `concat` of `app/storage/local.py` write a temporary file and rename
it. `Storage.saveStream` and `Storage.concat` are what such a write amounts to. -/

namespace CloudDrive

open Outcome Relational Blocks

namespace LocalStorageProvider

structure TemporaryFile where
  number : Nat
  content : Content

instance : Keyed TemporaryFile Nat := ⟨TemporaryFile.number⟩

@[simp] theorem TemporaryFile.key_eq (file : TemporaryFile) : Keyed.key file = file.number := rfl

/-- The files under the root; those named `.tmp-` are the temporary ones. -/
structure Directory where
  objects : Table StoredObject
  temporaries : Table TemporaryFile

/-- `_CHUNK_SIZE`. -/
def bufferSize : Nat := 65536

namespace Directory

/-- A name that no other file has. -/
def freshNumber (directory : Directory) : Nat :=
  (directory.temporaries.rows.map TemporaryFile.number).foldr max 0 + 1

/-- `mkstemp`: an empty file under such a name. -/
def mkstemp (directory : Directory) : Nat × Directory :=
  (directory.freshNumber, { directory with
    temporaries := directory.temporaries.save
      { number := directory.freshNumber, content := [] } })

def write (number : Nat) (chunk : Content) (directory : Directory) : Directory :=
  { directory with
    temporaries := directory.temporaries.map
      (fun file => if file.number = number then
        { file with content := file.content ++ chunk } else file)
      (by intro file; by_cases same : file.number = number <;> simp [same]) }

/-- `unlink` of a temporary file. -/
def unlink (number : Nat) (directory : Directory) : Directory :=
  { directory with
    temporaries := directory.temporaries.filter fun file => decide (Keyed.key file ≠ number) }

/-- `tmp.replace(path)`: one atomic rename. -/
def replace (number : Nat) (key : StorageKey) (now : Timestamp) (directory : Directory) :
    Directory :=
  match directory.temporaries.find? number with
  | none => directory
  | some file => { directory.unlink number with
      objects := directory.objects.save
        { key := key, content := file.content, modifiedAt := now } }

end Directory

/-- `async for chunk in chunks`, where `none` stands for the stream raising: the number
of bytes written. -/
def writeStream (number : Nat) : List (Option Content) → Nat → Directory → Option Nat × Directory
  | [], written, directory => (some written, directory)
  | none :: _, _, directory => (none, directory)
  | some chunk :: rest, written, directory =>
      if chunk = [] then writeStream number rest written directory
      else writeStream number rest (written + chunk.length) (directory.write number chunk)

/-- `save_stream`, up to the rename or the exception. -/
def saveStream (key : StorageKey) (stream : List (Option Content)) (now : Timestamp)
    (directory : Directory) : Option Nat × Directory :=
  let made := directory.mkstemp
  match writeStream made.1 stream 0 made.2 with
  | (some written, directory) => (some written, directory.replace made.1 key now)
  | (none, directory) => (none, directory.unlink made.1)

/-- The loop that copies one source through the buffer. -/
def copy (number : Nat) (source : StoredObject) (progress : Nat × Directory) : Nat × Directory :=
  foldBlocks bufferSize (fun (written, directory) buffer =>
    (written + buffer.length, directory.write number buffer)) source.content progress

/-- `concat`: every source must exist before anything is written. -/
def concat (sourceKeys : List StorageKey) (targetKey : StorageKey) (now : Timestamp)
    (directory : Directory) : Except ServiceError (Nat × Directory) := do
  let sources ← sourceKeys.mapM fun key =>
    orRaise (directory.objects.find? key) (.storageKeyNotFound key)
  let made := directory.mkstemp
  let copied := sources.foldl (fun progress source => copy made.1 source progress) (0, made.2)
  pure (copied.1, copied.2.replace made.1 targetKey now)

/-- `_checksum_of`: the bytes the digest was fed with, buffer by buffer. -/
def digested (content : Content) : Content :=
  foldBlocks bufferSize (fun fed buffer => fed ++ buffer) content []

/-! ## The temporary file -/

theorem bufferSize_pos : 0 < bufferSize := by decide

/-- `directory` is `before` with one more file in the making, which holds `content`. -/
structure Writing (before : Directory) (number : Nat) (content : Content)
    (directory : Directory) : Prop where
  objects : directory.objects = before.objects
  others : directory.temporaries.filter (fun file => decide (Keyed.key file ≠ number)) =
    before.temporaries
  holds : directory.temporaries.find? number = some { number := number, content := content }

theorem writing_mkstemp (directory : Directory) :
    Writing directory directory.mkstemp.1 [] directory.mkstemp.2 where
  objects := rfl
  others := by
    apply (Table.filter_save rfl).trans
    apply Table.filter_fresh
    intro file member
    have small := List.le_max_of_le' 0 (List.mem_map_of_mem (f := TemporaryFile.number) member)
      (le_refl file.number)
    exact Nat.ne_of_lt (Nat.lt_succ_of_le small)
  holds := Table.find?_save.trans (if_pos rfl)

theorem Writing.write {before directory : Directory} {number : Nat} {content : Content}
    (writing : Writing before number content directory) (chunk : Content) :
    Writing before number (content ++ chunk) (directory.write number chunk) where
  objects := writing.objects
  others := by
    rw [Directory.write, Table.filter_map]
    · exact writing.others
    · exact fun file different => if_neg different
  holds := by
    rw [Directory.write, Table.find?_map, writing.holds, Option.map_some, if_pos rfl]

theorem Writing.unlink {before directory : Directory} {number : Nat} {content : Content}
    (writing : Writing before number content directory) : directory.unlink number = before := by
  cases before
  cases directory
  cases writing.objects
  cases writing.others
  rfl

theorem Writing.replace {before directory : Directory} {number : Nat} {content : Content}
    (writing : Writing before number content directory) (key : StorageKey) (now : Timestamp) :
    directory.replace number key now = { before with
      objects := before.objects.save { key := key, content := content, modifiedAt := now } } := by
  rw [Directory.replace, writing.holds]
  simp only [writing.unlink, writing.objects]

/-! ## What a write amounts to -/

/-- The bytes of a stream that ends without raising. -/
def received : List (Option Content) → Option Content
  | [] => some []
  | none :: _ => none
  | some chunk :: rest => (received rest).map (chunk ++ ·)

/-- The loop ends with the bytes of the stream behind those written before, or raises
with the stream. -/
theorem writeStream_writing {before : Directory} {number : Nat} :
    ∀ (stream : List (Option Content)) {content : Content} {directory : Directory},
    Writing before number content directory →
    (∃ last, Writing before number last (writeStream number stream content.length directory).2) ∧
    match received stream with
    | none => (writeStream number stream content.length directory).1 = none
    | some later => ∃ directory', writeStream number stream content.length directory =
          (some (content ++ later).length, directory') ∧
        Writing before number (content ++ later) directory'
  | [], content, directory, writing => by
      apply And.intro ⟨content, writing⟩
      show ∃ directory', _ = (some (content ++ []).length, directory') ∧
        Writing before number (content ++ []) directory'
      rw [List.append_nil]
      exact ⟨directory, rfl, writing⟩
  | none :: _, content, directory, writing => ⟨⟨content, writing⟩, rfl⟩
  | some chunk :: rest, content, directory, writing => by
      have step : writeStream number (some chunk :: rest) content.length directory =
          writeStream number rest (content ++ chunk).length
            (if chunk = [] then directory else directory.write number chunk) := by
        rw [writeStream, List.length_append]
        split
        · rename_i empty
          rw [empty]
          rfl
        · rfl
      have written : Writing before number (content ++ chunk)
          (if chunk = [] then directory else directory.write number chunk) := by
        split
        · rename_i empty
          rwa [empty, List.append_nil]
        · exact writing.write chunk
      rcases writeStream_writing rest written with ⟨open_, outcome⟩
      rw [step, received]
      apply And.intro open_
      cases ends : received rest with
      | none =>
          rw [ends] at outcome
          exact outcome
      | some later =>
          rw [ends] at outcome
          show ∃ directory', _ = (some (content ++ (chunk ++ later)).length, directory') ∧
            Writing before number (content ++ (chunk ++ later)) directory'
          rw [← List.append_assoc]
          exact outcome

/-- A stream that ends is stored under the key, over whatever was there. -/
theorem saveStream_received {key : StorageKey} {stream : List (Option Content)}
    {content : Content} (now : Timestamp) (directory : Directory)
    (ends : received stream = some content) :
    saveStream key stream now directory = (some content.length, { directory with
      objects := directory.objects.save { key := key, content := content, modifiedAt := now } }) := by
  rcases writeStream_writing stream (writing_mkstemp directory) with ⟨_, outcome⟩
  rw [ends] at outcome
  rcases outcome with ⟨last, ran, writing⟩
  rw [List.length_nil, List.nil_append] at ran
  rw [List.nil_append] at writing
  rw [saveStream, ran, ← writing.replace key now]

/-- A stream that raises leaves the directory as it was. -/
theorem saveStream_broken {key : StorageKey} {stream : List (Option Content)} (now : Timestamp)
    (directory : Directory) (raises : received stream = none) :
    saveStream key stream now directory = (none, directory) := by
  rcases writeStream_writing stream (writing_mkstemp directory) with
    ⟨⟨last, writing⟩, outcome⟩
  rw [raises] at outcome
  have parts : writeStream directory.mkstemp.1 stream 0 directory.mkstemp.2 =
      (none, (writeStream directory.mkstemp.1 stream 0 directory.mkstemp.2).2) :=
    Prod.ext outcome rfl
  rw [saveStream, parts]
  exact congrArg (Prod.mk none) writing.unlink

/-! ## What a merge amounts to -/

/-- One source is copied behind what is written. -/
theorem copy_writing {before : Directory} {number : Nat} (source : StoredObject)
    {content : Content} {directory : Directory} (writing : Writing before number content directory) :
    ∃ directory', copy number source (content.length, directory) =
        ((content ++ source.content).length, directory') ∧
      Writing before number (content ++ source.content) directory' := by
  have keeps := foldBlocks_keeps bufferSize_pos
    (fun (progress : Nat × Directory) buffer =>
      (progress.1 + buffer.length, progress.2.write number buffer))
    (fun read progress => progress.1 = read.length ∧ Writing before number read progress.2)
    (by
      intro read progress buffer keep
      apply And.intro _ (keep.2.write buffer)
      rw [keep.1, List.length_append])
    source.content (content.length, directory) content ⟨rfl, writing⟩
  exact ⟨_, Prod.ext keeps.1 rfl, keeps.2⟩

theorem copyAll_writing {before : Directory} {number : Nat} : ∀ (sources : List StoredObject)
    {content : Content} {directory : Directory}, Writing before number content directory →
    ∃ directory', sources.foldl (fun progress source => copy number source progress)
        (content.length, directory) =
          ((content ++ sources.flatMap StoredObject.content).length, directory') ∧
      Writing before number (content ++ sources.flatMap StoredObject.content) directory'
  | [], content, directory, writing => by
      rw [List.flatMap_nil, List.append_nil]
      exact ⟨directory, rfl, writing⟩
  | source :: rest, content, directory, writing => by
      rcases copy_writing source writing with ⟨middle, copied, writingMiddle⟩
      rcases copyAll_writing rest writingMiddle with ⟨after, ran, writingAfter⟩
      rw [List.flatMap_cons, ← List.append_assoc, List.foldl_cons, copied]
      exact ⟨after, ran, writingAfter⟩

theorem readAll_eq (objects : Table StoredObject) : ∀ keys : List StorageKey,
    Storage.readAll objects keys =
      (keys.mapM fun key => orRaise (objects.find? key) (.storageKeyNotFound key)) >>=
        fun sources => .ok (sources.flatMap StoredObject.content)
  | [] => rfl
  | key :: rest => by
      rw [Storage.readAll, readAll_eq objects rest, List.mapM_cons]
      cases orRaise (objects.find? key) (ServiceError.storageKeyNotFound key) with
      | error error => rfl
      | ok object =>
          cases rest.mapM fun key =>
              orRaise (objects.find? key) (ServiceError.storageKeyNotFound key) with
          | error error => rfl
          | ok sources => rfl

/-- The contents of the sources in their order are stored under the target. -/
theorem concat_eq (sourceKeys : List StorageKey) (targetKey : StorageKey) (now : Timestamp)
    (directory : Directory) :
    concat sourceKeys targetKey now directory =
      Storage.readAll directory.objects sourceKeys >>= fun content =>
        .ok (content.length, { directory with
          objects := directory.objects.save
            { key := targetKey, content := content, modifiedAt := now } }) := by
  rw [readAll_eq, concat]
  cases sourceKeys.mapM fun key =>
      orRaise (directory.objects.find? key) (ServiceError.storageKeyNotFound key) with
  | error error => rfl
  | ok sources =>
      rcases copyAll_writing sources (writing_mkstemp directory) with ⟨after, ran, writing⟩
      rw [List.nil_append] at ran writing
      show Except.ok _ = Except.ok _
      rw [List.length_nil] at ran
      rw [ran, ← writing.replace targetKey now]

/-- The digest is fed with the whole object. -/
theorem digested_eq (content : Content) : digested content = content :=
  foldBlocks_keeps bufferSize_pos (fun fed buffer => fed ++ buffer) (fun read fed => fed = read)
    (fun _ _ part same => congrArg (· ++ part) same) content [] [] rfl

end LocalStorageProvider

/-- `Storage.concat` is the merge in the directory of the storage. -/
theorem Storage.concat_local [Platform] (sourceKeys : List StorageKey) (targetKey : StorageKey)
    (sys : System) (temporaries : Table LocalStorageProvider.TemporaryFile) :
    LocalStorageProvider.concat sourceKeys targetKey sys.now ⟨sys.storage, temporaries⟩ =
      Storage.concat sourceKeys targetKey sys >>= fun merged =>
        .ok (merged.1.length, ⟨merged.2.storage, temporaries⟩) := by
  rw [LocalStorageProvider.concat_eq, Storage.concat]
  cases Storage.readAll sys.storage sourceKeys with
  | error error => rfl
  | ok content =>
      show Except.ok _ = Except.ok _
      simp only [Storage.saveStream, System.withStorage, List.flatten_cons, List.flatten_nil,
        List.append_nil]

end CloudDrive
