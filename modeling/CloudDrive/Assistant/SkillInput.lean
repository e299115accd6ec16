import CloudDrive.Foundation.Paths
import CloudDrive.Foundation.Interruption
import CloudDrive.Drive.Browsing

/-! # The input of a generated skill

`_materialize_input` of `assistant/skills/authoring.py` copies a file, or a folder with
all below it, under the names of the drive into a directory made for one run. -/

namespace CloudDrive

open Outcome Paths Interruption DriveService DriveItemRepository

namespace AssistantSkillService

/-- `assistant_folder_max_files` and `assistant_folder_max_bytes`. -/
structure Settings where
  folderMaxFiles : Nat
  folderMaxBytes : Nat

def Settings.default : Settings where
  folderMaxFiles := 1000
  folderMaxBytes := 500 * 1024 * 1024

/-- What is done to the disk: `mkdir(parents=True, exist_ok=True)`, `open("wb")` and the
writes to the file opened. -/
inductive DiskCommand where
  | mkdir (path : Path)
  | openFile (path : Path)
  | write (path : Path) (content : Content)
  deriving DecidableEq, Repr

def DiskCommand.path : DiskCommand → Path
  | .mkdir path | .openFile path | .write path _ => path

/-- `text.split("/")`. -/
def splitSlash (text : String) : List String :=
  (text.toList.splitOn '/').map String.ofList

/-- `Path(text).name`: the last component, where `.` and nothing are none. -/
def pathName (text : String) : String :=
  (((splitSlash text).filter fun part => decide (part ≠ "." ∧ part ≠ "")).getLast?).getD ""

/-- `_safe_input_name`. -/
def safeInputName (name : String) : String :=
  let base := if pathName name = "" then "input" else pathName name
  String.ofList (base.toList.filter fun char => decide (char ≠ Char.ofNat 0))

/-- `path.joinpath(*parts)` for parts without a slash. -/
def joinpath (path : Path) (parts : List String) : Path :=
  path ++ parts.filter fun part => decide (part ≠ "." ∧ part ≠ "")

/-- `[_safe_input_name(part) for part in rel.split("/") if part]`. -/
def safeParts (rel : String) : List String :=
  ((splitSlash rel).filter fun part => decide (part ≠ "")).map safeInputName

/-- The run of `_materialize_input`: its commands to the disk, any of which may fail. -/
abbrev Materialization := Work DiskCommand ServiceError

/-- The descendants that have content. -/
def contentFiles (descendants : List (String × DriveItem)) : List (String × DriveItem) :=
  descendants.filter fun each => decide (each.2.itemType = .file) && each.2.storageKey.isSome

section Materialize

variable (openRead : StorageKey → Except ServiceError Content)

/-- `with path.open("wb") as handle` and the copying of the blob. -/
def copyBlob (key : StorageKey) (path : Path) : Materialization Unit := do
  Work.command (.openFile path)
  let content ← Work.of (openRead key)
  Work.command (.write path content)

/-- One round of the loop that recreates the subfolders. -/
def recreate (rootDir : Path) (descendant : String × DriveItem) (_ : Unit) :
    Materialization Unit :=
  if descendant.2.itemType = .folder then
    Work.command (.mkdir (joinpath rootDir (safeParts descendant.1)))
  else
    pure ()

/-- One round of the loop that copies the files. -/
def copyFile (rootDir : Path) (file : String × DriveItem) (_ : Unit) :
    Materialization Unit :=
  match file.2.storageKey with
  | none => pure ()
  | some key => do
      let dest := joinpath rootDir (safeParts file.1)
      Work.command (.mkdir dest.dropLast)
      copyBlob openRead key dest

variable [Platform] [Collation]

def materializeInput (settings : Settings) (userId : Uuid) (item : DriveItem) (runRoot : Path)
    (sys : System) : Materialization Path :=
  match item.itemType with
  | .file =>
      match item.storageKey with
      | none => Work.of (.error (.invalidOperation "This skill runs on a file"))
      | some key => do
          let inputPath := joinpath runRoot [safeInputName item.name]
          copyBlob openRead key inputPath
          pure inputPath
  | .folder => do
      let descendants ← Work.of (collectFolderDescendants userId item.id sys)
      let files := contentFiles descendants
      let _ ← Work.of (require (files.length ≤ settings.folderMaxFiles) (.invalidOperation
        s!"Folder has too many files to process (max {settings.folderMaxFiles})"))
      let _ ← Work.of (require
        ((files.map fun file => file.2.sizeBytes).sum ≤ settings.folderMaxBytes)
        (.invalidOperation
          s!"Folder is too large to process (max {settings.folderMaxBytes} bytes)"))
      let rootDir := joinpath runRoot [safeInputName item.name]
      let _ ← Work.command (.mkdir rootDir)
      let _ ← Work.forEach (recreate rootDir) descendants ()
      let _ ← Work.forEach (copyFile openRead rootDir) files ()
      pure rootDir

end Materialize

/-! ## The names that become components -/

theorem splitSlash_name {name : String} (noSlash : '/' ∉ name.toList) :
    splitSlash name = [name] := by
  rw [splitSlash, List.splitOn_eq_singleton noSlash, List.map_singleton, String.ofList_toList]

theorem splitSlash_relative {above name : String} (nonempty : above ≠ "")
    (noSlash : '/' ∉ name.toList) :
    splitSlash (relative above name) = splitSlash above ++ [name] := by
  have slash : "/".toList = ['/'] := rfl
  rw [relative, if_neg nonempty, splitSlash, String.toList_append, String.toList_append, slash,
    List.append_assoc, List.singleton_append, List.splitOn_append_cons_self, List.map_append]
  exact congrArg _ (splitSlash_name noSlash)

/-- Splitting a collected path gives the names it was joined from. -/
theorem splitSlash_path : ∀ {names : List String}, names ≠ [] →
    (∀ name ∈ names, Accepted name) → splitSlash (names.foldl relative "") = names := by
  intro names
  induction names using List.reverseRecOn with
  | nil => exact fun nonempty => absurd rfl nonempty
  | append_singleton names last induction =>
      intro _ accepted
      have lastAccepted := accepted last (List.mem_append_right _ List.mem_cons_self)
      have before : ∀ name ∈ names, Accepted name := fun name member =>
        accepted name (List.mem_append_left _ member)
      rw [List.foldl_concat]
      by_cases first : names = []
      · rw [first]
        exact splitSlash_name lastAccepted.noSlash
      · have split := induction first before
        rw [splitSlash_relative _ lastAccepted.noSlash, split]
        intro empty
        rw [empty] at split
        have blank : Accepted "" := before "" (split ▸ List.mem_cons_self)
        exact blank.notEmpty rfl

theorem safeInputName_accepted {name : String} (accepted : Accepted name) :
    safeInputName name = if name = "." then "input" else name := by
  have noNul : ∀ char ∈ name.toList, char ≠ Char.ofNat 0 := by
    intro char member isNul
    have valid := accepted.noSeparator char member
    rw [isNul] at valid
    cases valid
  have isName : pathName name = if name = "." then "" else name := by
    rw [pathName, splitSlash_name accepted.noSlash]
    by_cases dot : name = "."
    · rw [dot]
      rfl
    · simp [dot, accepted.notEmpty]
  rw [safeInputName, isName]
  by_cases dot : name = "."
  · rw [if_pos dot, if_pos dot]
    rfl
  · rw [if_neg dot, if_neg dot, if_neg accepted.notEmpty]
    simp only [List.filter_eq_self.mpr fun char member => decide_eq_true (noNul char member),
      String.ofList_toList]

theorem safeInputName_leads {name : String} (accepted : Accepted name) :
    Leads (safeInputName name) := by
  rw [safeInputName_accepted accepted]
  split
  · exact ⟨by decide, by decide⟩
  · rename_i notDot
    exact ⟨notDot, accepted.notEmpty⟩

/-- `_safe_input_name` lets `..` through, and nothing else becomes `..`. -/
theorem safeInputName_up {name : String} (accepted : Accepted name) :
    safeInputName name = ".." ↔ name = ".." := by
  rw [safeInputName_accepted accepted]
  split
  · rename_i dot
    rw [dot]
    decide
  · rfl

theorem safeParts_path {names : List String} (nonempty : names ≠ [])
    (accepted : ∀ name ∈ names, Accepted name) :
    safeParts (names.foldl relative "") = names.map safeInputName := by
  rw [safeParts, splitSlash_path nonempty accepted, List.filter_eq_self.mpr]
  exact fun name member => decide_eq_true (accepted name member).notEmpty

theorem joinpath_leads {path : Path} {parts : List String} (leads : ∀ part ∈ parts, Leads part) :
    joinpath path parts = path ++ parts := by
  rw [joinpath, List.filter_eq_self.mpr]
  exact fun part member => decide_eq_true ⟨(leads part member).notHere, (leads part member).notEmpty⟩

theorem map_safeInputName_leads {names : List String}
    (accepted : ∀ name ∈ names, Accepted name) :
    ∀ part ∈ names.map safeInputName, Leads part := by
  intro part member
  rcases List.mem_map.mp member with ⟨name, among, rfl⟩
  exact safeInputName_leads (accepted name among)

theorem count_safeInputName : ∀ {names : List String}, (∀ name ∈ names, Accepted name) →
    (names.map safeInputName).count ".." = names.count ".."
  | [], _ => rfl
  | name :: rest, accepted => by
      have later := count_safeInputName fun other member =>
        accepted other (List.mem_cons_of_mem _ member)
      have up := safeInputName_up (accepted name List.mem_cons_self)
      rw [List.map_cons, List.count_cons, List.count_cons, later]
      simp only [beq_iff_eq, up]

theorem staysBelow_safe {names : List String} (accepted : ∀ name ∈ names, Accepted name) :
    StaysBelow (names.map safeInputName) ↔ StaysBelow names := by
  constructor
  · intro stays
    constructor
    intro part isPrefix nonempty
    have deep := stays.entered _ (isPrefix.map safeInputName)
      (by rwa [ne_eq, List.map_eq_nil_iff])
    rwa [count_safeInputName fun name member => accepted name (isPrefix.subset member),
      List.length_map] at deep
  · intro stays
    constructor
    intro part isPrefix nonempty
    rcases List.prefix_map_iff.mp isPrefix with ⟨given, givenPrefix, rfl⟩
    rw [count_safeInputName fun name member => accepted name (givenPrefix.subset member),
      List.length_map]
    exact stays.entered given givenPrefix fun empty => nonempty (by rw [empty, List.map_nil])

/-! ## Inside the directory of the run -/

/-- The paths a command opens. Making a directory may make the parents it lacks, where
the directory of the run is there already. -/
inductive DiskCommand.Opens (runRoot : Path) : DiskCommand → Path → Prop where
  | itself (command : DiskCommand) : Opens runRoot command command.path
  | parent {path part : Path} : part <+: path → runRoot.length < part.length →
      Opens runRoot (.mkdir path) part

structure DiskCommand.OpensInside (runRoot : Path) (command : DiskCommand) : Prop where
  inside : ∀ path, command.Opens runRoot path → Inside runRoot path

theorem opensInside_of_staysBelow {runRoot parts : Path} {command : DiskCommand}
    (isPath : command.path = runRoot ++ parts) (nonempty : parts ≠ [])
    (leads : ∀ part ∈ parts, Leads part) (stays : StaysBelow parts) :
    command.OpensInside runRoot := by
  have inside := (inside_iff_staysBelow runRoot leads).mpr stays
  constructor
  intro path opens
  cases opens with
  | itself =>
      rw [isPath]
      exact inside parts List.prefix_rfl nonempty
  | parent isPrefix deeper =>
      rw [DiskCommand.path] at isPath
      rw [isPath] at isPrefix
      rcases List.prefix_of_prefix_length_le (List.prefix_append runRoot parts) isPrefix
        deeper.le with ⟨rest, rfl⟩
      apply inside rest ((List.prefix_append_right_inj runRoot).mp isPrefix)
      intro empty
      rw [empty, List.append_nil] at deeper
      exact absurd deeper (lt_irrefl _)

section Confined

variable [Platform]

/-- The names, from `item` downwards, of what a run copies. -/
inductive Place (db : Database) (userId : Uuid) (item : DriveItem) : List String → Prop where
  | itself : Place db userId item [item.name]
  | inside {row : DriveItem} {names : List String} : item.itemType = .folder →
      Below db userId item.id names row →
      row.itemType = .folder ∨ row.storageKey.isSome = true →
      Place db userId item (item.name :: names)

theorem Place.of_prefix {db : Database} {userId : Uuid} {item : DriveItem}
    {names part : List String} (place : Place db userId item names)
    (isPrefix : part <+: names) (nonempty : part ≠ []) : Place db userId item part := by
  rcases place with _ | ⟨isFolder, below, copied⟩
  · rcases List.prefix_cons_iff.mp isPrefix with rfl | ⟨rest, rfl, ends⟩
    · exact absurd rfl nonempty
    · rw [List.prefix_nil.mp ends]
      exact .itself
  · rcases List.prefix_cons_iff.mp isPrefix with rfl | ⟨rest, rfl, restPrefix⟩
    · exact absurd rfl nonempty
    · by_cases ends : rest = []
      · rw [ends]
        exact .itself
      · rcases below.folder_above rest restPrefix ends with rfl | ⟨folder, further, kind⟩
        · exact .inside isFolder below copied
        · exact .inside isFolder further (.inl kind)

theorem Place.accepted {db : Database} {userId : Uuid} {item : DriveItem}
    {names : List String} (place : Place db userId item names) (member : item ∈ db.items)
    (named : ∀ row ∈ db.items, Accepted row.name) : ∀ name ∈ names, Accepted name := by
  rcases place with _ | ⟨_, below, _⟩
  · intro name among
    rw [List.mem_singleton.mp among]
    exact named item member
  · intro name among
    rcases List.mem_cons.mp among with rfl | later
    · exact named item member
    · rcases below.named name later with ⟨row, isRow, rfl⟩
      exact named row isRow

variable [Collation]

/-- The request is not refused before it writes to the disk. -/
def Admitted (settings : Settings) (userId : Uuid) (item : DriveItem) (sys : System) : Prop :=
  match item.itemType with
  | .file => item.storageKey.isSome = true
  | .folder => ∃ descendants, collectFolderDescendants userId item.id sys = .ok descendants ∧
      (contentFiles descendants).length ≤ settings.folderMaxFiles ∧
      ((contentFiles descendants).map fun file => file.2.sizeBytes).sum ≤
        settings.folderMaxBytes

/-! ### Nothing else is opened -/

omit [Platform] [Collation] in
theorem copyBlob_only {openRead : StorageKey → Except ServiceError Content}
    {Allowed : DiskCommand → Prop} {path : Path} (opens : Allowed (.openFile path))
    (writes : ∀ content, Allowed (.write path content)) (key : StorageKey) :
    (copyBlob openRead key path).Only Allowed := by
  rw [copyBlob]
  apply (Work.only_command opens).bind
  intro _ _
  apply (Work.only_of _ _).bind
  intro content _
  exact Work.only_command (writes content)

omit [Platform] [Collation] in
theorem joinpath_item (runRoot : Path) {item : DriveItem} (accepted : Accepted item.name) :
    joinpath runRoot [safeInputName item.name] = runRoot ++ [safeInputName item.name] := by
  apply joinpath_leads
  intro part member
  rw [List.mem_singleton.mp member]
  exact safeInputName_leads accepted

omit [Platform] [Collation] in
/-- Where a descendant is copied to. -/
theorem joinpath_place (runRoot : Path) {item : DriveItem} {names : List String}
    (nonempty : names ≠ []) (accepted : ∀ name ∈ item.name :: names, Accepted name) :
    joinpath (joinpath runRoot [safeInputName item.name])
        (safeParts (names.foldl relative "")) =
      runRoot ++ (item.name :: names).map safeInputName := by
  have rest : ∀ name ∈ names, Accepted name := fun name member =>
    accepted name (List.mem_cons_of_mem _ member)
  rw [joinpath_item runRoot (accepted item.name List.mem_cons_self), safeParts_path nonempty rest,
    joinpath_leads (map_safeInputName_leads rest), List.append_assoc]
  rfl

/-- Below `item`, or at it, no name chain of a row leaves as much as it entered. -/
structure ChainsStayBelow (db : Database) (userId : Uuid) (item : DriveItem) : Prop where
  stays : ∀ names, Place db userId item names → StaysBelow names

variable {settings : Settings} {userId : Uuid} {item : DriveItem} {runRoot : Path}
  {sys : System}

omit [Collation] in
theorem ChainsStayBelow.opensInside {names : List String} {command : DiskCommand}
    (chains : ChainsStayBelow sys.db userId item) (member : item ∈ sys.db.items)
    (named : ∀ row ∈ sys.db.items, Accepted row.name) (place : Place sys.db userId item names)
    (nonempty : names ≠ []) (isPath : command.path = runRoot ++ names.map safeInputName) :
    command.OpensInside runRoot := by
  have accepted := place.accepted member named
  apply opensInside_of_staysBelow isPath
  · rwa [ne_eq, List.map_eq_nil_iff]
  · exact map_safeInputName_leads accepted
  · exact (staysBelow_safe accepted).mpr (chains.stays names place)

omit [Collation] in
theorem recreate_only {names : List String} {row : DriveItem}
    (chains : ChainsStayBelow sys.db userId item) (member : item ∈ sys.db.items)
    (named : ∀ row ∈ sys.db.items, Accepted row.name) (isFolder : item.itemType = .folder)
    (below : Below sys.db userId item.id names row) (state : Unit) :
    (recreate (joinpath runRoot [safeInputName item.name]) (names.foldl relative "", row)
      state).Only (DiskCommand.OpensInside runRoot) := by
  rw [recreate]
  split
  · rename_i isSubfolder
    have place : Place sys.db userId item (item.name :: names) :=
      .inside isFolder below (.inl isSubfolder)
    apply Work.only_command
    apply chains.opensInside member named place (List.cons_ne_nil _ _)
    exact joinpath_place runRoot below.names_ne_nil (place.accepted member named)
  · exact Work.only_of _ _

omit [Collation] in
theorem copyFile_only {names : List String} {row : DriveItem}
    (chains : ChainsStayBelow sys.db userId item) (member : item ∈ sys.db.items)
    (named : ∀ row ∈ sys.db.items, Accepted row.name) (isFolder : item.itemType = .folder)
    (below : Below sys.db userId item.id names row)
    (openRead : StorageKey → Except ServiceError Content) (state : Unit) :
    (copyFile openRead (joinpath runRoot [safeInputName item.name])
      (names.foldl relative "", row) state).Only (DiskCommand.OpensInside runRoot) := by
  rw [copyFile]
  split
  · exact Work.only_of _ _
  · rename_i key hasKey
    have place : Place sys.db userId item (item.name :: names) :=
      .inside isFolder below (.inr (by rw [hasKey]; rfl))
    have isDest := joinpath_place runRoot below.names_ne_nil
      (place.accepted member named)
    have inside : ∀ command : DiskCommand,
        command.path = runRoot ++ (item.name :: names).map safeInputName →
        command.OpensInside runRoot := fun command isPath =>
      chains.opensInside member named place (List.cons_ne_nil _ _) isPath
    apply Work.Only.bind
    · apply Work.only_command
      have short : (item.name :: names).dropLast ≠ [] := by
        rw [List.dropLast_cons_of_ne_nil below.names_ne_nil]
        exact List.cons_ne_nil _ _
      have parent := place.of_prefix (List.dropLast_prefix _) short
      apply chains.opensInside member named parent short
      rw [DiskCommand.path, isDest, List.map_dropLast,
        List.dropLast_append_of_ne_nil (by rw [List.map_cons]; exact List.cons_ne_nil _ _)]
    · intro _ _
      exact copyBlob_only (inside _ isDest) (fun content => inside _ isDest) key

theorem materializeInput_only (member : item ∈ sys.db.items)
    (named : ∀ row ∈ sys.db.items, Accepted row.name)
    (chains : Admitted settings userId item sys → ChainsStayBelow sys.db userId item)
    (openRead : StorageKey → Except ServiceError Content) :
    (materializeInput openRead settings userId item runRoot sys).Only
      (DiskCommand.OpensInside runRoot) := by
  have itself := joinpath_item runRoot (named item member)
  rw [materializeInput]
  split
  · rename_i isFile
    split
    · exact Work.only_of _ _
    · rename_i key hasKey
      have stay := chains (by simp [Admitted, isFile, hasKey])
      have inside : ∀ command : DiskCommand,
          command.path = joinpath runRoot [safeInputName item.name] →
          command.OpensInside runRoot := by
        intro command isPath
        apply stay.opensInside member named .itself (List.cons_ne_nil _ _)
        rw [isPath, itself]
        rfl
      apply (copyBlob_only (inside _ rfl) (fun content => inside _ rfl) key).bind
      exact fun _ _ => Work.only_of _ _
  · rename_i isFolder
    apply (Work.only_of _ _).bind
    intro descendants collected
    apply (Work.only_of _ _).bind
    intro _ fewFiles
    apply (Work.only_of _ _).bind
    intro _ fewBytes
    rw [Work.outcome_of] at collected fewFiles fewBytes
    have stay : ChainsStayBelow sys.db userId item := by
      apply chains
      simp only [Admitted, isFolder]
      exact ⟨descendants, collected, (require_eq_ok.mp fewFiles),
        (require_eq_ok.mp fewBytes)⟩
    have chained : ∀ each ∈ descendants, ∃ names,
        Below sys.db userId item.id names each.2 ∧ each.1 = names.foldl relative "" :=
      fun each among => (mem_collectFolderDescendants collected).mp among
    apply (Work.only_command _).bind
    · intro _ _
      apply Work.Only.bind
      · apply Work.only_forEach fun _ => True
        · intro each among state _
          rcases each with ⟨path, row⟩
          rcases chained _ among with ⟨names, below, rfl⟩
          exact ⟨recreate_only stay member named isFolder below state, fun _ _ => trivial⟩
        · trivial
      · intro _ _
        apply Work.Only.bind
        · apply Work.only_forEach fun _ => True
          · intro each among state _
            rcases each with ⟨path, row⟩
            rcases chained _ (List.mem_of_mem_filter among) with ⟨names, below, rfl⟩
            exact ⟨copyFile_only stay member named isFolder below openRead state,
              fun _ _ => trivial⟩
          · trivial
        · exact fun _ _ => Work.only_of _ _
    · apply stay.opensInside member named .itself (List.cons_ne_nil _ _)
      rw [DiskCommand.path, itself]
      rfl

/-! ### All of it is opened -/

omit [Platform] [Collation] in
theorem copyBlob_completes {openRead : StorageKey → Except ServiceError Content}
    (reads : ∀ key, ∃ content, openRead key = .ok content) (key : StorageKey) (path : Path) :
    (copyBlob openRead key path).outcome = .ok () ∧
      .openFile path ∈ (copyBlob openRead key path).commands := by
  rcases reads key with ⟨content, read⟩
  constructor
  · simp only [copyBlob, Work.outcome_bind, Work.outcome_command, Work.outcome_of, read]
    rfl
  · exact (Work.mem_commands_bind rfl).mpr (.inl List.mem_cons_self)

omit [Platform] [Collation] in
theorem recreate_completes (rootDir : Path) (descendant : String × DriveItem) (state : Unit) :
    (recreate rootDir descendant state).outcome = .ok () := by
  rw [recreate]
  split <;> rfl

omit [Platform] [Collation] in
theorem copyFile_completes {openRead : StorageKey → Except ServiceError Content}
    (reads : ∀ key, ∃ content, openRead key = .ok content) (rootDir : Path)
    (file : String × DriveItem) (state : Unit) :
    (copyFile openRead rootDir file state).outcome = .ok () := by
  rw [copyFile]
  split
  · rfl
  · rename_i key _
    rw [Work.outcome_bind, Work.outcome_command]
    exact (copyBlob_completes reads key _).1

/-- The commands of an admitted folder run. -/
theorem mem_commands_folder {openRead : StorageKey → Except ServiceError Content}
    (reads : ∀ key, ∃ content, openRead key = .ok content) (isFolder : item.itemType = .folder)
    {descendants : List (String × DriveItem)}
    (collected : collectFolderDescendants userId item.id sys = .ok descendants)
    (fewFiles : (contentFiles descendants).length ≤ settings.folderMaxFiles)
    (fewBytes : ((contentFiles descendants).map fun file => file.2.sizeBytes).sum ≤
      settings.folderMaxBytes) {rootDir : Path}
    (isRoot : rootDir = joinpath runRoot [safeInputName item.name]) {command : DiskCommand}
    (among : command = .mkdir rootDir ∨
      (∃ each ∈ descendants, command ∈ (recreate rootDir each ()).commands) ∨
      ∃ file ∈ contentFiles descendants, command ∈ (copyFile openRead rootDir file ()).commands) :
    command ∈ (materializeInput openRead settings userId item runRoot sys).commands := by
  have recreated := @Work.forEach_completes _ _ _ _ (recreate rootDir) descendants ()
    fun each _ state => ⟨(), recreate_completes rootDir each state⟩
  have copied := @Work.forEach_completes _ _ _ _ (copyFile openRead rootDir)
    (contentFiles descendants) ()
    fun file _ state => ⟨(), copyFile_completes reads rootDir file state⟩
  have passes : ∀ {count bound : Nat} {error : ServiceError}, count ≤ bound →
      require (count ≤ bound) error = .ok () := fun few => require_eq_ok.mpr few
  rcases recreated with ⟨⟨_, recreates⟩, folders⟩
  rcases copied with ⟨⟨_, copies⟩, files⟩
  simp only [materializeInput, isFolder, collected, ← isRoot]
  apply (Work.mem_commands_bind rfl).mpr
  apply Or.inr
  apply (Work.mem_commands_bind (passes fewFiles)).mpr
  apply Or.inr
  apply (Work.mem_commands_bind (passes fewBytes)).mpr
  apply Or.inr
  apply (Work.mem_commands_bind rfl).mpr
  rcases among with rfl | ⟨each, member, given⟩ | ⟨file, member, given⟩
  · exact .inl List.mem_cons_self
  · rcases folders each member with ⟨_, all⟩
    exact .inr ((Work.mem_commands_bind recreates).mpr (.inl (all command given)))
  · rcases files file member with ⟨_, all⟩
    apply Or.inr
    apply (Work.mem_commands_bind recreates).mpr
    apply Or.inr
    exact (Work.mem_commands_bind copies).mpr (.inl (all command given))

theorem place_opened (runRoot : Path) {openRead : StorageKey → Except ServiceError Content}
    (reads : ∀ key, ∃ content, openRead key = .ok content) (member : item ∈ sys.db.items)
    (named : ∀ row ∈ sys.db.items, Accepted row.name)
    (admitted : Admitted settings userId item sys) {names : List String}
    (place : Place sys.db userId item names) :
    ∃ command ∈ (materializeInput openRead settings userId item runRoot sys).commands,
      command.path = runRoot ++ names.map safeInputName := by
  have accepted := place.accepted member named
  have itself := joinpath_item runRoot (named item member)
  rw [Admitted] at admitted
  split at admitted
  · rename_i isFile
    rcases Option.isSome_iff_exists.mp admitted with ⟨key, hasKey⟩
    simp only [materializeInput, isFile, hasKey]
    have copied := copyBlob_completes reads key (joinpath runRoot [safeInputName item.name])
    cases place with
    | itself => exact ⟨_, (Work.mem_commands_bind copied.1).mpr (.inl copied.2), itself⟩
    | inside isFolder _ _ =>
        rw [isFile] at isFolder
        cases isFolder
  · rename_i isFolder
    rcases admitted with ⟨descendants, collected, fewFiles, fewBytes⟩
    have given := @mem_commands_folder _ _ settings userId item runRoot sys openRead reads
      isFolder descendants collected fewFiles fewBytes _ rfl
    cases place with
    | itself => exact ⟨_, given (.inl rfl), itself⟩
    | @inside row names _ below copied =>
        have isDest := joinpath_place runRoot below.names_ne_nil accepted
        have found := (mem_collectFolderDescendants collected).mpr ⟨names, below, rfl⟩
        by_cases isSubfolder : row.itemType = .folder
        · apply Exists.intro (.mkdir _)
          apply And.intro (given (.inr (.inl ⟨_, found, _⟩))) isDest
          rw [recreate, if_pos isSubfolder]
          exact List.mem_cons_self
        · have isFile : row.itemType = .file := by
            cases kind : row.itemType with
            | file => rfl
            | folder => exact absurd kind isSubfolder
          have hasContent := copied.resolve_left isSubfolder
          rcases Option.isSome_iff_exists.mp hasContent with ⟨key, hasKey⟩
          have among : (names.foldl relative "", row) ∈ contentFiles descendants := by
            apply List.mem_filter.mpr
            simp [found, isFile, hasContent]
          apply Exists.intro (.openFile _)
          apply And.intro (given (.inr (.inr ⟨_, among, _⟩))) isDest
          simp only [copyFile, hasKey]
          exact (Work.mem_commands_bind rfl).mpr (.inr (copyBlob_completes reads key _).2)

/-! ## The result -/

/-- Whatever the storage answers and wherever the run fails, it opens only paths inside its
directory exactly when, unless it is refused first, no chain of names it copies has
left as many folders by `..` as it has entered. -/
theorem materializesInside_iff (member : item ∈ sys.db.items)
    (named : ∀ row ∈ sys.db.items, Accepted row.name) :
    (∀ openRead, (materializeInput openRead settings userId item runRoot sys).Only
      (DiskCommand.OpensInside runRoot)) ↔
      (Admitted settings userId item sys → ChainsStayBelow sys.db userId item) := by
  constructor
  · intro confined admitted
    constructor
    intro names place
    have accepted := place.accepted member named
    have reads : ∀ _ : StorageKey, ∃ content : Content,
        (Except.ok [] : Except ServiceError Content) = .ok content := fun _ => ⟨[], rfl⟩
    apply (staysBelow_safe accepted).mp
    apply (inside_iff_staysBelow runRoot (map_safeInputName_leads accepted)).mp
    intro part isPrefix nonempty
    rcases List.prefix_map_iff.mp isPrefix with ⟨given, givenPrefix, rfl⟩
    have givenNonempty : given ≠ [] := fun empty => nonempty (by rw [empty, List.map_nil])
    have opened := place_opened runRoot reads member named admitted
      (place.of_prefix givenPrefix givenNonempty)
    rcases opened with ⟨command, among, isPath⟩
    rw [← isPath]
    exact ((confined _).commands command among).inside _ (.itself command)
  · exact fun chains openRead => materializeInput_only member named chains openRead

end Confined

/-! ## A folder called `..` -/

section Upwards

attribute [local instance] smallPlatform smallCollation

private def uploadUpwards : List Op :=
  [.createFolder 1 none "..", .uploadSimple 1 (some 10) "plan.txt" [[65]] 1 none]

private def upwards : System := afterFirstDay uploadUpwards

private def runDirectory : Path := ["tmp", "skill_input_a"]

private theorem upwards_named : ∀ row ∈ upwards.db.items, Accepted row.name := by
  have names : ∀ row ∈ upwards.db.items.rows, row.name = ".." ∨ row.name = "plan.txt" := by
    decide
  intro row member
  rcases names row member with isName | isName
  · have checked : validateName ".." = .ok ".." := by decide
    rw [isName]
    exact (checkName_ok checked).2
  · have checked : safeFilename "plan.txt" = .ok "plan.txt" := by decide
    rw [isName]
    exact (checkName_ok checked).2

private def dotDot : DriveItem := newItem firstDay 1 none .folder ".." 1

private theorem dotDot_member : dotDot ∈ upwards.db.items :=
  show dotDot ∈ upwards.db.items.rows by decide

/-- The file alone is copied into the directory of the run. -/
theorem materializesInside_iff_planFile :
    ∃ item ∈ upwards.db.items, item.name = "plan.txt" ∧ Admitted .default 1 item upwards ∧
      ∀ openRead, (materializeInput openRead .default 1 item runDirectory upwards).Only
        (DiskCommand.OpensInside runDirectory) := by
  have planFile : ∃ row ∈ upwards.db.items.rows, row.name = "plan.txt" ∧ row.itemType = .file ∧
      row.storageKey.isSome = true := by decide
  rcases planFile with ⟨item, member, isName, isFile, stored⟩
  have admitted : Admitted .default 1 item upwards := by
    rw [Admitted, isFile]
    exact stored
  refine ⟨item, member, isName, admitted, ?_⟩
  apply (materializesInside_iff member upwards_named).mpr
  intro _
  constructor
  intro names place
  cases place with
  | inside isFolder =>
      rw [isFile] at isFolder
      cases isFolder
  | itself =>
      constructor
      intro part isPrefix nonempty
      rcases List.prefix_cons_iff.mp isPrefix with rfl | ⟨rest, rfl, ends⟩
      · exact absurd rfl nonempty
      · rw [List.prefix_nil.mp ends, isName]
        decide

/-- The file lands beside the directory of the run. -/
theorem dotDot_escapes :
    (∃ events, History firstDay events upwards) ∧ dotDot ∈ upwards.db.items ∧
      (∀ row ∈ upwards.db.items, Accepted row.name) ∧
      (.write (runDirectory ++ ["..", "plan.txt"]) [65] : DiskCommand) ∈
        (materializeInput (fun _ => .ok [65]) .default 1 dotDot runDirectory upwards).commands ∧
      resolve (runDirectory ++ ["..", "plan.txt"]) = ["tmp", "plan.txt"] ∧
      ¬ ∀ openRead, (materializeInput openRead .default 1 dotDot runDirectory upwards).Only
        (DiskCommand.OpensInside runDirectory) := by
  have history : History firstDay (Op.trace uploadUpwards firstDay) upwards :=
    firstDay_trace (by simp [uploadUpwards, Op.Offered]) rfl
  have written : (.write (runDirectory ++ ["..", "plan.txt"]) [65] : DiskCommand) ∈
      (materializeInput (fun _ => .ok [65]) .default 1 dotDot runDirectory upwards).commands := by
    decide
  have outside : ¬ Inside runDirectory (runDirectory ++ ["..", "plan.txt"]) := by decide
  apply And.intro ⟨_, history⟩
  apply And.intro dotDot_member
  apply And.intro upwards_named
  apply And.intro written
  apply And.intro (by decide)
  intro confined
  exact outside (((confined _).commands _ written).inside _ (.itself _))

end Upwards

end AssistantSkillService

end CloudDrive
