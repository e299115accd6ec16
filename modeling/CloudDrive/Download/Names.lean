import CloudDrive.Download.Contents

/-! # The names in an archive

No two entries have one name. Extracting stays inside the target directory unless a packed
file has a `.` or `..` on its way, which both name checks accept. -/

namespace CloudDrive

open Outcome Relational Forest DriveItemRepository DriveService

/-- The order of texts ties no two of them, as that of a deterministic collation. -/
class StrictCollation [Collation] : Prop extends LawfulCollation where
  antisymm : ∀ {left right}, Collation.before left right = true →
    Collation.before right left = true → left = right

/-- Live items of one owner in one place have different names. -/
def DistinctSiblings [Platform] (items : ItemTable) : Prop :=
  ∀ left ∈ items, ∀ right ∈ items, left.isDeleted = false → right.isDeleted = false →
    left.ownerId = right.ownerId → left.parentId = right.parentId → left.name = right.name →
      left = right

namespace DownloadService

/-! ## Safe names -/

/-- The components of a path. -/
def components (path : String) : List String :=
  (path.toList.splitOn '/').map String.ofList

def IsDots (name : String) : Prop :=
  name = "." ∨ name = ".."

/-- A relative path that only descends. -/
def SafePath (path : String) : Prop :=
  ∀ name ∈ components path, name ≠ "" ∧ ¬ IsDots name

/-- Extracted under these names, no entry overwrites another one, and none leaves the target
directory. -/
structure SafeNames (names : List String) : Prop where
  distinct : names.Nodup
  inside : ∀ name ∈ names, SafePath name

/-- No file is packed by way of a name of dots. A selected item that has a name of an earlier
one is renamed. -/
structure DotFree [Platform] (sys : System) (selection : List DriveItem) : Prop where
  top : ∀ earlier item later, selection = earlier ++ item :: later → CarriesFiles sys item →
    IsDots item.name → ∃ other ∈ earlier, other.name = item.name
  below : ∀ item ∈ selection, ∀ names file,
    Below sys.db item.ownerId item.id names file → PackableFile sys file →
      ∀ name ∈ names, ¬ IsDots name

theorem IsDots.noBracket {name : String} (dots : IsDots name) : '(' ∉ name.toList := by
  rcases dots with rfl | rfl <;> decide

theorem components_name {name : String} (noSlash : '/' ∉ name.toList) :
    components name = [name] := by
  rw [components, List.splitOn_eq_singleton noSlash, List.map_singleton, String.ofList_toList]

/-- An arcname is split into the names that it was joined from. -/
theorem components_arcname : ∀ {names : List String} {above : String},
    (∀ name ∈ names, '/' ∉ name.toList) →
      components (arcname above names) = components above ++ names
  | [], above, _ => (List.append_nil _).symm
  | name :: rest, above, noSlash => by
      have slash : "/".toList = ['/'] := rfl
      have first : components (above ++ "/" ++ name) = components above ++ [name] := by
        rw [← components_name (noSlash name List.mem_cons_self)]
        simp only [components, String.toList_append, slash, List.append_assoc,
          List.singleton_append, List.splitOn_append_cons_self, List.map_append]
      have later : components (arcname (above ++ "/" ++ name) rest) =
          components (above ++ "/" ++ name) ++ rest :=
        components_arcname fun other member => noSlash other (List.mem_cons_of_mem _ member)
      rw [first, List.append_assoc, List.singleton_append] at later
      exact later

/-! ## Children in a strict order -/

section Untied

variable [Collation] [StrictCollation]

theorem sortsBefore_tied {left right : DriveItem}
    (first : sortsBefore .name .asc left right = true)
    (second : sortsBefore .name .asc right left = true) : left.name = right.name := by
  by_cases same : left.itemType = right.itemType
  · rw [sortsBefore_asc same] at first
    rw [sortsBefore_asc same.symm] at second
    exact StrictCollation.antisymm first second
  · rw [sortsBefore_apart same] at first
    rw [sortsBefore_apart (Ne.symm same)] at second
    exact absurd (first.trans second.symm) same

variable [Platform] {sys : System}

omit [Collation] [StrictCollation] in
theorem same_of_name {db : Database} (distinct : DistinctSiblings db.items)
    {left right : DriveItem} {topId ownerId : Uuid}
    (leftAmong : left ∈ children db (some topId) ownerId)
    (rightAmong : right ∈ children db (some topId) ownerId) (same : left.name = right.name) :
    left = right := by
  rcases mem_children.mp leftAmong with ⟨leftMem, leftOwned, leftLive, leftHangs⟩
  rcases mem_children.mp rightAmong with ⟨rightMem, rightOwned, rightLive, rightHangs⟩
  exact distinct left leftMem right rightMem leftLive rightLive
    (leftOwned.trans rightOwned.symm) (leftHangs.trans rightHangs.symm) same

/-- Children with different names are on one page each. -/
theorem pagesKeep_of_distinct (distinct : DistinctSiblings sys.db.items) (selected : DriveItem) :
    PagesKeep sys selected := by
  intro folder _ child among _ page
  apply Pages.fixed_of_untied (sys.db.items.nodup.of_map.filter _)
  intro other otherAmong before behind
  exact same_of_name distinct otherAmong among (sortsBefore_tied before behind)

end Untied

/-! ## The names at the top -/

section Tops

variable {used seen : List String} {item : DriveItem} {name top : String}

theorem Numbered.bracket (numbered : Numbered name top) : '(' ∈ top.toList := by
  rcases numbered with ⟨base, number, suffix, rfl, _⟩
  rw [numberedName_toList]
  simp

theorem Numbered.noSlash (numbered : Numbered name top) (noSlash : '/' ∉ name.toList) :
    '/' ∉ top.toList := by
  rcases numbered with ⟨base, number, suffix, rfl, chars⟩
  have parts : '/' ∉ base.toList ++ suffix.toList := by
    intro member
    rcases chars '/' member with inName | isDot
    · exact noSlash inName
    · cases isDot
  have counter : '/' ∉ ' ' :: '(' :: (toString number).toList ++ [')'] :=
    notMem_counter (by decide) (by decide) number
  rw [List.mem_append, not_or] at parts
  rw [numberedName_toList, List.mem_append, List.mem_append, not_or, not_or]
  exact ⟨⟨parts.1, counter⟩, parts.2⟩

/-- A name at the top is a component. -/
theorem top_component (isTop : dedupe used name = .ok top) (accepted : Accepted name) :
    '/' ∉ top.toList ∧ top ≠ "" := by
  rcases (dedupe_ok isTop).2 with ⟨_, rfl⟩ | ⟨_, numbered⟩
  · exact ⟨accepted.noSlash, accepted.notEmpty⟩
  · apply And.intro (numbered.noSlash accepted.noSlash)
    intro blank
    have bracket := numbered.bracket
    rw [blank] at bracket
    cases bracket

/-- The used names are the names seen, and numbered ones. -/
structure Known (used seen : List String) : Prop where
  taken : ∀ name ∈ seen, name ∈ used
  origin : ∀ top ∈ used, top ∈ seen ∨ '(' ∈ top.toList

theorem Known.next (known : Known used seen) (isTop : dedupe used name = .ok top) :
    Known (used ++ [top]) (seen ++ [name]) := by
  rcases dedupe_ok isTop with ⟨_, how⟩
  constructor
  case taken =>
    intro other member
    rcases List.mem_append.mp member with old | new
    · exact List.mem_append_left _ (known.taken other old)
    · rw [List.mem_singleton.mp new]
      rcases how with ⟨_, rfl⟩ | ⟨taken, _⟩
      · exact List.mem_append_right _ List.mem_cons_self
      · exact List.mem_append_left _ taken
  case origin =>
    intro other member
    rcases List.mem_append.mp member with old | new
    · exact (known.origin other old).imp_left (List.mem_append_left _)
    · rw [List.mem_singleton.mp new]
      rcases how with ⟨_, rfl⟩ | ⟨_, numbered⟩
      · exact .inl (List.mem_append_right _ List.mem_cons_self)
      · exact .inr numbered.bracket

/-- Selected items with the names that they get at the top, one after the other. -/
inductive TopNames : List String → List (DriveItem × String) → Prop where
  | done {used : List String} : TopNames used []
  | next {used : List String} {item : DriveItem} {top : String}
      {rest : List (DriveItem × String)} : dedupe used item.name = .ok top →
      TopNames (used ++ [top]) rest → TopNames used ((item, top) :: rest)

theorem TopNames.nodup {packed : List (DriveItem × String)} (tops : TopNames used packed) :
    (packed.map Prod.snd).Nodup ∧ ∀ top ∈ packed.map Prod.snd, top ∉ used := by
  induction tops with
  | done => exact ⟨List.nodup_nil, fun _ member => absurd member List.not_mem_nil⟩
  | @next used item top rest isTop _ induction =>
      rcases induction with ⟨distinct, apart⟩
      have new := (dedupe_ok isTop).1
      constructor
      · apply List.nodup_cons.mpr
        apply And.intro _ distinct
        intro again
        exact apart top again (List.mem_append_right _ List.mem_cons_self)
      · intro other member
        rcases List.mem_cons.mp member with rfl | later
        · exact new
        · exact fun old => apart other later (List.mem_append_left _ old)

theorem TopNames.component {packed : List (DriveItem × String)} (tops : TopNames used packed)
    (accepted : ∀ each ∈ packed, Accepted each.1.name) :
    ∀ each ∈ packed, '/' ∉ each.2.toList ∧ each.2 ≠ "" := by
  induction tops with
  | done => exact fun _ member => absurd member List.not_mem_nil
  | next isTop _ induction =>
      intro each member
      rcases List.mem_cons.mp member with rfl | later
      · exact top_component isTop (accepted _ List.mem_cons_self)
      · exact induction (fun other among => accepted other (List.mem_cons_of_mem _ among)) each
          later

theorem TopNames.after {rest : List (DriveItem × String)} :
    ∀ {earlier : List (DriveItem × String)} {used seen : List String},
      TopNames used (earlier ++ rest) → Known used seen →
      TopNames (used ++ earlier.map Prod.snd) rest ∧
        Known (used ++ earlier.map Prod.snd) (seen ++ earlier.map fun each => each.1.name)
  | [], used, seen, tops, known => by
      rw [List.map_nil, List.map_nil, List.append_nil, List.append_nil]
      exact ⟨tops, known⟩
  | (item, top) :: earlier, used, seen, tops, known => by
      rcases tops with _ | ⟨isTop, later⟩
      have further := TopNames.after later (known.next isTop)
      rw [List.append_assoc, List.append_assoc] at further
      exact further

/-- An item gets a name without a number exactly when it is its own and it is the first one
that has it. -/
theorem TopNames.top_eq_iff {earlier later : List (DriveItem × String)}
    (tops : TopNames [] (earlier ++ (item, top) :: later)) (noBracket : '(' ∉ name.toList) :
    top = name ↔ item.name = name ∧ ∀ each ∈ earlier, each.1.name ≠ name := by
  have start : Known [] [] :=
    ⟨fun _ member => member, fun _ member => absurd member List.not_mem_nil⟩
  rcases tops.after start with ⟨_ | ⟨isTop, _⟩, known⟩
  rw [List.nil_append] at isTop known
  have seenIff : name ∈ earlier.map Prod.snd ↔ ∃ each ∈ earlier, each.1.name = name := by
    constructor
    · intro member
      rcases known.origin name member with seen | bracket
      · exact List.mem_map.mp seen
      · exact absurd bracket noBracket
    · intro member
      exact known.taken name (List.mem_map.mpr member)
  rcases (dedupe_ok isTop).2 with ⟨new, rfl⟩ | ⟨taken, numbered⟩
  · constructor
    · intro same
      rw [same, seenIff] at new
      exact ⟨same, fun each member named => new ⟨each, member, named⟩⟩
    · exact And.left
  · constructor
    · intro same
      have bracket := numbered.bracket
      rw [same] at bracket
      exact absurd bracket noBracket
    · intro first
      rw [first.1, seenIff] at taken
      rcases taken with ⟨each, member, named⟩
      exact absurd named (first.2 each member)

end Tops

/-! ## The names of a part -/

section Part

variable [Platform] {sys : System} {selected file : DriveItem} {names : List String}
  {top : String}

/-- The file is packed at these names below the top name of the item. -/
inductive PackedAt (sys : System) (selected : DriveItem) : List String → DriveItem → Prop where
  | itself : PackableFile sys selected → PackedAt sys selected [] selected
  | below {names : List String} {file : DriveItem} :
      Below sys.db selected.ownerId selected.id names file → PackableFile sys file →
      PackedAt sys selected names file

theorem carriesFiles_iff :
    CarriesFiles sys selected ↔ ∃ names file, PackedAt sys selected names file := by
  constructor
  · intro carries
    rcases carries with packable | ⟨names, file, below, packable⟩
    · exact ⟨[], selected, .itself packable⟩
    · exact ⟨names, file, .below below packable⟩
  · intro packed
    rcases packed with ⟨names, file, packable | ⟨below, packable⟩⟩
    · exact .inl packable
    · exact .inr ⟨names, file, below, packable⟩

theorem below_cons {db : Database} {ownerId topId : Uuid} {name : String} {item : DriveItem}
    (below : Below db ownerId topId (name :: names) item) :
    ∃ child ∈ children db (some topId) ownerId, child.name = name ∧
      (names = [] ∧ item = child ∨ Below db ownerId child.id names item) := by
  cases below with
  | child among => exact ⟨item, among, rfl, .inl ⟨rfl, rfl⟩⟩
  | deeper among _ further => exact ⟨_, among, rfl, .inr further⟩

/-- The names lead to one item only. -/
theorem below_unique {db : Database} {ownerId : Uuid} (distinct : DistinctSiblings db.items) :
    ∀ {names : List String} {topId : Uuid} {left right : DriveItem},
      Below db ownerId topId names left → Below db ownerId topId names right → left = right
  | [], _, _, _, below, _ => absurd rfl below.names_ne_nil
  | name :: rest, topId, left, right, toLeft, toRight => by
      rcases below_cons toLeft with ⟨leftChild, leftAmong, leftName, leftEnd⟩
      rcases below_cons toRight with ⟨rightChild, rightAmong, rightName, rightEnd⟩
      have same := same_of_name distinct leftAmong rightAmong (leftName.trans rightName.symm)
      subst same
      rcases leftEnd with ⟨ends, rfl⟩ | leftFurther
      · rcases rightEnd with ⟨_, rfl⟩ | rightFurther
        · rfl
        · exact absurd ends rightFurther.names_ne_nil
      · rcases rightEnd with ⟨ends, _⟩ | rightFurther
        · exact absurd ends leftFurther.names_ne_nil
        · exact below_unique distinct leftFurther rightFurther

theorem PackedAt.unique {left right : DriveItem} (distinct : DistinctSiblings sys.db.items)
    (toLeft : PackedAt sys selected names left) (toRight : PackedAt sys selected names right) :
    left = right := by
  rcases toLeft with _ | ⟨leftBelow, _⟩
  · rcases toRight with _ | ⟨rightBelow, _⟩
    · rfl
    · exact absurd rfl rightBelow.names_ne_nil
  · rcases toRight with _ | ⟨rightBelow, _⟩
    · exact absurd rfl leftBelow.names_ne_nil
    · exact below_unique distinct leftBelow rightBelow

theorem PackedAt.accepted (packed : PackedAt sys selected names file)
    (accepted : ∀ row ∈ sys.db.items, Accepted row.name) : ∀ name ∈ names, Accepted name := by
  rcases packed with _ | ⟨below, _⟩
  · exact fun _ member => absurd member List.not_mem_nil
  · intro name member
    rcases below.named name member with ⟨row, isRow, rfl⟩
    exact accepted row isRow

/-- The components of an entry's name are the top name and the names below it. -/
theorem components_entry (accepted : ∀ row ∈ sys.db.items, Accepted row.name)
    (topSlash : '/' ∉ top.toList) (packed : PackedAt sys selected names file) :
    components (arcname top names) = top :: names := by
  rw [components_arcname fun name member => (packed.accepted accepted name member).noSlash,
    components_name topSlash, List.singleton_append]

variable [Collation] {listings : Listings}

theorem packedAt_of_mem (lists : ListsChildren listings sys.db)
    (member : selected ∈ sys.db.items) {entry : ArchiveEntry}
    (among : entry ∈ partOf listings sys selected top) :
    ∃ names, entry.arcname = arcname top names ∧ PackedAt sys selected names entry.item := by
  rw [partOf] at among
  split at among
  · rename_i isFile
    by_cases stored : hasBlob sys selected = true
    · rcases maybeAdd_some stored top with ⟨key, _, adds⟩
      rw [adds] at among
      rw [List.mem_singleton.mp among]
      exact ⟨[], rfl, .itself ⟨isFile, stored⟩⟩
    · rw [maybeAdd_none (Bool.eq_false_iff.mpr stored)] at among
      cases among
  · rcases List.mem_flatMap.mp among with ⟨⟨names, file⟩, found, added⟩
    rcases filesBelow_sound lists member found with ⟨below, packable⟩
    rcases maybeAdd_some packable.2 (arcname top names) with ⟨key, _, adds⟩
    rw [adds] at added
    rw [List.mem_singleton.mp added]
    exact ⟨names, rfl, .below below packable⟩

variable [StrictCollation]

theorem PackedAt.entry (tree : FolderTree sys.db.items)
    (distinct : DistinctSiblings sys.db.items) (lists : ListsChildren listings sys.db)
    (member : selected ∈ sys.db.items) (packed : PackedAt sys selected names file) :
    arcname top names ∈ (partOf listings sys selected top).map ArchiveEntry.arcname := by
  rcases packed with packable | ⟨below, packable⟩
  · rcases maybeAdd_some packable.2 top with ⟨key, _, adds⟩
    rw [partOf, if_pos packable.1, adds]
    exact List.mem_cons_self
  · have isFolder := (liveBelow_of_below below).isFolder tree member
    have notFile : ¬ selected.itemType = .file := by
      rw [isFolder]
      exact ItemType.noConfusion
    have found := filesBelow_complete lists member (shallow_of_acyclic tree.acyclic selected.id)
      (pagesKeep_of_distinct distinct selected) below packable
    rcases maybeAdd_some packable.2 (arcname top names) with ⟨key, _, adds⟩
    rw [partOf, if_neg notFile, List.map_flatMap]
    apply List.mem_flatMap.mpr
    refine ⟨(names, file), found, ?_⟩
    rw [adds]
    exact List.mem_cons_self

omit [StrictCollation] in
theorem components_of_mem (accepted : ∀ row ∈ sys.db.items, Accepted row.name)
    (lists : ListsChildren listings sys.db) (member : selected ∈ sys.db.items)
    (topSlash : '/' ∉ top.toList) {path : String}
    (among : path ∈ (partOf listings sys selected top).map ArchiveEntry.arcname) :
    ∃ names file, PackedAt sys selected names file ∧ components path = top :: names := by
  rcases List.mem_map.mp among with ⟨entry, isEntry, rfl⟩
  rcases packedAt_of_mem lists member isEntry with ⟨names, isName, packed⟩
  rw [isName]
  exact ⟨names, _, packed, components_entry accepted topSlash packed⟩

theorem partOf_distinct (tree : FolderTree sys.db.items)
    (accepted : ∀ row ∈ sys.db.items, Accepted row.name)
    (distinct : DistinctSiblings sys.db.items) (lists : ListsChildren listings sys.db)
    (member : selected ∈ sys.db.items) (topSlash : '/' ∉ top.toList) :
    ((partOf listings sys selected top).map ArchiveEntry.arcname).Nodup := by
  have once : ((partOf listings sys selected top).map ArchiveEntry.item).Nodup :=
    partOf_once tree.acyclic lists member (pagesKeep_of_distinct distinct selected)
  apply once.of_map.map_on
  intro left leftAmong right rightAmong same
  rcases packedAt_of_mem lists member leftAmong with ⟨leftNames, leftIs, leftPacked⟩
  rcases packedAt_of_mem lists member rightAmong with ⟨rightNames, rightIs, rightPacked⟩
  have split := congrArg components same
  rw [leftIs, rightIs, components_entry accepted topSlash leftPacked,
    components_entry accepted topSlash rightPacked, List.cons.injEq] at split
  rw [← split.2] at rightPacked
  have sameItem := leftPacked.unique distinct rightPacked
  exact List.inj_on_of_nodup_map once leftAmong rightAmong sameItem

end Part

/-! ## The names of an archive -/

section Archive

variable [Platform] [Collation] {sys : System} {listings : Listings} {userId : Uuid}

theorem rounds_tops (acyclic : Acyclic sys.db.items.parentOf)
    (lists : ListsChildren listings sys.db) : ∀ {itemIds : List Uuid} {before after : Packing},
    forEach (packItem listings userId sys) itemIds before = .ok after →
      ∃ packed : List (DriveItem × String),
        packed.map Prod.fst = itemIds.filterMap sys.db.items.find? ∧
        TopNames before.usedTop packed ∧
        after.files = before.files ++ packed.flatMap fun each => partOf listings sys each.1 each.2
  | [], before, _, runs => by
      cases runs
      exact ⟨[], rfl, .done, (List.append_nil _).symm⟩
  | itemId :: rest, before, after, runs => by
      rw [forEach_cons, bind_eq_ok] at runs
      rcases runs with ⟨middle, packs, later⟩
      rcases packItem_ok acyclic lists packs with
        ⟨selected, top, isSelected, _, isTop, files, used⟩
      rcases rounds_tops acyclic lists later with ⟨packed, items, tops, laterFiles⟩
      rw [used] at tops
      refine ⟨(selected, top) :: packed, ?_, .next isTop tops, ?_⟩
      · rw [List.map_cons, items, List.filterMap_cons_some isSelected]
      · rw [laterFiles, files, List.append_assoc, List.flatMap_cons]

variable [StrictCollation] {packed : List (DriveItem × String)}

theorem tops_distinct (tree : FolderTree sys.db.items)
    (accepted : ∀ row ∈ sys.db.items, Accepted row.name)
    (distinct : DistinctSiblings sys.db.items) (lists : ListsChildren listings sys.db)
    (tops : TopNames [] packed) (members : ∀ each ∈ packed, each.1 ∈ sys.db.items) :
    ((packed.flatMap fun each => partOf listings sys each.1 each.2).map
      ArchiveEntry.arcname).Nodup := by
  have plain := tops.component fun each member => accepted each.1 (members each member)
  rw [List.map_flatMap]
  apply List.nodup_flatMap.mpr
  constructor
  · intro each member
    exact partOf_distinct tree accepted distinct lists (members each member) (plain each member).1
  · have apart : packed.Pairwise fun left right => left.2 ≠ right.2 :=
      List.pairwise_map.mp tops.nodup.1
    apply apart.imp_of_mem
    intro left right leftMem rightMem different path inLeft inRight
    -- Two items have different first components.
    rcases components_of_mem accepted lists (members left leftMem) (plain left leftMem).1 inLeft
      with ⟨leftNames, _, _, isLeft⟩
    rcases components_of_mem accepted lists (members right rightMem) (plain right rightMem).1
      inRight with ⟨rightNames, _, _, isRight⟩
    rw [isLeft, List.cons.injEq] at isRight
    exact different isRight.1

theorem tops_inside_iff (tree : FolderTree sys.db.items)
    (accepted : ∀ row ∈ sys.db.items, Accepted row.name)
    (distinct : DistinctSiblings sys.db.items) (lists : ListsChildren listings sys.db)
    (tops : TopNames [] packed) (members : ∀ each ∈ packed, each.1 ∈ sys.db.items) :
    (∀ path ∈ (packed.flatMap fun each => partOf listings sys each.1 each.2).map
      ArchiveEntry.arcname, SafePath path) ↔ DotFree sys (packed.map Prod.fst) := by
  have plain := tops.component fun each member => accepted each.1 (members each member)
  rw [List.map_flatMap]
  constructor
  · intro inside
    -- What is packed for a selected item has safe components.
    have safe : ∀ each ∈ packed, ∀ names file, PackedAt sys each.1 names file →
        ∀ name ∈ each.2 :: names, ¬ IsDots name := by
      intro each member names file packedAt name among
      have isPath : arcname each.2 names ∈
          (partOf listings sys each.1 each.2).map ArchiveEntry.arcname :=
        packedAt.entry tree distinct lists (members each member)
      rw [← components_entry accepted (plain each member).1 packedAt] at among
      exact (inside _ (List.mem_flatMap.mpr ⟨each, member, isPath⟩) name among).2
    constructor
    case top =>
      intro earlier item later split carries dots
      rcases List.map_eq_append_iff.mp split with ⟨first, rest, rfl, isEarlier, isRest⟩
      rcases List.map_eq_cons_iff.mp isRest with ⟨⟨selected, top⟩, last, rfl, rfl, _⟩
      rcases carriesFiles_iff.mp carries with ⟨names, file, packedAt⟩
      by_contra alone
      push Not at alone
      have isTop : top = selected.name := by
        apply (tops.top_eq_iff dots.noBracket).mpr
        apply And.intro rfl
        intro each member
        exact alone each.1 (isEarlier ▸ List.mem_map_of_mem member)
      have isPacked : (selected, top) ∈ first ++ (selected, top) :: last :=
        List.mem_append_right first List.mem_cons_self
      exact safe _ isPacked names file packedAt top List.mem_cons_self (isTop ▸ dots)
    case below =>
      intro item isItem names file below packable name among
      rcases List.mem_map.mp isItem with ⟨each, member, rfl⟩
      exact safe each member names file (.below below packable) name
        (List.mem_cons_of_mem _ among)
  · intro dotFree path isPath
    rcases List.mem_flatMap.mp isPath with ⟨each, member, among⟩
    rcases components_of_mem accepted lists (members each member) (plain each member).1 among with
      ⟨names, file, packedAt, split⟩
    intro name isName
    rw [split] at isName
    rcases List.mem_cons.mp isName with rfl | below
    · apply And.intro (plain each member).2
      intro dots
      rcases List.append_of_mem member with ⟨earlier, later, whole⟩
      rw [whole] at tops
      rcases (tops.top_eq_iff dots.noBracket).mp rfl with ⟨own, first⟩
      have selection : packed.map Prod.fst =
          earlier.map Prod.fst ++ each.1 :: later.map Prod.fst := by
        rw [whole, List.map_append, List.map_cons]
      rcases dotFree.top _ _ _ selection (carriesFiles_iff.mpr ⟨names, file, packedAt⟩)
        (own ▸ dots) with ⟨other, isOther, named⟩
      rcases List.mem_map.mp isOther with ⟨seen, isSeen, rfl⟩
      exact first seen isSeen (named.trans own)
    · apply And.intro (packedAt.accepted accepted name below).notEmpty
      rcases packedAt with _ | ⟨chain, packable⟩
      · cases below
      · exact dotFree.below each.1 (List.mem_map_of_mem member) names file chain packable name below

/-- Where live siblings have different names that the name checks accept, the names in an
archive differ, and they are safe to extract exactly when no packed file has a `.` or `..`
on its way. -/
theorem archive_names_iff (tree : FolderTree sys.db.items)
    (accepted : ∀ row ∈ sys.db.items, Accepted row.name)
    (distinct : DistinctSiblings sys.db.items) (lists : ListsChildren listings sys.db)
    {itemIds : List Uuid} {result : ArchiveResult}
    (packs : archive listings userId itemIds sys = .ok result) :
    SafeNames (result.files.map ArchiveEntry.arcname) ↔
      DotFree sys (itemIds.filterMap sys.db.items.find?) := by
  simp only [archive, bind_eq_ok, require_eq_ok, pure_eq_ok] at packs
  rcases packs with ⟨_, _, packing, runs, _, _, rfl⟩
  rcases rounds_tops tree.acyclic lists runs with ⟨packed, items, tops, files⟩
  rw [List.nil_append] at files
  have members : ∀ each ∈ packed, each.1 ∈ sys.db.items := by
    intro each member
    have selected := List.mem_map_of_mem (f := Prod.fst) member
    rw [items] at selected
    rcases List.mem_filterMap.mp selected with ⟨itemId, _, found⟩
    exact (ItemTable.find?_eq_some.mp found).1
  simp only [files, ← items]
  rw [← tops_inside_iff tree accepted distinct lists tops members]
  constructor
  · exact SafeNames.inside
  · exact fun inside => ⟨tops_distinct tree accepted distinct lists tops members, inside⟩

end Archive

/-! ## A folder named `..` -/

section ParentFolder

attribute [local instance] smallPlatform smallCollation

private def uploadsBelowDots : List Op :=
  [.createFolder 1 none "..", .uploadSimple 1 (some 10) "a" [[65]] 1 none]

private def belowDots : System := afterFirstDay uploadsBelowDots

private instance smallCollation_strict : StrictCollation where
  total left right := by simpa [Collation.before] using le_total left right
  trans first second := by
    simp only [Collation.before, decide_eq_true_eq] at first second ⊢
    exact le_trans first second
  antisymm first second := by
    simp only [Collation.before, decide_eq_true_eq] at first second
    exact le_antisymm first second

private theorem belowDots_tree : FolderTree belowDots.db.items where
  acyclic := Table.parentBy_acyclic id (by decide)
  parents := by
    have hung : ∀ row ∈ belowDots.db.items.rows, ∀ top ∈ row.parentId,
        ∃ folder ∈ belowDots.db.items.rows, folder.id = top ∧ folder.itemType = .folder := by
      decide
    exact hung

private theorem belowDots_accepted : ∀ row ∈ belowDots.db.items, Accepted row.name := by
  have names : ∀ row ∈ belowDots.db.items.rows, row.name = ".." ∨ row.name = "a" := by decide
  intro row member
  rcases names row member with isName | isName
  · have checked : validateName ".." = .ok ".." := by decide
    rw [isName]
    exact (checkName_ok checked).2
  · have checked : safeFilename "a" = .ok "a" := by decide
    rw [isName]
    exact (checkName_ok checked).2

private theorem belowDots_distinct : DistinctSiblings belowDots.db.items := by
  have distinct : ∀ left ∈ belowDots.db.items.rows, ∀ right ∈ belowDots.db.items.rows,
      left.isDeleted = false → right.isDeleted = false → left.ownerId = right.ownerId →
        left.parentId = right.parentId → left.name = right.name → left = right := by decide
  exact distinct

private theorem belowDots_file : ∀ item ∈ [12, 12].filterMap belowDots.db.items.find?,
    item.id = 12 ∧ item.name = "a" := by
  decide

/-- The file in it, selected twice, is renamed the second time. -/
theorem archive_names_iff_fileTwice :
    ∃ result, archive (sortedListings belowDots.db) 1 [12, 12] belowDots = .ok result ∧
      result.files.map ArchiveEntry.arcname = ["a", "a (1)"] ∧
      SafeNames (result.files.map ArchiveEntry.arcname) := by
  have packs : ∃ result, archive (sortedListings belowDots.db) 1 [12, 12] belowDots = .ok result ∧
      result.files.map ArchiveEntry.arcname = ["a", "a (1)"] := ⟨_, rfl, rfl⟩
  have childless : ∀ row ∈ belowDots.db.items.rows, row.parentId ≠ some 12 := by decide
  rcases packs with ⟨result, packs, names⟩
  refine ⟨result, packs, names, (archive_names_iff belowDots_tree belowDots_accepted
    belowDots_distinct (sortedListings_lists belowDots.db) packs).mpr ?_⟩
  constructor
  case top =>
    intro earlier item later split _ dots
    have isFile := belowDots_file item (by rw [split]; simp)
    rw [isFile.2] at dots
    rcases dots with one | two
    · exact absurd one (by decide)
    · exact absurd two (by decide)
  case below =>
    intro item member path file below
    rw [(belowDots_file item member).1] at below
    cases below with
    | child among =>
        rcases mem_children.mp among with ⟨rowMem, _, _, hung⟩
        exact absurd hung (childless _ rowMem)
    | deeper among =>
        rcases mem_children.mp among with ⟨rowMem, _, _, hung⟩
        exact absurd hung (childless _ rowMem)

/-- The zip of the folder has an entry outside the directory that it is extracted to. -/
theorem parent_folder_leaves :
    (∃ events, History firstDay events belowDots) ∧ FolderTree belowDots.db.items ∧
    (∀ row ∈ belowDots.db.items, Accepted row.name) ∧ DistinctSiblings belowDots.db.items ∧
    ∃ result, archive (sortedListings belowDots.db) 1 [10] belowDots = .ok result ∧
      result.files.map ArchiveEntry.arcname = ["../a"] ∧
      ¬ SafeNames (result.files.map ArchiveEntry.arcname) := by
  have history : History firstDay (Op.trace uploadsBelowDots firstDay) belowDots :=
    firstDay_trace (by simp [uploadsBelowDots, Op.Offered]) rfl
  refine ⟨⟨_, history⟩, belowDots_tree, belowDots_accepted, belowDots_distinct, _, rfl, rfl, ?_⟩
  intro safe
  have dots : ".." ∈ components "../a" := by decide
  exact (safe.inside "../a" List.mem_cons_self ".." dots).2 (.inr rfl)

end ParentFolder

end DownloadService

end CloudDrive
