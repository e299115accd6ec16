import CloudDrive.Drive.CaseVariants

/-! # Conflicts of names between collaborators

`rename` and `move` look for a name among the items of whoever makes the request. An item
belongs to its owner, and in a shared folder that may be somebody else. -/

namespace CloudDrive

open Outcome Relational DriveService DriveItemRepository

section Collaborators

variable [Platform]

def ReportsConflict (result : Except ServiceError System) : Prop :=
  ∃ message, result = .error (.nameConflict message)

/-- Another live item of the owner has the name there. -/
def HasRival (items : ItemTable) (ownerId : Uuid) (parentId : Option Uuid) (name : String)
    (itemId : Uuid) : Prop :=
  ∃ other ∈ items.rows, other.id ≠ itemId ∧ other.isDeleted = false ∧
    other.ownerId = ownerId ∧ other.parentId = parentId ∧ other.name = name

instance (items : ItemTable) (ownerId : Uuid) (parentId : Option Uuid) (name : String)
    (itemId : Uuid) : Decidable (HasRival items ownerId parentId name itemId) :=
  inferInstanceAs (Decidable (∃ other ∈ items.rows, _))

/-- Exactly one other live item of the owner has the name there. -/
def HasOneRival (items : ItemTable) (ownerId : Uuid) (parentId : Option Uuid) (name : String)
    (itemId : Uuid) : Prop :=
  (sameName items name parentId ownerId (some itemId)).length = 1

instance (items : ItemTable) (ownerId : Uuid) (parentId : Option Uuid) (name : String)
    (itemId : Uuid) : Decidable (HasOneRival items ownerId parentId name itemId) :=
  inferInstanceAs (Decidable (_ = _))

variable {items : ItemTable} {ownerId itemId : Uuid} {parentId : Option Uuid} {name : String}

theorem mem_sameName {row : DriveItem} :
    row ∈ sameName items name parentId ownerId (some itemId) ↔ row ∈ items.rows ∧
      row.id ≠ itemId ∧ row.isDeleted = false ∧ row.ownerId = ownerId ∧
      row.parentId = parentId ∧ row.name = name := by
  rw [sameName, List.mem_filter, decide_eq_true_eq]
  apply and_congr_right
  intro _
  constructor
  · intro selected
    rcases selected with ⟨owned, live, named, inside, different⟩
    exact ⟨fun same => different (congrArg some same.symm), live, owned, inside, named⟩
  · intro rival
    rcases rival with ⟨different, live, owned, inside, named⟩
    exact ⟨owned, live, named, inside, fun same => different (Option.some.inj same).symm⟩

theorem HasOneRival.hasRival (one : HasOneRival items ownerId parentId name itemId) :
    HasRival items ownerId parentId name itemId := by
  rcases List.length_eq_one_iff.mp one with ⟨row, found⟩
  have selected : row ∈ sameName items name parentId ownerId (some itemId) := by
    rw [found]
    exact List.mem_singleton_self row
  rcases mem_sameName.mp selected with ⟨member, rival⟩
  exact ⟨row, member, rival⟩

/-- In a folder the unique index allows an owner one live item of a name. -/
theorem hasOneRival_iff_of_folder (inFolder : parentId ≠ none) :
    HasOneRival items ownerId parentId name itemId ↔
      HasRival items ownerId parentId name itemId := by
  constructor
  · exact HasOneRival.hasRival
  · intro rivals
    rcases rivals with ⟨row, member, rival⟩
    have selected := mem_sameName.mpr ⟨member, rival⟩
    have alone : ∀ left ∈ sameName items name parentId ownerId (some itemId),
        ∀ right ∈ sameName items name parentId ownerId (some itemId), left = right := by
      intro left leftMem right rightMem
      rcases mem_sameName.mp leftMem with ⟨leftIn, _, leftLive, leftOwned, leftInside, leftName⟩
      rcases mem_sameName.mp rightMem with
        ⟨rightIn, _, rightLive, rightOwned, rightInside, rightName⟩
      apply ItemTable.eq_of_id_eq leftIn rightIn
      apply (SnapshotService.slotsFree_iff items.nodup).mp items.slotsFree left leftIn right
        rightIn
      exact ⟨leftLive, rightLive, leftOwned.trans rightOwned.symm, leftInside.symm ▸ inFolder,
        leftInside.trans rightInside.symm, by rw [leftName, rightName]⟩
    have distinct : (sameName items name parentId ownerId (some itemId)).Nodup :=
      (List.Nodup.of_map _ items.nodup).filter _
    unfold HasOneRival
    rcases found : sameName items name parentId ownerId (some itemId) with
      _ | ⟨first, _ | ⟨second, rest⟩⟩
    · rw [found] at selected
      cases selected
    · rfl
    · rw [found] at alone distinct
      have same := alone first (by simp) second (by simp)
      rw [same] at distinct
      exact absurd List.mem_cons_self (List.nodup_cons.mp distinct).1

/-- The part of a request behind the check of the name. -/
theorem check_reports_iff {userId : Uuid} {message : String} {write : Except ServiceError System}
    (only : Raises (· = .integrityError) write) :
    ReportsConflict (do
      let taken ← nameExistsInParent items name parentId userId (some itemId)
      require (taken = false) (.nameConflict message)
      write) ↔ HasOneRival items userId parentId name itemId := by
  constructor
  · intro reports
    rcases reports with ⟨text, reports⟩
    cases checked : nameExistsInParent items name parentId userId (some itemId) with
    | error error =>
        rw [checked] at reports
        cases reports
        unfold nameExistsInParent at checked
        split at checked <;> cases checked
    | ok taken =>
        cases taken with
        | true => exact nameExists_eq_true_iff.mp checked
        | false =>
            rw [checked, ok_bind, require_true rfl, ok_bind] at reports
            cases only _ reports
  · intro one
    rw [nameExists_eq_true_iff.mpr one, ok_bind, require_false Bool.true_eq_false.mp]
    exact ⟨message, rfl⟩

/-! ## Rename and move -/

theorem updateName_raises (itemId : Uuid) (newName : String) (userId : Uuid) (sys : System) :
    Raises (· = .integrityError) (updateName itemId newName userId sys) :=
  (ItemTable.change_raises _ _ _).bind fun _ => .ok

theorem updateParent_raises (itemId : Uuid) (newParentId : Option Uuid) (userId : Uuid)
    (sys : System) : Raises (· = .integrityError) (updateParent itemId newParentId userId sys) :=
  (ItemTable.change_raises _ _ _).bind fun _ => .ok

/-- An item that has the name already is the one item of its owner with it in the folder. -/
theorem not_hasRival_self {item : DriveItem} (member : item ∈ items)
    (live : item.isDeleted = false) (inFolder : item.parentId ≠ none) :
    ¬ HasRival items item.ownerId item.parentId item.name item.id := by
  intro rivals
  rcases rivals with ⟨other, otherMem, different, otherLive, owned, inside, named⟩
  apply different
  apply (SnapshotService.slotsFree_iff items.nodup).mp items.slotsFree other otherMem item member
  exact ⟨otherLive, live, owned, inside.symm ▸ inFolder, inside, by rw [named]⟩

theorem rename_reports_iff {userId : Uuid} {given : String} {sys : System} {item : DriveItem}
    (found : getEditable item.id userId sys = .ok item) (accepted : validateName given = .ok name) :
    ReportsConflict (rename userId item.id given sys) ↔
      item.name ≠ name ∧ HasOneRival sys.db.items userId item.parentId name item.id := by
  have runs : rename userId item.id given sys = if item.name = name then pure sys else (do
      let taken ← nameExistsInParent sys.db.items name item.parentId userId (some item.id)
      require (taken = false) (.nameConflict s!"'{name}' already exists in this location")
      updateName item.id name userId sys) := by
    simp only [rename, accepted, found, ok_bind]
  rw [runs]
  by_cases keeps : item.name = name
  · rw [if_pos keeps]
    apply iff_of_false
    · intro reports
      rcases reports with ⟨message, reports⟩
      cases reports
    · exact fun both => both.1 keeps
  · rw [if_neg keeps, check_reports_iff (updateName_raises _ _ _ _)]
    exact (and_iff_right keeps).symm

theorem move_reports_iff {userId : Uuid} {newParentId : Option Uuid} {sys : System}
    {item : DriveItem} (found : getEditable item.id userId sys = .ok item)
    (target : whenSome newParentId (fun folderId => moveTarget userId item folderId sys) =
      .ok ()) :
    ReportsConflict (move userId item.id newParentId sys) ↔
      HasOneRival sys.db.items userId newParentId item.name item.id := by
  have runs : move userId item.id newParentId sys = (do
      let taken ← nameExistsInParent sys.db.items item.name newParentId userId (some item.id)
      require (taken = false) (.nameConflict s!"'{item.name}' already exists in destination")
      updateParent item.id newParentId userId sys) := by
    simp only [move, found, target, ok_bind]
  rw [runs]
  exact check_reports_iff (updateParent_raises _ _ _ _)

/-- The check sees an item of the acting user exactly when the owner has one. At the root,
where the index does not reach, the check raises when it sees several. -/
def RivalsAgree (items : ItemTable) (userId ownerId : Uuid) (parentId : Option Uuid)
    (name : String) (itemId : Uuid) : Prop :=
  HasOneRival items userId parentId name itemId ↔ HasRival items ownerId parentId name itemId

instance (items : ItemTable) (userId ownerId : Uuid) (parentId : Option Uuid) (name : String)
    (itemId : Uuid) : Decidable (RivalsAgree items userId ownerId parentId name itemId) :=
  inferInstanceAs (Decidable (_ ↔ _))

/-- When a rename follows the rule of the owner: it reports nothing for the name that the
item has. -/
def RenameAgrees (items : ItemTable) (userId : Uuid) (item : DriveItem) (name : String) : Prop :=
  if item.name = name then ¬ HasRival items item.ownerId item.parentId name item.id
  else RivalsAgree items userId item.ownerId item.parentId name item.id

/-- Whoever may edit the item, a rename or a move reports a conflict by the rule of the
owner exactly when the acting user and the owner agree on the name. In a folder the user
sees at most one item, and the name of the item itself is no conflict. -/
theorem conflicts_iff (userId : Uuid) (sys : System) {item : DriveItem}
    (found : getEditable item.id userId sys = .ok item) :
    (∀ given name, validateName given = .ok name →
      ((ReportsConflict (rename userId item.id given sys) ↔
          HasRival sys.db.items item.ownerId item.parentId name item.id) ↔
        RenameAgrees sys.db.items userId item name)) ∧
    (∀ newParentId, whenSome newParentId (fun folderId => moveTarget userId item folderId sys) =
        .ok () →
      ((ReportsConflict (move userId item.id newParentId sys) ↔
          HasRival sys.db.items item.ownerId newParentId item.name item.id) ↔
        RivalsAgree sys.db.items userId item.ownerId newParentId item.name item.id)) ∧
    (∀ folderId name, HasOneRival sys.db.items userId (some folderId) name item.id ↔
      HasRival sys.db.items userId (some folderId) name item.id) ∧
    (item.parentId ≠ none → RenameAgrees sys.db.items userId item item.name) := by
  rcases getEditable_ok found with ⟨_, editable⟩
  constructor
  · intro given name accepted
    rw [rename_reports_iff found accepted, RenameAgrees]
    by_cases keeps : item.name = name
    · rw [if_pos keeps]
      have silent : ¬ (item.name ≠ name ∧
          HasOneRival sys.db.items userId item.parentId name item.id) := fun both => both.1 keeps
      rw [iff_false_left silent]
    · rw [if_neg keeps, and_iff_right keeps]
      exact Iff.rfl
  constructor
  · intro newParentId target
    rw [move_reports_iff found target]
    exact Iff.rfl
  constructor
  · exact fun folderId name => hasOneRival_iff_of_folder (Option.some_ne_none folderId)
  · intro inFolder
    rw [RenameAgrees, if_pos rfl]
    exact not_hasRival_self editable.member editable.live inFolder

end Collaborators

/-! ## Two owners in one folder

The second user may edit `Work` and has a folder `b` in it; `a` and `c` belong to the
first. -/

section TwoOwners

attribute [local instance] smallPlatform

private def sharedWork : List Op :=
  [.createFolder 1 none "Work", .createFolder 1 (some 10) "a", .createFolder 1 (some 10) "c",
    .shareItem 1 10 "b@example.org" .editor, .createFolder 2 (some 10) "b"]

private def sharedFolder : System := afterFirstDay sharedWork

private def firstItem : DriveItem :=
  newItem (afterFirstDay [.createFolder 1 none "Work"]) 1 (some 10) .folder "a" 1

theorem conflicts_iff_firstItem :
    (ReportsConflict (rename 2 11 "d" sharedFolder) ↔
        HasRival sharedFolder.db.items 1 (some 10) "d" 11) ↔
      RenameAgrees sharedFolder.db.items 2 firstItem "d" :=
  (@conflicts_iff _ 2 sharedFolder firstItem rfl).1 "d" "d" (by decide)

/-- The name of the second user's own folder is reported though no item of the owner has
it; a name that the owner does have is not reported and fails at the index. -/
theorem firstItem_misjudged :
    Op.commitAll sharedWork firstDay = .ok sharedFolder ∧
    getEditable 11 2 sharedFolder = .ok firstItem ∧ firstItem.ownerId = 1 ∧
    ReportsConflict (rename 2 11 "b" sharedFolder) ∧
    ¬ HasRival sharedFolder.db.items 1 (some 10) "b" 11 ∧
    HasRival sharedFolder.db.items 1 (some 10) "c" 11 ∧
    rename 2 11 "c" sharedFolder = .error .integrityError ∧
    ¬ ReportsConflict (rename 2 11 "c" sharedFolder) := by
  have refused : rename 2 11 "c" sharedFolder = .error .integrityError := rfl
  apply And.intro rfl
  apply And.intro rfl
  apply And.intro rfl
  apply And.intro ⟨_, rfl⟩
  apply And.intro (by decide)
  apply And.intro (by decide)
  apply And.intro refused
  intro reports
  rcases reports with ⟨message, reports⟩
  cases refused.symm.trans reports

end TwoOwners

end CloudDrive
