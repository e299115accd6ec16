import CloudDrive.PublicShare.Subtree

/-! # Which items a link resolves

`_resolve_in_subtree` looks at the trash flag of the item itself and gives up after
`_MAX_DEPTH` nodes. -/

namespace CloudDrive

open Outcome Relational Forest Relation Execution

namespace PublicShareService

section Resolution

variable [Platform] {items : ItemTable} {rootId itemId : Uuid}

/-- No folder on the way from the item up to the root is in the trash. -/
def CleanPath (items : ItemTable) (rootId itemId : Uuid) : Prop :=
  ∀ folder ∈ items, AtOrAbove items.parentOf itemId folder.id → Inside items rootId folder.id →
    folder.isDeleted = false

/-- The item exists and is not deleted. -/
def LiveItem (items : ItemTable) (itemId : Uuid) : Prop :=
  ∃ item ∈ items, item.id = itemId ∧ item.isDeleted = false

/-- What a link on `rootId` shares. -/
structure Shared (items : ItemTable) (rootId itemId : Uuid) : Prop where
  inside : Inside items rootId itemId
  live : LiveItem items itemId
  path : CleanPath items rootId itemId

/-- `_resolve_in_subtree` returns the item. -/
def Accepts (items : ItemTable) (rootId itemId : Uuid) : Prop :=
  ∃ item, resolveInSubtree rootId itemId items = .ok item ∧ item.id = itemId

/-- The walk meets the root within its rounds. -/
theorem subtreeWalk_iff : ∀ {fuel : Nat} {item : DriveItem}, item ∈ items →
    (subtreeWalk items rootId fuel (some item) = true ↔
      ∃ steps < fuel, ancestor items.parentOf steps item.id = some rootId)
  | 0, _, _ => by simp [subtreeWalk]
  | fuel + 1, item, member => by
      rw [subtreeWalk]
      by_cases isRoot : item.id = rootId
      · rw [if_pos isRoot]
        exact ⟨fun _ => ⟨0, Nat.succ_pos fuel, congrArg some isRoot⟩, fun _ => rfl⟩
      · rw [if_neg isRoot]
        -- The root is not this node, so it is met in a later round or never.
        have later : (∃ steps < fuel + 1, ancestor items.parentOf steps item.id = some rootId) ↔
            ∃ steps < fuel, item.parentId.bind (ancestor items.parentOf steps) = some rootId := by
          constructor
          · intro met
            rcases met with ⟨steps, within, reached⟩
            cases steps with
            | zero => exact absurd (Option.some.inj reached) isRoot
            | succ steps =>
                rw [ancestor, ItemTable.parentOf_id member] at reached
                exact ⟨steps, Nat.lt_of_succ_lt_succ within, reached⟩
          · intro met
            rcases met with ⟨steps, within, reached⟩
            apply Exists.intro (steps + 1)
            apply And.intro (Nat.succ_lt_succ within)
            rw [ancestor, ItemTable.parentOf_id member]
            exact reached
        rw [later]
        cases points : item.parentId with
        | none => simp
        | some parentId =>
            rcases ItemTable.parent_mem member points with ⟨parent, parentMem, rfl⟩
            simp only [ItemTable.find?_id parentMem, Option.bind_some]
            exact subtreeWalk_iff parentMem

/-- The item is accepted when it is live and the root is fewer than `_MAX_DEPTH` steps up. -/
theorem accepts_iff : Accepts items rootId itemId ↔ LiveItem items itemId ∧
    ∃ depth < maxDepth, ancestor items.parentOf depth itemId = some rootId := by
  constructor
  · intro accepted
    rcases accepted with ⟨item, resolved, rfl⟩
    simp only [resolveInSubtree, bind_eq_ok, orRaise_eq_ok, require_eq_ok, pure_eq_ok] at resolved
    rcases resolved with ⟨row, found, _, live, _, walked, rfl⟩
    rcases ItemTable.find?_eq_some.mp found with ⟨member, _⟩
    exact ⟨⟨row, member, rfl, live⟩, (subtreeWalk_iff member).mp walked⟩
  · intro both
    rcases both.1 with ⟨item, member, rfl, live⟩
    apply Exists.intro item
    apply And.intro _ rfl
    simp only [resolveInSubtree, bind_eq_ok, orRaise_eq_ok, require_eq_ok, pure_eq_ok]
    exact ⟨item, ItemTable.find?_id member, (), live, (), (subtreeWalk_iff member).mpr both.2, rfl⟩

/-- In a forest the resolution accepts exactly what the link shares when the item is not a
live item below the root, or its depth is within the bound exactly when its path is clean. -/
theorem accepts_exact_iff (acyclic : Acyclic items.parentOf) (rootId itemId : Uuid) :
    (Accepts items rootId itemId ↔ Shared items rootId itemId) ↔
      (LiveItem items itemId → ∀ depth, ancestor items.parentOf depth itemId = some rootId →
        (depth < maxDepth ↔ CleanPath items rootId itemId)) := by
  constructor
  · intro exact_ live depth reached
    constructor
    · intro within
      exact (exact_.mp (accepts_iff.mpr ⟨live, depth, within, reached⟩)).path
    · intro clean
      have shared : Shared items rootId itemId := ⟨atOrAbove_of_ancestor reached, live, clean⟩
      rcases (accepts_iff.mp (exact_.mpr shared)).2 with ⟨steps, within, met⟩
      rwa [acyclic.ancestor_injective reached met]
  · intro condition
    rw [accepts_iff]
    constructor
    · intro accepted
      rcases accepted with ⟨live, depth, within, reached⟩
      exact ⟨atOrAbove_of_ancestor reached, live, (condition live depth reached).mp within⟩
    · intro shared
      apply And.intro shared.live
      rcases atOrAbove_iff_ancestor.mp shared.inside with ⟨depth, reached⟩
      exact ⟨depth, (condition shared.live depth reached).mpr shared.path, reached⟩

end Resolution

/-! ## A folder in the trash

`Plans` in the shared folder `Work` is in the trash, `Drafts` in it is not. -/

section TrashedFolder

attribute [local instance] smallPlatform

private def trashPlans : List Op :=
  [.createFolder 1 none "Work", .createFolder 1 (some 10) "Plans",
    .createFolder 1 (some 11) "Drafts", .trashItem 1 11]

private def plansTrashed : ItemTable := (afterFirstDay trashPlans).db.items

private theorem plansTrashed_acyclic : Acyclic plansTrashed.parentOf :=
  Table.parentBy_acyclic id (by decide)

private def plansLive : ItemTable := (afterFirstDay (trashPlans.take 3)).db.items

private theorem plansLive_acyclic : Acyclic plansLive.parentOf :=
  Table.parentBy_acyclic id (by decide)

/-- Before it is trashed, the guest is shown what is shared. -/
theorem accepts_exact_iff_plansLive : Accepts plansLive 10 12 ↔ Shared plansLive 10 12 := by
  have live : ∀ folder ∈ plansLive.rows, folder.isDeleted = false := by decide
  apply (accepts_exact_iff plansLive_acyclic 10 12).mpr
  intro _ depth reached
  have isTwo : depth = 2 :=
    plansLive_acyclic.ancestor_injective reached (show ancestor _ 2 12 = some 10 from rfl)
  rw [isTwo]
  exact iff_of_true (by decide) fun folder member _ _ => live folder member

/-- The guest gets `Drafts` out of the trashed folder. -/
theorem drafts_accepted :
    (∃ events, History firstDay events (afterFirstDay trashPlans)) ∧
      Accepts plansTrashed 10 12 ∧ ¬ Shared plansTrashed 10 12 := by
  have accepted : ∃ item ∈ plansTrashed.rows, item.id = 12 ∧
      resolveInSubtree 10 12 plansTrashed = .ok item := by decide
  have trashed : ∃ folder ∈ plansTrashed.rows, folder.id = 11 ∧ folder.isDeleted = true := by
    decide
  have history : History firstDay (Op.trace trashPlans firstDay) (afterFirstDay trashPlans) :=
    firstDay_trace (by simp [trashPlans, Op.Offered]) rfl
  apply And.intro ⟨_, history⟩
  constructor
  · rcases accepted with ⟨item, _, isItem, resolved⟩
    exact ⟨item, resolved, isItem⟩
  · intro shared
    rcases trashed with ⟨folder, member, isFolder, isDeleted⟩
    have below : AtOrAbove plansTrashed.parentOf 12 11 := .single rfl
    have inside : Inside plansTrashed 10 11 := .single rfl
    have live := shared.path folder member (isFolder ▸ below) (isFolder ▸ inside)
    rw [isDeleted] at live
    cases live

end TrashedFolder

end PublicShareService

end CloudDrive
