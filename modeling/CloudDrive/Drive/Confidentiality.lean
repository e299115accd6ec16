import CloudDrive.Drive.Listing
import CloudDrive.Permission.Resolution

/-! # What a reader is shown

Five of the read paths show items that the reader owns or was found to see. The
breadcrumbs climb from such an item to the top, whoever shares what on the way. -/

namespace CloudDrive

open Outcome Relational Forest Relation DriveItemRepository

/-- The columns of `user_item_preferences` that the stars are read from. -/
structure UserItemPreference where
  userId : Uuid
  itemId : Uuid
  isStarred : Bool
  updatedAt : Timestamp

/-- The columns of `activity_logs` that the recent items are read from. -/
structure ActivityLog where
  actorId : Uuid
  itemId : Option Uuid
  createdAt : Timestamp

/-- `get_all_starred_item_ids`, newest star first. -/
def getAllStarredItemIds (preferences : List UserItemPreference) (userId : Uuid) (limit : Nat) :
    List Uuid :=
  let starred := (preferences.filter fun preference =>
    decide (preference.userId = userId ∧ preference.isStarred = true)).insertionSort
      fun left right => right.updatedAt ≤ left.updatedAt
  (starred.take limit).map UserItemPreference.itemId

/-- `func.max(created_at)` over the entries of one item. -/
def lastActivity (logs : List ActivityLog) (actorId itemId : Uuid) : Timestamp :=
  ((logs.filter fun log => decide (log.actorId = actorId ∧ log.itemId = some itemId)).map
    ActivityLog.createdAt).foldl max 0

/-- `get_recent_item_ids`, latest activity first. -/
def getRecentItemIds (logs : List ActivityLog) (actorId : Uuid) (limit : Nat) : List Uuid :=
  let ids := ((logs.filter fun log => decide (log.actorId = actorId)).filterMap
    ActivityLog.itemId).dedup
  (ids.insertionSort fun left right =>
    lastActivity logs actorId right ≤ lastActivity logs actorId left).take limit

namespace DriveService

section Reads

variable [Platform] [Collation]

/-! ## The read paths -/

/-- `get_item_any_state`. -/
def getItemAnyState (userId itemId : Uuid) (sys : System) : Except ServiceError DriveItem := do
  let item ← orRaise (sys.db.items.find? itemId) (.notFound "Item not found")
  PermissionService.assertCanView sys.db userId item
  pure item

/-- The loop of `get_ancestors`, nearest ancestor first. -/
def climb (items : ItemTable) : Nat → List Uuid → Option Uuid → Except ServiceError (List DriveItem)
  | 0, _, _ => .error .diverged
  | _ + 1, _, none => .ok []
  | fuel + 1, seen, some parentId =>
      if parentId ∈ seen then
        .ok []
      else
        match items.find? parentId with
        | none => .ok []
        | some parent => do
            let above ← climb items fuel (parentId :: seen) parent.parentId
            pure (parent :: above)

/-- `get_ancestors`. -/
def getAncestors (userId itemId : Uuid) (sys : System) : Except ServiceError (List DriveItem) := do
  let item ← getViewable itemId userId sys
  let chain ← climb sys.db.items (sys.db.items.rows.length + 1) [] item.parentId
  pure chain.reverse

/-- The loop of `get_starred` and of `get_recent`: the live items of the user. -/
def ownLive (userId : Uuid) (itemIds : List Uuid) (sys : System) : List DriveItem :=
  (itemIds.filterMap fun itemId => sys.db.items.find? itemId).filter fun item =>
    decide (item.isDeleted = false ∧ item.ownerId = userId)

/-- `get_starred`. -/
def getStarred (preferences : List UserItemPreference) (userId : Uuid) (limit : Nat)
    (sys : System) : List DriveItem :=
  ownLive userId (getAllStarredItemIds preferences userId limit) sys

/-- `get_recent`. -/
def getRecent (logs : List ActivityLog) (userId : Uuid) (limit : Nat) (sys : System) :
    List DriveItem :=
  ownLive userId (getRecentItemIds logs userId limit) sys

inductive ReadRequest where
  | getItem (itemId : Uuid)
  | getItemAnyState (itemId : Uuid)
  | listItems (parentId : Option Uuid) (page pageSize : Nat) (sortBy : DriveItemSortField)
      (order : SortOrder)
  | getAncestors (itemId : Uuid)
  | getStarred (limit : Nat)
  | getRecent (limit : Nat)

/-- The items a request returns. -/
def ReadRequest.serve (preferences : List UserItemPreference) (logs : List ActivityLog)
    (userId : Uuid) (request : ReadRequest) (sys : System) :
    Except ServiceError (List DriveItem) :=
  match request with
  | .getItem itemId => do
      let item ← DriveService.getItem userId itemId sys
      pure [item]
  | .getItemAnyState itemId => do
      let item ← DriveService.getItemAnyState userId itemId sys
      pure [item]
  | .listItems parentId page pageSize sortBy order => do
      let (items, _) ← DriveService.listItems userId parentId page pageSize sortBy order sys
      pure items
  | .getAncestors itemId => DriveService.getAncestors userId itemId sys
  | .getStarred limit => pure (DriveService.getStarred preferences userId limit sys)
  | .getRecent limit => pure (DriveService.getRecent logs userId limit sys)

variable {sys : System} {userId itemId : Uuid} {item : DriveItem}
  {preferences : List UserItemPreference} {logs : List ActivityLog}

/-- Every item that the request returns is one the user may view. -/
def Confidential (preferences : List UserItemPreference) (logs : List ActivityLog)
    (userId : Uuid) (request : ReadRequest) (sys : System) : Prop :=
  ∀ items, request.serve preferences logs userId sys = .ok items →
    ∀ item ∈ items, CanView sys.db userId item

/-! ## Who may view -/

omit [Collation] in
theorem canView_of_owner (owned : item.ownerId = userId) : CanView sys.db userId item := by
  apply Exists.intro (some .owner)
  constructor
  · rw [PermissionService.getPermission, PermissionService.walk, if_pos owned]
  · decide

omit [Collation] in
theorem CanView.of_asserts (asserts : PermissionService.assertCanView sys.db userId item = .ok ()) :
    CanView sys.db userId item := by
  simp only [PermissionService.assertCanView, bind_eq_ok, require_eq_ok] at asserts
  rcases asserts with ⟨perm, runs, enough⟩
  exact ⟨perm, runs, hasAtLeast_iff.mp enough⟩

omit [Collation] in
/-- Whoever may view an item may view what is below it. -/
theorem CanView.below (acyclic : Acyclic sys.db.items.parentOf) {top : DriveItem}
    (views : CanView sys.db userId top) (topMem : top ∈ sys.db.items)
    (member : item ∈ sys.db.items) (above : AtOrAbove sys.db.items.parentOf item.id top.id) :
    CanView sys.db userId item := by
  rcases views with ⟨lower, runsTop, enough⟩
  rcases PermissionService.getPermission_ends acyclic userId member with ⟨higher, runs⟩
  apply Exists.intro higher
  apply And.intro runs
  apply enough.trans
  apply (PermissionService.resolves_of_getPermission topMem runsTop).mono
    (PermissionService.resolves_of_getPermission member runs)
  · intro owns
    rcases owns with ⟨owner, ownerMem, path, owned⟩
    exact ⟨owner, ownerMem, above.trans path, owned⟩
  · intro share shared
    exact ⟨shared.1, shared.2.1, above.trans shared.2.2⟩

omit [Collation] in
theorem getViewable_eq_ok {found : DriveItem} : getViewable itemId userId sys = .ok found ↔
    found ∈ sys.db.items ∧ found.id = itemId ∧ found.isDeleted = false ∧
      CanView sys.db userId found := by
  simp only [getViewable, bind_eq_ok, orRaise_eq_ok, require_eq_ok, pure_eq_ok]
  constructor
  · intro runs
    rcases runs with ⟨row, isRow, _, live, _, asserts, rfl⟩
    rcases ItemTable.find?_eq_some.mp isRow with ⟨member, sameId⟩
    exact ⟨member, sameId, live, .of_asserts asserts⟩
  · intro viewable
    rcases viewable with ⟨member, rfl, live, views⟩
    exact ⟨found, ItemTable.find?_id member, (), live, (), views.asserts, rfl⟩

/-! ## The breadcrumbs -/

omit [Collation] in
/-- Above every item there is a top one. -/
theorem exists_top {items : ItemTable} : ∀ {fuel : Nat} {item : DriveItem}, item ∈ items →
    ancestor items.parentOf fuel item.id = none →
    ∃ top ∈ items, top.parentId = none ∧ AtOrAbove items.parentOf item.id top.id
  | 0, _, _, ends => by cases ends
  | fuel + 1, item, member, ends => by
      cases hangs : item.parentId with
      | none => exact ⟨item, member, hangs, .refl⟩
      | some parentId =>
          have step := (ItemTable.parentOf_id member).trans hangs
          rcases ItemTable.parent_mem member hangs with ⟨parent, parentMem, rfl⟩
          rw [ancestor, step, Option.bind_some] at ends
          rcases exists_top parentMem ends with ⟨top, topMem, isTop, above⟩
          exact ⟨top, topMem, isTop, .head step above⟩

omit [Collation] in
/-- In a forest the loop collects every proper ancestor. -/
theorem climb_spec {items : ItemTable} (acyclic : Acyclic items.parentOf) :
    ∀ {fuel : Nat} {seen : List Uuid} {node : Uuid},
      (∀ other ∈ seen, AtOrAbove items.parentOf other node) →
      ancestor items.parentOf fuel node = none →
      ∃ chain, climb items fuel seen (items.parentOf node) = .ok chain ∧
        ∀ row, row ∈ chain ↔ row ∈ items ∧ Above items.parentOf node row.id
  | 0, _, _, _, ends => by cases ends
  | fuel + 1, seen, node, below, ends => by
      cases step : items.parentOf node with
      | none =>
          apply Exists.intro []
          apply And.intro rfl
          intro row
          constructor
          · exact fun member => absurd member List.not_mem_nil
          · intro both
            rcases TransGen.head'_iff.mp both.2 with ⟨top, up, _⟩
            cases step.symm.trans up
      | some parentId =>
          have unseen : parentId ∉ seen := by
            intro met
            exact acyclic.not_atOrAbove step (below parentId met)
          rcases ItemTable.parentOf_eq_some.mp step with ⟨child, childMem, _, hangs⟩
          rcases ItemTable.parent_mem childMem hangs with ⟨parent, parentMem, rfl⟩
          have further : ∀ other ∈ parent.id :: seen,
              AtOrAbove items.parentOf other parent.id := by
            intro other among
            rcases List.mem_cons.mp among with rfl | earlier
            · exact .refl
            · exact (below other earlier).tail step
          rw [ancestor, step, Option.bind_some] at ends
          rcases climb_spec acyclic further ends with ⟨above, climbs, members⟩
          rw [ItemTable.parentOf_id parentMem] at climbs
          apply Exists.intro (parent :: above)
          constructor
          · rw [climb, if_neg unseen, ItemTable.find?_id parentMem]
            simp only [climbs]
            rfl
          · intro row
            rw [List.mem_cons, members]
            constructor
            · intro either
              rcases either with rfl | ⟨rowMem, path⟩
              · exact ⟨parentMem, .single step⟩
              · exact ⟨rowMem, .head step path⟩
            · intro both
              rcases TransGen.head'_iff.mp both.2 with ⟨middle, up, path⟩
              cases step.symm.trans up
              rcases atOrAbove_iff.mp path with same | further
              · exact .inl (ItemTable.eq_of_id_eq both.1 parentMem same.symm)
              · exact .inr ⟨both.1, further⟩

omit [Collation] in
theorem getAncestors_spec (acyclic : Acyclic sys.db.items.parentOf) (member : item ∈ sys.db.items)
    (live : item.isDeleted = false) (views : CanView sys.db userId item) :
    ∃ found, getAncestors userId item.id sys = .ok found ∧
      ∀ row, row ∈ found ↔ row ∈ sys.db.items ∧ Above sys.db.items.parentOf item.id row.id := by
  have nothingSeen : ∀ other ∈ ([] : List Uuid),
      AtOrAbove sys.db.items.parentOf other item.id :=
    fun _ among => absurd among List.not_mem_nil
  rcases climb_spec acyclic nothingSeen (Table.chain_ends acyclic item.id) with
    ⟨chain, climbs, members⟩
  rw [ItemTable.parentOf_id member] at climbs
  apply Exists.intro chain.reverse
  constructor
  · simp only [getAncestors, bind_eq_ok, pure_eq_ok]
    exact ⟨item, getViewable_eq_ok.mpr ⟨member, rfl, live, views⟩, chain, climbs, rfl⟩
  · intro row
    rw [List.mem_reverse, members]

/-! ## The law -/

omit [Collation] in
theorem ownLive_views {itemIds : List Uuid} (among : item ∈ ownLive userId itemIds sys) :
    CanView sys.db userId item :=
  canView_of_owner (of_decide_eq_true (List.mem_filter.mp among).2).2

/-- A top folder above a live item that the user may view is one the user may view. -/
def TopsViewable (sys : System) (userId itemId : Uuid) : Prop :=
  ∀ item ∈ sys.db.items, item.id = itemId → item.isDeleted = false → CanView sys.db userId item →
    ∀ top ∈ sys.db.items, top.parentId = none → Above sys.db.items.parentOf itemId top.id →
      CanView sys.db userId top

omit [Collation] in
theorem getAncestors_confidential_iff (acyclic : Acyclic sys.db.items.parentOf) :
    (∀ items, getAncestors userId itemId sys = .ok items →
        ∀ item ∈ items, CanView sys.db userId item) ↔ TopsViewable sys userId itemId := by
  constructor
  · intro confidential item member isItem live views top topMem _ above
    rw [← isItem] at above
    rcases getAncestors_spec acyclic member live views with ⟨found, runs, members⟩
    rw [isItem] at runs
    exact confidential found runs top ((members top).mpr ⟨topMem, above⟩)
  · intro tops items runs row among
    have checked := runs
    simp only [getAncestors, bind_eq_ok] at checked
    rcases checked with ⟨item, viewable, _⟩
    rcases getViewable_eq_ok.mp viewable with ⟨member, rfl, live, views⟩
    rcases getAncestors_spec acyclic member live views with ⟨found, again, members⟩
    cases runs.symm.trans again
    rcases (members row).mp among with ⟨rowMem, above⟩
    rcases exists_top rowMem (Table.chain_ends acyclic row.id) with ⟨top, topMem, isTop, path⟩
    have viewsTop := tops item member rfl live views top topMem isTop
      (TransGen.trans_left above path)
    exact viewsTop.below acyclic topMem rowMem path

/-- In a forest a request shows only what the user may view, exactly when it does not ask
for the ancestors of an item that the user sees below a top folder the user does not. -/
theorem confidential_iff (acyclic : Acyclic sys.db.items.parentOf)
    (preferences : List UserItemPreference) (logs : List ActivityLog) (userId : Uuid)
    (request : ReadRequest) :
    Confidential preferences logs userId request sys ↔
      ∀ itemId, request = .getAncestors itemId → TopsViewable sys userId itemId := by
  cases request with
  | getAncestors itemId =>
      rw [show Confidential preferences logs userId (.getAncestors itemId) sys ↔
        TopsViewable sys userId itemId from getAncestors_confidential_iff acyclic]
      constructor
      · intro tops other same
        cases same
        exact tops
      · exact fun tops => tops itemId rfl
  | getItem itemId =>
      apply iff_of_true _ (fun _ same => by cases same)
      intro items runs item among
      simp only [ReadRequest.serve, getItem, bind_eq_ok, pure_eq_ok] at runs
      rcases runs with ⟨found, viewable, rfl⟩
      rw [List.mem_singleton.mp among]
      exact (getViewable_eq_ok.mp viewable).2.2.2
  | getItemAnyState itemId =>
      apply iff_of_true _ (fun _ same => by cases same)
      intro items runs item among
      simp only [ReadRequest.serve, getItemAnyState, bind_eq_ok, pure_eq_ok] at runs
      rcases runs with ⟨_, ⟨found, _, _, asserts, rfl⟩, rfl⟩
      rw [List.mem_singleton.mp among]
      exact .of_asserts asserts
  | listItems parentId page pageSize sortBy order =>
      apply iff_of_true _ (fun _ same => by cases same)
      intro items runs item among
      simp only [ReadRequest.serve, listItems, bind_eq_ok, pure_eq_ok] at runs
      rcases runs with ⟨_, ⟨_, _, rfl⟩, rfl⟩
      exact canView_of_owner (mem_children.mp (mem_listChildren among)).2.1
  | getStarred limit =>
      apply iff_of_true _ (fun _ same => by cases same)
      intro items runs item among
      cases runs
      exact ownLive_views among
  | getRecent limit =>
      apply iff_of_true _ (fun _ same => by cases same)
      intro items runs item among
      cases runs
      exact ownLive_views among

end Reads

/-! ## An item shared out of a private folder

User 1 shares `Plans` in the folder `Secret` with user 2. -/

section PrivateFolder

attribute [local instance] smallPlatform smallCollation

private def sharePlans : List Op :=
  [.createFolder 1 none "Secret", .createFolder 1 (some 10) "Plans",
    .shareItem 1 11 "b@example.org" .viewer]

private def plansShared : System := afterFirstDay sharePlans

private theorem plansShared_acyclic : Acyclic plansShared.db.items.parentOf :=
  Table.parentBy_acyclic id (by decide)

theorem confidential_iff_plansShared :
    Confidential [] [] 2 (.getAncestors 11) plansShared ↔
      ∀ itemId, ReadRequest.getAncestors 11 = .getAncestors itemId →
        TopsViewable plansShared 2 itemId :=
  confidential_iff plansShared_acyclic [] [] 2 (.getAncestors 11)

/-- The breadcrumbs of `Plans` show user 2 the folder `Secret`. -/
theorem secret_shown :
    (∃ events, History firstDay events plansShared) ∧
      ∃ items, (ReadRequest.getAncestors 11).serve [] [] 2 plansShared = .ok items ∧
        items.map DriveItem.name = ["Secret"] ∧
        ¬ Confidential [] [] 2 (.getAncestors 11) plansShared := by
  have history : History firstDay (Op.trace sharePlans firstDay) plansShared :=
    firstDay_trace (by simp [sharePlans, Op.Offered]) rfl
  have secret : ∃ item ∈ plansShared.db.items.rows,
      (ReadRequest.getAncestors 11).serve [] [] 2 plansShared = .ok [item] ∧
      item.name = "Secret" ∧ PermissionService.getPermission plansShared.db 2 item = .ok none := by
    decide
  rcases secret with ⟨item, _, served, isName, noPermission⟩
  apply And.intro ⟨_, history⟩
  apply Exists.intro [item]
  apply And.intro served
  apply And.intro (congrArg (fun name => [name]) isName)
  intro confidential
  rcases confidential [item] served item List.mem_cons_self with ⟨perm, runs, enough⟩
  cases noPermission.symm.trans runs
  exact absurd enough (by decide)

end PrivateFolder

end DriveService

end CloudDrive
