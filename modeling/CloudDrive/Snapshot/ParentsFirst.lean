import CloudDrive.Snapshot.SiblingNames

/-! # Parents first

`_parents_first` sorts by a depth whose loop ends on every list of entries. On a forest
it puts each entry after its parent, so that no upsert of a restore refers to a row that
is not there. -/

namespace CloudDrive

open Outcome Relational Forest Relation

namespace SnapshotService

open SnapshotRepository

/-! ## The loop of `depth` -/

/-- `by_id`: of two entries for one item the later counts. -/
def byId (entries : List SnapshotEntry) (itemId : Uuid) : Option SnapshotEntry :=
  entries.reverse.find? fun entry => decide (entry.itemId = itemId)

/-- `while cur.parent_item_id in by_id and cur.parent_item_id not in seen`. -/
def depthLoop (entries : List SnapshotEntry) :
    Nat → List Uuid → SnapshotEntry → Nat → Except ServiceError Nat
  | 0, _, _, _ => .error .diverged
  | fuel + 1, seen, current, steps =>
      match current.parentItemId.bind (byId entries) with
      | none => .ok steps
      | some parent =>
          if parent.itemId ∈ seen then .ok steps
          else depthLoop entries fuel (current.itemId :: seen) parent (steps + 1)

/-- `sorted(entries, key=depth)`: the keys first, then a stable sort by them. -/
def sortedByDepth (entries : List SnapshotEntry) : Except ServiceError (List SnapshotEntry) := do
  let keyed ← entries.mapM fun entry => do
    let steps ← depthLoop entries (2 * entries.length + 1) [] entry 0
    pure (steps, entry)
  pure ((keyed.insertionSort fun left right => left.1 ≤ right.1).map Prod.snd)

section Ends

variable {entries : List SnapshotEntry} {current parent : SnapshotEntry} {seen : List Uuid}

theorem byId_eq_some {itemId : Uuid} (found : byId entries itemId = some parent) :
    parent ∈ entries ∧ parent.itemId = itemId :=
  ⟨List.mem_reverse.mp (List.mem_of_find?_eq_some found), by simpa using List.find?_some found⟩

theorem parent_mem (above : current.parentItemId.bind (byId entries) = some parent) :
    parent ∈ entries := by
  rcases Option.bind_eq_some_iff.mp above with ⟨_, _, found⟩
  exact (byId_eq_some found).1

theorem depthLoop_root {fuel steps : Nat} (above : current.parentItemId.bind (byId entries) = none) :
    depthLoop entries (fuel + 1) seen current steps = .ok steps := by
  rw [depthLoop, above]

theorem depthLoop_seen {fuel steps : Nat}
    (above : current.parentItemId.bind (byId entries) = some parent)
    (named : parent.itemId ∈ seen) :
    depthLoop entries (fuel + 1) seen current steps = .ok steps := by
  simp only [depthLoop, above, if_pos named]

theorem depthLoop_step {fuel steps : Nat}
    (above : current.parentItemId.bind (byId entries) = some parent)
    (isNew : parent.itemId ∉ seen) :
    depthLoop entries (fuel + 1) seen current steps =
      depthLoop entries fuel (current.itemId :: seen) parent (steps + 1) := by
  simp only [depthLoop, above, if_neg isNew]

/-- The items that the guard of the loop does not name. -/
def unseen (entries : List SnapshotEntry) (seen : List Uuid) : Finset Uuid :=
  (entries.map SnapshotEntry.itemId).toFinset \ seen.toFinset

theorem unseen_le (entries : List SnapshotEntry) : (unseen entries []).card ≤ entries.length := by
  have least := (entries.map SnapshotEntry.itemId).toFinset_card_le
  rw [List.length_map] at least
  exact (Finset.card_le_card Finset.sdiff_subset).trans least

theorem unseen_lt (member : current ∈ entries) (isNew : current.itemId ∉ seen) :
    (unseen entries (current.itemId :: seen)).card < (unseen entries seen).card := by
  apply Finset.card_lt_card
  rw [Finset.ssubset_iff_of_subset]
  · apply Exists.intro current.itemId
    simp only [unseen, Finset.mem_sdiff, List.mem_toFinset]
    exact ⟨⟨List.mem_map_of_mem member, isNew⟩, fun kept => kept.2 List.mem_cons_self⟩
  · intro itemId kept
    simp only [unseen, Finset.mem_sdiff, List.mem_toFinset] at kept ⊢
    exact ⟨kept.1, fun before => kept.2 (List.mem_cons_of_mem _ before)⟩

theorem unseen_eq (already : current.itemId ∈ seen) :
    unseen entries (current.itemId :: seen) = unseen entries seen := by
  rw [unseen, unseen, List.toFinset_cons, Finset.insert_eq_self.mpr (List.mem_toFinset.mpr already)]

/-- How long the loop can still run. A step from an item already seen leads to one that
is not. -/
def stepsLeft (entries : List SnapshotEntry) (seen : List Uuid) (current : SnapshotEntry) : Nat :=
  2 * (unseen entries seen).card + if current.itemId ∈ seen then 1 else 0

theorem stepsLeft_lt (member : current ∈ entries) (isNew : parent.itemId ∉ seen) :
    stepsLeft entries (current.itemId :: seen) parent < stepsLeft entries seen current := by
  by_cases already : current.itemId ∈ seen
  · have notNamed : parent.itemId ∉ current.itemId :: seen := by
      intro named
      rcases List.mem_cons.mp named with same | before
      · exact isNew (same ▸ already)
      · exact isNew before
    rw [stepsLeft, stepsLeft, unseen_eq already, if_neg notNamed, if_pos already]
    omega
  · have fewer := unseen_lt member already
    rw [stepsLeft, stepsLeft, if_neg already]
    split <;> omega

/-- The loop ends, whatever the parents are. -/
theorem depthLoop_ends : ∀ {fuel : Nat} {seen : List Uuid} {current : SnapshotEntry}
    (steps : Nat), current ∈ entries → stepsLeft entries seen current < fuel →
    ∃ total, depthLoop entries fuel seen current steps = .ok total
  | 0, _, _, _, _, short => absurd short (Nat.not_lt_zero _)
  | fuel + 1, seen, current, steps, member, short => by
      cases above : current.parentItemId.bind (byId entries) with
      | none => exact ⟨steps, depthLoop_root above⟩
      | some parent =>
          by_cases named : parent.itemId ∈ seen
          · exact ⟨steps, depthLoop_seen above named⟩
          · have fewer := stepsLeft_lt member named
            rcases depthLoop_ends (steps + 1) (parent_mem above)
              (Nat.lt_of_lt_of_le fewer (Nat.le_of_lt_succ short)) with ⟨total, ends⟩
            exact ⟨total, (depthLoop_step above named).trans ends⟩

theorem depthLoop_start (member : current ∈ entries) :
    ∃ total, depthLoop entries (2 * entries.length + 1) [] current 0 = .ok total := by
  apply depthLoop_ends 0 member
  have bound := unseen_le entries
  rw [stepsLeft, if_neg List.not_mem_nil]
  omega

/-- The depth that the loop computes. -/
def loopDepth (entries : List SnapshotEntry) (entry : SnapshotEntry) : Nat :=
  match depthLoop entries (2 * entries.length + 1) [] entry 0 with
  | .ok steps => steps
  | .error _ => 0

theorem depthLoop_eq_loopDepth (member : current ∈ entries) :
    depthLoop entries (2 * entries.length + 1) [] current 0 = .ok (loopDepth entries current) := by
  rcases depthLoop_start member with ⟨total, ends⟩
  rw [loopDepth, ends]

theorem sortedByDepth_eq (entries : List SnapshotEntry) :
    sortedByDepth entries = .ok (entries.insertionSort fun left right =>
      loopDepth entries left ≤ loopDepth entries right) := by
  have keyed : (entries.mapM fun entry => do
      let steps ← depthLoop entries (2 * entries.length + 1) [] entry 0
      pure (steps, entry)) = .ok (entries.map fun entry => (loopDepth entries entry, entry)) := by
    apply mapM_eq_map
    intro entry member
    simp only [bind_eq_ok, pure_eq_ok]
    exact ⟨_, depthLoop_eq_loopDepth member, rfl⟩
  simp only [sortedByDepth, bind_eq_ok, pure_eq_ok]
  apply Exists.intro _
  apply And.intro keyed
  rw [← List.map_insertionSort (fun left right => loopDepth entries left ≤ loopDepth entries right)
    (fun left right : Nat × SnapshotEntry => left.1 ≤ right.1)
    (fun entry => (loopDepth entries entry, entry)) entries (fun _ _ _ _ => Iff.rfl),
    List.map_map]
  exact List.map_id' _

/-! ## Distinct entries -/

theorem byId_eq_find? (distinct : (entries.map SnapshotEntry.itemId).Nodup) (itemId : Uuid) :
    byId entries itemId = entries.find? fun entry => decide (entry.itemId = itemId) := by
  have same : ∀ entry, byId entries itemId = some entry ↔
      entries.find? (fun entry => decide (entry.itemId = itemId)) = some entry := by
    intro entry
    have distinctBack : (entries.reverse.map SnapshotEntry.itemId).Nodup := by
      rw [List.map_reverse, List.nodup_reverse]
      exact distinct
    constructor
    · intro found
      rcases byId_eq_some found with ⟨member, rfl⟩
      exact find?_entry distinct member
    · intro found
      have sameId : entry.itemId = itemId := by simpa using List.find?_some found
      have member := List.mem_reverse.mpr (List.mem_of_find?_eq_some found)
      rw [byId, ← sameId]
      exact find?_entry distinctBack member
  exact Option.ext same

/-- An item already seen ends the loop at once: its parent is seen too. -/
def Stops (seen : List Uuid) (current : SnapshotEntry) : Prop :=
  current.itemId ∈ seen → ∀ parentId ∈ current.parentItemId, parentId ∈ seen

/-- With distinct entries one step for each entry is enough. -/
theorem depthLoop_short (distinct : (entries.map SnapshotEntry.itemId).Nodup) :
    ∀ {fuel : Nat} {seen : List Uuid} {current : SnapshotEntry} (steps : Nat),
      current ∈ entries → Stops seen current → (unseen entries seen).card < fuel →
      ∃ total, depthLoop entries fuel seen current steps = .ok total
  | 0, _, _, _, _, _, short => absurd short (Nat.not_lt_zero _)
  | fuel + 1, seen, current, steps, member, stops, short => by
      cases above : current.parentItemId.bind (byId entries) with
      | none => exact ⟨steps, depthLoop_root above⟩
      | some parent =>
          by_cases named : parent.itemId ∈ seen
          · exact ⟨steps, depthLoop_seen above named⟩
          · rcases Option.bind_eq_some_iff.mp above with ⟨parentId, isParent, found⟩
            rcases byId_eq_some found with ⟨parentMem, rfl⟩
            have isNew : current.itemId ∉ seen :=
              fun already => named (stops already parent.itemId isParent)
            have parentStops : Stops (current.itemId :: seen) parent := by
              intro among grandId isGrand
              have same : parent.itemId = current.itemId :=
                (List.mem_cons.mp among).resolve_right named
              rw [List.inj_on_of_nodup_map distinct parentMem member same] at isGrand isParent
              cases isGrand.symm.trans isParent
              exact List.mem_cons_self
            have fewer := unseen_lt member isNew
            rcases depthLoop_short distinct (steps + 1) parentMem parentStops
              (Nat.lt_of_lt_of_le fewer (Nat.le_of_lt_succ short)) with ⟨total, ends⟩
            exact ⟨total, (depthLoop_step above named).trans ends⟩

/-- More fuel changes nothing. -/
theorem depthLoop_mono : ∀ {fuel more : Nat} {seen : List Uuid} {current : SnapshotEntry}
    {steps total : Nat}, depthLoop entries fuel seen current steps = .ok total → fuel ≤ more →
    depthLoop entries more seen current steps = .ok total
  | 0, _, _, _, _, _, ends, _ => by cases ends
  | _ + 1, 0, _, _, _, _, _, longer => absurd longer (Nat.not_succ_le_zero _)
  | fuel + 1, more + 1, seen, current, steps, total, ends, longer => by
      cases above : current.parentItemId.bind (byId entries) with
      | none =>
          rw [depthLoop_root above] at ends ⊢
          exact ends
      | some parent =>
          by_cases named : parent.itemId ∈ seen
          · rw [depthLoop_seen above named] at ends ⊢
            exact ends
          · rw [depthLoop_step above named] at ends ⊢
            exact depthLoop_mono ends (Nat.le_of_succ_le_succ longer)

/-- Where the loop ends it has counted the steps of the walk. -/
theorem depthLoop_eq_depthWalk (distinct : (entries.map SnapshotEntry.itemId).Nodup) :
    ∀ {fuel : Nat} {seen : List Uuid} {current : SnapshotEntry} {steps total : Nat},
      depthLoop entries fuel seen current steps = .ok total →
      total = steps + depthWalk entries fuel seen current
  | 0, _, _, _, _, ends => by cases ends
  | fuel + 1, seen, current, steps, total, ends => by
      rw [depthWalk]
      cases isParent : current.parentItemId with
      | none =>
          rw [depthLoop_root (by rw [isParent]; rfl)] at ends
          cases ends
          rfl
      | some parentId =>
          have isAbove : current.parentItemId.bind (byId entries) =
              entries.find? fun entry => decide (entry.itemId = parentId) := by
            rw [isParent, Option.bind_some, byId_eq_find? distinct]
          cases found : entries.find? fun entry => decide (entry.itemId = parentId) with
          | none =>
              rw [depthLoop_root (isAbove.trans found)] at ends
              cases ends
              simp only [found, Nat.add_zero]
          | some parent =>
              have sameId : parent.itemId = parentId := by simpa using List.find?_some found
              by_cases named : parentId ∈ seen
              · rw [depthLoop_seen (isAbove.trans found) (sameId ▸ named)] at ends
                cases ends
                simp only [found, if_pos named, Nat.add_zero]
              · rw [depthLoop_step (isAbove.trans found) (sameId ▸ named)] at ends
                have counted := depthLoop_eq_depthWalk distinct ends
                simp only [found, if_neg named]
                omega

theorem loopDepth_eq (distinct : (entries.map SnapshotEntry.itemId).Nodup)
    (member : current ∈ entries) : loopDepth entries current = depth entries current := by
  have stops : Stops [] current := nofun
  have bound : (unseen entries []).card < entries.length + 1 := Nat.lt_succ_of_le (unseen_le entries)
  rcases depthLoop_short distinct 0 member stops bound with ⟨total, ends⟩
  have same := depthLoop_mono ends (by omega : entries.length + 1 ≤ 2 * entries.length + 1)
  have counted := depthLoop_eq_depthWalk distinct ends
  rw [loopDepth, same, depth]
  show total = _
  omega

/-- `_parents_first` gives every list back in another order, the order of the model when
no item has two entries. -/
theorem sortedByDepth_runs (entries : List SnapshotEntry) :
    ∃ ordered, sortedByDepth entries = .ok ordered ∧ ordered.Perm entries ∧
      ((entries.map SnapshotEntry.itemId).Nodup → ordered = parentsFirst entries) := by
  apply Exists.intro _
  apply And.intro (sortedByDepth_eq entries)
  apply And.intro (List.perm_insertionSort _ entries)
  intro distinct
  have same := List.map_insertionSort
    (fun left right => loopDepth entries left ≤ loopDepth entries right)
    (fun left right => depth entries left ≤ depth entries right) id entries
  rw [List.map_id, List.map_id] at same
  apply same
  intro left leftMem right rightMem
  rw [loopDepth_eq distinct leftMem, loopDepth_eq distinct rightMem]
  rfl

end Ends

/-! ## The order -/

section Order

variable {entries : List SnapshotEntry} {entry : SnapshotEntry}

/-- The parents that the entries record. -/
def recordedParent (entries : List SnapshotEntry) (itemId : Uuid) : Option Uuid :=
  (entries.find? fun entry => decide (entry.itemId = itemId)).bind SnapshotEntry.parentItemId

/-- The recorded parents that have an entry themselves. -/
def insideParent (entries : List SnapshotEntry) (itemId : Uuid) : Option Uuid :=
  (recordedParent entries itemId).filter fun parentId =>
    parentId ∈ entries.map SnapshotEntry.itemId

theorem recordedParent_eq (distinct : (entries.map SnapshotEntry.itemId).Nodup)
    (member : entry ∈ entries) :
    recordedParent entries entry.itemId = entry.parentItemId := by
  rw [recordedParent, find?_entry distinct member]
  rfl

theorem insideParent_eq_some {itemId top : Uuid} : insideParent entries itemId = some top ↔
    recordedParent entries itemId = some top ∧ top ∈ entries.map SnapshotEntry.itemId := by
  rw [insideParent, Option.filter_eq_some_iff, decide_eq_true_iff]

theorem insideParent_acyclic (acyclic : Acyclic (recordedParent entries)) :
    Acyclic (insideParent entries) :=
  acyclic.of_sub fun _ _ step => (insideParent_eq_some.mp step).1

/-- Parents with smaller ids exclude every cycle. -/
theorem recordedParent_acyclic_of_lower
    (lower : ∀ entry ∈ entries, ∀ parentId ∈ entry.parentItemId, parentId < entry.itemId) :
    Acyclic (recordedParent entries) := by
  apply Acyclic.of_rank fun itemId => itemId
  intro itemId top step
  rcases Option.bind_eq_some_iff.mp step with ⟨entry, search, named⟩
  have sameId : entry.itemId = itemId := by simpa using List.find?_some search
  exact sameId ▸ lower entry (List.mem_of_find?_eq_some search) top named

theorem find?_eq_none_of_outside {itemId : Uuid}
    (outside : itemId ∉ entries.map SnapshotEntry.itemId) :
    entries.find? (fun entry => decide (entry.itemId = itemId)) = none := by
  apply List.find?_eq_none.mpr
  intro entry member same
  exact outside (of_decide_eq_true same ▸ List.mem_map_of_mem member)

/-- In a forest the guard of `depth` never strikes: the walk counts the parents that
have an entry. -/
theorem depthWalk_eq (distinct : (entries.map SnapshotEntry.itemId).Nodup)
    (acyclic : Acyclic (recordedParent entries)) :
    ∀ {fuel steps : Nat} {seen : List Uuid} {current : SnapshotEntry},
      current ∈ entries →
      (∀ itemId ∈ seen, Above (insideParent entries) itemId current.itemId) →
      DepthIs (insideParent entries) steps current.itemId → steps < fuel →
      depthWalk entries fuel seen current = steps
  | 0, _, _, _, _, _, _, short => absurd short (Nat.not_lt_zero _)
  | fuel + 1, steps, seen, current, member, below, depth, short => by
      have recorded := recordedParent_eq distinct member
      have isTop : insideParent entries current.itemId = none → steps = 0 :=
        fun none => depth.unique (DepthIs.zero_iff.mpr none)
      rw [depthWalk]
      cases named : current.parentItemId with
      | none =>
          rw [insideParent, recorded, named] at isTop
          exact (isTop rfl).symm
      | some parentId =>
          rw [named] at recorded
          by_cases inside : parentId ∈ entries.map SnapshotEntry.itemId
          · rcases List.mem_map.mp inside with ⟨parent, parentMem, rfl⟩
            have step : insideParent entries current.itemId = some parent.itemId :=
              insideParent_eq_some.mpr ⟨recorded, inside⟩
            have notSeen : parent.itemId ∉ seen := by
              intro already
              have around := (below parent.itemId already).tail step
              exact insideParent_acyclic acyclic parent.itemId around
            have belowParent : ∀ itemId ∈ current.itemId :: seen,
                Above (insideParent entries) itemId parent.itemId := by
              intro itemId among
              rcases List.mem_cons.mp among with rfl | earlier
              · exact .single step
              · exact (below itemId earlier).tail step
            cases steps with
            | zero =>
                rw [DepthIs.zero_iff.mp depth] at step
                cases step
            | succ steps =>
                rcases DepthIs.succ_iff.mp depth with ⟨top, isStep, topDepth⟩
                cases step.symm.trans isStep
                have later := depthWalk_eq distinct acyclic parentMem belowParent topDepth
                  (Nat.lt_of_succ_lt_succ short)
                simp only [find?_entry distinct parentMem, if_neg notSeen, later]
          · have noParent : insideParent entries current.itemId = none := by
              rw [insideParent, recorded, Option.filter_some, if_neg (by simpa using inside)]
            simp only [find?_eq_none_of_outside inside, isTop noParent]

theorem depthIs_depth (distinct : (entries.map SnapshotEntry.itemId).Nodup)
    (acyclic : Acyclic (recordedParent entries)) (member : entry ∈ entries) :
    DepthIs (insideParent entries) (depth entries entry) entry.itemId := by
  have supported : Supported (insideParent entries) (entries.map SnapshotEntry.itemId) := by
    intro itemId top step
    rcases Option.bind_eq_some_iff.mp (insideParent_eq_some.mp step).1 with ⟨found, search, _⟩
    have sameId : found.itemId = itemId := by simpa using List.find?_some search
    exact sameId ▸ List.mem_map_of_mem (List.mem_of_find?_eq_some search)
  have ends := (insideParent_acyclic acyclic).ancestor_eq_none supported entry.itemId
  rcases exists_depthIs ends with ⟨steps, short, isDepth⟩
  rw [List.length_map] at short
  have nothing : ∀ itemId ∈ ([] : List Uuid),
      Above (insideParent entries) itemId entry.itemId := nofun
  rw [depth, depthWalk_eq distinct acyclic member nothing isDepth (Nat.lt_succ_of_le short)]
  exact isDepth

/-- A place whose parent is known or recorded comes after that parent. -/
theorem parentsFirst_topDown (distinct : (entries.map SnapshotEntry.itemId).Nodup)
    (acyclic : Acyclic (recordedParent entries)) {place : SnapshotEntry → SnapshotEntry}
    (keepsId : ∀ entry, (place entry).itemId = entry.itemId) {known : List Uuid}
    (hung : ∀ entry ∈ entries, ∀ top ∈ (place entry).parentItemId, top ∈ known ∨
      (entry.parentItemId = some top ∧ top ∈ entries.map SnapshotEntry.itemId)) :
    TopDown SnapshotEntry.itemId SnapshotEntry.parentItemId known
      ((parentsFirst entries).map place) := by
  have total : Std.Total fun left right : SnapshotEntry =>
      depth entries left ≤ depth entries right := ⟨fun left right => Nat.le_total _ _⟩
  have trans : IsTrans SnapshotEntry fun left right =>
      depth entries left ≤ depth entries right := ⟨fun _ _ _ => Nat.le_trans⟩
  apply TopDown.map
  apply TopDown.of_sorted (depth entries)
  · exact List.pairwise_insertionSort _ entries
  · intro entry among top isPlaced
    have member := (perm_parentsFirst entries).mem_iff.mp among
    rcases hung entry member top isPlaced with isKnown | ⟨named, inside⟩
    · exact .inl isKnown
    · rcases List.mem_map.mp inside with ⟨parent, parentMem, rfl⟩
      have step : insideParent entries entry.itemId = some parent.itemId :=
        insideParent_eq_some.mpr ⟨(recordedParent_eq distinct member).trans named, inside⟩
      have deeper := (depthIs_depth distinct acyclic member).unique
        ((depthIs_depth distinct acyclic parentMem).child step)
      apply Or.inr
      apply Exists.intro parent
      apply And.intro ((perm_parentsFirst entries).mem_iff.mpr parentMem)
      apply And.intro (keepsId parent)
      omega

end Order

/-! ## The parents of the upserts -/

section Upserts

variable [Platform]

omit [Platform] in
/-- A part of the entries records no other parents. -/
theorem recordedParent_acyclic_of_sub {part entries : List SnapshotEntry}
    (acyclic : Acyclic (recordedParent entries))
    (distinct : (entries.map SnapshotEntry.itemId).Nodup) (sub : part ⊆ entries) :
    Acyclic (recordedParent part) := by
  apply acyclic.of_sub
  intro itemId top step
  rcases Option.bind_eq_some_iff.mp step with ⟨entry, search, named⟩
  have sameId : entry.itemId = itemId := by simpa using List.find?_some search
  rw [← sameId, recordedParent_eq distinct (sub (List.mem_of_find?_eq_some search))]
  exact named

omit [Platform] in
/-- Where the restore leaves a parent, it is restored too or its row is there. -/
theorem placed_known {restorableIds liveIds : List Uuid} {entry : SnapshotEntry} {top : Uuid}
    (step : (placed restorableIds liveIds entry).parentItemId = some top) :
    top ∈ restorableIds ∨ top ∈ liveIds := by
  cases named : entry.parentItemId with
  | none =>
      simp only [placed, named] at step
      cases step
  | some parentId =>
      by_cases known : parentId ∈ restorableIds ∨ parentId ∈ liveIds
      · simp only [placed, named, if_pos known, Option.some.injEq] at step
        exact step ▸ known
      · simp only [placed, named, if_neg known, rehomedToRoot] at step
        cases step

theorem placedEntries_topDown {userId : Uuid} {sys : System} {target : List SnapshotEntry}
    (distinct : (target.map SnapshotEntry.itemId).Nodup)
    (acyclic : Acyclic (recordedParent target)) :
    TopDown SnapshotEntry.itemId SnapshotEntry.parentItemId (sys.db.items.rows.map DriveItem.id)
      (placedEntries userId sys target) := by
  apply parentsFirst_topDown distinct acyclic (placed_itemId _ _)
  intro entry member top step
  rcases placed_known step with restored | live
  · exact .inr ⟨placed_parent step, restored⟩
  · rcases List.mem_map.mp live with ⟨item, itemMem, sameId⟩
    exact .inl (sameId ▸ List.mem_map_of_mem (List.mem_filter.mp itemMem).1)

/-- An order with the parents first is written to its end when the index refuses no
flush. -/
theorem upserts_run {now : Timestamp} {userId : Uuid} : ∀ {entries : List SnapshotEntry}
    {known : List Uuid} {items : ItemTable},
    TopDown SnapshotEntry.itemId SnapshotEntry.parentItemId known entries →
    (∀ itemId ∈ known, itemId ∈ items.rows.map DriveItem.id) →
    (∀ entry ∈ entries, entry.name.length ≤ 512) →
    (∀ rows ∈ upsertFlushes now userId entries items,
      rows.Pairwise fun left right => ¬ SameSlot left right) →
    ∃ after, forEach (upsertItem now userId) entries items = .ok after
  | [], _, items, _, _, _, _ => ⟨items, rfl⟩
  | entry :: rest, known, items, topDown, there, short, free => by
      rw [upsertFlushes, List.forall_mem_cons] at free
      rcases upsertItem_runs (short entry List.mem_cons_self) free.1
        (fun parentId named => List.mem_cons_of_mem _ (there parentId (topDown.1 parentId named)))
        with ⟨middle, first, rows⟩
      rw [first] at free
      have thereNow : ∀ itemId ∈ entry.itemId :: known,
          itemId ∈ middle.rows.map DriveItem.id := by
        intro itemId among
        rw [rows, mem_upsertRows_ids]
        rcases List.mem_cons.mp among with rfl | earlier
        · exact List.mem_cons_self
        · exact List.mem_cons_of_mem _ (there itemId earlier)
      rcases upserts_run topDown.2 thereNow
        (fun other member => short other (List.mem_cons_of_mem _ member)) free.2
        with ⟨after, later⟩
      exact ⟨after, by rw [forEach_cons, bind_eq_ok]; exact ⟨middle, first, later⟩⟩

/-- Once its safety snapshot is taken, a restore of acyclic entries writes each parent
before it refers to it, unless the row was there before; and `_parents_first` ends on
every list with all its entries. -/
theorem restore_parentsExist {userId snapshotId : Uuid} {scope : Scope} {sys : System}
    {target : List SnapshotEntry}
    (acyclic : Acyclic (recordedParent (listAllEntries sys.db snapshotId)))
    (selects : restoreTarget scope (listAllEntries sys.db snapshotId) = .ok target) :
    upsertAll sys.now userId target sys.db.items
        ((listAllItems sys.db userId).map DriveItem.id) =
      forEach (upsertItem sys.now userId) (placedEntries userId sys target) sys.db.items ∧
    (∀ earlier entry later, placedEntries userId sys target = earlier ++ entry :: later →
      ∀ parentId ∈ entry.parentItemId, parentId ∈ earlier.map SnapshotEntry.itemId ∨
        parentId ∈ sys.db.items.rows.map DriveItem.id) ∧
    ∀ entries, ∃ ordered, sortedByDepth entries = .ok ordered ∧ ordered.Perm entries ∧
      ((entries.map SnapshotEntry.itemId).Nodup → ordered = parentsFirst entries) := by
  have distinct := listAllEntries_nodup sys.db snapshotId
  apply And.intro (forEach_map (upsertItem sys.now userId) _ _ _).symm
  apply And.intro _ sortedByDepth_runs
  intro earlier entry later split parentId named
  rcases restoreTarget_runs scope distinct with ⟨_, sameTarget, sub, targetDistinct⟩
  cases selects.symm.trans sameTarget
  have topDown : TopDown SnapshotEntry.itemId SnapshotEntry.parentItemId
      (sys.db.items.rows.map DriveItem.id) (placedEntries userId sys target) :=
    placedEntries_topDown targetDistinct (recordedParent_acyclic_of_sub acyclic distinct sub)
  rw [split] at topDown
  exact (topDown.known_or_earlier parentId named).symm

end Upserts

/-! ## A subfolder that is gone -/

section GoneSubfolder

attribute [local instance] smallPlatform

private def loseSubfolder : List Op :=
  [.createFolder 1 none "Work", .createFolder 1 (some 10) "a", .createFolder 1 (some 11) "b",
    .createSnapshot 1 .manual "weekly" false, .trashItem 1 11, .permanentDelete 1 11]

private def lostSubfolder : System := afterFirstDay loseSubfolder

private def subfolderEntries : List SnapshotEntry :=
  (listAllEntries lostSubfolder.db 13).drop 1

theorem restore_parentsExist_lostSubfolder :
    (lostSubfolder.db.items.rows.map DriveItem.id = [10] ∧
      (placedEntries 1 lostSubfolder subfolderEntries).map SnapshotEntry.parentItemId =
        [some 10, some 11]) ∧
    upsertAll lostSubfolder.now 1 subfolderEntries lostSubfolder.db.items
        ((listAllItems lostSubfolder.db 1).map DriveItem.id) =
      forEach (upsertItem lostSubfolder.now 1) (placedEntries 1 lostSubfolder subfolderEntries)
        lostSubfolder.db.items ∧
    (∀ earlier entry later,
      placedEntries 1 lostSubfolder subfolderEntries = earlier ++ entry :: later →
      ∀ parentId ∈ entry.parentItemId, parentId ∈ earlier.map SnapshotEntry.itemId ∨
        parentId ∈ lostSubfolder.db.items.rows.map DriveItem.id) ∧
    ∀ entries, ∃ ordered, sortedByDepth entries = .ok ordered ∧ ordered.Perm entries ∧
      ((entries.map SnapshotEntry.itemId).Nodup → ordered = parentsFirst entries) := by
  have acyclic : Acyclic (recordedParent (listAllEntries lostSubfolder.db 13)) :=
    recordedParent_acyclic_of_lower (by decide)
  have selects : restoreTarget (.selected [11]) (listAllEntries lostSubfolder.db 13) =
      .ok subfolderEntries := rfl
  apply And.intro (by decide)
  exact restore_parentsExist acyclic selects

end GoneSubfolder

end SnapshotService

end CloudDrive
