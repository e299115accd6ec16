import CloudDrive.Drive.MoveRequests
import CloudDrive.Foundation.Interleaving

/-! # Two moves at once

Two concurrent moves keep the tree unless both commit and each puts its item at
or below the item of the other. -/

namespace CloudDrive

open Outcome Relational Forest Relation Execution DriveService DriveItemRepository

section Requests

variable [Platform]

/-- The two requests. -/
inductive Mover where
  | first
  | second
  deriving DecidableEq

def Mover.other : Mover → Mover
  | .first => .second
  | .second => .first

abbrev MoveWorld := Interleaving.World Mover SharedItems MoveStage

/-- Nothing but the two requests happens. -/
def concurrentMoves (requests : Mover → MoveRequest) :
    Interleaving.Tasks Mover SharedItems MoveStage Empty where
  act mover := (requests mover).act
  happen what _ := nomatch what

/-- Both requests have arrived and read nothing yet. -/
def bothArrive (sys : System) : MoveWorld where
  store := ⟨sys, []⟩
  task _ := .reading

/-- Each request puts its item at or below the item of the other. -/
def Crossing (items : ItemTable) (requests : Mover → MoveRequest) : Prop :=
  ∃ one two, (requests .first).newParentId = some one ∧
    (requests .second).newParentId = some two ∧
    AtOrAbove items.parentOf one (requests .second).itemId ∧
    AtOrAbove items.parentOf two (requests .first).itemId

/-! ## What a step does -/

namespace MoveRequest

variable {request : MoveRequest}

theorem read_ne_committed (sys : CloudDrive.System) {stage : MoveStage}
    (notYet : stage ≠ .committed) : request.read sys stage ≠ .committed := by
  fun_cases MoveRequest.read request sys stage <;> simp_all

/-- A request queries or waits with what it has written, or it commits. -/
theorem act_cases {shared after : SharedItems} {stage next : MoveStage}
    (acts : request.act shared stage = some (after, next)) :
    (stage ≠ .committed ∧ next ≠ .committed ∧ after.sys = shared.sys ∧
      ∀ {start moved}, FolderTree start → Agrees start shared.sys.db.items moved →
        request.Knows start moved stage → request.Knows start moved next) ∨
    ∃ item items, stage = .written item ∧ next = .committed ∧
      after.sys = shared.sys.withItems items ∧
      shared.sys.db.items.change request.itemId
        (parentWritten item request.newParentId request.userId shared.sys.now) = .ok items := by
  have queries : stage ≠ .committed → some (shared, request.read shared.sys stage) =
      some (after, next) → stage ≠ .committed ∧ next ≠ .committed ∧ after.sys = shared.sys ∧
      ∀ {start moved}, FolderTree start → Agrees start shared.sys.db.items moved →
        request.Knows start moved stage → request.Knows start moved next := by
    intro notYet same
    cases same
    exact ⟨notYet, read_ne_committed _ notYet, rfl, fun tree agrees knows => knows.read tree agrees⟩
  cases stage with
  | committed => cases acts
  | raised => cases acts
  | reading => exact .inl (queries nofun acts)
  | permittingItem => exact .inl (queries nofun acts)
  | findingParent => exact .inl (queries nofun acts)
  | permittingParent => exact .inl (queries nofun acts)
  | walking => exact .inl (queries nofun acts)
  | naming => exact .inl (queries nofun acts)
  | writing item =>
      by_cases locked : request.itemId ∈ shared.rowLocks
      · simp [act, locked] at acts
      · simp only [act, locked, if_false, Option.some.injEq, Prod.mk.injEq] at acts
        rcases acts with ⟨rfl, rfl⟩
        exact .inl ⟨nofun, nofun, rfl, fun _ _ knows => knows⟩
  | written item =>
      cases changed : shared.sys.db.items.change request.itemId
        (parentWritten item request.newParentId request.userId shared.sys.now) with
      | error error =>
          simp only [act, changed, Option.some.injEq, Prod.mk.injEq] at acts
          rcases acts with ⟨rfl, rfl⟩
          exact .inl ⟨nofun, nofun, rfl, fun _ _ _ => trivial⟩
      | ok items =>
          simp only [act, changed, Option.some.injEq, Prod.mk.injEq] at acts
          rcases acts with ⟨rfl, rfl⟩
          exact .inr ⟨item, items, rfl, rfl, rfl, changed⟩

/-- The update hangs the item under the destination, or leaves it where it is when
its session believes that it is there already. -/
theorem updated {start items after : ItemTable} {moved : Uuid → Prop} {item : DriveItem}
    {now : Timestamp} (agrees : Agrees start items moved)
    (holds : request.Holds start moved item)
    (changed : items.change request.itemId
      (parentWritten item request.newParentId request.userId now) = .ok after) :
    (∀ itemId kind, HasKind after itemId kind ↔ HasKind items itemId kind) ∧
      after.parentOf = reparent items.parentOf request.itemId
        (dirty item.parentId request.newParentId (items.parentOf request.itemId)) := by
  rcases (agrees.kinds _ _).mpr holds.2.kind with ⟨row, member, sameId, _⟩
  have isRow : row.id = request.itemId := sameId.trans holds.1
  rw [← isRow] at changed ⊢
  have replaced := ItemTable.change_replaced member rfl changed
  constructor
  · intro itemId kind
    constructor
    · intro has
      rcases has with ⟨other, otherMem, isOther, isKind⟩
      rcases (replaced.rows other).mp otherMem with rfl | kept
      · exact ⟨row, member, isOther, isKind⟩
      · exact ⟨other, kept.1, isOther, isKind⟩
    · intro has
      rcases has with ⟨other, otherMem, isOther, isKind⟩
      by_cases same : other.id = row.id
      · rw [ItemTable.eq_of_id_eq otherMem member same] at isOther isKind
        exact ⟨_, replaced.newMem, isOther, isKind⟩
      · exact ⟨other, (replaced.rows other).mpr (.inr ⟨otherMem, same⟩), isOther, isKind⟩
  · rw [replaced.parentOf, ItemTable.parentOf_id member]
    rfl

end MoveRequest

/-! ## Both requests -/

section Run

variable {start : ItemTable} {requests : Mover → MoveRequest} {world before after : MoveWorld}

/-- The items the request has moved so far. -/
def MovedBy (requests : Mover → MoveRequest) (world : MoveWorld) (mover : Mover)
    (itemId : Uuid) : Prop :=
  world.task mover = .committed ∧ itemId = (requests mover).itemId

/-- Where the committed items hang, by who has committed. -/
structure Placed (start : ItemTable) (requests : Mover → MoveRequest) (world : MoveWorld) :
    Prop where
  kinds : ∀ itemId kind, HasKind world.store.sys.db.items itemId kind ↔ HasKind start itemId kind
  untouched : (∀ mover, world.task mover ≠ .committed) →
    world.store.sys.db.items.parentOf = start.parentOf
  once : ∀ mover, world.task mover = .committed → world.task mover.other ≠ .committed →
    (∀ top, (requests mover).newParentId = some top →
      ¬ AtOrAbove start.parentOf top (requests mover).itemId) ∧
    world.store.sys.db.items.parentOf =
      reparent start.parentOf (requests mover).itemId (requests mover).newParentId
  both : (∀ mover, world.task mover = .committed) →
    (Acyclic world.store.sys.db.items.parentOf ↔ ¬ Crossing start requests)

structure MovesTracked (start : ItemTable) (requests : Mover → MoveRequest)
    (world : MoveWorld) : Prop where
  placed : Placed start requests world
  knows : ∀ mover, (requests mover).Knows start (MovedBy requests world mover.other)
    (world.task mover)

omit [Platform] in
theorem Mover.other_ne (mover : Mover) : mover.other ≠ mover := by
  cases mover <;> decide

omit [Platform] in
@[simp] theorem Mover.other_other (mover : Mover) : mover.other.other = mover := by
  cases mover <;> rfl

omit [Platform] in
theorem Mover.all {claim : Mover → Prop} (mover : Mover) (one : claim mover)
    (two : claim mover.other) : ∀ mover, claim mover := by
  intro any
  cases mover <;> cases any <;> first | exact one | exact two

theorem crossing_iff (mover : Mover) :
    Crossing start requests ↔ ∃ one two, (requests mover.other).newParentId = some one ∧
      (requests mover).newParentId = some two ∧
      AtOrAbove start.parentOf one (requests mover).itemId ∧
      AtOrAbove start.parentOf two (requests mover.other).itemId := by
  cases mover with
  | second => exact Iff.rfl
  | first =>
      constructor
      · intro crossing
        rcases crossing with ⟨one, two, firstTo, secondTo, oneBelow, twoBelow⟩
        exact ⟨two, one, secondTo, firstTo, twoBelow, oneBelow⟩
      · intro crossing
        rcases crossing with ⟨one, two, secondTo, firstTo, oneBelow, twoBelow⟩
        exact ⟨two, one, firstTo, secondTo, twoBelow, oneBelow⟩

/-- A request that has not committed finds every item but those of the other
request where they were. -/
theorem Placed.agrees (placed : Placed start requests world) {mover : Mover}
    (notYet : world.task mover ≠ .committed) :
    Agrees start world.store.sys.db.items (MovedBy requests world mover.other) where
  kinds := placed.kinds
  parents itemId stays := by
    by_cases otherDone : world.task mover.other = .committed
    · have moved := (placed.once mover.other otherDone (by simpa using notYet)).2
      rw [moved, reparent, if_neg fun same => stays ⟨otherDone, same⟩]
    · rw [placed.untouched (Mover.all mover notYet otherDone)]

/-- A step that commits nothing. -/
theorem MovesTracked.waits (tracked : MovesTracked start requests before) {mover : Mover}
    (items : after.store.sys = before.store.sys)
    (notBefore : before.task mover ≠ .committed) (notAfter : after.task mover ≠ .committed)
    (others : ∀ other, other ≠ mover → after.task other = before.task other)
    (knows : (requests mover).Knows start (MovedBy requests before mover.other)
      (after.task mover)) : MovesTracked start requests after := by
  have done : ∀ any, after.task any = .committed ↔ before.task any = .committed := by
    intro any
    by_cases same : any = mover
    · rw [same]
      exact iff_of_false notAfter notBefore
    · rw [others any same]
  have moved : ∀ any, MovedBy requests after any = MovedBy requests before any := by
    intro any
    funext itemId
    rw [MovedBy, MovedBy, done]
  constructor
  case placed =>
    constructor
    case kinds =>
      rw [items]
      exact tracked.placed.kinds
    case untouched =>
      intro nobody
      rw [items]
      exact tracked.placed.untouched fun any => fun isDone => nobody any ((done any).mpr isDone)
    case once =>
      intro any isDone otherNot
      rw [items]
      exact tracked.placed.once any ((done any).mp isDone) fun otherDone =>
        otherNot ((done _).mpr otherDone)
    case both =>
      intro everybody
      rw [items]
      exact tracked.placed.both fun any => (done any).mp (everybody any)
  case knows =>
    intro any
    rw [moved]
    by_cases same : any = mover
    · rw [same]
      exact knows
    · rw [others any same]
      exact tracked.knows any

/-- The first of the two commits. -/
theorem Placed.first (placed : Placed start requests before) {mover : Mover}
    {item : DriveItem} {items : ItemTable}
    (notYet : before.task mover ≠ .committed) (otherNot : before.task mover.other ≠ .committed)
    (holds : (requests mover).Holds start (MovedBy requests before mover.other) item)
    (outside : (requests mover).Outside start (MovedBy requests before mover.other))
    (graph : items.parentOf = reparent before.store.sys.db.items.parentOf (requests mover).itemId
      (dirty item.parentId (requests mover).newParentId
        (before.store.sys.db.items.parentOf (requests mover).itemId))) :
    (∀ top, (requests mover).newParentId = some top →
      ¬ AtOrAbove start.parentOf top (requests mover).itemId) ∧
    items.parentOf =
      reparent start.parentOf (requests mover).itemId (requests mover).newParentId := by
  have still : before.store.sys.db.items.parentOf = start.parentOf :=
    placed.untouched (Mover.all mover notYet otherNot)
  have known : item.parentId = start.parentOf (requests mover).itemId := by
    rw [holds.2.parent fun moved => otherNot moved.1, holds.1]
  have lands : dirty item.parentId (requests mover).newParentId
      (start.parentOf (requests mover).itemId) = (requests mover).newParentId := by
    rw [dirty, ← known]
    exact ite_eq_right_iff.mpr id
  constructor
  · intro top named
    exact outside top named start.parentOf fun node top step =>
      ⟨step, fun moved => otherNot moved.1⟩
  · rw [graph, still, lands]

/-- The second of the two commits. -/
theorem Placed.second (placed : Placed start requests before) (tree : FolderTree start)
    {mover : Mover} {item : DriveItem} {items : ItemTable}
    (notYet : before.task mover ≠ .committed) (otherDone : before.task mover.other = .committed)
    (holds : (requests mover).Holds start (MovedBy requests before mover.other) item)
    (outside : (requests mover).Outside start (MovedBy requests before mover.other))
    (graph : items.parentOf = reparent before.store.sys.db.items.parentOf (requests mover).itemId
      (dirty item.parentId (requests mover).newParentId
        (before.store.sys.db.items.parentOf (requests mover).itemId))) :
    Acyclic items.parentOf ↔ ¬ Crossing start requests := by
  rcases placed.once mover.other otherDone (by simpa using notYet) with ⟨otherOutside, moved⟩
  -- The starting tree without the edge of the item the other request has moved.
  have cut : Steady start (MovedBy requests before mover.other)
      (reparent start.parentOf (requests mover.other).itemId none) := by
    intro node top step
    by_cases same : node = (requests mover.other).itemId
    · simp [reparent, same] at step
    · rw [reparent, if_neg same] at step
      exact ⟨step, fun isMoved => same isMoved.2⟩
  rw [graph, moved, crossing_iff mover]
  by_cases same : (requests mover).itemId = (requests mover.other).itemId
  · have noCrossing : ¬ ∃ one two, (requests mover.other).newParentId = some one ∧
        (requests mover).newParentId = some two ∧
        AtOrAbove start.parentOf one (requests mover).itemId ∧
        AtOrAbove start.parentOf two (requests mover.other).itemId := by
      intro crossing
      rcases crossing with ⟨one, two, oneTo, _, oneBelow, _⟩
      exact otherOutside one oneTo (same ▸ oneBelow)
    apply iff_of_true _ noCrossing
    have again : ∀ target, reparent (reparent start.parentOf (requests mover.other).itemId
        (requests mover.other).newParentId) (requests mover.other).itemId target =
        reparent start.parentOf (requests mover.other).itemId target := by
      intro target
      funext node
      by_cases isMoved : node = (requests mover.other).itemId <;> simp [reparent, isMoved]
    rw [same, again, dirty]
    by_cases believes : item.parentId = (requests mover).newParentId
    · rw [if_pos believes]
      apply tree.acyclic.reparent
      intro top hangs
      rw [reparent, if_pos rfl] at hangs
      exact otherOutside top hangs
    · rw [if_neg believes]
      apply tree.acyclic.reparent
      intro top named path
      apply outside top named _ cut
      rw [same]
      exact atOrAbove_reparent_to none path
  · have known : item.parentId = start.parentOf (requests mover).itemId := by
      rw [holds.2.parent fun isMoved => same (holds.1 ▸ isMoved.2), holds.1]
    have lands : dirty item.parentId (requests mover).newParentId
        (reparent start.parentOf (requests mover.other).itemId
          (requests mover.other).newParentId (requests mover).itemId) =
        (requests mover).newParentId := by
      rw [reparent, if_neg same, dirty, ← known]
      exact ite_eq_right_iff.mpr id
    rw [lands]
    exact tree.acyclic.reparent_twice_iff otherOutside fun top named =>
      outside top named _ cut

theorem MovesTracked.commits (tracked : MovesTracked start requests before)
    (tree : FolderTree start) {mover : Mover} {item : DriveItem} {items : ItemTable}
    (isWritten : before.task mover = .written item) (isDone : after.task mover = .committed)
    (others : ∀ other, other ≠ mover → after.task other = before.task other)
    (sys : after.store.sys = before.store.sys.withItems items)
    (changed : before.store.sys.db.items.change (requests mover).itemId
      (parentWritten item (requests mover).newParentId (requests mover).userId
        before.store.sys.now) = .ok items) : MovesTracked start requests after := by
  have notYet : before.task mover ≠ .committed := by
    rw [isWritten]
    nofun
  have knows := tracked.knows mover
  rw [isWritten] at knows
  rcases knows with ⟨holds, outside⟩
  rcases MoveRequest.updated (tracked.placed.agrees notYet) holds changed with ⟨kinds, graph⟩
  have isItems : after.store.sys.db.items = items := by
    rw [sys]
    rfl
  have sameOther : after.task mover.other = before.task mover.other :=
    others mover.other mover.other_ne
  constructor
  case placed =>
    constructor
    case kinds =>
      intro itemId kind
      rw [isItems, kinds, tracked.placed.kinds]
    case untouched => exact fun nobody => absurd isDone (nobody mover)
    case once =>
      intro any anyDone otherNot
      by_cases same : any = mover
      · subst same
        rw [sameOther] at otherNot
        rw [isItems]
        exact tracked.placed.first notYet otherNot holds outside graph
      · have isOther : any.other = mover := by
          cases any <;> cases mover <;> first | rfl | exact absurd rfl same
        exact absurd (isOther ▸ isDone) otherNot
    case both =>
      intro everybody
      have otherDone : before.task mover.other = .committed :=
        sameOther.symm.trans (everybody mover.other)
      rw [isItems]
      exact tracked.placed.second tree notYet otherDone holds outside graph
  case knows =>
    intro any
    by_cases same : any = mover
    · rw [same, isDone]
      trivial
    · rw [others any same]
      apply (tracked.knows any).later
      intro itemId moved
      have isOther : any.other = mover := by
        cases any <;> cases mover <;> first | rfl | exact absurd rfl same
      rw [isOther] at moved
      exact absurd moved.1 notYet

theorem MovesTracked.step (tracked : MovesTracked start requests before)
    (tree : FolderTree start) {move : Interleaving.Move Mover Empty}
    (step : (concurrentMoves requests).Step move before after) :
    MovesTracked start requests after := by
  rcases step.cases with ⟨mover, _, acts, others⟩ | ⟨what, _⟩
  · rcases MoveRequest.act_cases acts with
      ⟨notBefore, notAfter, items, keeps⟩ | ⟨item, items, isWritten, isDone, sys, changed⟩
    · exact tracked.waits items notBefore notAfter others
        (keeps tree (tracked.placed.agrees notBefore) (tracked.knows mover))
    · exact tracked.commits tree isWritten isDone others sys changed
  · exact what.elim

theorem bothArrive_tracked (sys : CloudDrive.System) :
    MovesTracked sys.db.items requests (bothArrive sys) where
  placed := {
    kinds := fun _ _ => Iff.rfl
    untouched := fun _ => rfl
    once := fun _ isDone => nomatch isDone
    both := fun everybody => nomatch everybody .first }
  knows := fun _ => trivial

end Run

/-- Two concurrent moves leave the tree a forest unless both commit and cross: each
puts its item at or below the item of the other. -/
theorem concurrentMoves_acyclic_iff {sys : CloudDrive.System} {requests : Mover → MoveRequest}
    {events : List (Event MoveWorld (Interleaving.Move Mover Empty))} {final : MoveWorld}
    (tree : FolderTree sys.db.items)
    (runs : (concurrentMoves requests).Runs (bothArrive sys) events final) :
    Acyclic final.store.sys.db.items.parentOf ↔
      ¬ ((∀ mover, final.task mover = .committed) ∧ Crossing sys.db.items requests) := by
  have tracked : MovesTracked sys.db.items requests final :=
    runs.keeps (bothArrive_tracked sys) fun _ _ kept step => kept.step tree step
  by_cases everybody : ∀ mover, final.task mover = .committed
  · rw [tracked.placed.both everybody]
    simp [everybody]
  · apply iff_of_true _ fun crossing => everybody crossing.1
    by_cases somebody : ∃ mover, final.task mover = .committed
    · rcases somebody with ⟨mover, isDone⟩
      have otherNot : final.task mover.other ≠ .committed :=
        fun otherDone => everybody (Mover.all mover isDone otherDone)
      rcases tracked.placed.once mover isDone otherNot with ⟨outside, graph⟩
      rw [graph]
      exact tree.acyclic.reparent outside
    · rw [tracked.placed.untouched fun mover isDone => somebody ⟨mover, isDone⟩]
      exact tree.acyclic

end Requests

/-! ## Three folders at the root -/

section ThreeFolders

attribute [local instance] smallPlatform

private def makeFolders : List Op :=
  [.createFolder 1 none "A", .createFolder 1 none "B", .createFolder 1 none "C"]

private def folders : CloudDrive.System := afterFirstDay makeFolders

private theorem folders_tree : FolderTree folders.db.items := by
  have allowed : ∀ event ∈ Op.trace makeFolders firstDay, event.action.NoSnapshotRestore := by
    have each : ∀ op ∈ makeFolders, op.NoSnapshotRestore := by
      simp [makeFolders, Op.NoSnapshotRestore]
    exact fun event member => each _ (Op.action_mem_of_trace member)
  have history : History firstDay (Op.trace makeFolders firstDay) folders :=
    firstDay_trace (by simp [makeFolders, Op.Offered]) rfl
  exact (history.treeShaped allowed).folderTree

/-- `first` puts A into B; `second` puts the other item into A. -/
private def moveUnder (itemId : Uuid) : Mover → MoveRequest
  | .first => ⟨1, 10, some 11⟩
  | .second => ⟨1, itemId, some 10⟩

/-- Both requests ask everything before either of them writes. -/
private def readsFirst : List (Interleaving.Move Mover Empty) :=
  List.replicate 6 (.turn .first) ++ List.replicate 6 (.turn .second) ++
    [.turn .first, .turn .second, .turn .first, .turn .second]

private def afterMoves (itemId : Uuid) : MoveWorld :=
  ((concurrentMoves (moveUnder itemId)).play readsFirst (bothArrive folders)).getD
    (bothArrive folders)

theorem concurrentMoves_acyclic_iff_intoOne :
    ∃ events final, (concurrentMoves (moveUnder 12)).Runs (bothArrive folders) events final ∧
      (∀ mover, final.task mover = .committed) ∧
      Acyclic final.store.sys.db.items.parentOf := by
  have played : (concurrentMoves (moveUnder 12)).play readsFirst (bothArrive folders) =
      some (afterMoves 12) := rfl
  have runs := Interleaving.Tasks.runs_of_play played
  apply Exists.intro _
  apply Exists.intro (afterMoves 12)
  apply And.intro runs
  have everybody : ∀ mover, (afterMoves 12).task mover = .committed := by
    intro mover
    cases mover <;> rfl
  apply And.intro everybody
  apply (concurrentMoves_acyclic_iff folders_tree runs).mpr
  intro crossing
  rcases crossing.2 with ⟨one, two, firstTo, _, below, _⟩
  cases firstTo
  rcases ReflTransGen.cases_head below with same | ⟨top, step, _⟩
  · exact absurd same (by decide)
  · have isRoot : folders.db.items.parentOf 11 = none := by decide
    cases isRoot.symm.trans step

/-- A goes into B while B goes into A. -/
theorem concurrentMoves_circle :
    FolderTree folders.db.items ∧
      ∃ events final, (concurrentMoves (moveUnder 11)).Runs (bothArrive folders) events final ∧
        ¬ Acyclic final.store.sys.db.items.parentOf := by
  have played : (concurrentMoves (moveUnder 11)).play readsFirst (bothArrive folders) =
      some (afterMoves 11) := rfl
  have runs := Interleaving.Tasks.runs_of_play played
  apply And.intro folders_tree
  apply Exists.intro _
  apply Exists.intro (afterMoves 11)
  apply And.intro runs
  intro acyclic
  have up : (afterMoves 11).store.sys.db.items.parentOf 10 = some 11 := rfl
  have down : (afterMoves 11).store.sys.db.items.parentOf 11 = some 10 := rfl
  exact acyclic 10 (.tail (.single up) down)

end ThreeFolders

end CloudDrive
