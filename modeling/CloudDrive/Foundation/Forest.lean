import Mathlib.Logic.Relation
import Mathlib.Data.List.Perm.Subperm
import Mathlib.Data.List.Nodup

/-! # Parent pointers

A parent function `α → Option α` draws a graph in which every node has at most
one outgoing edge. It is a forest exactly when no node is above itself. -/

namespace Forest

open Relation

variable {α : Type u} {β : Type v}

def Up (parent : α → Option α) (node above : α) : Prop :=
  parent node = some above

/-- `Above parent node top`: `top` is a proper ancestor of `node`. -/
abbrev Above (parent : α → Option α) : α → α → Prop :=
  TransGen (Up parent)

abbrev AtOrAbove (parent : α → Option α) : α → α → Prop :=
  ReflTransGen (Up parent)

def Acyclic (parent : α → Option α) : Prop :=
  ∀ node, ¬ Above parent node node

theorem atOrAbove_iff {parent : α → Option α} {node top : α} :
    AtOrAbove parent node top ↔ node = top ∨ Above parent node top :=
  reflTransGen_iff_eq_or_transGen.trans (or_congr_left eq_comm)

theorem Acyclic.of_sub {parent smaller : α → Option α}
    (acyclic : Acyclic parent)
    (sub : ∀ node top, smaller node = some top → parent node = some top) :
    Acyclic smaller :=
  fun node cycle => acyclic node
    (TransGen.mono (fun _ _ step => sub _ _ step) node node cycle)

theorem Acyclic.not_atOrAbove {parent : α → Option α} (acyclic : Acyclic parent)
    {node top : α} (step : parent node = some top) :
    ¬ AtOrAbove parent top node :=
  fun back => acyclic node (TransGen.head' step back)

/-- Ranks that decrease upwards exclude every cycle. -/
theorem Acyclic.of_rank {parent : α → Option α} (rank : α → Nat)
    (lower : ∀ node top, parent node = some top → rank top < rank node) :
    Acyclic parent := by
  have lowers : ∀ {node top}, Above parent node top → rank top < rank node := by
    intro node top path
    induction path with
    | single step => exact lower _ _ step
    | tail _ step induction => exact Nat.lt_trans (lower _ _ step) induction
  intro node cycle
  exact Nat.lt_irrefl _ (lowers cycle)

/-! ## Counting steps -/

/-- The node `steps` parents further up, if the chain is that long. -/
def ancestor (parent : α → Option α) : Nat → α → Option α
  | 0, node => some node
  | steps + 1, node => (parent node).bind (ancestor parent steps)

theorem ancestor_add (parent : α → Option α) (first second : Nat) (node : α) :
    ancestor parent (first + second) node =
      (ancestor parent first node).bind (ancestor parent second) := by
  induction first generalizing node with
  | zero => simp [ancestor]
  | succ first induction =>
      rw [Nat.succ_add]
      simp only [ancestor]
      cases parent node with
      | none => rfl
      | some top => exact induction top

theorem ancestor_succ (parent : α → Option α) (steps : Nat) (node : α) :
    ancestor parent (steps + 1) node =
      (ancestor parent steps node).bind parent := by
  rw [ancestor_add]
  congr 1
  funext top
  simp [ancestor]

theorem atOrAbove_of_ancestor {parent : α → Option α} :
    ∀ {steps : Nat} {node top : α},
      ancestor parent steps node = some top → AtOrAbove parent node top
  | 0, node, top, reached => by
      cases reached
      exact .refl
  | steps + 1, node, top, reached => by
      rw [ancestor] at reached
      rcases Option.bind_eq_some_iff.mp reached with ⟨middle, step, rest⟩
      exact ReflTransGen.head step (atOrAbove_of_ancestor rest)

theorem atOrAbove_iff_ancestor {parent : α → Option α} {node top : α} :
    AtOrAbove parent node top ↔
      ∃ steps, ancestor parent steps node = some top := by
  constructor
  · intro above
    induction above with
    | refl => exact ⟨0, rfl⟩
    | tail _ step induction =>
        rcases induction with ⟨steps, reached⟩
        exact ⟨steps + 1, by rw [ancestor_succ, reached]; exact step⟩
  · rintro ⟨steps, reached⟩
    exact atOrAbove_of_ancestor reached

theorem above_iff_ancestor {parent : α → Option α} {node top : α} :
    Above parent node top ↔
      ∃ steps, ancestor parent (steps + 1) node = some top := by
  constructor
  · intro path
    rcases TransGen.head'_iff.mp path with ⟨middle, step, above⟩
    rcases atOrAbove_iff_ancestor.mp above with ⟨steps, reached⟩
    exact ⟨steps, by rw [ancestor, show parent node = some middle from step]; exact reached⟩
  · rintro ⟨steps, reached⟩
    rw [ancestor] at reached
    rcases Option.bind_eq_some_iff.mp reached with ⟨middle, step, rest⟩
    exact TransGen.head' step (atOrAbove_of_ancestor rest)

/-- In a forest a node meets each of its ancestors at one distance only. -/
theorem Acyclic.ancestor_injective {parent : α → Option α}
    (acyclic : Acyclic parent) {first second : Nat} {node top : α}
    (firstAt : ancestor parent first node = some top)
    (secondAt : ancestor parent second node = some top) : first = second := by
  have noneLonger : ∀ {short long : Nat},
      ancestor parent short node = some top →
      ancestor parent long node = some top → ¬ short < long := by
    intro short long shortAt longAt shorter
    obtain ⟨extra, rfl⟩ : ∃ extra, long = short + (extra + 1) :=
      ⟨long - short - 1, by omega⟩
    rw [ancestor_add, shortAt] at longAt
    exact acyclic top (above_iff_ancestor.mpr ⟨extra, longAt⟩)
  have notLess := noneLonger firstAt secondAt
  have notGreater := noneLonger secondAt firstAt
  omega

/-- Every node that has a parent is listed in `nodes`. -/
def Supported (parent : α → Option α) (nodes : List α) : Prop :=
  ∀ node top, parent node = some top → node ∈ nodes

/-- In a finite forest every chain ends: after one step for each listed node
and one more, nothing is left above. -/
theorem Acyclic.ancestor_eq_none {parent : α → Option α} {nodes : List α}
    (acyclic : Acyclic parent) (supported : Supported parent nodes) (node : α) :
    ancestor parent (nodes.length + 1) node = none := by
  by_contra notNone
  rcases Option.ne_none_iff_exists'.mp notNone with ⟨top, reached⟩
  have visited : ∀ steps, steps < nodes.length + 1 →
      ∃ middle ∈ nodes, ancestor parent steps node = some middle := by
    intro steps short
    obtain ⟨rest, split⟩ : ∃ rest, nodes.length + 1 = steps + (rest + 1) :=
      ⟨nodes.length - steps, by omega⟩
    rw [split, ancestor_add] at reached
    rcases Option.bind_eq_some_iff.mp reached with ⟨middle, middleAt, onward⟩
    rw [ancestor] at onward
    rcases Option.bind_eq_some_iff.mp onward with ⟨next, step, _⟩
    exact ⟨middle, supported middle next step, middleAt⟩
  have inside : (List.range (nodes.length + 1)).filterMap
      (fun steps => ancestor parent steps node) ⊆ nodes := by
    intro middle member
    rcases List.mem_filterMap.mp member with ⟨steps, stepsMem, found⟩
    rcases visited steps (List.mem_range.mp stepsMem) with ⟨other, otherMem, otherAt⟩
    rw [otherAt] at found
    exact Option.some.inj found ▸ otherMem
  have distinct : ((List.range (nodes.length + 1)).filterMap
      (fun steps => ancestor parent steps node)).Nodup := by
    refine List.Nodup.filterMap ?_ List.nodup_range
    intro first second middle firstAt secondAt
    exact acyclic.ancestor_injective firstAt secondAt
  have complete : ((List.range (nodes.length + 1)).filterMap
      (fun steps => ancestor parent steps node)).length = nodes.length + 1 := by
    rw [List.length_filterMap_eq_countP, List.countP_eq_length.mpr, List.length_range]
    intro steps stepsMem
    rcases visited steps (List.mem_range.mp stepsMem) with ⟨middle, _, middleAt⟩
    simp [middleAt]
  have tooLong := (List.subperm_of_subset distinct inside).length_le
  omega

/-- `node` is `steps` parents below a root. -/
def DepthIs (parent : α → Option α) (steps : Nat) (node : α) : Prop :=
  ∃ root, ancestor parent steps node = some root ∧ parent root = none

theorem DepthIs.child {parent : α → Option α} {steps : Nat} {node top : α}
    (depth : DepthIs parent steps top) (step : parent node = some top) :
    DepthIs parent (steps + 1) node := by
  rcases depth with ⟨root, reached, isRoot⟩
  refine ⟨root, ?_, isRoot⟩
  rw [ancestor, step]
  exact reached

theorem DepthIs.unique {parent : α → Option α} {first second : Nat} {node : α}
    (firstDepth : DepthIs parent first node) (secondDepth : DepthIs parent second node) :
    first = second := by
  have noneLonger : ∀ {short long : Nat}, DepthIs parent short node →
      DepthIs parent long node → ¬ short < long := by
    intro short long shortDepth longDepth shorter
    rcases shortDepth with ⟨root, shortAt, isRoot⟩
    rcases longDepth with ⟨top, longAt, _⟩
    have split : long = short + ((long - short - 1) + 1) := by omega
    rw [split, ancestor_add, shortAt, Option.bind_some, ancestor, isRoot] at longAt
    cases longAt
  have notLess := noneLonger firstDepth secondDepth
  have notGreater := noneLonger secondDepth firstDepth
  omega

theorem DepthIs.zero_iff {parent : α → Option α} {node : α} :
    DepthIs parent 0 node ↔ parent node = none := by
  constructor
  · intro depth
    rcases depth with ⟨root, reached, isRoot⟩
    cases reached
    exact isRoot
  · exact fun isRoot => ⟨node, rfl, isRoot⟩

theorem DepthIs.succ_iff {parent : α → Option α} {steps : Nat} {node : α} :
    DepthIs parent (steps + 1) node ↔ ∃ top, parent node = some top ∧ DepthIs parent steps top := by
  constructor
  · intro depth
    rcases depth with ⟨root, reached, isRoot⟩
    rcases Option.bind_eq_some_iff.mp reached with ⟨top, step, later⟩
    exact ⟨top, step, root, later, isRoot⟩
  · intro below
    rcases below with ⟨top, step, depth⟩
    exact depth.child step

/-- A chain that ends has a depth. -/
theorem exists_depthIs {parent : α → Option α} : ∀ {bound : Nat} {node : α},
    ancestor parent (bound + 1) node = none → ∃ steps ≤ bound, DepthIs parent steps node
  | bound, node, ends => by
      cases step : parent node with
      | none => exact ⟨0, Nat.zero_le bound, DepthIs.zero_iff.mpr step⟩
      | some top =>
          rw [ancestor, step, Option.bind_some] at ends
          cases bound with
          | zero => cases ends
          | succ bound =>
              rcases exists_depthIs ends with ⟨steps, short, depth⟩
              exact ⟨steps + 1, Nat.succ_le_succ short, depth.child step⟩

/-! ## Parents first -/

/-- Each element of the list comes after what it hangs under, unless that is
known already. -/
def TopDown (key : β → α) (up : β → Option α) : List α → List β → Prop
  | _, [] => True
  | known, element :: rest =>
      (∀ top ∈ up element, top ∈ known) ∧ TopDown key up (key element :: known) rest

/-- Sorting by a rank that grows downwards puts parents first. -/
theorem TopDown.of_sorted {key : β → α} {up : β → Option α} (rank : β → Nat) :
    ∀ {elements : List β} {known : List α},
      elements.Pairwise (fun earlier later => rank earlier ≤ rank later) →
      (∀ element ∈ elements, ∀ top ∈ up element, top ∈ known ∨
        ∃ above ∈ elements, key above = top ∧ rank above < rank element) →
      TopDown key up known elements
  | [], _, _, _ => trivial
  | element :: rest, known, sorted, hung => by
      rw [List.pairwise_cons] at sorted
      constructor
      · intro top step
        rcases hung element List.mem_cons_self top step with isKnown | ⟨above, member, _, lower⟩
        · exact isKnown
        · rcases List.mem_cons.mp member with rfl | later
          · exact absurd lower (Nat.lt_irrefl _)
          · have higher := sorted.1 above later
            omega
      · apply TopDown.of_sorted rank sorted.2
        intro other member top step
        rcases hung other (List.mem_cons_of_mem _ member) top step with
          isKnown | ⟨above, aboveMem, rfl, lower⟩
        · exact .inl (List.mem_cons_of_mem _ isKnown)
        · rcases List.mem_cons.mp aboveMem with rfl | later
          · exact .inl List.mem_cons_self
          · exact .inr ⟨above, later, rfl, lower⟩

/-- Where everything hangs under what is known, any order will do. -/
theorem TopDown.of_known {key : β → α} {up : β → Option α} : ∀ {elements : List β}
    {known : List α}, (∀ element ∈ elements, ∀ top ∈ up element, top ∈ known) →
    TopDown key up known elements
  | [], _, _ => trivial
  | _ :: _, _, hung => ⟨hung _ List.mem_cons_self, TopDown.of_known fun other member top step =>
      List.mem_cons_of_mem _ (hung other (List.mem_cons_of_mem _ member) top step)⟩

theorem TopDown.map {γ : Type w} {key : γ → α} {up : γ → Option α} (place : β → γ) :
    ∀ {elements : List β} {known : List α},
      TopDown (fun element => key (place element)) (fun element => up (place element)) known
        elements →
      TopDown key up known (elements.map place)
  | [], _, _ => trivial
  | _ :: _, _, topDown => ⟨topDown.1, TopDown.map place topDown.2⟩

/-- What an element hangs under is known already or comes before it. -/
theorem TopDown.known_or_earlier {key : β → α} {up : β → Option α} {element : β}
    {later : List β} : ∀ {earlier : List β} {known : List α},
      TopDown key up known (earlier ++ element :: later) →
      ∀ top ∈ up element, top ∈ known ∨ top ∈ earlier.map key
  | [], _, topDown, top, step => .inl (topDown.1 top step)
  | first :: earlier, known, topDown, top, step => by
      rcases known_or_earlier topDown.2 top step with isKnown | isEarlier
      · rcases List.mem_cons.mp isKnown with rfl | before
        · exact .inr List.mem_cons_self
        · exact .inl before
      · exact .inr (List.mem_cons_of_mem _ isEarlier)

/-! ## Moving one node -/

def reparent [DecidableEq α] (parent : α → Option α) (moved : α)
    (target : Option α) : α → Option α :=
  fun node => if node = moved then target else parent node

/-- A path of the changed graph is an old one, or an old one up to the moved node
and then one from the node it hangs under now. -/
theorem atOrAbove_reparent [DecidableEq α] {parent : α → Option α} {moved : α}
    {target : Option α} (outside : ∀ top, target = some top → ¬ AtOrAbove parent top moved)
    {node top : α} (path : AtOrAbove (reparent parent moved target) node top) :
    AtOrAbove parent node top ∨
      (AtOrAbove parent node moved ∧ ∃ hung, target = some hung ∧ AtOrAbove parent hung top) := by
  induction path using ReflTransGen.head_induction_on with
  | refl => exact .inl .refl
  | @head node middle step _ induction =>
      by_cases atMoved : node = moved
      · subst atMoved
        have hangs : target = some middle := by simpa [Up, reparent] using step
        rcases induction with stays | ⟨reaches, _⟩
        · exact .inr ⟨.refl, middle, hangs, stays⟩
        · exact absurd reaches (outside middle hangs)
      · have oldStep : Up parent node middle := by simpa [Up, reparent, atMoved] using step
        rcases induction with stays | ⟨reaches, hung⟩
        · exact .inl (.head oldStep stays)
        · exact .inr ⟨.head oldStep reaches, hung⟩

/-- A node may be hung under any node that is not itself or below it. -/
theorem Acyclic.reparent [DecidableEq α] {parent : α → Option α}
    (acyclic : Acyclic parent) {moved : α} {target : Option α}
    (outside : ∀ top, target = some top → ¬ AtOrAbove parent top moved) :
    Acyclic (reparent parent moved target) := by
  intro node cycle
  rcases TransGen.head'_iff.mp cycle with ⟨middle, step, back⟩
  by_cases atMoved : node = moved
  · subst atMoved
    have hangs : target = some middle := by simpa [Up, Forest.reparent] using step
    rcases atOrAbove_reparent outside back with stays | ⟨reaches, _⟩
    · exact outside middle hangs stays
    · exact outside middle hangs reaches
  · have oldStep : Up parent node middle := by simpa [Up, Forest.reparent, atMoved] using step
    rcases atOrAbove_reparent outside back with stays | ⟨reaches, hung, hangs, onward⟩
    · exact acyclic node (.head' oldStep stays)
    · exact outside hung hangs (onward.trans (.head oldStep reaches))

/-- Moving a node back to its old parent restores the graph. -/
theorem reparent_back [DecidableEq α] (parent : α → Option α) (moved : α)
    (target : Option α) : reparent (reparent parent moved target) moved (parent moved) = parent := by
  funext node
  by_cases same : node = moved
  · simp [reparent, same]
  · simp [reparent, same]

/-- Moving a node from one place below `top` to another leaves the same nodes
below `top`. -/
theorem atOrAbove_reparent_within [DecidableEq α] {parent : α → Option α}
    (acyclic : Acyclic parent) {moved target top : α} (movedIn : AtOrAbove parent moved top)
    (targetIn : AtOrAbove parent target top) (outside : ¬ AtOrAbove parent target moved)
    {node : α} :
    AtOrAbove (reparent parent moved (some target)) node top ↔ AtOrAbove parent node top := by
  have hung : ∀ above, some target = some above → ¬ AtOrAbove parent above moved := by
    intro above same
    cases same
    exact outside
  -- Below `moved` nothing has changed.
  have backOutside : ∀ above, parent moved = some above →
      ¬ AtOrAbove (reparent parent moved (some target)) above moved := by
    intro above step path
    rcases atOrAbove_reparent hung path with old | ⟨old, _⟩
    · exact acyclic.not_atOrAbove step old
    · exact acyclic.not_atOrAbove step old
  have back : ∀ {below}, AtOrAbove parent below top →
      AtOrAbove (reparent parent moved (some target)) below top ∨
        AtOrAbove (reparent parent moved (some target)) below moved := by
    intro below path
    rw [← reparent_back parent moved (some target)] at path
    rcases atOrAbove_reparent backOutside path with kept | ⟨toMoved, _⟩
    · exact .inl kept
    · exact .inr toMoved
  constructor
  · intro path
    rcases atOrAbove_reparent hung path with old | ⟨toMoved, _⟩
    · exact old
    · exact toMoved.trans movedIn
  · intro path
    rcases back path with kept | toMoved
    · exact kept
    · have step : Up (reparent parent moved (some target)) moved target := by
        simp [Up, reparent]
      rcases back targetIn with targetTop | targetMoved
      · exact toMoved.trans (.head step targetTop)
      · rcases atOrAbove_reparent hung targetMoved with old | ⟨old, _⟩
        · exact absurd old outside
        · exact absurd old outside

/-- The path to a node does not use the edge that leaves it. -/
theorem atOrAbove_reparent_to [DecidableEq α] {parent : α → Option α} {moved node : α}
    (target : Option α) (path : AtOrAbove parent node moved) :
    AtOrAbove (reparent parent moved target) node moved := by
  induction path using ReflTransGen.head_induction_on with
  | refl => exact .refl
  | @head node middle step _ induction =>
      by_cases atMoved : node = moved
      · rw [atMoved]
      · apply ReflTransGen.head _ induction
        rw [Up, reparent, if_neg atMoved]
        exact step

/-- A path that starts outside what lies below a node does not see the node move. -/
theorem atOrAbove_reparent_outside [DecidableEq α] {parent : α → Option α}
    {moved node top : α} (target : Option α) (outside : ¬ AtOrAbove parent node moved)
    (path : AtOrAbove parent node top) : AtOrAbove (reparent parent moved target) node top := by
  induction path using ReflTransGen.head_induction_on with
  | refl => exact .refl
  | @head node middle step _ induction =>
      have notMoved : node ≠ moved := fun same => outside (same ▸ .refl)
      apply ReflTransGen.head _ (induction fun path => outside (.head step path))
      rw [Up, reparent, if_neg notMoved]
      exact step

/-- Hanging a node elsewhere keeps the forest exactly when the new place is not
at or below it. -/
theorem Acyclic.reparent_iff [DecidableEq α] {parent : α → Option α}
    (acyclic : Acyclic parent) {moved : α} {target : Option α} :
    Acyclic (Forest.reparent parent moved target) ↔
      ∀ top, target = some top → ¬ AtOrAbove parent top moved := by
  constructor
  · intro still top hangs path
    have step : Up (Forest.reparent parent moved target) moved top := by
      simp [Up, Forest.reparent, hangs]
    exact still.not_atOrAbove step (atOrAbove_reparent_to target path)
  · exact acyclic.reparent

/-- Two nodes were moved, each after a look at the forest without the other move.
They close a circle exactly when each went below the other. -/
theorem Acyclic.reparent_twice_iff [DecidableEq α] {parent : α → Option α}
    (acyclic : Acyclic parent) {first second : α} {firstTo secondTo : Option α}
    (firstOutside : ∀ top, firstTo = some top → ¬ AtOrAbove parent top first)
    (secondOutside : ∀ top, secondTo = some top →
      ¬ AtOrAbove (Forest.reparent parent first none) top second) :
    Acyclic (Forest.reparent (Forest.reparent parent first firstTo) second secondTo) ↔
      ¬ ∃ one two, firstTo = some one ∧ secondTo = some two ∧
        AtOrAbove parent one second ∧ AtOrAbove parent two first := by
  have cutSub : ∀ {node top}, AtOrAbove (Forest.reparent parent first none) node top →
      AtOrAbove parent node top := by
    intro node top path
    apply ReflTransGen.mono _ _ _ path
    intro low high step
    by_cases same : low = first
    · simp [Up, Forest.reparent, same] at step
    · simpa [Up, Forest.reparent, same] using step
  -- The first move hangs `first` back into the forest without its edge.
  have again : Forest.reparent (Forest.reparent parent first none) first firstTo =
      Forest.reparent parent first firstTo := by
    funext node
    by_cases same : node = first <;> simp [Forest.reparent, same]
  have firstCut : ∀ top, firstTo = some top →
      ¬ AtOrAbove (Forest.reparent parent first none) top first :=
    fun top hangs path => firstOutside top hangs (cutSub path)
  rw [(acyclic.reparent firstOutside).reparent_iff]
  constructor
  · intro outside circle
    rcases circle with ⟨one, two, firstHangs, secondHangs, oneBelow, twoBelow⟩
    apply outside two secondHangs
    apply (atOrAbove_reparent_to firstTo twoBelow).trans
    have step : Up (Forest.reparent parent first firstTo) first one := by
      simp [Up, Forest.reparent, firstHangs]
    exact .head step
      (atOrAbove_reparent_outside firstTo (firstOutside one firstHangs) oneBelow)
  · intro noCircle two secondHangs path
    rw [← again] at path
    rcases atOrAbove_reparent firstCut path with direct | ⟨twoBelow, one, firstHangs, oneBelow⟩
    · exact secondOutside two secondHangs direct
    · exact noCircle ⟨one, two, firstHangs, secondHangs, cutSub oneBelow, cutSub twoBelow⟩

/-! ## Mixing two forests

Some nodes take the parent that an older forest gives them, the others keep
their present one. -/

section Mixing

variable (moved : α → Prop) (present past : α → Option α)

/-- A step upwards from a node that keeps its present parent. -/
def StepOutside (node top : α) : Prop :=
  ¬ moved node ∧ present node = some top

/-- A step upwards between two nodes that both take their past parent. -/
def StepInside (node top : α) : Prop :=
  moved node ∧ moved top ∧ past node = some top

/-- `node` goes back under a `top` that keeps its present place, and from `top`
the way up leads, first through present places and then through past ones, to
the moved node `landing`. -/
def Lands (node landing : α) : Prop :=
  moved node ∧ ∃ top entry, past node = some top ∧ ¬ moved top ∧
    ReflTransGen (StepOutside moved present) top entry ∧ moved entry ∧
    ReflTransGen (StepInside moved past) entry landing

variable {moved present past} {mixed : α → Option α}

theorem Lands.above (pastMixed : ∀ node, moved node → mixed node = past node)
    (presentMixed : ∀ node, ¬ moved node → mixed node = present node)
    {node landing : α} (lands : Lands moved present past node landing) :
    Above mixed node landing := by
  rcases lands with ⟨nodeMoved, top, entry, back, _, outside, _, inside⟩
  have step : mixed node = some top := (pastMixed node nodeMoved).trans back
  have outsidePath : AtOrAbove mixed top entry :=
    ReflTransGen.mono (fun _ _ up => (presentMixed _ up.1).trans up.2) _ _ outside
  have insidePath : AtOrAbove mixed entry landing :=
    ReflTransGen.mono (fun _ _ up => (pastMixed _ up.1).trans up.2.2) _ _ inside
  exact TransGen.head' step (outsidePath.trans insidePath)

/-- Follow a path of the mixed graph towards a moved node, recording where it
leaves the moved nodes and where it comes back. -/
private theorem path_lands
    (pastMixed : ∀ node, moved node → mixed node = past node)
    (presentMixed : ∀ node, ¬ moved node → mixed node = present node)
    {node final : α} (finalMoved : moved final)
    (path : AtOrAbove mixed node final) :
    (moved node → ∃ last, ReflTransGen (StepInside moved past) node last ∧
      ReflTransGen (Lands moved present past) last final) ∧
    (¬ moved node → ∃ entry last, ReflTransGen (StepOutside moved present) node entry ∧
      moved entry ∧ ReflTransGen (StepInside moved past) entry last ∧
      ReflTransGen (Lands moved present past) last final) := by
  induction path using ReflTransGen.head_induction_on with
  | refl => exact ⟨fun _ => ⟨final, .refl, .refl⟩, fun notMoved => (notMoved finalMoved).elim⟩
  | @head node middle step _ induction =>
      constructor
      · intro nodeMoved
        have back : past node = some middle := (pastMixed node nodeMoved).symm.trans step
        by_cases middleMoved : moved middle
        · rcases induction.1 middleMoved with ⟨last, inside, lands⟩
          exact ⟨last, ReflTransGen.head ⟨nodeMoved, middleMoved, back⟩ inside, lands⟩
        · rcases induction.2 middleMoved with ⟨entry, last, outside, entryMoved, inside, lands⟩
          exact ⟨node, .refl, ReflTransGen.head
            ⟨nodeMoved, middle, entry, back, middleMoved, outside, entryMoved, inside⟩ lands⟩
      · intro notMoved
        have up : StepOutside moved present node middle :=
          ⟨notMoved, (presentMixed node notMoved).symm.trans step⟩
        by_cases middleMoved : moved middle
        · rcases induction.1 middleMoved with ⟨last, inside, lands⟩
          exact ⟨middle, last, ReflTransGen.single up, middleMoved, inside, lands⟩
        · rcases induction.2 middleMoved with ⟨entry, last, outside, rest⟩
          exact ⟨entry, last, ReflTransGen.head up outside, rest⟩

/-- A cycle of the mixed graph passes through a node that goes back under one
that keeps its place, because neither forest alone has a cycle. -/
private theorem exists_exit
    (pastMixed : ∀ node, moved node → mixed node = past node)
    (presentMixed : ∀ node, ¬ moved node → mixed node = present node)
    (presentAcyclic : Acyclic present) (pastAcyclic : Acyclic past)
    {start : α} (cycle : Above mixed start start) :
    ∃ node top, moved node ∧ past node = some top ∧ ¬ moved top ∧
      Above mixed node node := by
  by_contra noExit
  have staysMoved : ∀ {node top}, moved node → Above mixed node node →
      mixed node = some top → moved top ∧ Above mixed top top := by
    intro node top nodeMoved around step
    refine ⟨?_, ?_⟩
    · by_contra notMoved
      exact noExit ⟨node, top, nodeMoved, (pastMixed node nodeMoved).symm.trans step,
        notMoved, around⟩
    · rcases TransGen.head'_iff.mp around with ⟨next, nextStep, back⟩
      have same : next = top := Option.some.inj (nextStep.symm.trans step)
      subst same
      exact TransGen.tail' back step
  have pastPath : ∀ {node final}, AtOrAbove mixed node final → moved node →
      Above mixed node node → AtOrAbove past node final := by
    intro node final path
    induction path using ReflTransGen.head_induction_on with
    | refl => exact fun _ _ => .refl
    | @head node middle step _ induction =>
        intro nodeMoved around
        rcases staysMoved nodeMoved around step with ⟨middleMoved, middleAround⟩
        exact ReflTransGen.head ((pastMixed node nodeMoved).symm.trans step)
          (induction middleMoved middleAround)
  have noMovedCycle : ∀ node, moved node → ¬ Above mixed node node := by
    intro node nodeMoved around
    rcases TransGen.head'_iff.mp around with ⟨middle, step, back⟩
    rcases staysMoved nodeMoved around step with ⟨middleMoved, middleAround⟩
    exact pastAcyclic node (TransGen.head' ((pastMixed node nodeMoved).symm.trans step)
      (pastPath back middleMoved middleAround))
  have presentPath : ∀ {node}, AtOrAbove mixed node start → AtOrAbove mixed start node →
      AtOrAbove present node start := by
    intro node path
    induction path using ReflTransGen.head_induction_on with
    | refl => exact fun _ => .refl
    | @head node middle step rest induction =>
        intro fromStart
        have around : Above mixed node node :=
          TransGen.trans_right (ReflTransGen.head step rest |>.trans .refl)
            (TransGen.trans_left cycle fromStart)
        have notMoved : ¬ moved node := fun nodeMoved => noMovedCycle node nodeMoved around
        exact ReflTransGen.head ((presentMixed node notMoved).symm.trans step)
          (induction (fromStart.tail step))
  rcases TransGen.head'_iff.mp cycle with ⟨middle, step, back⟩
  have notMoved : ¬ moved start := fun startMoved => noMovedCycle start startMoved cycle
  exact presentAcyclic start (TransGen.head' ((presentMixed start notMoved).symm.trans step)
    (presentPath back (ReflTransGen.single step)))

/-- Two forests mix to a forest exactly when the moved nodes do not go back
under one another in a circle. -/
theorem acyclic_mixed_iff
    (pastMixed : ∀ node, moved node → mixed node = past node)
    (presentMixed : ∀ node, ¬ moved node → mixed node = present node)
    (presentAcyclic : Acyclic present) (pastAcyclic : Acyclic past) :
    Acyclic mixed ↔
      ∀ node, ¬ TransGen (Lands moved present past) node node := by
  constructor
  · intro acyclic node circle
    exact acyclic node (TransGen.closed
      (fun _ _ lands => Lands.above pastMixed presentMixed lands) node node circle)
  · intro noCircle node cycle
    rcases exists_exit pastMixed presentMixed presentAcyclic pastAcyclic cycle with
      ⟨exit, top, exitMoved, back, topStays, around⟩
    rcases TransGen.head'_iff.mp around with ⟨next, step, onward⟩
    have same : next = top :=
      Option.some.inj (step.symm.trans ((pastMixed exit exitMoved).trans back))
    subst same
    rcases (path_lands pastMixed presentMixed exitMoved onward).2 topStays with
      ⟨entry, last, outside, entryMoved, inside, lands⟩
    exact noCircle exit (TransGen.head'
      ⟨exitMoved, next, entry, back, topStays, outside, entryMoved, inside⟩ lands)

end Mixing

end Forest
