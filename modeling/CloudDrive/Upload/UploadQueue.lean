import CloudDrive.Upload.FolderUpload
import Mathlib.Algebra.Order.Floor.Semiring
import Mathlib.Data.Rat.Floor

/-! # The upload queue

`runWithConcurrency` of `frontend/src/lib/uploadLimits.ts`: runners that share a cursor. A
runner goes on without a pause from the check of the cursor to the call of the worker, and
waits there until the promise of the call has settled. -/

namespace CloudDrive

open Execution

namespace UploadQueue

/-- A number that can be compared, which `NaN` cannot. -/
inductive Limit where
  | finite (value : ℚ)
  | infinity
  | negativeInfinity
  deriving DecidableEq

/-- `Math.max(1, Math.min(limit, items.length))`. -/
def Limit.clamp (limit : Limit) (length : Nat) : ℚ :=
  match limit with
  | .finite value => max 1 (min value length)
  | .infinity => max 1 length
  | .negativeInfinity => 1

/-- The length that `Array.from` takes of it. -/
def runnerCount (limit : Limit) (length : Nat) : Nat :=
  ⌊limit.clamp length⌋₊

inductive Settlement where
  | resolved
  | rejected
  deriving DecidableEq, Repr

/-- A call of the worker. Its promise is pending while it has no outcome. -/
structure Call (α : Type u) where
  item : α
  outcome : Option Settlement
  deriving DecidableEq

/-- A runner awaits the call at a position, or has left its loop. -/
inductive Runner where
  | awaiting (position : Nat)
  | finished
  deriving DecidableEq, Repr

/-- `resolved` is set when the promise of `runWithConcurrency` resolves. -/
structure State (α : Type u) where
  cursor : Nat
  calls : List (Call α)
  runners : List Runner
  resolved : Bool
  deriving DecidableEq

section Queue

variable {α : Type u} (items : List α)

/-- The loop of a runner from its check of the cursor to the next `await`. -/
def State.proceed (state : State α) : State α × Runner :=
  match items[state.cursor]? with
  | some item =>
      ({ state with
          cursor := state.cursor + 1
          calls := state.calls ++ [⟨item, none⟩] }, .awaiting state.calls.length)
  | none => (state, .finished)

/-- The next element of `Array.from`. -/
def State.startRunner (state : State α) : State α :=
  let (after, runner) := state.proceed items
  { after with runners := after.runners ++ [runner] }

def startRunners : Nat → State α → State α
  | 0, state => state
  | count + 1, state => startRunners count (state.startRunner items)

def initial (limit : Limit) : State α :=
  startRunners items (runnerCount limit items.length)
    { cursor := 0, calls := [], runners := [], resolved := false }

inductive Action where
  | settle (position : Nat) (outcome : Settlement)
  | resume (index : Nat)
  | resolve
  deriving DecidableEq, Repr

def step (action : Action) (state : State α) : Option (State α) :=
  match action with
  | .settle position outcome =>
      match state.calls[position]? with
      | some ⟨item, none⟩ =>
          some { state with calls := state.calls.set position ⟨item, some outcome⟩ }
      | _ => none
  | .resume index =>
      match state.runners[index]? with
      | some (.awaiting position) =>
          match state.calls[position]? with
          -- A rejection is caught, so that the loop goes on as after a resolution.
          | some ⟨_, some _⟩ =>
              let (after, runner) := state.proceed items
              some { after with runners := after.runners.set index runner }
          | _ => none
      | _ => none
  | .resolve =>
      if state.resolved = false ∧ ∀ runner ∈ state.runners, runner = .finished then
        some { state with resolved := true }
      else
        none

def Step (action : Action) (before after : State α) : Prop :=
  step items action before = some after

end Queue

/-! ## The law -/

section Law

variable {α : Type u}

def State.isPending (state : State α) (position : Nat) : Bool :=
  state.calls[position]?.any fun call => call.outcome.isNone

/-- The positions of the calls in flight. -/
def State.inFlight (state : State α) : List Nat :=
  (List.range state.calls.length).filter state.isPending

/-- `count` is not more than `Math.max(1, limit)`. -/
def Limit.Bounds (limit : Limit) (count : Nat) : Prop :=
  match limit with
  | .finite value => (count : ℚ) ≤ max 1 value
  | .infinity => True
  | .negativeInfinity => count ≤ 1

/-- The items that have been handed to the worker, in the order of its calls. -/
def State.started (state : State α) : List α :=
  state.calls.map Call.item

end Law

/-! ## What a step does -/

section Steps

variable {α : Type u} {items : List α}

/-- A call settles, a runner starts the next call or leaves its loop, or the promise
resolves. -/
inductive Moved (items : List α) (before : State α) : State α → Prop
  | settled {position : Nat} {item : α} (outcome : Settlement) :
      before.calls[position]? = some ⟨item, none⟩ →
      Moved items before
        { before with calls := before.calls.set position ⟨item, some outcome⟩ }
  | started {index position : Nat} {item : α} :
      before.runners[index]? = some (.awaiting position) → position ∉ before.inFlight →
      items[before.cursor]? = some item →
      Moved items before {
        cursor := before.cursor + 1
        calls := before.calls ++ [⟨item, none⟩]
        runners := before.runners.set index (.awaiting before.calls.length)
        resolved := before.resolved }
  | finished {index position : Nat} :
      before.runners[index]? = some (.awaiting position) → position ∉ before.inFlight →
      items[before.cursor]? = none →
      Moved items before { before with runners := before.runners.set index .finished }
  | resolved : before.resolved = false → (∀ runner ∈ before.runners, runner = .finished) →
      Moved items before { before with resolved := true }

theorem mem_inFlight {state : State α} {position : Nat} :
    position ∈ state.inFlight ↔ ∃ item, state.calls[position]? = some ⟨item, none⟩ := by
  rw [State.inFlight, List.mem_filter, List.mem_range, State.isPending, Option.any_eq_true]
  constructor
  · rintro ⟨_, ⟨item, outcome⟩, found, isNone⟩
    rw [Option.isNone_iff_eq_none] at isNone
    cases isNone
    exact ⟨item, found⟩
  · rintro ⟨item, found⟩
    exact ⟨(List.getElem?_eq_some_iff.mp found).1, _, found, rfl⟩

theorem proceed_some {state : State α} {item : α} (next : items[state.cursor]? = some item) :
    state.proceed items = ({ state with
      cursor := state.cursor + 1
      calls := state.calls ++ [⟨item, none⟩] }, .awaiting state.calls.length) := by
  rw [State.proceed, next]

theorem proceed_none {state : State α} (ends : items[state.cursor]? = none) :
    state.proceed items = (state, .finished) := by
  rw [State.proceed, ends]

theorem Step.moved {action : Action} {before after : State α}
    (taken : Step items action before after) : Moved items before after := by
  rw [Step] at taken
  cases action with
  | settle position outcome =>
      rw [step] at taken
      split at taken
      · rename_i item pending
        cases taken
        exact .settled outcome pending
      · cases taken
  | resume index =>
      rw [step] at taken
      split at taken
      · rename_i position awaits
        split at taken
        · rename_i item outcome settled
          have done : position ∉ before.inFlight := by
            rw [mem_inFlight, settled]
            rintro ⟨_, same⟩
            cases same
          cases next : items[before.cursor]? with
          | some item =>
              rw [proceed_some next] at taken
              cases taken
              exact .started awaits done next
          | none =>
              rw [proceed_none next] at taken
              cases taken
              exact .finished awaits done next
        · cases taken
      · cases taken
  | resolve =>
      rw [step] at taken
      split at taken
      · rename_i allowed
        cases taken
        exact .resolved allowed.1 allowed.2
      · cases taken

theorem inFlight_nodup (state : State α) : state.inFlight.Nodup :=
  List.nodup_range.filter _

/-- A new call is in flight. -/
theorem inFlight_append {state after : State α} {item : α}
    (calls : after.calls = state.calls ++ [⟨item, none⟩]) :
    after.inFlight = state.inFlight ++ [state.calls.length] := by
  have same : ∀ position ∈ List.range state.calls.length,
      after.isPending position = state.isPending position := by
    intro position member
    rw [State.isPending, State.isPending, calls,
      List.getElem?_append_left (List.mem_range.mp member)]
  have isNew : after.isPending state.calls.length = true := by
    rw [State.isPending, calls, List.getElem?_concat_length]
    rfl
  rw [State.inFlight, calls, List.length_append, List.length_singleton, List.range_succ,
    List.filter_append, List.filter_congr same, List.filter_singleton, isNew]
  rfl

/-- A call that settles is no longer in flight. -/
theorem inFlight_set {state after : State α} {position : Nat} {item : α} {outcome : Settlement}
    (calls : after.calls = state.calls.set position ⟨item, some outcome⟩) :
    after.inFlight = state.inFlight.erase position := by
  have same : ∀ other ∈ List.range state.calls.length,
      after.isPending other = ((other != position) && state.isPending other) := by
    intro other member
    rw [State.isPending, State.isPending, calls]
    by_cases isSettled : other = position
    · rw [isSettled, List.getElem?_set_self (isSettled ▸ List.mem_range.mp member)]
      simp
    · rw [List.getElem?_set_ne (Ne.symm isSettled)]
      simp [isSettled]
  rw [(inFlight_nodup state).erase_eq_filter, State.inFlight, State.inFlight, List.filter_filter,
    calls, List.length_set]
  exact List.filter_congr same

/-! ## The invariant -/

structure Inv (items : List α) (state : State α) : Prop where
  counted : state.calls.length = state.cursor
  within : state.cursor ≤ items.length
  ordered : state.started = items.take state.cursor
  awaited : ∀ position ∈ state.inFlight, Runner.awaiting position ∈ state.runners
  known : ∀ position, Runner.awaiting position ∈ state.runners → position < state.calls.length
  ended : Runner.finished ∈ state.runners → state.cursor = items.length
  closed : state.resolved = true → ∀ runner ∈ state.runners, runner = .finished

theorem mem_set_of_ne {runners : List Runner} {index : Nat} {old new other : Runner}
    (found : runners[index]? = some old) (member : other ∈ runners) (different : other ≠ old) :
    other ∈ runners.set index new := by
  rcases List.mem_iff_getElem?.mp member with ⟨place, there⟩
  have apart : index ≠ place := by
    rintro rfl
    rw [found] at there
    cases there
    exact different rfl
  exact List.mem_iff_getElem?.mpr ⟨place, by rw [List.getElem?_set_ne apart, there]⟩

/-- The next item is handed to the worker. -/
theorem started_append {state after : State α} {item : α}
    (calls : after.calls = state.calls ++ [⟨item, none⟩])
    (ordered : state.started = items.take state.cursor)
    (next : items[state.cursor]? = some item) :
    after.started = items.take (state.cursor + 1) := by
  rw [State.started, calls, List.map_append, ← State.started, ordered, List.take_add_one, next]
  rfl

/-- A call that settles keeps its item. -/
theorem started_set {state : State α} {position : Nat} {item : α} {outcome : Settlement}
    (pending : state.calls[position]? = some ⟨item, none⟩) :
    State.started { state with calls := state.calls.set position ⟨item, some outcome⟩ } =
      state.started := by
  have inside := (List.getElem?_eq_some_iff.mp pending).1
  apply List.ext_getElem?
  intro other
  rw [State.started, State.started, List.getElem?_map, List.getElem?_map]
  by_cases isSettled : position = other
  · rw [← isSettled, List.getElem?_set_self inside, pending]
    rfl
  · rw [List.getElem?_set_ne isSettled]

theorem Inv.moved {before after : State α} (inv : Inv items before)
    (moved : Moved items before after) : Inv items after := by
  cases moved with
  | @settled position item outcome pending =>
      refine ⟨?_, inv.within, (started_set pending).trans inv.ordered, ?_, ?_, inv.ended,
        inv.closed⟩
      · rw [← inv.counted]
        exact List.length_set
      · intro other member
        rw [inFlight_set rfl] at member
        exact inv.awaited other (List.mem_of_mem_erase member)
      · intro other awaits
        rw [List.length_set]
        exact inv.known other awaits
  | @started index position item awaits done next =>
      have isRunner : Runner.awaiting position ∈ before.runners := List.mem_of_getElem? awaits
      have inside : before.cursor < items.length := (List.getElem?_eq_some_iff.mp next).1
      refine ⟨?_, inside, started_append rfl inv.ordered next, ?_, ?_, ?_, ?_⟩
      · rw [List.length_append, List.length_singleton, inv.counted]
      · intro other member
        rw [inFlight_append rfl] at member
        rcases List.mem_append.mp member with earlier | isNew
        · apply mem_set_of_ne awaits (inv.awaited other earlier)
          rintro ⟨rfl⟩
          exact done earlier
        · rw [List.mem_singleton.mp isNew]
          exact List.mem_set (List.getElem?_eq_some_iff.mp awaits).1 _
      · intro other member
        rw [List.length_append, List.length_singleton]
        rcases List.mem_or_eq_of_mem_set member with earlier | isNew
        · exact (inv.known other earlier).trans (Nat.lt_succ_self _)
        · cases isNew
          exact Nat.lt_succ_self _
      · intro member
        rcases List.mem_or_eq_of_mem_set member with earlier | isNew
        · exact absurd (inv.ended earlier) inside.ne
        · cases isNew
      · intro resolved
        cases inv.closed resolved _ isRunner
  | @finished index position awaits done ends =>
      have isRunner : Runner.awaiting position ∈ before.runners := List.mem_of_getElem? awaits
      have atEnd : before.cursor = items.length :=
        Nat.le_antisymm inv.within (List.getElem?_eq_none_iff.mp ends)
      refine ⟨inv.counted, inv.within, inv.ordered, ?_, ?_, fun _ => atEnd, ?_⟩
      · intro other member
        apply mem_set_of_ne awaits (inv.awaited other member)
        rintro ⟨rfl⟩
        exact done member
      · intro other member
        rcases List.mem_or_eq_of_mem_set member with earlier | isNew
        · exact inv.known other earlier
        · cases isNew
      · intro resolved
        cases inv.closed resolved _ isRunner
  | resolved _ all =>
      exact ⟨inv.counted, inv.within, inv.ordered, inv.awaited, inv.known, inv.ended, fun _ => all⟩

/-! ## The start -/

/-- A runner that starts hands the next item to the worker, or finds none. -/
theorem startRunner_cases (items : List α) (state : State α) :
    (∃ item, items[state.cursor]? = some item ∧ state.startRunner items = {
      cursor := state.cursor + 1
      calls := state.calls ++ [⟨item, none⟩]
      runners := state.runners ++ [.awaiting state.calls.length]
      resolved := state.resolved }) ∨
    (items[state.cursor]? = none ∧
      state.startRunner items = { state with runners := state.runners ++ [.finished] }) := by
  cases next : items[state.cursor]? with
  | some item =>
      refine .inl ⟨item, rfl, ?_⟩
      rw [State.startRunner, proceed_some next]
  | none =>
      refine .inr ⟨rfl, ?_⟩
      rw [State.startRunner, proceed_none next]

theorem length_startRunner (items : List α) (state : State α) :
    (state.startRunner items).runners.length = state.runners.length + 1 := by
  rcases startRunner_cases items state with ⟨_, _, starts⟩ | ⟨_, starts⟩ <;>
    rw [starts, List.length_append, List.length_singleton]

theorem resolved_startRunner (items : List α) (state : State α) :
    (state.startRunner items).resolved = state.resolved := by
  rcases startRunner_cases items state with ⟨_, _, starts⟩ | ⟨_, starts⟩ <;> rw [starts]

theorem Inv.startRunner {state : State α} (inv : Inv items state)
    (isPending : state.resolved = false) : Inv items (state.startRunner items) := by
  have unresolved : ¬ state.resolved = true := by
    rw [isPending]
    exact Bool.false_ne_true
  rcases startRunner_cases items state with ⟨item, next, starts⟩ | ⟨ends, starts⟩
  · have inside : state.cursor < items.length := (List.getElem?_eq_some_iff.mp next).1
    rw [starts]
    refine ⟨?_, inside, started_append rfl inv.ordered next, ?_, ?_, ?_, ?_⟩
    · rw [List.length_append, List.length_singleton, inv.counted]
    · intro position member
      rw [inFlight_append rfl] at member
      rcases List.mem_append.mp member with earlier | isNew
      · exact List.mem_append_left _ (inv.awaited position earlier)
      · rw [List.mem_singleton.mp isNew]
        exact List.mem_append_right _ List.mem_cons_self
    · intro position member
      rw [List.length_append, List.length_singleton]
      rcases List.mem_append.mp member with earlier | isNew
      · exact (inv.known position earlier).trans (Nat.lt_succ_self _)
      · cases List.mem_singleton.mp isNew
        exact Nat.lt_succ_self _
    · intro member
      rcases List.mem_append.mp member with earlier | isNew
      · exact absurd (inv.ended earlier) inside.ne
      · cases List.mem_singleton.mp isNew
    · exact fun resolved => absurd resolved unresolved
  · have atEnd : state.cursor = items.length :=
      Nat.le_antisymm inv.within (List.getElem?_eq_none_iff.mp ends)
    rw [starts]
    refine ⟨inv.counted, inv.within, inv.ordered, ?_, ?_, fun _ => atEnd, ?_⟩
    · exact fun position member => List.mem_append_left _ (inv.awaited position member)
    · intro position member
      rcases List.mem_append.mp member with earlier | isNew
      · exact inv.known position earlier
      · cases List.mem_singleton.mp isNew
    · exact fun resolved => absurd resolved unresolved

def Runner.isBusy : Runner → Bool
  | .awaiting _ => true
  | .finished => false

/-- The runners that have not left their loops. -/
def State.busy (state : State α) : Nat :=
  state.runners.countP Runner.isBusy

/-- How many steps are left: each item is still to be started and awaited, each call in
flight to settle, each runner to leave its loop, and the promise to resolve. -/
def State.left (items : List α) (state : State α) : Nat :=
  2 * (items.length - state.cursor) + state.inFlight.length + state.busy +
    if state.resolved then 0 else 1

theorem left_startRunner (items : List α) (state : State α) :
    (state.startRunner items).left items = state.left items := by
  rcases startRunner_cases items state with ⟨item, next, starts⟩ | ⟨_, starts⟩
  · have inside : state.cursor < items.length := (List.getElem?_eq_some_iff.mp next).1
    have calls : (state.startRunner items).calls = state.calls ++ [⟨item, none⟩] := by
      rw [starts]
    have busy : (state.startRunner items).busy = state.busy + 1 := by
      rw [starts, State.busy, List.countP_append]
      rfl
    rw [State.left, inFlight_append calls, busy, starts, List.length_append, State.left]
    dsimp only [List.length_singleton]
    omega
  · have busy : (state.startRunner items).busy = state.busy := by
      rw [starts, State.busy, List.countP_append]
      rfl
    have flying : (state.startRunner items).inFlight = state.inFlight := by
      rw [starts]
      rfl
    rw [State.left, flying, busy, starts, State.left]

theorem startRunners_spec : ∀ (count : Nat) {state : State α}, Inv items state →
    state.resolved = false →
    Inv items (startRunners items count state) ∧
      (startRunners items count state).runners.length = state.runners.length + count ∧
      (startRunners items count state).left items = state.left items
  | 0, state, inv, _ => ⟨inv, rfl, rfl⟩
  | count + 1, state, inv, isPending => by
      have stillPending : (state.startRunner items).resolved = false := by
        rw [resolved_startRunner, isPending]
      rcases startRunners_spec count (inv.startRunner isPending) stillPending with
        ⟨after, runners, left⟩
      rw [startRunners]
      refine ⟨after, ?_, left.trans (left_startRunner items state)⟩
      rw [runners, length_startRunner]
      omega

theorem Inv.nothing (items : List α) :
    Inv items { cursor := 0, calls := [], runners := [], resolved := false } := by
  refine ⟨rfl, Nat.zero_le _, rfl, ?_, ?_, ?_, ?_⟩
  · intro position member
    cases member
  · intro position member
    cases member
  · intro member
    cases member
  · intro resolved
    cases resolved

theorem initial_spec (items : List α) (limit : Limit) :
    Inv items (initial items limit) ∧
      (initial items limit).runners.length = runnerCount limit items.length ∧
      (initial items limit).left items = 2 * items.length + 1 := by
  rcases startRunners_spec (runnerCount limit items.length) (Inv.nothing items) rfl with
    ⟨inv, runners, left⟩
  refine ⟨inv, ?_, left⟩
  rw [initial, runners, List.length_nil, Nat.zero_add]

/-! ## The runners -/

theorem runnerCount_pos (limit : Limit) (length : Nat) : 0 < runnerCount limit length := by
  rw [runnerCount, Nat.floor_pos]
  cases limit with
  | finite value => exact le_max_left _ _
  | infinity => exact le_max_left _ _
  | negativeInfinity => exact le_refl _

/-- As many calls as there are runners are within the limit. -/
theorem bounds_of_le {limit : Limit} {length count : Nat}
    (few : count ≤ runnerCount limit length) : limit.Bounds count := by
  cases limit with
  | finite value =>
      have floor : ((runnerCount (.finite value) length : Nat) : ℚ) ≤ max 1 (min value length) :=
        Nat.floor_le (zero_le_one.trans (le_max_left _ _))
      calc (count : ℚ) ≤ (runnerCount (.finite value) length : ℚ) := Nat.cast_le.mpr few
        _ ≤ max 1 (min value length) := floor
        _ ≤ max 1 value := max_le_max (le_refl 1) (min_le_left _ _)
  | infinity => trivial
  | negativeInfinity =>
      have single : runnerCount .negativeInfinity length = 1 := Nat.floor_one
      show count ≤ 1
      rwa [single] at few

/-- Every call in flight has a runner of its own. -/
theorem Inv.inFlight_le {state : State α} (inv : Inv items state) :
    state.inFlight.length ≤ state.runners.length := by
  have distinct : (state.inFlight.map Runner.awaiting).Nodup :=
    (inFlight_nodup state).map fun _ _ same => by cases same; rfl
  have among : state.inFlight.map Runner.awaiting ⊆ state.runners := by
    intro runner member
    rcases List.mem_map.mp member with ⟨position, flying, rfl⟩
    exact inv.awaited position flying
  have few := (distinct.subperm among).length_le
  rwa [List.length_map] at few

theorem Moved.runners {before after : State α} (moved : Moved items before after) :
    after.runners.length = before.runners.length := by
  cases moved with
  | settled outcome pending => rfl
  | started awaits done next => exact List.length_set
  | finished awaits done ends => exact List.length_set
  | resolved isPending all => rfl

/-- A runner that was awaiting a call was busy. -/
theorem countP_set_busy {runners : List Runner} {index position : Nat}
    (awaits : runners[index]? = some (.awaiting position)) (new : Runner) :
    (runners.set index new).countP Runner.isBusy + 1 =
      runners.countP Runner.isBusy + if new.isBusy = true then 1 else 0 := by
  rcases List.getElem?_eq_some_iff.mp awaits with ⟨inRange, isOld⟩
  have oldBusy : (Runner.awaiting position).isBusy = true := rfl
  have positive : 0 < runners.countP Runner.isBusy :=
    List.countP_pos_iff.mpr ⟨_, List.mem_of_getElem? awaits, oldBusy⟩
  rw [List.countP_set inRange, isOld, if_pos oldBusy]
  omega

/-- Every step leaves one step less. -/
theorem Moved.left {before after : State α} (moved : Moved items before after) :
    after.left items + 1 = before.left items := by
  cases moved with
  | @settled position item outcome pending =>
      have flying : position ∈ before.inFlight := mem_inFlight.mpr ⟨item, pending⟩
      have positive := List.length_pos_of_mem flying
      rw [State.left, inFlight_set rfl, List.length_erase_of_mem flying, State.left]
      dsimp only [State.busy]
      omega
  | @started index position item awaits done next =>
      have inside : before.cursor < items.length := (List.getElem?_eq_some_iff.mp next).1
      have busy : (before.runners.set index (.awaiting before.calls.length)).countP
          Runner.isBusy = before.busy := Nat.succ.inj (countP_set_busy awaits _)
      rw [State.left, inFlight_append rfl, State.left, List.length_append, List.length_singleton,
        State.busy, busy]
      dsimp only
      omega
  | @finished index position awaits done ends =>
      have busy : (before.runners.set index .finished).countP Runner.isBusy + 1 =
          before.busy := countP_set_busy awaits _
      have flying : State.inFlight { before with runners := before.runners.set index .finished } =
          before.inFlight := rfl
      rw [State.left, State.busy, flying, State.left]
      dsimp only
      omega
  | resolved isPending all =>
      have flying : State.inFlight { before with resolved := true } = before.inFlight := rfl
      rw [State.left, State.left, flying, isPending]
      rfl

/-- The promise resolves, or something is still to come. -/
theorem Inv.progress {state : State α} (inv : Inv items state)
    (isPending : state.resolved = false) : ∃ action after, Step items action state after := by
  by_cases all : ∀ runner ∈ state.runners, runner = .finished
  · refine ⟨.resolve, { state with resolved := true }, ?_⟩
    rw [Step, step, if_pos ⟨isPending, all⟩]
  · push Not at all
    rcases all with ⟨runner, member, works⟩
    cases runner with
    | finished => exact absurd rfl works
    | awaiting position =>
        rcases List.mem_iff_getElem?.mp member with ⟨index, awaits⟩
        have inside : position < state.calls.length := inv.known position member
        rcases List.getElem?_eq_some_iff.mpr ⟨inside, rfl⟩ with call
        rcases isCall : state.calls[position] with ⟨item, outcome⟩
        rw [isCall] at call
        cases outcome with
        | none =>
            refine ⟨.settle position .resolved,
              { state with calls := state.calls.set position ⟨item, some .resolved⟩ }, ?_⟩
            rw [Step, step, call]
        | some outcome =>
            refine ⟨.resume index, { (state.proceed items).1 with
              runners := (state.proceed items).1.runners.set index (state.proceed items).2 }, ?_⟩
            rw [Step, step, awaits]
            dsimp only
            rw [call]

end Steps

/-! ## Runs -/

section Runs

variable {α : Type u} {items : List α} {limit : Limit} {events : List (Event (State α) Action)}
  {final : State α}

theorem Inv.run (run : Run (Step items) (initial items limit) events final) :
    Inv items final ∧ final.runners.length = runnerCount limit items.length ∧
      events.length + final.left items = 2 * items.length + 1 := by
  rcases initial_spec items limit with ⟨start, runners, left⟩
  induction run with
  | nothing => exact ⟨start, runners, by rw [left, List.length_nil, Nat.zero_add]⟩
  | next _ taken induction =>
      rcases induction with ⟨inv, runners, left⟩
      have moved := Step.moved taken
      refine ⟨inv.moved moved, moved.runners.trans runners, ?_⟩
      have fewer := moved.left
      rw [List.length_append, List.length_singleton]
      omega

/-- In every run the items are started in order, each once, with no more calls in flight
than the limit allows; the promise resolves when all calls have been made and have settled,
and every run comes to that in as many steps. -/
theorem runWithConcurrency_once (run : Run (Step items) (initial items limit) events final) :
    final.started <+: items ∧ limit.Bounds final.inFlight.length ∧
      (final.resolved = true → final.started = items ∧ final.inFlight = []) ∧
      events.length ≤ 2 * items.length + 1 ∧
      (final.resolved = true ∨ ∃ action after, Step items action final after) := by
  rcases Inv.run run with ⟨inv, runners, left⟩
  refine ⟨?_, ?_, ?_, by omega, ?_⟩
  · rw [inv.ordered]
    exact List.take_prefix _ _
  · exact bounds_of_le (runners ▸ inv.inFlight_le)
  · intro resolved
    have finished := inv.closed resolved
    have some : 0 < final.runners.length := runners ▸ runnerCount_pos limit items.length
    rcases List.exists_mem_of_length_pos some with ⟨runner, member⟩
    have atEnd : final.cursor = items.length := inv.ended (finished runner member ▸ member)
    constructor
    · rw [inv.ordered, atEnd, List.take_length]
    · rw [List.eq_nil_iff_forall_not_mem]
      intro position flying
      cases finished _ (inv.awaited position flying)
  · cases resolved : final.resolved with
    | true => exact .inl rfl
    | false => exact .inr (inv.progress resolved)

/-- Three items with two calls at a time, and the second call is rejected. -/
theorem runWithConcurrency_once_rejected : ∃ events final,
    Run (Step ["a", "b", "c"]) (initial ["a", "b", "c"] (.finite 2)) events final ∧
      final.started = ["a", "b", "c"] ∧ final.inFlight = [] ∧ final.resolved = true := by
  have twoRunners : runnerCount (.finite 2) ["a", "b", "c"].length = 2 := by
    norm_num [runnerCount, Limit.clamp]
  have start : initial ["a", "b", "c"] (.finite 2) = {
      cursor := 2
      calls := [⟨"a", none⟩, ⟨"b", none⟩]
      runners := [.awaiting 0, .awaiting 1]
      resolved := false } := by
    rw [initial, twoRunners]
    rfl
  have performs : perform (step ["a", "b", "c"])
      [.settle 1 .rejected, .resume 1, .settle 0 .resolved, .settle 2 .resolved, .resume 0,
        .resume 1, .resolve] (initial ["a", "b", "c"] (.finite 2)) = some {
      cursor := 3
      calls := [⟨"a", some .resolved⟩, ⟨"b", some .rejected⟩, ⟨"c", some .resolved⟩]
      runners := [.finished, .finished]
      resolved := true } := by
    rw [start]
    rfl
  rcases exists_run performs with ⟨events, run⟩
  rcases (runWithConcurrency_once run).2.2.1 rfl with ⟨started, settled⟩
  exact ⟨events, _, run, started, settled, rfl⟩

end Runs

/-! ## The queue of a folder upload -/

section Uploads

open FolderUpload

variable {items : List Task} {worker : Task → FolderUpload.Request}

/-- What a folder upload sees of the queue. -/
def State.queue (worker : Task → FolderUpload.Request) (state : State Task) : Queue where
  cursor := state.cursor
  inFlight := state.inFlight
  sent := state.started.map worker

theorem runnerCount_uploadConcurrency (length : Nat) :
    runnerCount (.finite uploadConcurrency) length = max 1 (min uploadConcurrency length) := by
  have natural : Limit.clamp (.finite uploadConcurrency) length =
      ((max 1 (min uploadConcurrency length) : Nat) : ℚ) := by
    rw [Limit.clamp, Nat.cast_max, Nat.cast_min, Nat.cast_one]
  rw [runnerCount, natural, Nat.floor_natCast]

/-- A runner that goes on leaves room for its next call. -/
theorem Inv.inFlight_lt {state : State Task} (inv : Inv items state) {index position : Nat}
    (awaits : state.runners[index]? = some (.awaiting position))
    (done : position ∉ state.inFlight) : state.inFlight.length < state.runners.length := by
  have distinct : ((position :: state.inFlight).map Runner.awaiting).Nodup :=
    (List.nodup_cons.mpr ⟨done, inFlight_nodup state⟩).map fun _ _ same => by cases same; rfl
  have among : (position :: state.inFlight).map Runner.awaiting ⊆ state.runners := by
    intro runner member
    rcases List.mem_map.mp member with ⟨other, flying, rfl⟩
    rcases List.mem_cons.mp flying with rfl | earlier
    · exact List.mem_of_getElem? awaits
    · exact inv.awaited other earlier
  have few := (distinct.subperm among).length_le
  rwa [List.length_map, List.length_cons] at few

theorem queue_take {before after : State Task} {item : Task}
    (cursor : after.cursor = before.cursor + 1)
    (calls : after.calls = before.calls ++ [⟨item, none⟩]) (inv : Inv items before)
    (next : items[before.cursor]? = some item)
    (room : before.inFlight.length < max 1 (min uploadConcurrency items.length)) :
    Queue.Step items worker .take (before.queue worker) (after.queue worker) := by
  have started : after.started = before.started ++ [item] := by
    rw [State.started, calls, List.map_append]
    rfl
  refine ⟨item, next, room, ?_⟩
  rw [State.queue, inFlight_append calls, started, cursor, inv.counted, List.map_append]
  rfl

theorem queue_settle {before : State Task} {position : Nat} {item : Task}
    (outcome : Settlement) (pending : before.calls[position]? = some ⟨item, none⟩) :
    Queue.Step items worker (.settle position) (before.queue worker)
      (State.queue worker
        { before with calls := before.calls.set position ⟨item, some outcome⟩ }) := by
  have flying : State.inFlight
      { before with calls := before.calls.set position ⟨item, some outcome⟩ } =
      before.inFlight.erase position := inFlight_set rfl
  refine ⟨mem_inFlight.mpr ⟨item, pending⟩, ?_⟩
  rw [State.queue, flying, started_set pending]
  rfl

theorem startRunners_simulates : ∀ (count : Nat) {state : State Task}, Inv items state →
    state.resolved = false →
    state.runners.length + count = max 1 (min uploadConcurrency items.length) →
    ∃ events, Run (Queue.Step items worker) (state.queue worker) events
      ((startRunners items count state).queue worker)
  | 0, _, _, _, _ => ⟨[], .nothing⟩
  | count + 1, state, inv, isPending, total => by
      have room : state.inFlight.length < max 1 (min uploadConcurrency items.length) := by
        have few := inv.inFlight_le
        omega
      have first : ∃ events, Run (Queue.Step items worker) (state.queue worker) events
          ((state.startRunner items).queue worker) := by
        rcases startRunner_cases items state with ⟨item, next, starts⟩ | ⟨_, starts⟩
        · have cursor : (state.startRunner items).cursor = state.cursor + 1 := by rw [starts]
          have calls : (state.startRunner items).calls = state.calls ++ [⟨item, none⟩] := by
            rw [starts]
          exact ⟨_, .single (queue_take cursor calls inv next room)⟩
        · rw [starts]
          exact ⟨[], .nothing⟩
      have stillPending : (state.startRunner items).resolved = false := by
        rw [resolved_startRunner, isPending]
      have rest : (state.startRunner items).runners.length + count =
          max 1 (min uploadConcurrency items.length) := by
        rw [length_startRunner]
        omega
      rcases first with ⟨events, run⟩
      rcases startRunners_simulates count (inv.startRunner isPending) stillPending rest with
        ⟨more, later⟩
      exact ⟨_, run.append later⟩

/-- Every run of the runners is one of the queue of a folder upload. -/
theorem runWithConcurrency_simulates {events : List (Event (State Task) Action)}
    {final : State Task}
    (run : Run (Step items) (initial items (.finite uploadConcurrency)) events final) :
    ∃ events, Run (Queue.Step items worker) .empty events (final.queue worker) := by
  have total := runnerCount_uploadConcurrency items.length
  induction run with
  | nothing =>
      rw [initial, total]
      exact startRunners_simulates _ (Inv.nothing items) rfl (Nat.zero_add _)
  | @next past middle final action earlier taken induction =>
      rcases induction with ⟨events, simulates⟩
      rcases Inv.run earlier with ⟨inv, runners, _⟩
      cases Step.moved taken with
      | @settled position item outcome pending =>
          exact ⟨_, simulates.next (queue_settle outcome pending)⟩
      | started awaits done next =>
          have room := inv.inFlight_lt awaits done
          rw [runners, total] at room
          exact ⟨_, simulates.next (queue_take rfl rfl inv next room)⟩
      | finished awaits done ends => exact ⟨events, simulates⟩
      | resolved isPending all => exact ⟨events, simulates⟩

end Uploads

end UploadQueue

end CloudDrive
