import CloudDrive.Foundation.Execution
import Mathlib.Logic.Function.Basic
import Mathlib.Logic.Relation

/-! # Interleaved tasks

Tasks work on one store, each with a state of its own. In a step one task takes
its next action, or something happens to the store from outside. A schedule may
order the steps in any way. -/

namespace Interleaving

open Execution

variable {ι : Type u} {σ : Type v} {τ : Type w} {ε : Type x} [DecidableEq ι]

/-- The next action of each task, if it has one and is not blocked, and what may
happen from outside. -/
structure Tasks (ι : Type u) (σ : Type v) (τ : Type w) (ε : Type x) where
  act : ι → σ → τ → Option (σ × τ)
  happen : ε → σ → Option σ

structure World (ι : Type u) (σ : Type v) (τ : Type w) where
  store : σ
  task : ι → τ

inductive Move (ι : Type u) (ε : Type x) where
  | turn (index : ι)
  | event (what : ε)
  deriving DecidableEq

variable {tasks : Tasks ι σ τ ε}

def Tasks.perform (tasks : Tasks ι σ τ ε) (move : Move ι ε) (world : World ι σ τ) :
    Option (World ι σ τ) :=
  match move with
  | .turn index =>
      (tasks.act index world.store (world.task index)).map fun done =>
        ⟨done.1, Function.update world.task index done.2⟩
  | .event what => (tasks.happen what world.store).map fun store => ⟨store, world.task⟩

def Tasks.Step (tasks : Tasks ι σ τ ε) (move : Move ι ε) (before after : World ι σ τ) :
    Prop :=
  tasks.perform move before = some after

abbrev Tasks.Runs (tasks : Tasks ι σ τ ε) :
    World ι σ τ → List (Event (World ι σ τ) (Move ι ε)) → World ι σ τ → Prop :=
  Run tasks.Step

/-- One step: a task acts and the others stay where they are, or the
store changes and every task stays where it is. -/
theorem Tasks.Step.cases {move : Move ι ε} {before after : World ι σ τ}
    (step : tasks.Step move before after) :
    (∃ index, move = .turn index ∧
      tasks.act index before.store (before.task index) =
        some (after.store, after.task index) ∧
      ∀ other, other ≠ index → after.task other = before.task other) ∨
    ∃ what, move = .event what ∧ tasks.happen what before.store = some after.store ∧
      after.task = before.task := by
  cases move with
  | turn index =>
      rcases Option.map_eq_some_iff.mp step with ⟨done, acts, rfl⟩
      apply Or.inl
      apply Exists.intro index
      constructor
      · rfl
      · constructor
        · simp [acts]
        · intro other different
          exact Function.update_of_ne different done.2 before.task
  | event what =>
      rcases Option.map_eq_some_iff.mp step with ⟨store, happens, rfl⟩
      exact .inr ⟨what, rfl, happens, rfl⟩

/-! ## One task alone -/

/-- What one task does while no other acts and nothing happens. -/
abbrev Tasks.Alone (tasks : Tasks ι σ τ ε) (index : ι) : σ × τ → σ × τ → Prop :=
  Relation.ReflTransGen fun before after => tasks.act index before.1 before.2 = some after

omit [DecidableEq ι] in
theorem Tasks.Alone.first {index : ι} {store after : σ} {task next : τ} {final : σ × τ}
    (acts : tasks.act index store task = some (after, next))
    (later : tasks.Alone index (after, next) final) :
    tasks.Alone index (store, task) final :=
  .head acts later

/-- It is a run of all tasks, in which the others stay where they are. -/
theorem Tasks.Alone.runs {index : ι} {world : World ι σ τ} {after : σ × τ}
    (alone : tasks.Alone index (world.store, world.task index) after) :
    ∃ events, tasks.Runs world events ⟨after.1, Function.update world.task index after.2⟩ := by
  induction alone with
  | refl =>
      apply Exists.intro []
      rw [Function.update_eq_self]
      exact .nothing
  | @tail middle after _ acts induction =>
      rcases induction with ⟨events, runs⟩
      have taken : tasks.Step (.turn index)
          ⟨middle.1, Function.update world.task index middle.2⟩
          ⟨after.1, Function.update world.task index after.2⟩ := by
        simp only [Step, perform, Function.update_self, acts, Option.map_some,
          Function.update_idem]
      exact ⟨_, runs.next taken⟩

/-! ## Schedules -/

/-- The world after these moves, unless one of them is not possible. -/
def Tasks.play (tasks : Tasks ι σ τ ε) :
    List (Move ι ε) → World ι σ τ → Option (World ι σ τ)
  | [], world => some world
  | move :: rest, world => (tasks.perform move world).bind (tasks.play rest)

/-- The steps of a schedule, up to the first move that is not possible. -/
def Tasks.trace (tasks : Tasks ι σ τ ε) :
    List (Move ι ε) → World ι σ τ → List (Event (World ι σ τ) (Move ι ε))
  | [], _ => []
  | move :: rest, world =>
      match tasks.perform move world with
      | some next => ⟨world, move, next⟩ :: tasks.trace rest next
      | none => []

/-- A schedule that can be played is a run. -/
theorem Tasks.runs_of_play {start final : World ι σ τ} {moves : List (Move ι ε)}
    (played : tasks.play moves start = some final) :
    tasks.Runs start (tasks.trace moves start) final := by
  induction moves generalizing start with
  | nil =>
      cases played
      exact .nothing
  | cons move rest induction =>
      rcases Option.bind_eq_some_iff.mp played with ⟨middle, first, later⟩
      have single : tasks.Runs start [⟨start, move, middle⟩] middle := Run.single first
      rw [Tasks.trace, first]
      exact single.append (induction later)

end Interleaving
