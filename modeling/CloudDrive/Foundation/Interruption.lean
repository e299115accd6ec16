import CloudDrive.Foundation.Outcome
import Mathlib.Data.List.Infix

/-! # Work that may be interrupted

A request writes to a store that takes its writes back when it fails, and gives
commands to another whose effects last. `Work` is one run of such a request: the
commands it gives, how it ends, and which of them may already have been given
when something fails on the way. -/

namespace Interruption

open Outcome

/-- The last failure comes after the last command, when the writes are committed. -/
structure Work (κ : Type u) (ε : Type v) (α : Type w) where
  commands : List κ
  outcome : Except ε α
  failures : List (List κ)
  atTheEnd : commands ∈ failures

namespace Work

variable {κ : Type u} {ε : Type v} {α β : Type w}

/-- A computation that gives no command. -/
def of (outcome : Except ε α) : Work κ ε α where
  commands := []
  outcome := outcome
  failures := [[]]
  atTheEnd := List.mem_singleton_self _

def command (given : κ) : Work κ ε PUnit where
  commands := [given]
  outcome := .ok ⟨⟩
  failures := [[], [given]]
  atTheEnd := by simp

def followedBy (first : Work κ ε α) (next : α → Work κ ε β) : Work κ ε β :=
  match first.outcome with
  | .error error =>
      { commands := first.commands
        outcome := .error error
        failures := first.failures
        atTheEnd := first.atTheEnd }
  | .ok value =>
      { commands := first.commands ++ (next value).commands
        outcome := (next value).outcome
        failures := first.failures ++ (next value).failures.map (first.commands ++ ·)
        atTheEnd := List.mem_append_right _ (List.mem_map_of_mem (next value).atTheEnd) }

instance : Monad (Work κ ε) where
  pure value := of (.ok value)
  bind := followedBy

/-- `try: body; except Exception: cleanup; raise`. A failure may leave no time for the
cleanup, or for a part of it. -/
def orElseClean (body : Work κ ε α) (cleanup : List κ) : Work κ ε α where
  commands :=
    match body.outcome with
    | .ok _ => body.commands
    | .error _ => body.commands ++ cleanup
  outcome := body.outcome
  failures := body.failures.flatMap fun given => cleanup.inits.map (given ++ ·)
  atTheEnd := by
    apply List.mem_flatMap.mpr
    apply Exists.intro body.commands
    apply And.intro body.atTheEnd
    cases body.outcome with
    | ok value =>
        have whole : body.commands ++ [] ∈ cleanup.inits.map (body.commands ++ ·) :=
          List.mem_map_of_mem ((List.mem_inits _ _).mpr List.nil_prefix)
        rwa [List.append_nil] at whole
    | error error => exact List.mem_map_of_mem ((List.mem_inits _ _).mpr List.prefix_rfl)

@[simp] theorem outcome_orElseClean (body : Work κ ε α) (cleanup : List κ) :
    (body.orElseClean cleanup).outcome = body.outcome := rfl

@[simp] theorem outcome_command (given : κ) :
    (command given : Work κ ε PUnit).outcome = .ok ⟨⟩ := rfl

@[simp] theorem outcome_pure (value : α) :
    (pure value : Work κ ε α).outcome = .ok value := rfl

@[simp] theorem commands_pure (value : α) : (pure value : Work κ ε α).commands = [] := rfl

@[simp] theorem outcome_of (outcome : Except ε α) :
    (of outcome : Work κ ε α).outcome = outcome := rfl

@[simp] theorem commands_of (outcome : Except ε α) :
    (of outcome : Work κ ε α).commands = [] := rfl

@[simp] theorem outcome_bind (first : Work κ ε α) (next : α → Work κ ε β) :
    (first >>= next).outcome = first.outcome >>= fun value => (next value).outcome := by
  show (followedBy first next).outcome = _
  rw [followedBy]
  cases first.outcome <;> rfl

theorem bind_succeeds {first : Work κ ε α} {next : α → Work κ ε β}
    (here : Succeeds first.outcome)
    (later : ∀ value, first.outcome = .ok value → Succeeds (next value).outcome) :
    Succeeds (first >>= next).outcome := by
  rcases here with ⟨value, done⟩
  rw [outcome_bind, succeeds_bind]
  exact ⟨value, done, later value done⟩

theorem commands_bind (first : Work κ ε α) (next : α → Work κ ε β) :
    (first >>= next).commands =
      match first.outcome with
      | .error _ => first.commands
      | .ok value => first.commands ++ (next value).commands := by
  show (followedBy first next).commands = _
  rw [followedBy]
  cases first.outcome <;> rfl

theorem mem_failures_bind {first : Work κ ε α} {next : α → Work κ ε β} {given : List κ} :
    given ∈ (first >>= next).failures ↔ given ∈ first.failures ∨
      ∃ value, first.outcome = .ok value ∧
        ∃ later ∈ (next value).failures, given = first.commands ++ later := by
  show given ∈ (followedBy first next).failures ↔ _
  rw [followedBy]
  cases first.outcome with
  | error error => simp
  | ok value =>
      rw [List.mem_append, List.mem_map]
      constructor
      · intro either
        rcases either with early | ⟨later, member, rfl⟩
        · exact .inl early
        · exact .inr ⟨value, rfl, later, member, rfl⟩
      · intro either
        rcases either with early | ⟨_, same, later, member, rfl⟩
        · exact .inl early
        · cases same
          exact .inr ⟨later, member, rfl⟩

/-- A computation before the work fails without a command. -/
theorem mem_failures_of_bind {outcome : Except ε α} {next : α → Work κ ε β} {given : List κ}
    (member : given ∈ (of outcome >>= next).failures) :
    given = [] ∨ ∃ value, outcome = .ok value ∧ given ∈ (next value).failures := by
  rcases mem_failures_bind.mp member with early | ⟨value, done, later, isLater, rfl⟩
  · exact .inl (List.mem_singleton.mp early)
  · exact .inr ⟨value, done, isLater⟩

/-- What gives no command after the work fails when all commands of it are given. -/
theorem mem_failures_bind_silent {first : Work κ ε α} {next : α → Work κ ε β} {given : List κ}
    (silent : ∀ value, (next value).failures = [[]])
    (member : given ∈ (first >>= next).failures) : given ∈ first.failures := by
  rcases mem_failures_bind.mp member with early | ⟨value, _, later, isLater, rfl⟩
  · exact early
  · rw [silent value] at isLater
    rw [List.mem_singleton.mp isLater, List.append_nil]
    exact first.atTheEnd

/-- When the first work completes, the commands of both are given. -/
theorem mem_commands_bind {first : Work κ ε α} {next : α → Work κ ε β} {value : α}
    (completes : first.outcome = .ok value) {each : κ} :
    each ∈ (first >>= next).commands ↔ each ∈ first.commands ∨ each ∈ (next value).commands := by
  rw [commands_bind, completes]
  exact List.mem_append

@[simp] theorem commands_command (given : κ) :
    (command given : Work κ ε PUnit).commands = [given] := rfl

/-- The work completes with the value and has given these commands. -/
structure Yields (work : Work κ ε α) (given : List κ) (value : α) : Prop where
  commands : work.commands = given
  outcome : work.outcome = .ok value

theorem yields_pure (value : α) : (pure value : Work κ ε α).Yields [] value :=
  ⟨rfl, rfl⟩

theorem yields_command (given : κ) : (command given : Work κ ε PUnit).Yields [given] ⟨⟩ :=
  ⟨rfl, rfl⟩

theorem Yields.bind {first : Work κ ε α} {next : α → Work κ ε β} {given later : List κ}
    {value : α} {result : β} (yields : first.Yields given value)
    (rest : (next value).Yields later result) : (first >>= next).Yields (given ++ later) result := by
  constructor
  · rw [commands_bind, yields.outcome, yields.commands]
    exact congrArg _ rest.commands
  · rw [outcome_bind, yields.outcome]
    exact rest.outcome

theorem Yields.unique {work : Work κ ε α} {given : List κ} {value other : α}
    (yields : work.Yields given value) (ends : work.outcome = .ok other) : other = value :=
  Except.ok.inj (ends.symm.trans yields.outcome)

/-- A loop `for element in elements` over work. -/
def forEach {γ : Type x} (body : γ → α → Work κ ε α) : List γ → α → Work κ ε α
  | [], state => pure state
  | element :: rest, state => body element state >>= forEach body rest

/-- A loop of bodies that complete completes, and gives the commands of every body. -/
theorem forEach_completes {γ : Type x} {body : γ → α → Work κ ε α} : ∀ {elements : List γ}
    {before : α}, (∀ element ∈ elements, ∀ state, ∃ after,
      (body element state).outcome = .ok after) →
    (∃ after, (forEach body elements before).outcome = .ok after) ∧
      ∀ element ∈ elements, ∃ state, ∀ each ∈ (body element state).commands,
        each ∈ (forEach body elements before).commands
  | [], before, _ => ⟨⟨before, rfl⟩, fun _ member => by cases member⟩
  | element :: rest, before, complete => by
      rcases complete element List.mem_cons_self before with ⟨middle, done⟩
      have later : (∃ after, (forEach body rest middle).outcome = .ok after) ∧
          ∀ other ∈ rest, ∃ state, ∀ each ∈ (body other state).commands,
            each ∈ (forEach body rest middle).commands :=
        forEach_completes fun other member => complete other (List.mem_cons_of_mem _ member)
      rcases later with ⟨⟨after, ends⟩, given⟩
      constructor
      · apply Exists.intro after
        rw [forEach, outcome_bind, done]
        exact ends
      · intro other member
        rcases List.mem_cons.mp member with rfl | inRest
        · apply Exists.intro before
          intro each among
          exact (mem_commands_bind done).mpr (.inl among)
        · rcases given other inRest with ⟨state, all⟩
          apply Exists.intro state
          intro each among
          exact (mem_commands_bind done).mpr (.inr (all each among))

/-! ## What is commanded -/

/-- Nothing but such commands is given, whether the work fails or not. -/
structure Only (Allowed : κ → Prop) (work : Work κ ε α) : Prop where
  onFailure : ∀ given ∈ work.failures, ∀ each ∈ given, Allowed each

theorem Only.commands {Allowed : κ → Prop} {work : Work κ ε α} (only : work.Only Allowed) :
    ∀ each ∈ work.commands, Allowed each :=
  only.onFailure work.commands work.atTheEnd

theorem only_of (Allowed : κ → Prop) (outcome : Except ε α) :
    (of outcome : Work κ ε α).Only Allowed := by
  constructor
  intro given member each among
  rw [List.mem_singleton.mp member] at among
  cases among

theorem only_command {Allowed : κ → Prop} {given : κ} (allowed : Allowed given) :
    (command given : Work κ ε PUnit).Only Allowed := by
  constructor
  intro before member each among
  rcases List.mem_cons.mp member with rfl | member
  · cases among
  · rw [List.mem_singleton.mp member] at among
    rw [List.mem_singleton.mp among]
    exact allowed

theorem Only.orElseClean {Allowed : κ → Prop} {body : Work κ ε α} {cleanup : List κ}
    (only : body.Only Allowed) (allowed : ∀ each ∈ cleanup, Allowed each) :
    (body.orElseClean cleanup).Only Allowed := by
  constructor
  intro given member each among
  rcases List.mem_flatMap.mp member with ⟨early, isEarly, later⟩
  rcases List.mem_map.mp later with ⟨part, isPart, rfl⟩
  rcases List.mem_append.mp among with before | cleaning
  · exact only.onFailure early isEarly each before
  · exact allowed each (((List.mem_inits _ _).mp isPart).subset cleaning)

theorem Only.bind {Allowed : κ → Prop} {first : Work κ ε α} {next : α → Work κ ε β}
    (only : first.Only Allowed)
    (rest : ∀ value, first.outcome = .ok value → (next value).Only Allowed) :
    (first >>= next).Only Allowed := by
  constructor
  intro given member each among
  rcases mem_failures_bind.mp member with early | ⟨value, done, later, isLater, rfl⟩
  · exact only.onFailure given early each among
  · rcases List.mem_append.mp among with before | after
    · exact only.commands each before
    · exact (rest value done).onFailure later isLater each after

/-- A loop gives only such commands when the bodies do, in every state that a
property kept by the bodies allows. -/
theorem only_forEach {γ : Type x} {Allowed : κ → Prop} {body : γ → α → Work κ ε α}
    (Keep : α → Prop) : ∀ {elements : List γ} {before : α},
    (∀ element ∈ elements, ∀ before, Keep before → (body element before).Only Allowed ∧
      ∀ after, (body element before).outcome = .ok after → Keep after) →
    Keep before → (forEach body elements before).Only Allowed
  | [], _, _, _ => only_of Allowed _
  | element :: rest, before, step, keep => by
      rcases step element List.mem_cons_self before keep with ⟨only, keeps⟩
      apply only.bind
      intro after done
      exact only_forEach Keep (fun later isLater => step later (List.mem_cons_of_mem _ isLater))
        (keeps after done)

end Work

end Interruption
