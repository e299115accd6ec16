import Mathlib.Data.List.Basic

/-! # Runs of a state machine

A run is the list of its steps, oldest first, each with the state it was taken
in and the state it led to. -/

namespace Execution

variable {σ : Type u} {α : Type v}

structure Event (σ : Type u) (α : Type v) where
  before : σ
  action : α
  after : σ

inductive Run (step : α → σ → σ → Prop) (start : σ) : List (Event σ α) → σ → Prop
  | nothing : Run step start [] start
  | next {past : List (Event σ α)} {middle final : σ} {action : α} :
      Run step start past middle → step action middle final →
      Run step start (past ++ [⟨middle, action, final⟩]) final

variable {step : α → σ → σ → Prop} {start final : σ} {events : List (Event σ α)}

theorem Run.append {middle : σ} {first second : List (Event σ α)}
    (run : Run step start first middle) (rest : Run step middle second final) :
    Run step start (first ++ second) final := by
  induction rest with
  | nothing => exact (List.append_nil first).symm ▸ run
  | next _ taken induction =>
      rw [← List.append_assoc]
      exact induction.next taken

theorem Run.single {action : α} (taken : step action start final) :
    Run step start [⟨start, action, final⟩] final :=
  Run.next .nothing taken

/-- What every step of the run keeps holds at its end. -/
theorem Run.keeps {Keep : σ → Prop} (initial : Keep start)
    (each : ∀ event ∈ events, Keep event.before →
      step event.action event.before event.after → Keep event.after)
    (run : Run step start events final) : Keep final := by
  induction run with
  | nothing => exact initial
  | @next past middle final action run taken induction =>
      have keptBefore : Keep middle :=
        induction fun event member => each event (List.mem_append_left _ member)
      exact each ⟨middle, action, final⟩ (by simp) keptBefore taken

/-- What holds at the start and after every step holds at the end. -/
theorem Run.holds (Keep : σ → Prop) (initial : Keep start)
    (each : ∀ event ∈ events, Keep event.after) (run : Run step start events final) : Keep final :=
  run.keeps initial fun event member _ _ => each event member

/-- Every event of a run is a step from a state that a shorter run reaches. -/
theorem Run.upTo (run : Run step start events final) {past rest : List (Event σ α)}
    {event : Event σ α} (split : events = past ++ event :: rest) :
    Run step start past event.before ∧ step event.action event.before event.after := by
  induction run generalizing past rest with
  | nothing => cases past <;> cases split
  | @next earlier middle final action run taken induction =>
      rcases List.eq_nil_or_concat rest with rfl | ⟨shorter, last, rfl⟩
      · rcases List.append_inj' split rfl with ⟨rfl, same⟩
        cases same
        exact ⟨run, taken⟩
      · rw [List.concat_eq_append, ← List.cons_append, ← List.append_assoc] at split
        rcases List.append_inj' split rfl with ⟨shorterSplit, _⟩
        exact induction shorterSplit

/-- The part of a run from one of its events on. -/
theorem Run.onFrom (run : Run step start events final) {past rest : List (Event σ α)}
    {event : Event σ α} (split : events = past ++ event :: rest) :
    Run step event.before (event :: rest) final := by
  induction run generalizing rest with
  | nothing => cases past <;> cases split
  | @next earlier middle final action run taken induction =>
      rcases List.eq_nil_or_concat rest with rfl | ⟨shorter, last, rfl⟩
      · rcases List.append_inj' split rfl with ⟨_, same⟩
        cases same
        exact Run.single taken
      · rw [List.concat_eq_append, ← List.cons_append, ← List.append_assoc] at split
        rcases List.append_inj' split rfl with ⟨shorterSplit, same⟩
        cases same
        rw [List.concat_eq_append, ← List.cons_append]
        exact (induction shorterSplit).next taken

/-- A property that holds at the start and not at the end was lost by a step
after which it never came back. -/
theorem Run.exists_lost (Keep : σ → Prop) (run : Run step start events final)
    (initial : Keep start) (gone : ¬ Keep final) :
    ∃ past event rest, events = past ++ event :: rest ∧ Keep event.before ∧
      ¬ Keep event.after ∧ ∀ later ∈ rest, ¬ Keep later.after := by
  induction run with
  | nothing => exact absurd initial gone
  | @next past middle final action run taken induction =>
      by_cases keptBefore : Keep middle
      · exact ⟨past, ⟨middle, action, final⟩, [], rfl, keptBefore, gone, by simp⟩
      · rcases induction keptBefore with ⟨earlier, event, rest, rfl, held, lost, never⟩
        apply Exists.intro earlier
        apply Exists.intro event
        apply Exists.intro (rest ++ [⟨middle, action, final⟩])
        refine ⟨by simp, held, lost, ?_⟩
        intro later member
        rcases List.mem_append.mp member with inRest | isLast
        · exact never later inRest
        · rw [List.mem_singleton.mp isLast]
          exact gone

/-- A property that does not hold after some step but holds at the end was
gained by a later one. -/
theorem Run.exists_gained (Keep : σ → Prop) (run : Run step start events final)
    {past rest : List (Event σ α)} {event : Event σ α}
    (split : events = past ++ event :: rest) (missing : ¬ Keep event.after)
    (there : Keep final) : ∃ later ∈ rest, ¬ Keep later.before ∧ Keep later.after := by
  induction run generalizing rest with
  | nothing => cases past <;> cases split
  | @next earlier middle final action run taken induction =>
      rcases List.eq_nil_or_concat rest with rfl | ⟨shorter, last, rfl⟩
      · rcases List.append_inj' split rfl with ⟨_, same⟩
        cases same
        exact absurd there missing
      · rw [List.concat_eq_append, ← List.cons_append, ← List.append_assoc] at split
        rcases List.append_inj' split rfl with ⟨shorterSplit, same⟩
        cases same
        rw [List.concat_eq_append]
        by_cases keptBefore : Keep middle
        · rcases induction shorterSplit keptBefore with ⟨later, member, gained⟩
          exact ⟨later, List.mem_append_left _ member, gained⟩
        · exact ⟨⟨middle, action, final⟩, by simp, keptBefore, there⟩

/-- What holds after one step and is kept by every later one holds at the end. -/
theorem Run.keeps_from {Keep : σ → Prop} (run : Run step start events final)
    {past rest : List (Event σ α)} {event : Event σ α} (split : events = past ++ event :: rest)
    (established : Keep event.after)
    (each : ∀ later ∈ rest, Keep later.before →
      step later.action later.before later.after → Keep later.after) : Keep final := by
  by_contra gone
  have missing : ¬ ¬ Keep event.after := not_not.mpr established
  rcases run.exists_gained (fun state => ¬ Keep state) split missing gone with
    ⟨later, member, keptBefore, lost⟩
  rcases List.append_of_mem member with ⟨front, back, rfl⟩
  rw [← List.cons_append, ← List.append_assoc] at split
  exact lost (each later member (not_not.mp keptBefore) (run.upTo split).2)

/-- The state after the actions, if each of them is possible. -/
def perform (step : α → σ → Option σ) : List α → σ → Option σ
  | [], state => some state
  | action :: rest, state => (step action state).bind (perform step rest)

theorem exists_run {step : α → σ → Option σ} : ∀ {actions : List α} {start final : σ},
    perform step actions start = some final →
    ∃ events, Run (fun action before after => step action before = some after) start events final
  | [], _, _, performs => by
      cases performs
      exact ⟨[], .nothing⟩
  | action :: rest, start, final, performs => by
      rcases Option.bind_eq_some_iff.mp performs with ⟨middle, taken, later⟩
      rcases exists_run later with ⟨events, run⟩
      exact ⟨_, (Run.single taken).append run⟩

end Execution
