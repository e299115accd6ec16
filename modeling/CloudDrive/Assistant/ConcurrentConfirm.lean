import CloudDrive.Assistant.ConfirmRequests
import CloudDrive.Assistant.ConfirmationGate
import CloudDrive.Foundation.Execution

/-! # One approved workflow, executed at most once

Concurrent requests execute the steps of a pending workflow at most once, and none after
a cancellation, when a step is executed only while the committed row is pending and no
other request has executed steps that no committed status tells of. -/

namespace CloudDrive

open Outcome Relational Execution Interruption

/-! ## Execution once -/

def WorkflowEvent.step : WorkflowEvent → Option WorkflowStep
  | .executed step => some step
  | .cancelled => none

/-- The steps that were executed, oldest first. -/
def executedSteps (log : List WorkflowEvent) : List WorkflowStep :=
  (log.filterMap WorkflowEvent.step).reverse

/-- Each of the steps is executed at most once, in their order, and none of them after a
cancellation. -/
structure ExecutedOnce (steps : List WorkflowStep) (log : List WorkflowEvent) : Prop where
  once : (executedSteps log).Sublist steps
  notCancelled : log.Pairwise fun later earlier => earlier = .cancelled → later = .cancelled

section Requests

variable {ω ι : Type}

/-- The steps persisted with a workflow. -/
def persistedSteps (state : AssistantState ω) (workflowId : Uuid) : List WorkflowStep :=
  ((state.workflows.find? workflowId).bind fun row =>
    row.steps.mapM WorkflowStep.validate).getD []

def StillPending (state : AssistantState ω) (workflowId : Uuid) : Prop :=
  ∃ row, state.workflows.find? workflowId = some row ∧ row.status = .pending

instance (state : AssistantState ω) (workflowId : Uuid) :
    Decidable (StillPending state workflowId) :=
  decidable_of_iff ((state.workflows.find? workflowId).any fun row =>
    decide (row.status = .pending)) (by simp [StillPending, Option.any_eq_true])

/-- The next action of the request is a round of the loop of `execute`. -/
def WorkflowTask.IsExecuting : WorkflowTask ω → Prop
  | .executing _ _ (_ :: _) _ => True
  | _ => False

/-- A step is executed only while the committed row is pending and no other request has
executed a step that no committed status tells of. -/
def ExecutesAlone {ε : Type} (workflowId : Uuid)
    (event : Event (WorkflowWorld ι ω) (Interleaving.Move ι ε)) : Prop :=
  ∀ index, event.action = .turn index → event.before.store.refusing = false →
    (event.before.task index).IsExecuting →
    StillPending event.before.store.state workflowId ∧
      ∀ other, other ≠ index → ¬ (event.before.task other).Unsettled

instance (task : WorkflowTask ω) : Decidable task.IsExecuting :=
  match task with
  | .executing _ _ (_ :: _) _ => .isTrue trivial
  | .executing _ _ [] _ | .arriving | .starting .. | .executed .. | .marked .. | .cancelling _
  | .cancelled _ | .ended .. => .isFalse not_false

instance {ε : Type} [Fintype ι] [DecidableEq ι] (workflowId : Uuid)
    (event : Event (WorkflowWorld ι ω) (Interleaving.Move ι ε)) :
    Decidable (ExecutesAlone workflowId event) :=
  match isTurn : event.action with
  | .event _ => .isTrue fun _ same => nomatch isTurn.symm.trans same
  | .turn index =>
      decidable_of_iff (event.before.store.refusing = false →
          (event.before.task index).IsExecuting →
          StillPending event.before.store.state workflowId ∧
            ∀ other, other ≠ index → ¬ (event.before.task other).Unsettled) (by
        constructor
        · intro alone other same
          cases isTurn.symm.trans same
          exact alone
        · exact fun alone => alone index isTurn)

/-! ## What an action does -/

namespace WorkflowTask

/-- The steps that the request has still to execute. -/
def remaining : WorkflowTask ω → List WorkflowStep
  | .starting _ steps => steps
  | .executing _ _ remaining _ => remaining
  | _ => []

/-- The row that the request holds. -/
def workflow : WorkflowTask ω → Option AssistantWorkflow
  | .arriving | .ended .. => none
  | .starting workflow _ | .executing workflow .. | .executed workflow _ | .marked workflow _
  | .cancelling workflow | .cancelled workflow => some workflow

theorem holds_of_remaining (task : WorkflowTask ω) (more : task.remaining ≠ []) :
    ∃ row, row ∈ task.workflow := by
  cases task with
  | starting workflow steps => exact ⟨workflow, rfl⟩
  | executing workflow steps rest execution => exact ⟨workflow, rfl⟩
  | _ => exact absurd rfl more

end WorkflowTask

/-- An action is inverted once, for all invariants. -/
inductive Acts (workflowId : Uuid) (store after : WorkflowStore ω) (task next : WorkflowTask ω) :
    Prop where
  | starts : after = store → ¬ task.Unsettled → ¬ next.Unsettled →
      (∀ row ∈ next.workflow, store.state.workflows.find? workflowId = some row ∧
        (next.remaining ≠ [] → row.steps.mapM WorkflowStep.validate = some next.remaining)) →
      Acts workflowId store after task next
  | quiet : after.log = store.log → after.state.workflows = store.state.workflows →
      (next.Unsettled ↔ task.Unsettled) →
      (next.remaining ≠ [] → next.remaining = task.remaining) →
      (∀ row ∈ next.workflow, row ∈ task.workflow) → Acts workflowId store after task next
  | round {step : WorkflowStep} {rest : List WorkflowStep} : store.refusing = false →
      task.IsExecuting → task.remaining = step :: rest →
      after.state.workflows = store.state.workflows →
      (after.log = store.log ∨ after.log = .executed step :: store.log) →
      (¬ next.Unsettled → after.log = store.log ∧ ¬ task.Unsettled) →
      (next.remaining ≠ [] → next.Unsettled ∧ next.remaining = rest) →
      (∀ row ∈ next.workflow, row ∈ task.workflow) → Acts workflowId store after task next
  | settles {row : AssistantWorkflow} {status : WorkflowStatus} : row ∈ task.workflow →
      status ≠ .pending →
      after.state.workflows = store.state.workflows.put { row with status := status } →
      (after.log = store.log ∨ after.log = .cancelled :: store.log) → ¬ next.Unsettled →
      next.workflow = none → next.remaining = [] → Acts workflowId store after task next

variable [PythonText] {service : WorkflowService ω} {workflowId : Uuid} {action : WorkflowAction}
  {store after : WorkflowStore ω} {task next : WorkflowTask ω}

/-- A round that completes has a result. -/
theorem executeStep_results {registry : SkillRegistry ω} {hooks : HookRegistry ω}
    {userId : Uuid} {steps : List WorkflowStep} {step : WorkflowStep}
    {before final : ExecutionState ω}
    (executes : (executeStep registry hooks userId steps step before).outcome = .ok final) :
    final.results ≠ [] := by
  rw [executeStep] at executes
  split at executes
  · cases executes
    exact List.append_ne_nil_of_right_ne_nil _ (List.cons_ne_nil _ _)
  · simp only [Work.outcome_bind, bind_eq_ok] at executes
    rcases executes with ⟨world, _, ⟨answer, later⟩, _, executes⟩
    cases answer with
    | error message =>
        simp only [Work.outcome_bind, bind_eq_ok] at executes
        rcases executes with ⟨_, _, executes⟩
        cases executes
        exact List.append_ne_nil_of_right_ne_nil _ (List.cons_ne_nil _ _)
    | ok output =>
        simp only [Work.outcome_bind, bind_eq_ok] at executes
        rcases executes with ⟨_, _, executes⟩
        cases executes
        exact List.append_ne_nil_of_right_ne_nil _ (List.cons_ne_nil _ _)

omit [PythonText] in
theorem find?_pending {state : AssistantState ω} {userId : Uuid} {row : AssistantWorkflow}
    (found : state.find? userId workflowId .pending = some row) :
    state.workflows.find? workflowId = some row :=
  (Option.filter_eq_some_iff.mp found).1

omit [PythonText] in
theorem start_acts :
    Acts workflowId store store .arriving (action.start workflowId store.state) := by
  cases action with
  | confirm userId =>
      rw [WorkflowAction.start]
      split
      · exact .starts rfl not_false Bool.false_ne_true fun _ holds => by cases holds
      · rename_i workflow found
        split
        · exact .starts rfl not_false Bool.false_ne_true fun _ holds => by cases holds
        · rename_i steps reads
          have holds : ∀ row ∈ (WorkflowTask.starting workflow steps : WorkflowTask ω).workflow,
              store.state.workflows.find? workflowId = some row ∧
                (steps ≠ [] → row.steps.mapM WorkflowStep.validate = some steps) := by
            intro row holds
            cases holds
            exact ⟨find?_pending found, fun _ => reads⟩
          exact .starts rfl not_false not_false holds
  | cancel userId =>
      rw [WorkflowAction.start]
      split
      · exact .starts rfl not_false Bool.false_ne_true fun _ holds => by cases holds
      · rename_i workflow found
        have holds : ∀ row ∈ (WorkflowTask.cancelling workflow : WorkflowTask ω).workflow,
            store.state.workflows.find? workflowId = some row ∧
              (([] : List WorkflowStep) ≠ [] →
                row.steps.mapM WorkflowStep.validate = some []) := by
          intro row holds
          cases holds
          exact ⟨find?_pending found, fun more => absurd rfl more⟩
        exact .starts rfl not_false not_false holds

theorem round_acts {workflow : AssistantWorkflow} {steps rest : List WorkflowStep}
    {step : WorkflowStep} {execution : ExecutionState ω} (works : store.refusing = false)
    (round : service.round workflow steps rest step execution store = (after, next)) :
    Acts workflowId store after (.executing workflow steps (step :: rest) execution) next := by
  rw [WorkflowService.round] at round
  generalize isWork : executeStep service.registry service.hooks workflow.userId steps step
    { execution with world := store.state.world } = work at round
  have logged : (if work.commands.isEmpty then store.log else .executed step :: store.log) =
      store.log ∨ (if work.commands.isEmpty then store.log else .executed step :: store.log) =
        .executed step :: store.log := by
    cases work.commands.isEmpty
    · exact .inr rfl
    · exact .inl rfl
  cases outcome : work.outcome with
  | error error =>
      simp only [outcome, Prod.mk.injEq] at round
      rcases round with ⟨rfl, rfl⟩
      apply Acts.round works
      · exact trivial
      · rfl
      · rfl
      · exact logged
      · intro settled
        simp only [WorkflowTask.Unsettled, Bool.or_eq_true, Bool.not_eq_true', not_or,
          Bool.not_eq_false, List.isEmpty_iff] at settled
        simp [settled.1, settled.2, WorkflowTask.Unsettled]
      · exact fun more => absurd rfl more
      · exact fun _ holds => by cases holds
  | ok final =>
      simp only [outcome, Prod.mk.injEq] at round
      rcases round with ⟨rfl, rfl⟩
      have results : final.results ≠ [] := executeStep_results (isWork ▸ outcome)
      apply Acts.round works
      · exact trivial
      · rfl
      · rfl
      · exact logged
      · exact fun settled => absurd results settled
      · exact fun _ => ⟨results, rfl⟩
      · exact fun _ holds => holds

theorem WorkflowAction.work_acts (works : store.refusing = false)
    (acts : action.work service workflowId store task = some (after, next)) :
    Acts workflowId store after task next := by
  cases task with
  | arriving =>
      cases acts
      exact start_acts
  | starting workflow steps =>
      simp only [work, WorkflowService.begin, Option.some.injEq] at acts
      split at acts
      · cases acts
        exact .quiet rfl rfl (by simp [WorkflowTask.Unsettled]) (fun more => absurd rfl more)
          fun _ holds => by cases holds
      · cases acts
        exact .quiet rfl rfl (by simp [WorkflowTask.Unsettled]) (fun _ => rfl) fun _ holds => holds
  | executing workflow steps remaining execution =>
      cases remaining with
      | nil =>
          cases acts
          exact .quiet rfl rfl .rfl (fun more => absurd rfl more) fun _ holds => holds
      | cons step rest => exact round_acts works (Option.some.inj acts)
  | executed workflow results =>
      simp only [work, WorkflowService.mark] at acts
      split_ifs at acts
      cases acts
      exact .quiet rfl rfl .rfl (fun more => absurd rfl more) fun _ holds => holds
  | marked workflow results =>
      cases acts
      exact .settles rfl WorkflowStatus.noConfusion rfl (.inl rfl) Bool.false_ne_true rfl rfl
  | cancelling workflow =>
      simp only [work, WorkflowService.mark] at acts
      split_ifs at acts
      cases acts
      exact .quiet rfl rfl .rfl (fun more => absurd rfl more) fun _ holds => holds
  | cancelled workflow =>
      cases acts
      exact .settles rfl WorkflowStatus.noConfusion rfl (.inr rfl) Bool.false_ne_true rfl rfl
  | ended => cases acts

omit [PythonText] in
theorem WorkflowTask.fail_acts (fails : task.fail store = some (after, next)) :
    Acts workflowId store after task next := by
  have isNext : next = .ended (decide task.Unsettled) (.error (.app .integrityError)) ∧
      after.log = store.log ∧ after.state = store.state := by
    cases task <;> cases fails <;> exact ⟨rfl, rfl, rfl⟩
  rcases isNext with ⟨rfl, log, state⟩
  apply Acts.quiet log (by rw [state])
  · exact decide_eq_true_iff
  · exact fun more => absurd rfl more
  · exact fun _ holds => by cases holds

theorem WorkflowAction.acts
    (acts : action.act service workflowId store task = some (after, next)) :
    Acts workflowId store after task next := by
  rw [act] at acts
  split_ifs at acts with refuses
  · exact WorkflowTask.fail_acts acts
  · exact work_acts (Bool.eq_false_iff.mpr refuses) acts

/-! ## A run -/

omit [PythonText] in
/-- After `set_status` the row has that status. -/
theorem not_stillPending_of_put {state before : AssistantState ω} {row : AssistantWorkflow}
    {status : WorkflowStatus} (isRow : row.id = workflowId) (ends : status ≠ .pending)
    (workflows : state.workflows = before.workflows.put { row with status := status }) :
    ¬ StillPending state workflowId := by
  intro pending
  rcases pending with ⟨found, isFound, isPending⟩
  rcases Table.find?_eq_some.mp isFound with ⟨member, sameId⟩
  rw [workflows] at member
  rcases Table.mem_put.mp member with ⟨rfl, _⟩ | ⟨_, different⟩
  · exact ends isPending
  · exact different (sameId.trans isRow.symm)

/-- What a run keeps. At most one request has executed steps that no committed status
tells of, and it goes on where it stopped. -/
structure OnceKept (start : AssistantState ω) (workflowId : Uuid) (world : WorkflowWorld ι ω) :
    Prop where
  once : ExecutedOnce (persistedSteps start workflowId) world.store.log
  final : .cancelled ∈ world.store.log → ¬ StillPending world.store.state workflowId
  row : ∀ row, world.store.state.workflows.find? workflowId = some row →
    ∃ first, start.workflows.find? workflowId = some first ∧ row.steps = first.steps
  holds : ∀ index, ∀ row ∈ (world.task index).workflow, row.id = workflowId ∧
    ∃ first, start.workflows.find? workflowId = some first ∧ row.steps = first.steps
  fresh : ∀ index, ¬ (world.task index).Unsettled → (world.task index).remaining ≠ [] →
    (world.task index).remaining = persistedSteps start workflowId
  alone : ∀ index, (world.task index).Unsettled →
    (executedSteps world.store.log ++ (world.task index).remaining).Sublist
        (persistedSteps start workflowId) ∧
      ∀ other, other ≠ index → ¬ (world.task other).Unsettled
  settled : StillPending world.store.state workflowId →
    (∀ index, ¬ (world.task index).Unsettled) → executedSteps world.store.log = []

omit [PythonText] in
theorem confirmsArrive_kept (state : AssistantState ω) :
    OnceKept state workflowId (confirmsArrive state : WorkflowWorld ι ω) := by
  constructor
  case once => exact ⟨List.nil_sublist _, .nil⟩
  case final => exact fun none => nomatch none
  case row => exact fun row found => ⟨row, found, rfl⟩
  case holds => exact fun _ _ holds => nomatch holds
  case fresh => exact fun _ _ more => absurd rfl more
  case alone => exact fun _ unsettled => unsettled.elim
  case settled => exact fun _ _ => rfl

section Step

variable [DecidableEq ι] {start : AssistantState ω} {before world : WorkflowWorld ι ω} {index : ι}

omit [PythonText] in
theorem executedSteps_cons (step : WorkflowStep) (log : List WorkflowEvent) :
    executedSteps (.executed step :: log) = executedSteps log ++ [step] := by
  simp [executedSteps, WorkflowEvent.step]

omit [PythonText] in
/-- The rows that requests hold, after a step. -/
theorem OnceKept.holds_after (kept : OnceKept start workflowId before)
    (others : ∀ other, other ≠ index → world.task other = before.task other)
    (here : ∀ row ∈ (world.task index).workflow, row ∈ (before.task index).workflow) :
    ∀ any, ∀ row ∈ (world.task any).workflow, row.id = workflowId ∧
      ∃ first, start.workflows.find? workflowId = some first ∧ row.steps = first.steps := by
  intro any row holds
  by_cases same : any = index
  · rw [same] at holds
    exact kept.holds index row (here row holds)
  · rw [others any same] at holds
    exact kept.holds any row holds

omit [PythonText] in
/-- A step that executes nothing and of which no request is less settled than before. -/
theorem OnceKept.calm (kept : OnceKept start workflowId before)
    (others : ∀ other, other ≠ index → world.task other = before.task other)
    (executed : executedSteps world.store.log = executedSteps before.store.log)
    (unsettled : (world.task index).Unsettled → (before.task index).Unsettled)
    (remaining : (world.task index).Unsettled →
      (world.task index).remaining.Sublist (before.task index).remaining) :
    ∀ any, (world.task any).Unsettled →
      (executedSteps world.store.log ++ (world.task any).remaining).Sublist
          (persistedSteps start workflowId) ∧
        ∀ other, other ≠ any → ¬ (world.task other).Unsettled := by
  have earlier : ∀ any, (world.task any).Unsettled → (before.task any).Unsettled := by
    intro any isUnsettled
    by_cases same : any = index
    · rw [same] at isUnsettled ⊢
      exact unsettled isUnsettled
    · exact others any same ▸ isUnsettled
  intro any isUnsettled
  rcases kept.alone any (earlier any isUnsettled) with ⟨sublist, onlyOne⟩
  constructor
  · rw [executed]
    by_cases same : any = index
    · rw [same] at isUnsettled sublist ⊢
      exact ((remaining isUnsettled).append_left _).trans sublist
    · rw [others any same]
      exact sublist
  · exact fun other different later => onlyOne other different (earlier other later)

omit [PythonText] in
theorem OnceKept.starts (kept : OnceKept start workflowId before)
    (others : ∀ other, other ≠ index → world.task other = before.task other)
    (sameStore : world.store = before.store) (settledBefore : ¬ (before.task index).Unsettled)
    (settledAfter : ¬ (world.task index).Unsettled)
    (found : ∀ row ∈ (world.task index).workflow,
      before.store.state.workflows.find? workflowId = some row ∧
      ((world.task index).remaining ≠ [] →
        row.steps.mapM WorkflowStep.validate = some (world.task index).remaining)) :
    OnceKept start workflowId world := by
  constructor
  case once => exact sameStore ▸ kept.once
  case final => exact sameStore ▸ kept.final
  case row => exact sameStore ▸ kept.row
  case holds =>
    intro any row holds
    by_cases same : any = index
    · rw [same] at holds
      have isRow := (found row holds).1
      exact ⟨(Table.find?_eq_some.mp isRow).2, kept.row row isRow⟩
    · rw [others any same] at holds
      exact kept.holds any row holds
  case fresh =>
    intro any isSettled more
    by_cases same : any = index
    · rw [same] at more ⊢
      rcases (world.task index).holds_of_remaining more with ⟨row, holds⟩
      rcases found row holds with ⟨isRow, reads⟩
      rcases kept.row row isRow with ⟨first, isFirst, sameSteps⟩
      rw [persistedSteps, isFirst, Option.bind_some, ← sameSteps, reads more, Option.getD_some]
    · rw [others any same] at isSettled more ⊢
      exact kept.fresh any isSettled more
  case alone =>
    exact kept.calm others (by rw [sameStore]) (fun now => absurd now settledAfter)
      fun now => absurd now settledAfter
  case settled =>
    intro pending allSettled
    rw [sameStore] at pending ⊢
    apply kept.settled pending
    intro any
    by_cases same : any = index
    · exact same ▸ settledBefore
    · exact others any same ▸ allSettled any

omit [PythonText] in
theorem OnceKept.quiet (kept : OnceKept start workflowId before)
    (others : ∀ other, other ≠ index → world.task other = before.task other)
    (log : world.store.log = before.store.log)
    (workflows : world.store.state.workflows = before.store.state.workflows)
    (unsettled : (world.task index).Unsettled ↔ (before.task index).Unsettled)
    (remaining : (world.task index).remaining ≠ [] →
      (world.task index).remaining = (before.task index).remaining)
    (held : ∀ row ∈ (world.task index).workflow, row ∈ (before.task index).workflow) :
    OnceKept start workflowId world := by
  constructor
  case once => exact log ▸ kept.once
  case final =>
    rw [log, StillPending, workflows]
    exact kept.final
  case row => exact workflows ▸ kept.row
  case holds => exact kept.holds_after others held
  case fresh =>
    intro any isSettled more
    by_cases same : any = index
    · rw [same] at isSettled more ⊢
      have goesOn := remaining more
      rw [goesOn] at more ⊢
      exact kept.fresh index (mt unsettled.mpr isSettled) more
    · rw [others any same] at isSettled more ⊢
      exact kept.fresh any isSettled more
  case alone =>
    apply kept.calm others (by rw [log]) unsettled.mp
    intro _
    by_cases more : (world.task index).remaining = []
    · rw [more]
      exact List.nil_sublist _
    · exact remaining more ▸ .refl _
  case settled =>
    intro pending allSettled
    rw [StillPending, workflows] at pending
    rw [log]
    apply kept.settled pending
    intro any
    by_cases same : any = index
    · exact same ▸ mt unsettled.mpr (allSettled index)
    · exact others any same ▸ allSettled any

omit [PythonText] in
theorem OnceKept.settles (kept : OnceKept start workflowId before)
    (others : ∀ other, other ≠ index → world.task other = before.task other)
    {row : AssistantWorkflow} {status : WorkflowStatus} (held : row ∈ (before.task index).workflow)
    (ends : status ≠ .pending)
    (workflows : world.store.state.workflows =
      before.store.state.workflows.put { row with status := status })
    (log : world.store.log = before.store.log ∨
      world.store.log = .cancelled :: before.store.log)
    (settledAfter : ¬ (world.task index).Unsettled)
    (noWorkflow : (world.task index).workflow = none)
    (nothing : (world.task index).remaining = []) : OnceKept start workflowId world := by
  have isRow := kept.holds index row held
  have notPending : ¬ StillPending world.store.state workflowId :=
    not_stillPending_of_put isRow.1 ends workflows
  have executed : executedSteps world.store.log = executedSteps before.store.log := by
    rcases log with same | cancels
    · rw [same]
    · rw [cancels]
      rfl
  constructor
  case once =>
    rcases log with same | cancels
    · exact same ▸ kept.once
    · apply ExecutedOnce.mk
      · exact executed ▸ kept.once.once
      · rw [cancels]
        exact .cons (fun _ _ _ => rfl) kept.once.notCancelled
  case final => exact fun _ => notPending
  case row =>
    intro found isFound
    rcases Table.find?_eq_some.mp isFound with ⟨member, sameId⟩
    rw [workflows] at member
    rcases Table.mem_put.mp member with ⟨rfl, _⟩ | ⟨before, _⟩
    · exact isRow.2
    · exact kept.row found (Table.find?_eq_some.mpr ⟨before, sameId⟩)
  case holds =>
    apply kept.holds_after others
    rw [noWorkflow]
    exact fun _ holds => by cases holds
  case fresh =>
    intro any isSettled more
    by_cases same : any = index
    · rw [same] at more
      exact absurd nothing more
    · rw [others any same] at isSettled more ⊢
      exact kept.fresh any isSettled more
  case alone =>
    exact kept.calm others executed (fun now => absurd now settledAfter)
      fun now => absurd now settledAfter
  case settled => exact fun pending => absurd pending notPending

omit [PythonText] in
theorem OnceKept.round (kept : OnceKept start workflowId before)
    (others : ∀ other, other ≠ index → world.task other = before.task other)
    {step : WorkflowStep} {rest : List WorkflowStep}
    (isNext : (before.task index).remaining = step :: rest)
    (workflows : world.store.state.workflows = before.store.state.workflows)
    (log : world.store.log = before.store.log ∨
      world.store.log = .executed step :: before.store.log)
    (nothing : ¬ (world.task index).Unsettled →
      world.store.log = before.store.log ∧ ¬ (before.task index).Unsettled)
    (goesOn : (world.task index).remaining ≠ [] →
      (world.task index).Unsettled ∧ (world.task index).remaining = rest)
    (held : ∀ row ∈ (world.task index).workflow, row ∈ (before.task index).workflow)
    (pending : StillPending before.store.state workflowId)
    (onlyOne : ∀ other, other ≠ index → ¬ (before.task other).Unsettled) :
    OnceKept start workflowId world := by
  have notCancelled : .cancelled ∉ before.store.log := fun cancelled =>
    kept.final cancelled pending
  -- This request has executed all that was executed, or nothing was.
  have left : (executedSteps before.store.log ++ step :: rest).Sublist
      (persistedSteps start workflowId) := by
    by_cases unsettled : (before.task index).Unsettled
    · exact isNext ▸ (kept.alone index unsettled).1
    · have nothingYet : executedSteps before.store.log = [] := by
        apply kept.settled pending
        intro any
        by_cases same : any = index
        · exact same ▸ unsettled
        · exact onlyOne any same
      have all := kept.fresh index unsettled (isNext ▸ List.cons_ne_nil _ _)
      rw [nothingYet, List.nil_append, ← isNext, all]
  have leftAfter : (executedSteps world.store.log ++ rest).Sublist
      (persistedSteps start workflowId) := by
    rcases log with same | executes
    · rw [same]
      exact ((List.sublist_cons_self step rest).append_left _).trans left
    · rw [executes, executedSteps_cons, List.append_assoc, List.singleton_append]
      exact left
  constructor
  case once =>
    constructor
    case once => exact (List.sublist_append_left _ rest).trans leftAfter
    case notCancelled =>
      rcases log with same | executes
      · exact same ▸ kept.once.notCancelled
      · rw [executes]
        apply List.Pairwise.cons _ kept.once.notCancelled
        intro earlier member cancelled
        exact absurd (cancelled ▸ member) notCancelled
  case final =>
    intro cancelled
    rcases log with same | executes
    · exact absurd (same ▸ cancelled) notCancelled
    · rw [executes] at cancelled
      rcases List.mem_cons.mp cancelled with now | before
      · cases now
      · exact absurd before notCancelled
  case row => exact workflows ▸ kept.row
  case holds => exact kept.holds_after others held
  case fresh =>
    intro any isSettled more
    by_cases same : any = index
    · rw [same] at isSettled more
      exact absurd (goesOn more).1 isSettled
    · rw [others any same] at isSettled more ⊢
      exact kept.fresh any isSettled more
  case alone =>
    intro any unsettled
    by_cases same : any = index
    · rw [same]
      constructor
      · by_cases more : (world.task index).remaining = []
        · rw [more, List.append_nil]
          exact (List.sublist_append_left _ rest).trans leftAfter
        · exact (goesOn more).2 ▸ leftAfter
      · intro other different
        exact others other different ▸ onlyOne other different
    · rw [others any same] at unsettled
      exact absurd unsettled (onlyOne any same)
  case settled =>
    intro _ allSettled
    rcases nothing (allSettled index) with ⟨same, settledBefore⟩
    rw [same]
    apply kept.settled pending
    intro any
    by_cases isThis : any = index
    · exact isThis ▸ settledBefore
    · exact onlyOne any isThis

omit [PythonText] in
theorem OnceKept.turn (kept : OnceKept start workflowId before)
    (others : ∀ other, other ≠ index → world.task other = before.task other)
    (acts : Acts workflowId before.store world.store (before.task index) (world.task index))
    (alone : before.store.refusing = false → (before.task index).IsExecuting →
      StillPending before.store.state workflowId ∧
        ∀ other, other ≠ index → ¬ (before.task other).Unsettled) :
    OnceKept start workflowId world := by
  cases acts with
  | starts sameStore settledBefore settledAfter found =>
      exact kept.starts others sameStore settledBefore settledAfter found
  | quiet log workflows unsettled remaining held =>
      exact kept.quiet others log workflows unsettled remaining held
  | round works executing isNext workflows log nothing goesOn held =>
      rcases alone works executing with ⟨pending, onlyOne⟩
      exact kept.round others isNext workflows log nothing goesOn held pending onlyOne
  | settles held ends workflows log settledAfter noWorkflow nothing =>
      exact kept.settles others held ends workflows log settledAfter noWorkflow nothing

omit [PythonText] [DecidableEq ι] in
theorem OnceKept.change (kept : OnceKept start workflowId before)
    (tasks : world.task = before.task) (log : world.store.log = before.store.log)
    (workflows : world.store.state.workflows = before.store.state.workflows) :
    OnceKept start workflowId world := by
  constructor
  case once => exact log ▸ kept.once
  case final =>
    rw [log, StillPending, workflows]
    exact kept.final
  case row => exact workflows ▸ kept.row
  case holds => exact tasks ▸ kept.holds
  case fresh => exact tasks ▸ kept.fresh
  case alone =>
    rw [tasks, log]
    exact kept.alone
  case settled =>
    rw [tasks, log, StillPending, workflows]
    exact kept.settled

end Step

/-- As long as a step is executed only while the committed row is pending and no other
request has executed steps that no committed status tells of, every step of the workflow
is executed at most once, and none after a cancellation, whatever the interleaving. -/
theorem executedOnce_of_alone [DecidableEq ι] {state : AssistantState ω}
    {actions : ι → WorkflowAction}
    {events : List (Event (WorkflowWorld ι ω) (Interleaving.Move ι (WorkflowChange ω)))}
    {final : WorkflowWorld ι ω}
    (runs : (workflowRequests service workflowId actions).Runs (confirmsArrive state) events final)
    (alone : ∀ event ∈ events, ExecutesAlone workflowId event) :
    ExecutedOnce (persistedSteps state workflowId) final.store.log := by
  have kept : OnceKept state workflowId final := by
    apply runs.keeps (confirmsArrive_kept state)
    intro event member kept step
    rcases step.cases with ⟨index, isTurn, acts, others⟩ | ⟨change, _, happens, tasks⟩
    · exact kept.turn others (WorkflowAction.acts acts) (alone event member index isTurn)
    · have same : event.after.store.log = event.before.store.log ∧
          event.after.store.state.workflows = event.before.store.state.workflows := by
        cases change <;> rw [← Option.some.inj happens] <;> exact ⟨rfl, rfl⟩
      exact kept.change tasks same.1 same.2
  exact kept.once

end Requests

/-! ## Two confirmations of one workflow -/

section TwoConfirmations

attribute [local instance] smallPythonText

/-- A workflow of one step, which is pending. -/
private def shareStep : WorkflowStep :=
  ⟨0, "share_item", [("item_id", .string "a")], [], "write", true⟩

private def shareService : WorkflowService Unit where
  registry := ⟨[{
    name := "share_item"
    permissionTier := "write"
    requiresSelection := false
    handler := fun _ arguments world => (.ok (.object arguments), world) }],
    List.nodup_singleton _⟩
  hooks _ _ world := .ok world
  twoPhasePlanning := true

private def sharePending : AssistantState Unit where
  workflows := ⟨[⟨3, 1, 2, "share a", [shareStep.dump], .pending, none⟩], List.nodup_singleton _⟩
  runs := []
  world := ()

private def bothConfirm (_ : Bool) : WorkflowAction := .confirm 1

/-- The second request cancels. -/
private def confirmAndCancel : Bool → WorkflowAction
  | true => .confirm 1
  | false => .cancel 1

private abbrev ShareMove := Interleaving.Move Bool (WorkflowChange Unit)

private def confirmInTurn : List ShareMove := List.replicate 6 (.turn true) ++ [.turn false]

private def confirmsBothRead : List ShareMove :=
  List.replicate 2 (.turn true) ++ List.replicate 2 (.turn false) ++ [.turn true, .turn false]

private def cancelBeforeStep : List ShareMove :=
  List.replicate 2 (.turn true) ++ List.replicate 3 (.turn false) ++ [.turn true]

private def playedConfirms (actions : Bool → WorkflowAction) (moves : List ShareMove) :
    WorkflowWorld Bool Unit :=
  ((workflowRequests shareService 3 actions).play moves (confirmsArrive sharePending)).getD
    (confirmsArrive sharePending)

theorem executedOnce_of_alone_inTurn :
    ∃ events final, (workflowRequests shareService 3 bothConfirm).Runs
        (confirmsArrive sharePending) events final ∧
      ExecutedOnce (persistedSteps sharePending 3) final.store.log ∧
      (executedSteps final.store.log).map WorkflowStep.skill = ["share_item"] := by
  have played : (workflowRequests shareService 3 bothConfirm).play confirmInTurn
      (confirmsArrive sharePending) = some (playedConfirms bothConfirm confirmInTurn) := rfl
  have runs := Interleaving.Tasks.runs_of_play played
  have alone : ∀ event ∈ (workflowRequests shareService 3 bothConfirm).trace confirmInTurn
      (confirmsArrive sharePending), ExecutesAlone 3 event := by decide
  exact ⟨_, _, runs, executedOnce_of_alone runs alone, by decide⟩

/-- The step is executed by both confirmations, and after the cancellation. -/
theorem bothRead_twice :
    (∃ events final, (workflowRequests shareService 3 bothConfirm).Runs
        (confirmsArrive sharePending) events final ∧
      ¬ ExecutedOnce (persistedSteps sharePending 3) final.store.log) ∧
    ∃ events final, (workflowRequests shareService 3 confirmAndCancel).Runs
        (confirmsArrive sharePending) events final ∧
      ¬ ExecutedOnce (persistedSteps sharePending 3) final.store.log := by
  constructor
  · have played : (workflowRequests shareService 3 bothConfirm).play confirmsBothRead
        (confirmsArrive sharePending) = some (playedConfirms bothConfirm confirmsBothRead) := rfl
    apply Exists.intro _
    apply Exists.intro (playedConfirms bothConfirm confirmsBothRead)
    apply And.intro (Interleaving.Tasks.runs_of_play played)
    intro once
    exact absurd once.once.length_le (by decide)
  · have played : (workflowRequests shareService 3 confirmAndCancel).play cancelBeforeStep
        (confirmsArrive sharePending) = some (playedConfirms confirmAndCancel cancelBeforeStep) := rfl
    apply Exists.intro _
    apply Exists.intro (playedConfirms confirmAndCancel cancelBeforeStep)
    apply And.intro (Interleaving.Tasks.runs_of_play played)
    intro once
    have log : (playedConfirms confirmAndCancel cancelBeforeStep).store.log =
        [.executed shareStep, .cancelled] := rfl
    have ordered := once.notCancelled
    rw [log] at ordered
    exact nomatch (List.pairwise_cons.mp ordered).1 .cancelled List.mem_cons_self rfl

end TwoConfirmations

end CloudDrive
