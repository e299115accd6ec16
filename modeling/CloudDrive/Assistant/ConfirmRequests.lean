import CloudDrive.Assistant.WorkflowService
import CloudDrive.Foundation.Interleaving

/-! # Requests on one pending workflow

Requests to confirm or cancel one workflow, statement by statement and step by step.
Each looks for the pending row when it starts. What a step does may be seen at once;
the status is written last and takes effect with the commit, which the update of the
row makes others wait for. -/

namespace CloudDrive

open Outcome Relational Interruption

/-! ## The requests -/

inductive WorkflowAction where
  | confirm (userId : Uuid)
  | cancel (userId : Uuid)

/-- A step of the workflow was executed, or a cancellation was acknowledged. -/
inductive WorkflowEvent where
  | executed (step : WorkflowStep)
  | cancelled

/-- What is committed, whether a transaction has updated the row and not ended, whether
the database refuses to work, and what has happened so far, latest first. -/
structure WorkflowStore (ω : Type) where
  state : AssistantState ω
  locked : Bool
  refusing : Bool
  log : List WorkflowEvent

/-- How far a request has come. A request that ended has `lost` steps when its
transaction was rolled back after steps were executed. -/
inductive WorkflowTask (ω : Type) where
  | arriving
  | starting (workflow : AssistantWorkflow) (steps : List WorkflowStep)
  | executing (workflow : AssistantWorkflow) (steps remaining : List WorkflowStep)
      (execution : ExecutionState ω)
  | executed (workflow : AssistantWorkflow) (results : List StepResult)
  | marked (workflow : AssistantWorkflow) (results : List StepResult)
  | cancelling (workflow : AssistantWorkflow)
  | cancelled (workflow : AssistantWorkflow)
  | ended (lost : Bool) (result : Except AssistantError ConfirmResponse)

namespace WorkflowTask

variable {ω : Type}

/-- The request has executed a step, and no status that says so is committed. -/
def Unsettled : WorkflowTask ω → Prop
  | .executing _ _ _ execution => execution.results ≠ []
  | .executed _ results | .marked _ results => results ≠ []
  | .ended lost _ => lost = true
  | _ => False

instance (task : WorkflowTask ω) : Decidable task.Unsettled :=
  match task with
  | .executing _ _ _ execution => inferInstanceAs (Decidable (execution.results ≠ []))
  | .executed _ results | .marked _ results => inferInstanceAs (Decidable (results ≠ []))
  | .ended lost _ => inferInstanceAs (Decidable (lost = true))
  | .arriving | .starting .. | .cancelling _ | .cancelled _ => .isFalse not_false

/-- The request has updated the row. -/
def holdsRow : WorkflowTask ω → Bool
  | .marked .. | .cancelled .. => true
  | _ => false

end WorkflowTask

/-! ## What they do -/

section Requests

variable [PythonText] {ω : Type}

omit [PythonText] in
/-- `get_pending` and the steps of the row it finds. -/
def WorkflowAction.start (action : WorkflowAction) (workflowId : Uuid)
    (state : AssistantState ω) : WorkflowTask ω :=
  let missing : AssistantError := .app (.notFound "Pending workflow not found")
  match action with
  | .confirm userId =>
      match state.find? userId workflowId .pending with
      | none => .ended false (.error missing)
      | some workflow =>
          match workflow.steps.mapM WorkflowStep.validate with
          | none => .ended false (.error .validation)
          | some steps => .starting workflow steps
  | .cancel userId =>
      match state.find? userId workflowId .pending with
      | none => .ended false (.error missing)
      | some workflow => .cancelling workflow

namespace WorkflowService

/-- `before_execution`. -/
def begin (service : WorkflowService ω) (workflow : AssistantWorkflow)
    (steps : List WorkflowStep) (store : WorkflowStore ω) : WorkflowStore ω × WorkflowTask ω :=
  match (service.hooks.fire .beforeExecution ⟨workflow.userId, steps, none, none, none⟩
      store.state.world).outcome with
  | .error error => (store, .ended false (.error error))
  | .ok world =>
      ({ store with state := store.state.withWorld world },
        .executing workflow steps steps ⟨[], [], world⟩)

/-- One round of the loop of `execute`, in the world as it is now. -/
def round (service : WorkflowService ω) (workflow : AssistantWorkflow)
    (steps remaining : List WorkflowStep) (step : WorkflowStep) (execution : ExecutionState ω)
    (store : WorkflowStore ω) : WorkflowStore ω × WorkflowTask ω :=
  let work := executeStep service.registry service.hooks workflow.userId steps step
    { execution with world := store.state.world }
  let log := if work.commands.isEmpty then store.log else .executed step :: store.log
  match work.outcome with
  | .error error =>
      ({ store with log := log },
        .ended (!execution.results.isEmpty || !work.commands.isEmpty) (.error error))
  | .ok execution =>
      ({ store with state := store.state.withWorld execution.world, log := log },
        .executing workflow steps remaining execution)

omit [PythonText] in
/-- `set_status` locks the row. -/
def mark (store : WorkflowStore ω) (next : WorkflowTask ω) :
    Option (WorkflowStore ω × WorkflowTask ω) :=
  if store.locked then none else some ({ store with locked := true }, next)

omit [PythonText] in
def confirmed (workflow : AssistantWorkflow) (results : List StepResult) : ConfirmResponse :=
  let message := if results.all StepResult.ok then "Workflow executed."
    else composeFailureMessage results false
  ⟨workflow.id, "executed", message, results, some workflow.sessionId⟩

omit [PythonText] in
def commitConfirm (workflow : AssistantWorkflow) (results : List StepResult)
    (state : AssistantState ω) : AssistantState ω :=
  (state.setStatus workflow .executed).recordRun workflow.userId (some workflow.id)
    workflow.sourceNl results

end WorkflowService

open WorkflowService

/-- The next action of a request while the database works. -/
def WorkflowAction.work (service : WorkflowService ω) (workflowId : Uuid)
    (action : WorkflowAction) (store : WorkflowStore ω) :
    WorkflowTask ω → Option (WorkflowStore ω × WorkflowTask ω)
  | .arriving => some (store, action.start workflowId store.state)
  | .starting workflow steps => some (service.begin workflow steps store)
  | .executing workflow steps (step :: remaining) execution =>
      some (service.round workflow steps remaining step execution store)
  | .executing workflow _ [] execution => some (store, .executed workflow execution.results)
  | .executed workflow results => mark store (.marked workflow results)
  | .marked workflow results =>
      some ({ store with state := commitConfirm workflow results store.state, locked := false },
        .ended false (.ok (confirmed workflow results)))
  | .cancelling workflow => mark store (.cancelled workflow)
  | .cancelled workflow =>
      some ({ store with
          state := store.state.setStatus workflow .cancelled
          locked := false
          log := .cancelled :: store.log },
        .ended false (.ok ⟨workflow.id, "cancelled", "Workflow cancelled.", [], none⟩))
  | .ended .. => none

omit [PythonText] in
/-- A request whose transaction fails, which is rolled back. -/
def WorkflowTask.fail (task : WorkflowTask ω) (store : WorkflowStore ω) :
    Option (WorkflowStore ω × WorkflowTask ω) :=
  match task with
  | .ended .. => none
  | task =>
      some ({ store with locked := store.locked && !task.holdsRow },
        .ended (decide task.Unsettled) (.error (.app .integrityError)))

def WorkflowAction.act (service : WorkflowService ω) (workflowId : Uuid)
    (action : WorkflowAction) (store : WorkflowStore ω) (task : WorkflowTask ω) :
    Option (WorkflowStore ω × WorkflowTask ω) :=
  if store.refusing then task.fail store else action.work service workflowId store task

/-- Others change the world, or the database begins or ceases to refuse. -/
inductive WorkflowChange (ω : Type) where
  | world (world : ω)
  | refusing (refusing : Bool)

abbrev WorkflowWorld (ι ω : Type) := Interleaving.World ι (WorkflowStore ω) (WorkflowTask ω)

def workflowRequests {ι : Type} (service : WorkflowService ω) (workflowId : Uuid)
    (actions : ι → WorkflowAction) :
    Interleaving.Tasks ι (WorkflowStore ω) (WorkflowTask ω) (WorkflowChange ω) where
  act index := (actions index).act service workflowId
  happen change store :=
    match change with
    | .world world => some { store with state := store.state.withWorld world }
    | .refusing refusing => some { store with refusing := refusing }

omit [PythonText] in
def confirmsArrive {ι : Type} (state : AssistantState ω) : WorkflowWorld ι ω where
  store := ⟨state, false, false, []⟩
  task _ := .arriving

/-! ## A request alone -/

section Alone

variable {ι : Type} {service : WorkflowService ω} {workflowId userId : Uuid}
  {actions : ι → WorkflowAction} {index : ι} {workflow : AssistantWorkflow}
  {steps : List WorkflowStep}

theorem act_works {action : WorkflowAction} {store : WorkflowStore ω} {task : WorkflowTask ω}
    (works : store.refusing = false) :
    action.act service workflowId store task = action.work service workflowId store task := by
  simp [WorkflowAction.act, works]

theorem round_ok (remaining : List WorkflowStep) {step : WorkflowStep}
    {execution after : ExecutionState ω} {store : WorkflowStore ω}
    (executes : (executeStep service.registry service.hooks workflow.userId steps step
      { execution with world := store.state.world }).outcome = .ok after) :
    ∃ log, service.round workflow steps remaining step execution store =
      ({ store with state := store.state.withWorld after.world, log := log },
        .executing workflow steps remaining after) := by
  rw [WorkflowService.round, executes]
  exact ⟨_, rfl⟩

/-- The rounds of the loop, one after the other. -/
theorem rounds_alone {remaining : List WorkflowStep} : ∀ {execution final : ExecutionState ω}
    {store : WorkflowStore ω},
    (Work.forEach (executeStep service.registry service.hooks workflow.userId steps) remaining
      execution).outcome = .ok final →
    store.refusing = false → store.state.world = execution.world →
    ∃ log, (workflowRequests service workflowId actions).Alone index
      (store, .executing workflow steps remaining execution)
      ({ store with state := store.state.withWorld final.world, log := log },
        .executing workflow steps [] final) := by
  induction remaining with
  | nil =>
      intro execution final store ran _ sameWorld
      cases ran
      apply Exists.intro store.log
      rw [← sameWorld]
      exact .refl
  | cons step rest induction =>
      intro execution final store ran works sameWorld
      rw [Work.forEach, Work.outcome_bind, bind_eq_ok] at ran
      rcases ran with ⟨middle, executes, ran⟩
      have executesHere : (executeStep service.registry service.hooks workflow.userId steps step
          { execution with world := store.state.world }).outcome = .ok middle := by
        rw [sameWorld]
        exact executes
      rcases round_ok rest executesHere with ⟨early, isRound⟩
      have acts : (actions index).act service workflowId store
          (.executing workflow steps (step :: rest) execution) = some
            ({ store with state := store.state.withWorld middle.world, log := early },
              .executing workflow steps rest middle) := by
        rw [act_works works, WorkflowAction.work, isRound]
      rcases @induction middle final { store with
          state := store.state.withWorld middle.world
          log := early } ran works rfl with ⟨log, later⟩
      exact ⟨log, .first acts later⟩

/-- A confirmation that no other request interferes with is `confirm`. -/
theorem confirm_alone {after : AssistantState ω} {response : ConfirmResponse}
    {store : WorkflowStore ω} (isConfirm : actions index = .confirm userId)
    (works : store.refusing = false) (unlocked : store.locked = false)
    (answers : (service.confirm userId workflowId store.state).outcome = .ok (response, after)) :
    ∃ log, (workflowRequests service workflowId actions).Alone index (store, .arriving)
      ({ store with state := after, log := log }, .ended false (.ok response)) := by
  simp only [WorkflowService.confirm, execute, executeSteps, Work.outcome_bind, Work.outcome_of,
    Work.outcome_command, bind_eq_ok, orRaise_eq_ok] at answers
  rcases answers with ⟨workflow, found, steps, reads, ⟨results, world⟩, ran, isAnswer⟩
  rcases find?_ok found with ⟨_, _, rfl, _⟩
  rcases ran with ⟨_, _, opened, opens, final, rounds, isFinal⟩
  cases isFinal
  cases isAnswer
  have starts : (actions index).act service workflowId store .arriving =
      some (store, .starting workflow steps) := by
    rw [act_works works, isConfirm]
    simp only [WorkflowAction.work, WorkflowAction.start, found, reads]
  have begins : (actions index).act service workflowId store (.starting workflow steps) = some
      ({ store with state := store.state.withWorld opened },
        .executing workflow steps steps ⟨[], [], opened⟩) := by
    rw [act_works works, WorkflowAction.work, WorkflowService.begin, opens]
  rcases @rounds_alone _ _ ι service workflowId actions index workflow steps steps ⟨[], [], opened⟩
    final { store with state := store.state.withWorld opened } rounds works rfl with ⟨log, executes⟩
  apply Exists.intro log
  apply Interleaving.Tasks.Alone.first starts
  apply Interleaving.Tasks.Alone.first begins
  apply executes.trans
  have stillWorks : { store with
      state := store.state.withWorld final.world
      log := log }.refusing = false := works
  have isOver : (actions index).act service workflowId { store with
      state := store.state.withWorld final.world
      log := log } (.executing workflow steps [] final) = some ({ store with
        state := store.state.withWorld final.world
        log := log }, .executed workflow final.results) := act_works stillWorks
  apply Interleaving.Tasks.Alone.first isOver
  have marks : (actions index).act service workflowId { store with
      state := store.state.withWorld final.world
      log := log } (.executed workflow final.results) = some ({ store with
        state := store.state.withWorld final.world
        locked := true
        log := log }, .marked workflow final.results) := by
    rw [act_works stillWorks, WorkflowAction.work, mark, if_neg (by simp [unlocked])]
  apply Interleaving.Tasks.Alone.first marks
  apply Relation.ReflTransGen.single
  rw [unlocked]
  exact act_works works

end Alone

end Requests

end CloudDrive
