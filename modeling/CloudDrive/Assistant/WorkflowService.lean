import CloudDrive.Assistant.Executor
import CloudDrive.Foundation.Table

/-! # The workflow service

`chat`, `confirm`, `cancel`, `save_workflow` and `rerun_workflow` of
`app/assistant/service.py` with the rows they persist. A call takes the committed state
and gives the state to commit; what it has the skills do is its commands. -/

namespace CloudDrive

open Outcome Relational Interruption

/-! ## Rows -/

inductive WorkflowStatus where
  | pending
  | executed
  | cancelled
  | saved
  deriving DecidableEq, Repr

/-- `steps` holds each step as `model_dump` wrote it. -/
structure AssistantWorkflow where
  id : Uuid
  userId : Uuid
  sessionId : Uuid
  sourceNl : String
  steps : List Value
  status : WorkflowStatus
  name : Option String

structure AssistantWorkflowRun where
  userId : Uuid
  workflowId : Option Uuid
  sourceNl : String
  status : String
  stepResults : List StepResult

instance : Keyed AssistantWorkflow Uuid := ⟨AssistantWorkflow.id⟩

@[simp] theorem AssistantWorkflow.key_eq (row : AssistantWorkflow) :
    Keyed.key row = row.id := rfl

/-- The committed rows, and the world that skills and hooks act on. -/
structure AssistantState (ω : Type) where
  workflows : Table AssistantWorkflow
  runs : List AssistantWorkflowRun
  world : ω

/-! ## Steps as they are persisted -/

/-- `step.model_dump(mode="json")`. -/
def WorkflowStep.dump (step : WorkflowStep) : Value :=
  .object [("index", .int step.index), ("skill", .string step.skill),
    ("arguments", .object step.arguments), ("depends_on", .list (step.dependsOn.map .int)),
    ("permission_tier", .string step.permissionTier),
    ("requires_approval", .bool step.requiresApproval)]

def Value.integers? : List Value → Option (List Int)
  | [] => some []
  | .int value :: rest => (Value.integers? rest).map (value :: ·)
  | _ :: _ => none

/-- `WorkflowStep.model_validate`, for what `model_dump` writes. -/
def WorkflowStep.validate (dumped : Value) : Option WorkflowStep :=
  match dumped.field? "index", dumped.field? "skill", dumped.field? "arguments",
      dumped.field? "depends_on", dumped.field? "permission_tier",
      dumped.field? "requires_approval" with
  | some (.int (.ofNat index)), some (.string skill), some (.object arguments),
      some (.list dependsOn), some (.string permissionTier), some (.bool requiresApproval) =>
      (Value.integers? dependsOn).map fun dependsOn =>
        ⟨index, skill, arguments, dependsOn, permissionTier, requiresApproval⟩
  | _, _, _, _, _, _ => none

/-- `PlannedStep(skill=step["skill"], ...)` of a persisted step. -/
def PlannedStep.ofSaved (dumped : Value) : Option PlannedStep :=
  match dumped.field? "skill", (dumped.field? "arguments").getD (.object []),
      (dumped.field? "depends_on").getD (.list []) with
  | some (.string skill), .object arguments, .list dependsOn =>
      (Value.integers? dependsOn).map fun dependsOn => ⟨skill, arguments, dependsOn⟩
  | _, _, _ => none

theorem Value.integers?_map : ∀ values : List Int,
    Value.integers? (values.map .int) = some values
  | [] => rfl
  | value :: rest => by rw [List.map_cons, Value.integers?, integers?_map rest, Option.map_some]

theorem WorkflowStep.validate_dump (step : WorkflowStep) :
    WorkflowStep.validate step.dump = some step := by
  have fields : WorkflowStep.validate step.dump =
      (Value.integers? (step.dependsOn.map .int)).map fun dependsOn =>
        ⟨step.index, step.skill, step.arguments, dependsOn, step.permissionTier,
          step.requiresApproval⟩ := rfl
  rw [fields, Value.integers?_map, Option.map_some]

theorem PlannedStep.ofSaved_dump (step : WorkflowStep) :
    PlannedStep.ofSaved step.dump = some step.planned := by
  have fields : PlannedStep.ofSaved step.dump =
      (Value.integers? (step.dependsOn.map .int)).map fun dependsOn =>
        ⟨step.skill, step.arguments, dependsOn⟩ := rfl
  rw [fields, Value.integers?_map, Option.map_some]
  rfl

/-- What is read back step by step from the dumps. -/
theorem mapM_dump {α : Type} {read : Value → Option α} {back : WorkflowStep → α}
    (reads : ∀ step, read (WorkflowStep.dump step) = some (back step)) :
    ∀ steps : List WorkflowStep, (steps.map WorkflowStep.dump).mapM read = some (steps.map back)
  | [] => rfl
  | step :: rest => by
      rw [List.map_cons, List.mapM_cons, reads, mapM_dump reads rest]
      rfl

/-! ## Replies -/

def runStatus (results : List StepResult) : String :=
  if results.all StepResult.ok then "succeeded" else "failed"

/-- `_compose_failure_message`. -/
def composeFailureMessage (results : List StepResult) (retried : Bool) : String :=
  let completed := results.filter StepResult.ok
  let failures := results.filter fun result => !result.ok && !result.skipped
  let skipped := results.filter StepResult.skipped
  let lead := if retried then "我重新規劃並重試了一次仍然失敗。" else ""
  let summary := s!"執行完成 {completed.length}/{results.length} 步。"
  let details := String.join (failures.map fun result =>
    let error := result.error.getD "None"
    s!"第 {result.index + 1} 步({result.skill})失敗:{error}。")
  let skipNote := if skipped.isEmpty then "" else s!"另有 {skipped.length} 步因上游失敗而跳過。"
  let done := "、".intercalate (completed.map StepResult.skill)
  let tail := if completed.isEmpty then
      "沒有任何步驟完成,也沒有做出任何變更。"
    else
      s!"已完成:{done}。除上述外沒有進一步的變更。"
  lead ++ summary ++ details ++ skipNote ++ tail

/-- `_PENDING_NOTE`. -/
def pendingNote : String := " 這個操作需要你確認後才會執行。"

structure WorkflowPlanView where
  workflowId : Option Uuid
  status : String
  steps : List WorkflowStep

structure ChatResponse where
  message : String
  plan : Option WorkflowPlanView
  results : List StepResult

structure ConfirmResponse where
  workflowId : Uuid
  status : String
  message : String
  results : List StepResult
  sessionId : Option Uuid

/-! ## The planner -/

structure PlanResult where
  reply : String
  steps : List PlannedStep
  needsFollowup : Bool

/-- What the planner is told besides the message: nothing, the results of a
reconnaissance with the steps kept from it, or the results of a run that failed. -/
inductive PlanRequest where
  | first
  | followup (results : List StepResult) (kept : List PlannedStep)
  | replan (results : List StepResult)

/-- A call of `chat`: the reply of skill authoring, if it took the message, the items
selected, what the planner answers, and the id that `uuid4` draws. -/
structure ChatRequest where
  userId : Uuid
  sessionId : Uuid
  message : String
  authored : Option String
  selectedItems : List Arguments
  planner : PlanRequest → Except String PlanResult
  newId : Uuid

def ChatRequest.plan (request : ChatRequest) (asked : PlanRequest) : Assistant PlanResult :=
  Work.of (match request.planner asked with
    | .ok plan => .ok plan
    | .error message => .error (.raised message))

/-! ## Repositories -/

section Repository

variable {ω : Type}

def AssistantState.withWorld (state : AssistantState ω) (world : ω) : AssistantState ω :=
  { state with world := world }

/-- `session.add` and `flush`: a taken id violates the primary key. -/
def AssistantState.addWorkflow (state : AssistantState ω) (row : AssistantWorkflow) :
    Except AssistantError (AssistantState ω) := do
  let workflows ← orRaise (state.workflows.insert? row) (.app .integrityError)
  pure { state with workflows := workflows }

/-- `get_pending`, `get_saved`. -/
def AssistantState.find? (state : AssistantState ω) (userId workflowId : Uuid)
    (status : WorkflowStatus) : Option AssistantWorkflow :=
  (state.workflows.find? workflowId).filter fun row =>
    decide (row.userId = userId ∧ row.status = status)

def AssistantState.setStatus (state : AssistantState ω) (row : AssistantWorkflow)
    (status : WorkflowStatus) : AssistantState ω :=
  { state with workflows := state.workflows.put { row with status := status } }

def AssistantState.recordRun (state : AssistantState ω) (userId : Uuid)
    (workflowId : Option Uuid) (sourceNl : String) (results : List StepResult) :
    AssistantState ω :=
  { state with
    runs := state.runs ++ [⟨userId, workflowId, sourceNl, runStatus results, results⟩] }

end Repository

/-! ## Calls -/

structure WorkflowService (ω : Type) where
  registry : SkillRegistry ω
  hooks : HookRegistry ω
  twoPhasePlanning : Bool

namespace WorkflowService

variable [PythonText] {ω : Type}

def execute (service : WorkflowService ω) (userId : Uuid) (steps : List WorkflowStep)
    (world : ω) : Assistant (List StepResult × ω) :=
  executeSteps service.registry service.hooks userId steps world

/-- The reconnaissance and the second pass of `_maybe_plan_followup`, with the indices of
the steps to look with. -/
def planFollowup (service : WorkflowService ω) (request : ChatRequest) (plan : PlanResult)
    (classified : List WorkflowStep) (indices : List Nat) (world : ω) :
    Assistant (PlanResult × ω) := do
  let recon ← Work.of (indices.mapM fun index =>
    orRaise classified[index]? AssistantError.lookup)
  let (results, world) ← service.execute request.userId recon world
  let kept ← Work.of (renumberKept plan.steps indices)
  let followup ← request.plan (.followup results kept)
  if followup.steps.isEmpty then
    pure (plan, world)
  else
    let reply := if followup.reply = "" then plan.reply else followup.reply
    pure (⟨reply, kept ++ followup.steps, false⟩, world)

def maybePlanFollowup (service : WorkflowService ω) (request : ChatRequest)
    (plan : PlanResult) (world : ω) : Assistant (PlanResult × ω) :=
  if !service.twoPhasePlanning || !plan.needsFollowup then
    pure (plan, world)
  else do
    let classified ← Work.of (classifySteps plan.steps service.registry)
    if !request.selectedItems.isEmpty && hasSelectionReference classified service.registry then
      pure (plan, world)
    else do
      let skipped := (classified.filter WorkflowStep.requiresApproval).map WorkflowStep.index
      let indices ← Work.of (reconIndices skipped classified)
      if indices = [] then
        pure (plan, world)
      else
        service.planFollowup request plan classified indices world

/-- `_replan_after_failure`. -/
def replanAfterFailure (service : WorkflowService ω) (request : ChatRequest)
    (results : List StepResult) (state : AssistantState ω) :
    Assistant (Option ChatResponse × AssistantState ω) := do
  let replan ← request.plan (.replan results)
  if replan.steps.isEmpty then
    pure (none, state)
  else do
    let steps ← Work.of (classifySteps replan.steps service.registry)
    if hasSelectionReference steps service.registry || !isAutoConfirmable steps then
      pure (none, state)
    else do
      let (results, world) ← service.execute request.userId steps state.world
      let message := if results.all StepResult.ok then replan.reply
        else composeFailureMessage results true
      pure (some ⟨message, some ⟨none, "auto_executed", steps⟩, results⟩,
        (state.withWorld world).recordRun request.userId none
          s!"{request.message} [replan]" results)

/-- The fast path of `chat`. -/
def autoExecute (service : WorkflowService ω) (request : ChatRequest) (plan : PlanResult)
    (steps : List WorkflowStep) (state : AssistantState ω) :
    Assistant (ChatResponse × AssistantState ω) := do
  let (results, world) ← service.execute request.userId steps state.world
  let state := (state.withWorld world).recordRun request.userId none request.message results
  let view : WorkflowPlanView := ⟨none, "auto_executed", steps⟩
  if results.all StepResult.ok then
    pure (⟨plan.reply, some view, results⟩, state)
  else do
    let (replanned, state) ← service.replanAfterFailure request results state
    let report : ChatResponse := ⟨composeFailureMessage results false, some view, results⟩
    pure (replanned.getD report, state)

def createPending (request : ChatRequest) (plan : PlanResult) (steps : List WorkflowStep)
    (state : AssistantState ω) : Except AssistantError (ChatResponse × AssistantState ω) := do
  let state ← state.addWorkflow
    { id := request.newId
      userId := request.userId
      sessionId := request.sessionId
      sourceNl := request.message
      steps := steps.map WorkflowStep.dump
      status := .pending
      name := none }
  pure (⟨plan.reply ++ pendingNote, some ⟨some request.newId, "pending_approval", steps⟩, []⟩,
    state)

/-- What `chat` does with the steps of the final plan. -/
def followPlan (service : WorkflowService ω) (request : ChatRequest) (plan : PlanResult)
    (state : AssistantState ω) : Assistant (ChatResponse × AssistantState ω) := do
  let steps ← Work.of (classifySteps plan.steps service.registry)
  let selects := hasSelectionReference steps service.registry
  if selects && request.selectedItems.isEmpty then
    pure (⟨"請先在硬碟勾選要操作的檔案。勾好後我就能用這個技能。", none, []⟩, state)
  else do
    let steps ← Work.of (if selects then
        applySelection steps request.selectedItems service.registry
      else
        .ok steps)
    if isAutoConfirmable steps then
      service.autoExecute request plan steps state
    else
      Work.of (createPending request plan steps state)

def chat (service : WorkflowService ω) (request : ChatRequest) (state : AssistantState ω) :
    Assistant (ChatResponse × AssistantState ω) :=
  match request.authored with
  | some message => pure (⟨message, none, []⟩, state)
  | none => do
      let plan ← request.plan .first
      if plan.steps.isEmpty then
        pure (⟨plan.reply, none, []⟩, state)
      else do
        let (plan, world) ← service.maybePlanFollowup request plan state.world
        service.followPlan request plan (state.withWorld world)

def confirm (service : WorkflowService ω) (userId workflowId : Uuid)
    (state : AssistantState ω) : Assistant (ConfirmResponse × AssistantState ω) := do
  let workflow ← Work.of (orRaise (state.find? userId workflowId .pending)
    (.app (.notFound "Pending workflow not found")))
  let steps ← Work.of (orRaise (workflow.steps.mapM WorkflowStep.validate) .validation)
  let (results, world) ← service.execute userId steps state.world
  let message := if results.all StepResult.ok then "Workflow executed."
    else composeFailureMessage results false
  pure (⟨workflow.id, "executed", message, results, some workflow.sessionId⟩,
    ((state.withWorld world).setStatus workflow .executed).recordRun userId (some workflow.id)
      workflow.sourceNl results)

omit [PythonText] in
def cancel (userId workflowId : Uuid) (state : AssistantState ω) :
    Except AssistantError (ConfirmResponse × AssistantState ω) := do
  let workflow ← orRaise (state.find? userId workflowId .pending)
    (.app (.notFound "Pending workflow not found"))
  pure (⟨workflow.id, "cancelled", "Workflow cancelled.", [], none⟩,
    state.setStatus workflow .cancelled)

omit [PythonText] in
def saveWorkflow (service : WorkflowService ω) (userId newId sessionId : Uuid) (name : String)
    (sourceNl : String) (steps : List PlannedStep) (state : AssistantState ω) :
    Except AssistantError (AssistantWorkflow × AssistantState ω) := do
  let classified ← classifySteps steps service.registry
  let row : AssistantWorkflow :=
    { id := newId
      userId := userId
      sessionId := sessionId
      sourceNl := sourceNl
      steps := classified.map WorkflowStep.dump
      status := .saved
      name := some (String.ofList (name.toList.take 200)) }
  let state ← state.addWorkflow row
  pure (row, state)

def rerunWorkflow (service : WorkflowService ω) (userId workflowId : Uuid)
    (state : AssistantState ω) : Assistant (ConfirmResponse × AssistantState ω) := do
  let workflow ← Work.of (orRaise (state.find? userId workflowId .saved)
    (.app (.notFound "Saved workflow not found")))
  let planned ← Work.of (orRaise (workflow.steps.mapM PlannedStep.ofSaved) .validation)
  let steps ← Work.of (classifySteps planned service.registry)
  let (results, world) ← service.execute userId steps state.world
  let message := if results.all StepResult.ok then "Saved workflow executed."
    else composeFailureMessage results false
  let sourceNl := (workflow.name.filter fun name => name ≠ "").getD workflow.sourceNl
  pure (⟨workflow.id, "executed", message, results, none⟩,
    (state.withWorld world).recordRun userId (some workflow.id) sourceNl results)

omit [PythonText] in
theorem find?_ok {state : AssistantState ω} {userId workflowId : Uuid}
    {status : WorkflowStatus} {row : AssistantWorkflow}
    (found : state.find? userId workflowId status = some row) :
    row ∈ state.workflows ∧ row.id = workflowId ∧ row.userId = userId ∧
      row.status = status := by
  rw [AssistantState.find?, Option.filter_eq_some_iff, decide_eq_true_eq] at found
  rcases Table.find?_eq_some.mp found.1 with ⟨member, isId⟩
  exact ⟨member, isId, found.2.1, found.2.2⟩

end WorkflowService

end CloudDrive
