import CloudDrive.Assistant.WorkflowService
import CloudDrive.Foundation.Execution

/-! # The confirmation gate

Runs of the assistant's calls by any users. A skill that is not registered as read-only
is called only while a plan is executed that its user was shown and has approved. -/

namespace CloudDrive

open Outcome Relational Interruption Execution

/-! ## Calls and what is seen of them -/

inductive AssistantCall where
  | chat (request : ChatRequest)
  | confirm (userId workflowId : Uuid)
  | cancel (userId workflowId : Uuid)
  | saveWorkflow (userId newId sessionId : Uuid) (name sourceNl : String)
      (steps : List PlannedStep)
  | rerun (userId workflowId : Uuid)

inductive AssistantReply where
  | chatted (response : ChatResponse)
  | confirmed (response : ConfirmResponse)
  | saved (row : AssistantWorkflow)

/-- A call, the commands it gave, and its reply unless it failed. -/
structure Served where
  call : AssistantCall
  commands : List AssistantCommand
  reply : Option AssistantReply

section Serving

variable [PythonText] {ω : Type}

def WorkflowService.serve (service : WorkflowService ω) (call : AssistantCall)
    (state : AssistantState ω) : Assistant (AssistantReply × AssistantState ω) :=
  match call with
  | .chat request => do
      let (response, state) ← service.chat request state
      pure (.chatted response, state)
  | .confirm userId workflowId => do
      let (response, state) ← service.confirm userId workflowId state
      pure (.confirmed response, state)
  | .cancel userId workflowId => do
      let (response, state) ← Work.of (WorkflowService.cancel userId workflowId state)
      pure (.confirmed response, state)
  | .saveWorkflow userId newId sessionId name sourceNl steps => do
      let (row, state) ← Work.of
        (service.saveWorkflow userId newId sessionId name sourceNl steps state)
      pure (.saved row, state)
  | .rerun userId workflowId => do
      let (response, state) ← service.rerunWorkflow userId workflowId state
      pure (.confirmed response, state)

/-- One call, before which anything may have happened to the world. A call that fails,
wherever it does, leaves the rows as they were. -/
inductive Serves (service : WorkflowService ω) :
    Served → AssistantState ω → AssistantState ω → Prop where
  | completes {call : AssistantCall} {before after : AssistantState ω} {world : ω}
      {reply : AssistantReply} :
      (service.serve call (before.withWorld world)).outcome = .ok (reply, after) →
      Serves service
        ⟨call, (service.serve call (before.withWorld world)).commands, some reply⟩ before after
  | fails {call : AssistantCall} {before : AssistantState ω} {world later : ω}
      {given : List AssistantCommand} :
      given ∈ (service.serve call (before.withWorld world)).failures →
      Serves service ⟨call, given, none⟩ before (before.withWorld later)

/-! ## What a user has approved -/

/-- A confirmation or cancellation of the workflow was answered. -/
structure Settles (workflowId : Uuid) (served : Served) : Prop where
  answered : served.reply.isSome = true
  call : ∃ userId, served.call = .confirm userId workflowId ∨
    served.call = .cancel userId workflowId

/-- The event is a chat of the user that showed the steps and persisted them as a
pending workflow, and nobody has confirmed or cancelled it in `late`. -/
structure PendingSince (event : Event (AssistantState ω) Served)
    (late : List (Event (AssistantState ω) Served)) (userId workflowId : Uuid)
    (steps : List WorkflowStep) : Prop where
  asked : ∃ request, event.action.call = .chat request ∧ request.userId = userId
  shown : ∃ response, event.action.reply = some (.chatted response) ∧
    response.plan = some ⟨some workflowId, "pending_approval", steps⟩
  persisted : ∃ row ∈ event.after.workflows, row.id = workflowId ∧ row.userId = userId ∧
    row.status = .pending ∧ row.steps = steps.map WorkflowStep.dump
  unsettled : ∀ later ∈ late, ¬ Settles workflowId later.action

/-- The event is a call in which the user saved the steps as a workflow. -/
structure SavedAs (event : Event (AssistantState ω) Served) (userId workflowId : Uuid)
    (steps : List WorkflowStep) : Prop where
  asked : ∃ sessionId name sourceNl planned,
    event.action.call = .saveWorkflow userId workflowId sessionId name sourceNl planned
  persisted : ∃ row, event.action.reply = some (.saved row) ∧ row.id = workflowId ∧
    row.userId = userId ∧ row.steps = steps.map WorkflowStep.dump

/-- The call is one by which the user approves of executing the steps. -/
inductive Approves (past : List (Event (AssistantState ω) Served)) (userId : Uuid)
    (steps : List WorkflowStep) : AssistantCall → Prop where
  | confirm {workflowId : Uuid} {early late : List (Event (AssistantState ω) Served)}
      {event : Event (AssistantState ω) Served} :
      past = early ++ event :: late → PendingSince event late userId workflowId steps →
      Approves past userId steps (.confirm userId workflowId)
  | rerun {workflowId : Uuid} {event : Event (AssistantState ω) Served} :
      event ∈ past → SavedAs event userId workflowId steps →
      Approves past userId steps (.rerun userId workflowId)

/-! ## A chat calls read-only skills only -/

/-- The command is one of the user's and has read-only skills called only. -/
def ReadsOnly (registry : SkillRegistry ω) (userId : Uuid) : AssistantCommand → Prop
  | .executes forUser steps => forUser = userId ∧ ∀ step ∈ steps, registry.Reads step.skill
  | .invokes invocation => invocation.userId = userId ∧ registry.Reads invocation.skill

/-- The step carries the tier of its skill and needs no approval. -/
structure Free (registry : SkillRegistry ω) (step : WorkflowStep) : Prop where
  tagged : Tagged registry step
  free : step.requiresApproval = false

namespace WorkflowService

variable {service : WorkflowService ω} {request : ChatRequest}

theorem execute_readsOnly {userId : Uuid} {steps : List WorkflowStep}
    (free : ∀ step ∈ steps, Free service.registry step) (world : ω) :
    (service.execute userId steps world).Only (ReadsOnly service.registry userId) := by
  have reads : ∀ step ∈ steps, service.registry.Reads step.skill := fun step member =>
    (free step member).tagged.reads (free step member).free
  apply executeSteps_only
  · exact ⟨rfl, reads⟩
  · exact fun step member _ => ⟨rfl, reads step member⟩

omit [PythonText] in
theorem free_of_autoConfirmable {registry : SkillRegistry ω} {steps : List WorkflowStep}
    (tagged : ∀ step ∈ steps, Tagged registry step) (auto : isAutoConfirmable steps = true) :
    ∀ step ∈ steps, Free registry step := by
  intro step member
  have free := List.all_eq_true.mp auto step member
  rw [Bool.not_eq_true'] at free
  exact ⟨tagged step member, free⟩

omit [PythonText] in
/-- The steps of a reconnaissance are those that need no approval, whatever their
numbers in the plan. -/
theorem recon_free {planned : List PlannedStep} {classified recon : List WorkflowStep}
    {indices : List Nat}
    (classifies : classifySteps planned service.registry = .ok classified)
    (looks : reconIndices ((classified.filter WorkflowStep.requiresApproval).map
      WorkflowStep.index) classified = .ok indices)
    (picks : (indices.mapM fun index =>
      orRaise classified[index]? AssistantError.lookup) = .ok recon) :
    ∀ step ∈ recon, Free service.registry step := by
  rcases classifySteps_ok classifies with ⟨_, tagged, indexed⟩
  intro step member
  rcases mem_of_mapM picks step member with ⟨index, among, found⟩
  have isStep := orRaise_eq_ok.mp found
  have inPlan := List.mem_of_getElem? isStep
  apply Free.mk (tagged step inPlan)
  cases approval : step.requiresApproval with
  | false => rfl
  | true =>
      have skipped : step.index ∈
          (classified.filter WorkflowStep.requiresApproval).map WorkflowStep.index :=
        List.mem_map_of_mem (List.mem_filter.mpr ⟨inPlan, approval⟩)
      rw [indexed index step isStep] at skipped
      exact absurd skipped (reconIndices_ok looks index among)

theorem maybePlanFollowup_only (plan : PlanResult) (world : ω) :
    (service.maybePlanFollowup request plan world).Only
      (ReadsOnly service.registry request.userId) := by
  rw [maybePlanFollowup]
  split
  · exact Work.only_of _ _
  · apply (Work.only_of _ _).bind
    intro classified classifies
    split
    · exact Work.only_of _ _
    · apply (Work.only_of _ _).bind
      intro indices looks
      split
      · exact Work.only_of _ _
      · rw [planFollowup]
        apply (Work.only_of _ _).bind
        intro recon picks
        apply (execute_readsOnly (recon_free classifies looks picks) world).bind
        intro ran _
        apply (Work.only_of _ _).bind
        intro kept _
        apply (Work.only_of _ _).bind
        intro followup _
        split
        · exact Work.only_of _ _
        · exact Work.only_of _ _

theorem replanAfterFailure_only (results : List StepResult) (state : AssistantState ω) :
    (service.replanAfterFailure request results state).Only
      (ReadsOnly service.registry request.userId) := by
  rw [replanAfterFailure]
  apply (Work.only_of _ _).bind
  intro replan _
  split
  · exact Work.only_of _ _
  · apply (Work.only_of _ _).bind
    intro steps classifies
    split
    · exact Work.only_of _ _
    · rename_i admitted
      have auto : isAutoConfirmable steps = true := by
        simp only [Bool.or_eq_true, Bool.not_eq_true', not_or, Bool.not_eq_false] at admitted
        exact admitted.2
      have free := free_of_autoConfirmable (classifySteps_ok classifies).2.1 auto
      exact (execute_readsOnly free _).bind fun _ _ => Work.only_of _ _

theorem autoExecute_only {steps : List WorkflowStep}
    (free : ∀ step ∈ steps, Free service.registry step) (plan : PlanResult)
    (state : AssistantState ω) :
    (service.autoExecute request plan steps state).Only
      (ReadsOnly service.registry request.userId) := by
  rw [autoExecute]
  apply (execute_readsOnly free _).bind
  intro ran _
  rcases ran with ⟨results, world⟩
  dsimp only
  split
  · exact Work.only_of _ _
  · exact (replanAfterFailure_only _ _).bind fun _ _ => Work.only_of _ _

theorem followPlan_only (plan : PlanResult) (state : AssistantState ω) :
    (service.followPlan request plan state).Only
      (ReadsOnly service.registry request.userId) := by
  rw [followPlan]
  apply (Work.only_of _ _).bind
  intro steps classifies
  have tagged := (classifySteps_ok classifies).2.1
  dsimp only
  split
  · exact Work.only_of _ _
  · apply (Work.only_of _ _).bind
    intro final selects
    have finalTagged : ∀ step ∈ final, Tagged service.registry step := by
      rw [Work.outcome_of] at selects
      split at selects
      · exact applySelection_tagged selects tagged
      · cases selects
        exact tagged
    split
    · rename_i auto
      exact autoExecute_only (free_of_autoConfirmable finalTagged auto) plan state
    · exact Work.only_of _ _

/-- Whatever the planner answers, and wherever the call fails. -/
theorem chat_only (state : AssistantState ω) :
    (service.chat request state).Only (ReadsOnly service.registry request.userId) := by
  rw [chat]
  split
  · exact Work.only_of _ _
  · apply (Work.only_of _ _).bind
    intro plan _
    split
    · exact Work.only_of _ _
    · apply (maybePlanFollowup_only plan state.world).bind
      exact fun _ _ => followPlan_only _ _

/-! ## What the calls do to the rows -/

theorem replanAfterFailure_rows {results : List StepResult} {state after : AssistantState ω}
    {reply : Option ChatResponse}
    (ran : (service.replanAfterFailure request results state).outcome = .ok (reply, after)) :
    after.workflows = state.workflows := by
  simp only [replanAfterFailure, Work.outcome_bind, bind_eq_ok] at ran
  rcases ran with ⟨replan, _, ran⟩
  split at ran
  · cases ran
    rfl
  · simp only [Work.outcome_bind, bind_eq_ok] at ran
    rcases ran with ⟨steps, _, ran⟩
    split at ran
    · cases ran
      rfl
    · simp only [Work.outcome_bind, bind_eq_ok] at ran
      rcases ran with ⟨⟨results, world⟩, _, ran⟩
      cases ran
      rfl

theorem autoExecute_rows {plan : PlanResult} {steps : List WorkflowStep}
    {state after : AssistantState ω} {response : ChatResponse}
    (ran : (service.autoExecute request plan steps state).outcome = .ok (response, after)) :
    after.workflows = state.workflows := by
  simp only [autoExecute, Work.outcome_bind, bind_eq_ok] at ran
  rcases ran with ⟨⟨results, world⟩, _, ran⟩
  dsimp only at ran
  split at ran
  · cases ran
    rfl
  · simp only [Work.outcome_bind, bind_eq_ok] at ran
    rcases ran with ⟨⟨replanned, later⟩, replans, ran⟩
    have rows := replanAfterFailure_rows replans
    cases ran
    exact rows

/-- A chat leaves the workflows alone, or persists the plan it shows as pending. -/
inductive ChatRows (request : ChatRequest) (response : ChatResponse)
    (before after : Table AssistantWorkflow) : Prop where
  | unchanged : after = before → ChatRows request response before after
  | pending {steps : List WorkflowStep} {row : AssistantWorkflow} :
      response.plan = some ⟨some request.newId, "pending_approval", steps⟩ →
      row.id = request.newId → row.userId = request.userId → row.status = .pending →
      row.steps = steps.map WorkflowStep.dump → before.insert? row = some after →
      ChatRows request response before after

omit [PythonText] in
theorem createPending_rows {plan : PlanResult} {steps : List WorkflowStep}
    {state after : AssistantState ω} {response : ChatResponse}
    (ran : createPending request plan steps state = .ok (response, after)) :
    ChatRows request response state.workflows after.workflows := by
  simp only [createPending, AssistantState.addWorkflow, bind_eq_ok, orRaise_eq_ok, pure_eq_ok]
    at ran
  rcases ran with ⟨added, ⟨workflows, inserted, rfl⟩, isReply⟩
  cases isReply
  exact .pending rfl rfl rfl rfl rfl inserted

theorem followPlan_rows {plan : PlanResult} {state after : AssistantState ω}
    {response : ChatResponse}
    (ran : (service.followPlan request plan state).outcome = .ok (response, after)) :
    ChatRows request response state.workflows after.workflows := by
  simp only [followPlan, Work.outcome_bind, bind_eq_ok] at ran
  rcases ran with ⟨steps, _, ran⟩
  split at ran
  · cases ran
    exact .unchanged rfl
  · simp only [Work.outcome_bind, bind_eq_ok] at ran
    rcases ran with ⟨final, _, ran⟩
    split at ran
    · exact .unchanged (autoExecute_rows ran)
    · exact createPending_rows ran

theorem chat_rows {state after : AssistantState ω} {response : ChatResponse}
    (ran : (service.chat request state).outcome = .ok (response, after)) :
    ChatRows request response state.workflows after.workflows := by
  rw [chat] at ran
  split at ran
  · cases ran
    exact .unchanged rfl
  · simp only [Work.outcome_bind, bind_eq_ok] at ran
    rcases ran with ⟨plan, _, ran⟩
    split at ran
    · cases ran
      exact .unchanged rfl
    · simp only [Work.outcome_bind, bind_eq_ok] at ran
      rcases ran with ⟨⟨final, world⟩, _, ran⟩
      cases followPlan_rows ran with
      | unchanged same => exact .unchanged same
      | pending shown isId isUser isPending dumped inserted =>
          exact .pending shown isId isUser isPending dumped inserted

end WorkflowService

/-- What a call does to the workflows. -/
inductive RowsAfter (registry : SkillRegistry ω) (before after : Table AssistantWorkflow) :
    Served → Prop where
  | unchanged {served : Served} : after = before →
      (∀ workflowId, ¬ Settles workflowId served) → RowsAfter registry before after served
  | pending {request : ChatRequest} {response : ChatResponse}
      {commands : List AssistantCommand} {steps : List WorkflowStep}
      {row : AssistantWorkflow} :
      response.plan = some ⟨some request.newId, "pending_approval", steps⟩ →
      row.id = request.newId → row.userId = request.userId → row.status = .pending →
      row.steps = steps.map WorkflowStep.dump → before.insert? row = some after →
      RowsAfter registry before after ⟨.chat request, commands, some (.chatted response)⟩
  | saved {userId newId sessionId : Uuid} {name sourceNl : String}
      {planned : List PlannedStep} {commands : List AssistantCommand}
      {steps : List WorkflowStep} {row : AssistantWorkflow} :
      classifySteps planned registry = .ok steps → row.id = newId → row.userId = userId →
      row.status = .saved → row.steps = steps.map WorkflowStep.dump → before.insert? row = some after →
      RowsAfter registry before after
        ⟨.saveWorkflow userId newId sessionId name sourceNl planned, commands, some (.saved row)⟩
  | settled {served : Served} {row : AssistantWorkflow} {status : WorkflowStatus} :
      row ∈ before → row.status = .pending → status ≠ .pending → status ≠ .saved →
      after = before.put { row with status := status } →
      (∀ workflowId, Settles workflowId served → workflowId = row.id) →
      RowsAfter registry before after served

namespace Serves

variable {service : WorkflowService ω} {served : Served} {before after : AssistantState ω}

theorem confirm_rows {userId workflowId : Uuid} {state : AssistantState ω}
    {response : ConfirmResponse}
    (ran : (service.confirm userId workflowId state).outcome = .ok (response, after)) :
    ∃ row ∈ state.workflows, row.id = workflowId ∧ row.userId = userId ∧
      row.status = .pending ∧
      after.workflows = state.workflows.put { row with status := .executed } := by
  simp only [WorkflowService.confirm, Work.outcome_bind, Work.outcome_of, bind_eq_ok,
    orRaise_eq_ok] at ran
  rcases ran with ⟨row, found, steps, _, ⟨results, world⟩, _, ran⟩
  rcases WorkflowService.find?_ok found with ⟨member, isId, isUser, isPending⟩
  cases ran
  exact ⟨row, member, isId, isUser, isPending, rfl⟩

omit [PythonText] in
theorem cancel_rows {userId workflowId : Uuid} {state : AssistantState ω}
    {response : ConfirmResponse}
    (ran : WorkflowService.cancel userId workflowId state = .ok (response, after)) :
    ∃ row ∈ state.workflows, row.id = workflowId ∧ row.userId = userId ∧
      row.status = .pending ∧
      after.workflows = state.workflows.put { row with status := .cancelled } := by
  simp only [WorkflowService.cancel, bind_eq_ok, orRaise_eq_ok] at ran
  rcases ran with ⟨row, found, ran⟩
  rcases WorkflowService.find?_ok found with ⟨member, isId, isUser, isPending⟩
  cases ran
  exact ⟨row, member, isId, isUser, isPending, rfl⟩

theorem rerun_rows {userId workflowId : Uuid} {state : AssistantState ω}
    {response : ConfirmResponse}
    (ran : (service.rerunWorkflow userId workflowId state).outcome = .ok (response, after)) :
    after.workflows = state.workflows := by
  simp only [WorkflowService.rerunWorkflow, Work.outcome_bind, Work.outcome_of, bind_eq_ok]
    at ran
  rcases ran with ⟨row, _, planned, _, steps, _, ⟨results, world⟩, _, ran⟩
  cases ran
  rfl

/-- An answered call is inverted once, for all invariants on the rows. -/
theorem rows (serves : Serves service served before after) :
    RowsAfter service.registry before.workflows after.workflows served := by
  cases serves with
  | fails _ =>
      apply RowsAfter.unchanged rfl
      intro workflowId settles
      cases settles.answered
  | @completes call before after world reply answered =>
      cases call with
      | chat request =>
          simp only [WorkflowService.serve, Work.outcome_bind, bind_eq_ok] at answered
          rcases answered with ⟨⟨response, state⟩, ran, answered⟩
          cases answered
          cases WorkflowService.chat_rows ran with
          | unchanged same =>
              apply RowsAfter.unchanged same
              intro workflowId settles
              rcases settles.call with ⟨_, isConfirm | isCancel⟩
              · cases isConfirm
              · cases isCancel
          | pending shown isId isUser isPending dumped inserted =>
              exact .pending shown isId isUser isPending dumped inserted
      | confirm userId workflowId =>
          simp only [WorkflowService.serve, Work.outcome_bind, bind_eq_ok] at answered
          rcases answered with ⟨⟨response, state⟩, ran, answered⟩
          cases answered
          rcases confirm_rows ran with ⟨row, member, isId, _, isPending, rows⟩
          apply RowsAfter.settled member isPending _ _ rows
          · intro other settles
            rcases settles.call with ⟨_, isConfirm | isCancel⟩
            · cases isConfirm
              exact isId.symm
            · cases isCancel
          · exact WorkflowStatus.noConfusion
          · exact WorkflowStatus.noConfusion
      | cancel userId workflowId =>
          simp only [WorkflowService.serve, Work.outcome_bind, Work.outcome_of, bind_eq_ok]
            at answered
          rcases answered with ⟨⟨response, state⟩, ran, answered⟩
          cases answered
          rcases cancel_rows ran with ⟨row, member, isId, _, isPending, rows⟩
          apply RowsAfter.settled member isPending _ _ rows
          · intro other settles
            rcases settles.call with ⟨_, isConfirm | isCancel⟩
            · cases isConfirm
            · cases isCancel
              exact isId.symm
          · exact WorkflowStatus.noConfusion
          · exact WorkflowStatus.noConfusion
      | saveWorkflow userId newId sessionId name sourceNl planned =>
          simp only [WorkflowService.serve, WorkflowService.saveWorkflow,
            AssistantState.addWorkflow, Work.outcome_bind, Work.outcome_of, bind_eq_ok,
            orRaise_eq_ok, pure_eq_ok] at answered
          rcases answered with
            ⟨⟨row, state⟩, ⟨steps, classified, added, ⟨workflows, inserted, rfl⟩, same⟩, answered⟩
          cases same
          cases answered
          exact .saved classified rfl rfl rfl rfl inserted
      | rerun userId workflowId =>
          simp only [WorkflowService.serve, Work.outcome_bind, bind_eq_ok] at answered
          rcases answered with ⟨⟨response, state⟩, ran, answered⟩
          have rows := rerun_rows ran
          cases answered
          apply RowsAfter.unchanged rows
          intro workflowId settles
          rcases settles.call with ⟨_, isConfirm | isCancel⟩
          · cases isConfirm
          · cases isCancel

end Serves

/-! ## Where rows come from -/

variable {service : WorkflowService ω} {start final : AssistantState ω}
  {events : List (Event (AssistantState ω) Served)}

omit [PythonText] in
theorem PendingSince.extend {event last : Event (AssistantState ω) Served}
    {late : List (Event (AssistantState ω) Served)} {userId workflowId : Uuid}
    {steps : List WorkflowStep} (pending : PendingSince event late userId workflowId steps)
    (unsettled : ¬ Settles workflowId last.action) :
    PendingSince event (late ++ [last]) userId workflowId steps := by
  apply PendingSince.mk pending.asked pending.shown pending.persisted
  intro later member
  rcases List.mem_append.mp member with before | isLast
  · exact pending.unsettled later before
  · rw [List.mem_singleton.mp isLast]
    exact unsettled

omit [PythonText] in
/-- A row after an insertion is the new one or an old one. -/
theorem mem_of_insert {before after : Table AssistantWorkflow} {new row : AssistantWorkflow}
    (inserted : before.insert? new = some after) (member : row ∈ after) :
    row = new ∨ row ∈ before := by
  have rows := (Table.insert?_eq_some.mp inserted).2
  rw [← Table.mem_rows, rows, List.mem_append, List.mem_singleton] at member
  exact member.symm

omit [PythonText] in
theorem mem_insert {before after : Table AssistantWorkflow} {new : AssistantWorkflow}
    (inserted : before.insert? new = some after) : new ∈ after := by
  rw [← Table.mem_rows, (Table.insert?_eq_some.mp inserted).2]
  exact List.mem_append_right _ List.mem_cons_self

/-- A pending row was persisted by a chat that showed its steps, and is unsettled. -/
theorem pending_origin (run : Run (Serves service) start events final)
    (empty : start.workflows.rows = []) :
    ∀ row ∈ final.workflows, row.status = .pending → ∃ early event late steps,
      events = early ++ event :: late ∧ PendingSince event late row.userId row.id steps ∧
      row.steps = steps.map WorkflowStep.dump := by
  induction run with
  | nothing =>
      intro row member
      rw [← Table.mem_rows, empty] at member
      cases member
  | @next past middle final served run taken induction =>
      intro row member isPending
      have kept : row ∈ middle.workflows → ¬ Settles row.id served → ∃ early event late steps,
          past ++ [⟨middle, served, final⟩] = early ++ event :: late ∧
          PendingSince event late row.userId row.id steps ∧
          row.steps = steps.map WorkflowStep.dump := by
        intro before unsettled
        rcases induction row before isPending with
          ⟨early, event, late, steps, rfl, pending, dumped⟩
        exact ⟨early, event, late ++ [⟨middle, served, final⟩], steps,
          by rw [List.append_assoc, List.cons_append], pending.extend unsettled, dumped⟩
      cases taken.rows with
      | unchanged same none =>
          rw [same] at member
          exact kept member (none row.id)
      | @pending request response commands steps new shown isId isUser isNew dumped inserted =>
          rcases mem_of_insert inserted member with rfl | before
          · apply Exists.intro past
            apply Exists.intro _
            apply Exists.intro []
            apply Exists.intro steps
            apply And.intro rfl
            apply And.intro _ dumped
            constructor
            case asked => exact ⟨request, rfl, isUser.symm⟩
            case shown => exact ⟨response, rfl, by rw [shown, isId]⟩
            case persisted => exact ⟨row, mem_insert inserted, rfl, rfl, isPending, dumped⟩
            case unsettled => exact fun _ among => absurd among List.not_mem_nil
          · apply kept before
            intro settles
            rcases settles.call with ⟨_, isConfirm | isCancel⟩
            · cases isConfirm
            · cases isCancel
      | saved _ _ _ isSaved _ inserted =>
          rcases mem_of_insert inserted member with rfl | before
          · rw [isSaved] at isPending
            cases isPending
          · apply kept before
            intro settles
            rcases settles.call with ⟨_, isConfirm | isCancel⟩
            · cases isConfirm
            · cases isCancel
      | @settled _ old status among wasPending notPending notSaved rows only =>
          rw [rows] at member
          rcases Table.mem_put.mp member with ⟨rfl, _⟩ | ⟨before, different⟩
          · exact absurd isPending notPending
          · exact kept before fun settles => different (only row.id settles)

/-- A saved row was saved by its user, from steps that the registry classifies. -/
theorem saved_origin (run : Run (Serves service) start events final)
    (empty : start.workflows.rows = []) :
    ∀ row ∈ final.workflows, row.status = .saved → ∃ event ∈ events, ∃ planned steps,
      SavedAs event row.userId row.id steps ∧
      classifySteps planned service.registry = .ok steps ∧
      row.steps = steps.map WorkflowStep.dump := by
  induction run with
  | nothing =>
      intro row member
      rw [← Table.mem_rows, empty] at member
      cases member
  | @next past middle final served run taken induction =>
      intro row member isSaved
      have kept : row ∈ middle.workflows → ∃ event ∈ past ++ [⟨middle, served, final⟩],
          ∃ planned steps, SavedAs event row.userId row.id steps ∧
          classifySteps planned service.registry = .ok steps ∧
          row.steps = steps.map WorkflowStep.dump := by
        intro before
        rcases induction row before isSaved with ⟨event, among, origin⟩
        exact ⟨event, List.mem_append_left _ among, origin⟩
      cases taken.rows with
      | unchanged same _ =>
          rw [same] at member
          exact kept member
      | pending _ _ _ isPending _ inserted =>
          rcases mem_of_insert inserted member with rfl | before
          · rw [isPending] at isSaved
            cases isSaved
          · exact kept before
      | @saved userId newId sessionId name sourceNl planned commands steps new classified isId
          isUser _ dumped inserted =>
          rcases mem_of_insert inserted member with rfl | before
          · apply Exists.intro _
            apply And.intro (List.mem_append_right _ List.mem_cons_self)
            apply Exists.intro planned
            apply Exists.intro steps
            apply And.intro _ ⟨classified, dumped⟩
            constructor
            case asked => exact ⟨sessionId, name, sourceNl, planned, by rw [isId, isUser]⟩
            case persisted => exact ⟨row, rfl, rfl, rfl, dumped⟩
          · exact kept before
      | @settled _ old status among wasPending notPending notSaved rows only =>
          rw [rows] at member
          rcases Table.mem_put.mp member with ⟨rfl, _⟩ | ⟨before, _⟩
          · exact absurd isSaved notSaved
          · exact kept before

/-! ## What an approved call executes -/

/-- The command is one of executing the steps for the user. -/
def CallsOf (userId : Uuid) (steps : List WorkflowStep) : AssistantCommand → Prop
  | .executes forUser given => forUser = userId ∧ given = steps
  | .invokes invocation => invocation.userId = userId ∧
      ∃ step ∈ steps, step.skill = invocation.skill

namespace WorkflowService

theorem execute_callsOf (service : WorkflowService ω) (userId : Uuid)
    (steps : List WorkflowStep) (world : ω) :
    (service.execute userId steps world).Only (CallsOf userId steps) := by
  apply executeSteps_only
  · exact ⟨rfl, rfl⟩
  · exact fun step member _ => ⟨rfl, step, member, rfl⟩

theorem confirm_commands {userId workflowId : Uuid} {state : AssistantState ω}
    {given : List AssistantCommand}
    (failure : given ∈ (service.confirm userId workflowId state).failures) :
    given = [] ∨ ∃ row ∈ state.workflows, row.id = workflowId ∧ row.userId = userId ∧
      row.status = .pending ∧ ∃ steps, row.steps.mapM WorkflowStep.validate = some steps ∧
      ∃ world, given ∈ (service.execute userId steps world).failures := by
  rw [confirm] at failure
  rcases Work.mem_failures_of_bind failure with none | ⟨row, found, failure⟩
  · exact .inl none
  · rcases Work.mem_failures_of_bind failure with none | ⟨steps, reads, failure⟩
    · exact .inl none
    · rcases find?_ok (orRaise_eq_ok.mp found) with ⟨member, isId, isUser, isPending⟩
      exact .inr ⟨row, member, isId, isUser, isPending, steps, orRaise_eq_ok.mp reads, _,
        Work.mem_failures_bind_silent (fun _ => rfl) failure⟩

theorem rerun_commands {userId workflowId : Uuid} {state : AssistantState ω}
    {given : List AssistantCommand}
    (failure : given ∈ (service.rerunWorkflow userId workflowId state).failures) :
    given = [] ∨ ∃ row ∈ state.workflows, row.id = workflowId ∧ row.userId = userId ∧
      row.status = .saved ∧ ∃ planned, row.steps.mapM PlannedStep.ofSaved = some planned ∧
      ∃ steps, classifySteps planned service.registry = .ok steps ∧
      ∃ world, given ∈ (service.execute userId steps world).failures := by
  rw [rerunWorkflow] at failure
  rcases Work.mem_failures_of_bind failure with none | ⟨row, found, failure⟩
  · exact .inl none
  · rcases Work.mem_failures_of_bind failure with none | ⟨planned, reads, failure⟩
    · exact .inl none
    · rcases Work.mem_failures_of_bind failure with none | ⟨steps, classified, failure⟩
      · exact .inl none
      · rcases find?_ok (orRaise_eq_ok.mp found) with ⟨member, isId, isUser, isSaved⟩
        exact .inr ⟨row, member, isId, isUser, isSaved, planned, orRaise_eq_ok.mp reads, steps,
          classified, _, Work.mem_failures_bind_silent (fun _ => rfl) failure⟩

end WorkflowService

/-- Whether a call was answered or failed, its commands are those of a prefix of its
work. -/
theorem Serves.commands {served : Served} {before after : AssistantState ω}
    (serves : Serves service served before after) :
    ∃ world, served.commands ∈ (service.serve served.call (before.withWorld world)).failures := by
  cases serves with
  | completes _ => exact ⟨_, Work.atTheEnd _⟩
  | fails failure => exact ⟨_, failure⟩

/-! ## The gate -/

/-- The commands are those of executing the steps for the user, up to a failure. -/
def Executes (service : WorkflowService ω) (userId : Uuid) (steps : List WorkflowStep)
    (commands : List AssistantCommand) : Prop :=
  ∃ world, commands ∈ (service.execute userId steps world).failures

/-- In every run, a call of a skill that is not registered as read-only happens in a call
by which its user approves of the steps, and these steps are what is executed. -/
theorem confirmationGate (run : Run (Serves service) start events final)
    (empty : start.workflows.rows = [])
    {past rest : List (Event (AssistantState ω) Served)} {event : Event (AssistantState ω) Served}
    (split : events = past ++ event :: rest) {invocation : Invocation}
    (invoked : .invokes invocation ∈ event.action.commands)
    (writes : ¬ service.registry.Reads invocation.skill) :
    ∃ steps, Approves past invocation.userId steps event.action.call ∧
      Executes service invocation.userId steps event.action.commands ∧
      ∃ step ∈ steps, step.skill = invocation.skill := by
  rcases run.upTo split with ⟨runPast, taken⟩
  rcases taken.commands with ⟨world, failure⟩
  have nonempty : event.action.commands ≠ [] := List.ne_nil_of_mem invoked
  generalize event.action.commands = given at failure invoked nonempty
  generalize event.action.call = call at failure
  cases call with
  | chat request =>
      have failure := Work.mem_failures_bind_silent (fun _ => rfl) failure
      have only := (WorkflowService.chat_only _).onFailure given failure _ invoked
      exact absurd only.2 writes
  | confirm userId workflowId =>
      have failure := Work.mem_failures_bind_silent (fun _ => rfl) failure
      rcases WorkflowService.confirm_commands failure with
        none | ⟨row, member, rfl, rfl, isPending, steps, reads, world, failure⟩
      · exact absurd none nonempty
      · rcases pending_origin runPast empty row member isPending with
          ⟨early, origin, late, shown, isPast, pending, dumped⟩
        rw [dumped, mapM_dump WorkflowStep.validate_dump, List.map_id', Option.some.injEq] at reads
        have calls := (service.execute_callsOf row.userId steps world).onFailure given failure _
          invoked
        rw [calls.1]
        exact ⟨steps, .confirm isPast (reads ▸ pending), ⟨world, failure⟩, calls.2⟩
  | cancel userId workflowId =>
      have failure := Work.mem_failures_bind_silent (fun _ => rfl) failure
      exact absurd (List.mem_singleton.mp failure) nonempty
  | saveWorkflow userId newId sessionId name sourceNl planned =>
      have failure := Work.mem_failures_bind_silent (fun _ => rfl) failure
      exact absurd (List.mem_singleton.mp failure) nonempty
  | rerun userId workflowId =>
      have failure := Work.mem_failures_bind_silent (fun _ => rfl) failure
      rcases WorkflowService.rerun_commands failure with
        none | ⟨row, member, rfl, rfl, isSaved, planned, reads, steps, classified, world, failure⟩
      · exact absurd none nonempty
      · rcases saved_origin runPast empty row member isSaved with
          ⟨origin, among, given, saved, isSavedAs, wasClassified, dumped⟩
        rw [dumped, mapM_dump PlannedStep.ofSaved_dump, (classifySteps_ok wasClassified).1,
          Option.some.injEq] at reads
        rw [← reads, wasClassified, Except.ok.injEq] at classified
        have calls := (service.execute_callsOf row.userId steps world).onFailure _ failure _
          invoked
        rw [calls.1]
        exact ⟨steps, .rerun among (classified ▸ isSavedAs), ⟨world, failure⟩, calls.2⟩

end Serving

/-! ## A plan that trashes an item -/

section Trashing

/-- Enough of Python for texts and integers. -/
@[reducible] def smallPythonText : PythonText where
  str value :=
    match value with
    | .string text => text
    | .int number => toString number
    | other => other.typeName
  repr value :=
    match value with
    | .int number => toString number
    | other => other.typeName
  int text := text.toInt?
  upper text := text.map Char.toUpper
  str_string _ := rfl

attribute [local instance] smallPythonText

private def trashItem : RegisteredSkill Unit where
  name := "trash_item"
  permissionTier := "destructive"
  requiresSelection := false
  handler _ arguments world := (.ok (.object arguments), world)

private def trashService : WorkflowService Unit where
  registry := ⟨[trashItem], List.nodup_singleton _⟩
  hooks _ _ world := .ok world
  twoPhasePlanning := true

private def trashStep : PlannedStep := ⟨"trash_item", [("item_id", .string "a")], []⟩

private def askToTrash : ChatRequest where
  userId := 1
  sessionId := 2
  message := "trash a"
  authored := none
  selectedItems := []
  planner _ := .ok ⟨"trashing a", [trashStep], false⟩
  newId := 3

private def noWorkflows : AssistantState Unit := ⟨.empty, [], ()⟩

private theorem trash_asked : ∃ reply state,
    (trashService.serve (.chat askToTrash) noWorkflows).outcome = .ok (reply, state) ∧
      ∃ answer final, (trashService.serve (.confirm 1 3) state).outcome = .ok (answer, final) ∧
        ∃ steps, (trashService.serve (.confirm 1 3) state).commands =
          [.executes 1 steps, .invokes ⟨1, "trash_item", [("item_id", .string "a")]⟩] :=
  ⟨_, _, rfl, _, _, rfl, _, rfl⟩

theorem confirmationGate_trash :
    ∃ (past rest : List (Event (AssistantState Unit) Served))
      (event : Event (AssistantState Unit) Served) (final : AssistantState Unit),
      Run (Serves trashService) noWorkflows (past ++ event :: rest) final ∧
      .invokes ⟨1, "trash_item", [("item_id", .string "a")]⟩ ∈ event.action.commands ∧
      ∃ steps, Approves past 1 steps event.action.call ∧
        Executes trashService 1 steps event.action.commands ∧
        ∃ step ∈ steps, step.skill = "trash_item" := by
  rcases trash_asked with ⟨reply, state, chats, answer, final, confirms, steps, commands⟩
  have run := (Run.single (@Serves.completes _ _ trashService _ noWorkflows _ () _ chats)).next
    (@Serves.completes _ _ trashService _ state _ () _ confirms)
  have invoked : .invokes ⟨1, "trash_item", [("item_id", .string "a")]⟩ ∈
      (trashService.serve (.confirm 1 3) state).commands := by
    rw [commands]
    exact .tail _ (.head _)
  have writes : ¬ trashService.registry.Reads "trash_item" := by
    intro reads
    rcases reads with ⟨skill, found, tier⟩
    cases found
    exact absurd tier (by decide)
  exact ⟨_, [], _, final, run, invoked, confirmationGate run rfl rfl invoked writes⟩

end Trashing

end CloudDrive
