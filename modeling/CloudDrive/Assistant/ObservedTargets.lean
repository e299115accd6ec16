import CloudDrive.Assistant.ChatResponses
import CloudDrive.Assistant.FailureIsolation
import CloudDrive.Drive.Browsing
import CloudDrive.Operation

/-! # What was observed and what is executed

A two-phase plan is written against the outputs of a reconnaissance. `confirm` executes its
read steps again, and a write takes its target out of the new outputs, at the same path. -/

namespace CloudDrive

open Outcome Relational Interruption

/-! ## Coming to a step -/

theorem outcome_forEach_append {κ ε α γ : Type} (body : γ → α → Work κ ε α) :
    ∀ (earlier later : List γ) (state : α), (Work.forEach body (earlier ++ later) state).outcome =
      (Work.forEach body earlier state).outcome >>= fun next =>
        (Work.forEach body later next).outcome
  | [], _, _ => rfl
  | element :: rest, later, state => by
      rw [List.cons_append, Work.forEach, Work.forEach, Work.outcome_bind, Work.outcome_bind,
        bind_assoc]
      apply bind_congr
      exact fun next => outcome_forEach_append body rest later next

section Reaching

variable [PythonText] {ω : Type} {registry : SkillRegistry ω} {hooks : HookRegistry ω}
  {userId : Uuid} {steps : List WorkflowStep} {world : ω}

/-- An execution of the steps in this world comes to the step at `position` in this state. -/
def Reaches (registry : SkillRegistry ω) (hooks : HookRegistry ω) (userId : Uuid)
    (steps : List WorkflowStep) (world : ω) (position : Nat) (state : ExecutionState ω) : Prop :=
  ∃ start, hooks .beforeExecution ⟨userId, steps, none, none, none⟩ world = .ok start ∧
    (Work.forEach (executeStep registry hooks userId steps) (steps.take position)
      ⟨[], [], start⟩).outcome = .ok state

/-- The step is not skipped in this state, and its skill answers with this output. -/
def Answers (registry : SkillRegistry ω) (hooks : HookRegistry ω) (userId : Uuid)
    (steps : List WorkflowStep) (step : WorkflowStep) (state : ExecutionState ω)
    (output : Value) : Prop :=
  blockedDependencies step state.unavailable = [] ∧ ∃ world after,
    hooks .beforeStep ⟨userId, steps, some step, none, none⟩ state.world = .ok world ∧
    (attempt registry userId state.results step world).outcome = .ok (.ok output, after)

/-- The step at `position` answers with this output where the execution comes to it. -/
def AnswersAt (registry : SkillRegistry ω) (hooks : HookRegistry ω) (userId : Uuid)
    (steps : List WorkflowStep) (world : ω) (position : Nat) (output : Value) : Prop :=
  ∃ step state, steps[position]? = some step ∧
    Reaches registry hooks userId steps world position state ∧
    Answers registry hooks userId steps step state output

theorem Reaches.unique {position : Nat} {state other : ExecutionState ω}
    (reaches : Reaches registry hooks userId steps world position state)
    (again : Reaches registry hooks userId steps world position other) : other = state := by
  rcases reaches with ⟨start, starts, runs⟩
  rcases again with ⟨start', starts', runs'⟩
  cases starts.symm.trans starts'
  exact Except.ok.inj (runs'.symm.trans runs)

theorem AnswersAt.unique {position : Nat} {output other : Value}
    (answers : AnswersAt registry hooks userId steps world position output)
    (again : AnswersAt registry hooks userId steps world position other) : other = output := by
  rcases answers with ⟨step, state, isStep, reaches, _, before, after, hooked, attempted⟩
  rcases again with ⟨step', state', isStep', reaches', _, before', after', hooked', attempted'⟩
  cases isStep.symm.trans isStep'
  cases reaches.unique reaches'
  cases hooked.symm.trans hooked'
  cases attempted.symm.trans attempted'
  rfl

/-- A round adds one result; an ok result has the output that the step answers with. -/
theorem executeStep_adds {step : WorkflowStep} {state next : ExecutionState ω}
    (runs : (executeStep registry hooks userId steps step state).outcome = .ok next) :
    ∃ result : StepResult, next.results = state.results ++ [result] ∧
      (result.ok = true → result.index = step.index ∧
        Answers registry hooks userId steps step state result.output) := by
  rw [executeStep] at runs
  cases blocked : blockedDependencies step state.unavailable with
  | cons first others =>
      rw [blocked] at runs
      cases runs
      exact ⟨_, rfl, fun isOk => by cases isOk⟩
  | nil =>
      rw [blocked] at runs
      simp only [Work.outcome_bind, bind_eq_ok] at runs
      rcases runs with ⟨before, fires, ⟨answer, after⟩, attempted, finish⟩
      cases answer with
      | error message =>
          simp only [Work.outcome_bind, bind_eq_ok] at finish
          rcases finish with ⟨_, _, done⟩
          cases done
          exact ⟨_, rfl, fun isOk => by cases isOk⟩
      | ok output =>
          simp only [Work.outcome_bind, bind_eq_ok] at finish
          rcases finish with ⟨_, _, done⟩
          cases done
          exact ⟨_, rfl, fun _ => ⟨rfl, blocked, before, after, fire_ok fires, attempted⟩⟩

theorem Reaches.previous {position : Nat} {next : ExecutionState ω} {step : WorkflowStep}
    (isStep : steps[position]? = some step)
    (reaches : Reaches registry hooks userId steps world (position + 1) next) :
    ∃ state, Reaches registry hooks userId steps world position state ∧
      (executeStep registry hooks userId steps step state).outcome = .ok next := by
  rcases reaches with ⟨start, starts, runs⟩
  rw [List.take_add_one, isStep, Option.toList_some, outcome_forEach_append, bind_eq_ok] at runs
  rcases runs with ⟨state, earlier, last⟩
  rw [Work.forEach, Work.outcome_bind, bind_eq_ok] at last
  rcases last with ⟨after, executes, done⟩
  cases done
  exact ⟨state, ⟨start, starts, earlier⟩, executes⟩

/-- An ok result is what an earlier step answered with where the execution came to it. -/
theorem Reaches.answered : ∀ {position : Nat} {state : ExecutionState ω},
    Reaches registry hooks userId steps world position state →
    ∀ result ∈ state.results, result.ok = true → ∃ source < position, ∃ step,
      steps[source]? = some step ∧ step.index = result.index ∧
        AnswersAt registry hooks userId steps world source result.output
  | 0, state, reaches, result, member, _ => by
      rcases reaches with ⟨_, _, runs⟩
      cases runs
      cases member
  | position + 1, next, reaches, result, member, isOk => by
      cases isStep : steps[position]? with
      | none =>
          have short : steps.length ≤ position := List.getElem?_eq_none_iff.mp isStep
          have same : Reaches registry hooks userId steps world position next := by
            rcases reaches with ⟨start, starts, runs⟩
            rw [List.take_of_length_le (by omega)] at runs
            refine ⟨start, starts, ?_⟩
            rw [List.take_of_length_le short]
            exact runs
          rcases same.answered result member isOk with ⟨source, earlier, found⟩
          exact ⟨source, by omega, found⟩
      | some step =>
          rcases reaches.previous isStep with ⟨state, before, executes⟩
          rcases executeStep_adds executes with ⟨added, results, answers⟩
          rw [results] at member
          rcases List.mem_append.mp member with old | new
          · rcases before.answered result old isOk with ⟨source, earlier, found⟩
            exact ⟨source, by omega, found⟩
          · cases List.mem_singleton.mp new
            rcases answers isOk with ⟨sameIndex, answer⟩
            exact ⟨position, by omega, step, isStep, sameIndex.symm, step, state, isStep, before,
              answer⟩

/-! ## The calls of a step -/

theorem runCalls_at : ∀ {rest : List WorkflowStep} {state : ExecutionState ω} {position : Nat}
    {made : List HandlerCall},
    (runCalls registry hooks userId steps rest state)[position]? = some made →
    ∃ step middle, rest[position]? = some step ∧
      (Work.forEach (executeStep registry hooks userId steps) (rest.take position)
        state).outcome = .ok middle ∧
      made = roundCalls registry hooks userId steps step middle
  | [], _, _, _, found => by cases found
  | step :: rest, state, 0, made, found => by
      cases found
      exact ⟨step, state, rfl, rfl, rfl⟩
  | step :: rest, state, position + 1, made, found => by
      rw [runCalls, List.getElem?_cons_succ] at found
      cases executes : (executeStep registry hooks userId steps step state).outcome with
      | error error =>
          rw [executes] at found
          cases found
      | ok next =>
          rw [executes] at found
          rcases runCalls_at found with ⟨later, middle, isLater, runs, isMade⟩
          refine ⟨later, middle, isLater, ?_, isMade⟩
          rw [List.take_succ_cons, Work.forEach, Work.outcome_bind, executes]
          exact runs

/-- The calls of the step at `position` are those of its round, where the execution comes
to it. -/
theorem executionCalls_at {position : Nat} {made : List HandlerCall}
    (found : (executionCalls registry hooks userId steps world)[position]? = some made) :
    ∃ step state, steps[position]? = some step ∧
      Reaches registry hooks userId steps world position state ∧
      made = roundCalls registry hooks userId steps step state := by
  rw [executionCalls] at found
  cases starts : hooks .beforeExecution ⟨userId, steps, none, none, none⟩ world with
  | error message =>
      rw [starts] at found
      cases found
  | ok start =>
      rw [starts] at found
      rcases runCalls_at found with ⟨step, state, isStep, runs, isMade⟩
      exact ⟨step, state, isStep, ⟨start, starts, runs⟩, isMade⟩

theorem roundCalls_callOf {step : WorkflowStep} {state : ExecutionState ω} :
    ∀ call ∈ roundCalls registry hooks userId steps step state,
      CallOf userId state.results step call.invocation := by
  intro call member
  rw [roundCalls] at member
  split at member
  · cases member
  · split at member
    · cases member
    · exact attemptCalls_resolve call member

end Reaching

/-! ## Steps under their positions -/

section Positions

variable {ω : Type}

/-- The number of each step is its position. -/
def AtPositions (steps : List WorkflowStep) : Prop :=
  ∀ (position : Nat) (step : WorkflowStep), steps[position]? = some step → step.index = position

theorem classifySteps_atPositions {registry : SkillRegistry ω} {planned : List PlannedStep}
    {steps : List WorkflowStep} (classified : classifySteps planned registry = .ok steps) :
    AtPositions steps :=
  (classifySteps_ok classified).2.2

variable [PythonText]

theorem applySelection_atPositions {items : List Arguments} {registry : SkillRegistry ω}
    {steps expanded : List WorkflowStep}
    (applied : applySelection steps items registry = .ok expanded) : AtPositions expanded := by
  simp only [applySelection, bind_eq_ok, pure_eq_ok] at applied
  rcases applied with ⟨expansion, runs, rfl⟩
  apply forEach_keeps_mem (fun state => AtPositions state.expanded) _ _ runs
  · intro step _ before after atPositions expands position each found
    simp only [expandStep, bind_eq_ok, pure_eq_ok] at expands
    rcases expands with ⟨resolved, _, rfl⟩
    rcases Nat.lt_or_ge position before.expanded.length with inside | beyond
    · rw [List.getElem?_append_left inside] at found
      exact atPositions position each found
    · rw [List.getElem?_append_right beyond, List.getElem?_mapIdx, Option.map_eq_some_iff] at found
      rcases found with ⟨arguments, _, rfl⟩
      show before.expanded.length + (position - before.expanded.length) = position
      omega
  · intro position each found
    cases found

end Positions

/-! ## The pending plan -/

namespace WorkflowService

variable [PythonText] {ω : Type} {service : WorkflowService ω} {request : ChatRequest}
  {steps : List WorkflowStep}

theorem autoExecute_shows {plan : PlanResult} {state after : AssistantState ω}
    {response : ChatResponse} {view : WorkflowPlanView}
    (ran : (service.autoExecute request plan steps state).outcome = .ok (response, after))
    (shows : response.plan = some view) : view.workflowId = none := by
  simp only [autoExecute, Work.outcome_bind, bind_eq_ok] at ran
  rcases ran with ⟨⟨results, world⟩, _, ran⟩
  split at ran
  · cases ran
    cases shows
    rfl
  · simp only [Work.outcome_bind, bind_eq_ok] at ran
    rcases ran with ⟨⟨replanned, later⟩, replans, ran⟩
    cases ran
    cases replanned with
    | none =>
        cases shows
        rfl
    | some answer =>
        simp only [replanAfterFailure, Work.outcome_bind, bind_eq_ok] at replans
        rcases replans with ⟨replan, _, replans⟩
        split at replans
        · cases replans
        · simp only [Work.outcome_bind, bind_eq_ok] at replans
          rcases replans with ⟨again, _, replans⟩
          split at replans
          · cases replans
          · simp only [Work.outcome_bind, bind_eq_ok] at replans
            rcases replans with ⟨_, _, replans⟩
            cases replans
            cases shows
            rfl

/-- The plan that `chat` shows for approval waits under the new id, with its steps under
their positions. -/
theorem chat_waits {state after : AssistantState ω} {response : ChatResponse}
    (ran : (service.chat request state).outcome = .ok (response, after))
    (shows : response.plan = some ⟨some request.newId, "pending_approval", steps⟩) :
    AtPositions steps ∧ ∃ row, after.find? request.userId request.newId .pending = some row ∧
      row.id = request.newId ∧ row.steps = steps.map WorkflowStep.dump := by
  rw [chat] at ran
  split at ran
  · cases ran
    cases shows
  · simp only [Work.outcome_bind, bind_eq_ok] at ran
    rcases ran with ⟨plan, _, ran⟩
    split at ran
    · cases ran
      cases shows
    · simp only [Work.outcome_bind, bind_eq_ok] at ran
      rcases ran with ⟨⟨final, world⟩, _, ran⟩
      simp only [followPlan, Work.outcome_bind, bind_eq_ok] at ran
      rcases ran with ⟨classified, classifies, ran⟩
      split at ran
      · cases ran
        cases shows
      · simp only [Work.outcome_bind, bind_eq_ok] at ran
        rcases ran with ⟨selected, selects, ran⟩
        split at ran
        · cases autoExecute_shows ran shows
        · simp only [Work.outcome_of, createPending, AssistantState.addWorkflow, bind_eq_ok,
            orRaise_eq_ok, pure_eq_ok] at ran
          rcases ran with ⟨_, ⟨workflows, inserted, rfl⟩, isReply⟩
          cases isReply
          cases shows
          constructor
          · split at selects
            · exact applySelection_atPositions selects
            · cases selects
              exact classifySteps_atPositions classifies
          · have member := (Table.mem_of_insert? inserted).mpr (.inr rfl)
            have found := Table.find?_key member
            exact ⟨_, Option.filter_eq_some_iff.mpr ⟨found, decide_eq_true ⟨rfl, rfl⟩⟩, rfl, rfl⟩

/-- `confirm` of a plan that waits executes its steps. -/
theorem confirm_commands_of_waiting {userId workflowId : Uuid} {state final : AssistantState ω}
    {row : AssistantWorkflow} {response : ConfirmResponse}
    (waits : state.find? userId workflowId .pending = some row)
    (dumped : row.steps = steps.map WorkflowStep.dump)
    (confirms : (service.confirm userId workflowId state).outcome = .ok (response, final)) :
    (service.confirm userId workflowId state).commands = .executes userId steps ::
      (executionCalls service.registry service.hooks userId steps
        state.world).flatten.map HandlerCall.command := by
  have reads : row.steps.mapM WorkflowStep.validate = some steps := by
    rw [dumped, mapM_dump WorkflowStep.validate_dump, List.map_id']
  have isRow : orRaise (state.find? userId workflowId .pending)
      (AssistantError.app (.notFound "Pending workflow not found")) = .ok row :=
    orRaise_eq_ok.mpr waits
  have areSteps : orRaise (row.steps.mapM WorkflowStep.validate) AssistantError.validation =
      .ok steps := orRaise_eq_ok.mpr reads
  simp only [confirm, Work.outcome_bind, Work.outcome_of, bind_eq_ok] at confirms
  rcases confirms with ⟨_, isRow', _, areSteps', ⟨results, world⟩, executes, _⟩
  cases isRow.symm.trans isRow'
  cases areSteps.symm.trans areSteps'
  simp only [confirm, Work.commands_bind, Work.outcome_of, Work.commands_of, isRow, areSteps,
    executes, Work.commands_pure, List.nil_append, List.append_nil]
  exact executionCalls_commands executes

end WorkflowService

/-! ## What is shown -/

section Showing

/-- The items that `_observed` numbers. -/
def observedItems (output : Value) : List (Nat × Arguments) :=
  let items := match output with
    | .object fields => (Arguments.get? fields "items").getD .null
    | output => output
  match items with
  | .list elements => (elements.take 40).zipIdx.filterMap fun (element, position) =>
      match element with
      | .object fields =>
          match Arguments.get? fields "name" with
          | some (.string _) => some (position, fields)
          | _ => none
      | _ => none
  | _ => []

/-- The path to a field of an element of what `_observed` numbers, `items.2.id`. -/
def elementParts (output : Value) (part field : String) : List String :=
  match output with
  | .object _ => ["items", part, field]
  | _ => [part, field]

theorem observedItems_element {output : Value} {place : Nat} {item : Arguments}
    (shown : (place, item) ∈ observedItems output) : ∃ elements : List Value,
      elements[place]? = some (.object item) ∧ (output = .list elements ∨ ∃ fields,
        output = .object fields ∧ Arguments.get? fields "items" = some (.list elements)) := by
  have inList : ∀ elements : List Value, (place, item) ∈ ((elements.take 40).zipIdx.filterMap
      fun (element, position) =>
        match element with
        | .object fields =>
            match Arguments.get? fields "name" with
            | some (.string _) => some (position, fields)
            | _ => none
        | _ => none) → elements[place]? = some (.object item) := by
    intro elements among
    rcases List.mem_filterMap.mp among with ⟨⟨element, position⟩, member, kept⟩
    have stands := List.mk_mem_zipIdx_iff_getElem?.mp member
    dsimp only at kept
    split at kept
    · split at kept
      · cases kept
        rw [List.getElem?_take] at stands
        split at stands
        · exact stands
        · cases stands
      · cases kept
    · cases kept
  cases output with
  | list elements => exact ⟨elements, inList elements shown, .inl rfl⟩
  | object fields =>
      cases isItems : Arguments.get? fields "items" with
      | none => simp [observedItems, isItems] at shown
      | some items =>
          simp only [observedItems, isItems, Option.getD_some] at shown
          cases items with
          | list elements => exact ⟨elements, inList elements shown, .inr ⟨fields, rfl, isItems⟩⟩
          | null | bool | int | float | string | object => cases shown
  | null | bool | int | float | string => cases shown

variable [PythonText]

/-- The number of an item leads to it. -/
theorem observedItems_resolve {output id : Value} {place : Nat} {item : Arguments}
    {part field : String} (shown : (place, item) ∈ observedItems output)
    (isPlace : PythonText.int part = some (place : Int)) (isField : item.get? field = some id) :
    output.resolveParts (elementParts output part field) = .ok id := by
  rcases observedItems_element shown with ⟨elements, stands, whole⟩
  have element : Value.descend (.list elements) part = .ok (.object item) := by
    rw [Value.descend, isPlace, Option.bind_some, Value.elementAt, if_pos (Int.natCast_nonneg _),
      Int.toNat_natCast, stands]
  rcases whole with isList | ⟨fields, isObject, isItems⟩
  · have isParts : elementParts output part field = [part, field] := by
      rw [isList]
      rfl
    rw [isParts, isList, Value.resolveParts, List.foldlM_cons, element, ok_bind,
      List.foldlM_cons, Value.descend, isField]
    rfl
  · rw [isObject, elementParts, Value.resolveParts, List.foldlM_cons, Value.descend, isItems,
      ok_bind, List.foldlM_cons, element, ok_bind, List.foldlM_cons, Value.descend, isField]
    rfl

end Showing

/-! ## What is executed -/

namespace WorkflowService

variable [PythonText] {ω : Type} {service : WorkflowService ω} {request : ChatRequest}
  {steps : List WorkflowStep} {results : List StepResult}

/-- The plan continues what was observed and waits for approval. -/
structure Continues (service : WorkflowService ω) (request : ChatRequest)
    (state : AssistantState ω) (results : List StepResult) (steps : List WorkflowStep)
    (pending : AssistantState ω) : Prop where
  observed : ∃ first kept followup, request.planner .first = .ok first ∧
    service.Observed request first state.world results kept ∧
    request.planner (.followup results kept) = .ok followup ∧ followup.steps ≠ []
  shown : ∃ response, (service.chat request state).outcome = .ok (response, pending) ∧
    response.plan = some ⟨some request.newId, "pending_approval", steps⟩

/-- The argument `key` of the step at `position` is a reference to the element at `place` of
the output of the read step at `source`, where the reconnaissance showed this item. -/
structure Targets (results : List StepResult) (steps : List WorkflowStep) (position : Nat)
    (key : String) (source : Nat) (parts : List String) (item : Arguments) : Prop where
  argument : ∃ step raw, steps[position]? = some step ∧ (key, raw) ∈ step.arguments ∧
    (∀ other, (key, other) ∈ step.arguments → other = raw) ∧
    raw.refStep? = some (source : Int) ∧ wildcardSplit raw.refPath = none ∧
    Value.pathParts raw.refPath = parts
  shown : ∃ result place part, results[source]? = some result ∧ result.ok = true ∧
    (place, item) ∈ observedItems result.output ∧ PythonText.int part = some (place : Int) ∧
    parts = elementParts result.output part "id"

/-- In this world the read step leads at these parts of a path to the value, where an
execution of the plan comes to it. -/
def StillLeads (service : WorkflowService ω) (userId : Uuid) (steps : List WorkflowStep)
    (world : ω) (source : Nat) (parts : List String) (value : Value) : Prop :=
  ∀ output, AnswersAt service.registry service.hooks userId steps world source output →
    output.resolveParts parts = .ok value

/-- The calls that an execution of the plan makes for the step at `position`. -/
def callsAt (service : WorkflowService ω) (userId : Uuid) (steps : List WorkflowStep) (world : ω)
    (position : Nat) : List HandlerCall :=
  ((executionCalls service.registry service.hooks userId steps world)[position]?).getD []

/-- Every call has this value under the key. -/
def AppliedTo (key : String) (value : Value) (calls : List HandlerCall) : Prop :=
  ∀ call ∈ calls, ∀ field ∈ call.invocation.arguments, field.1 = key → field.2 = value

/-- A call of a step takes the argument out of the output with which the step it refers to
answers in the same execution. -/
theorem callsAt_taken (service : WorkflowService ω) (userId : Uuid) (world : ω)
    {position source : Nat} {key : String} {parts : List String} {item : Arguments}
    (atPositions : AtPositions steps)
    (targets : Targets results steps position key source parts item) :
    ∀ call ∈ service.callsAt userId steps world position,
      (∃ field ∈ call.invocation.arguments, field.1 = key) ∧
      ∀ field ∈ call.invocation.arguments, field.1 = key → ∃ output,
        AnswersAt service.registry service.hooks userId steps world source output ∧
          output.resolveParts parts = .ok field.2 := by
  intro call member
  rw [callsAt] at member
  cases found : (executionCalls service.registry service.hooks userId steps world)[position]? with
  | none =>
      rw [found] at member
      cases member
  | some made =>
      rw [found, Option.getD_some] at member
      rcases executionCalls_at found with ⟨step, state, isStep, reaches, rfl⟩
      rcases targets.argument with
        ⟨step', raw, isStep', among, only, isRef, single, isParts⟩
      cases isStep.symm.trans isStep'
      have callOf := roundCalls_callOf call member
      constructor
      · have has := callOf.arguments.complete _ among
        rcases List.any_eq_true.mp has with ⟨field, inCall, isKey⟩
        exact ⟨field, inCall, of_decide_eq_true isKey⟩
      · intro field inCall isKey
        rcases callOf.arguments.supplied field inCall with ⟨raw', among', supplied⟩
        rw [isKey] at among'
        rw [only raw' among', SuppliedBy, isRef] at supplied
        rcases supplied with ⟨result, isResult, isOk, isSource, taken⟩
        rw [TakenFrom, single, Value.resolvePath, isParts] at taken
        rcases reaches.answered result isResult isOk with ⟨found, _, earlier, isEarlier, sameIndex,
          answers⟩
        have same : found = source := by
          rw [← atPositions found earlier isEarlier, sameIndex]
          exact Int.ofNat.inj isSource
        exact ⟨result.output, same ▸ answers, taken⟩

/-- Where a write takes its target out of a read step, it is applied to what the
reconnaissance showed exactly when, in the drive as it is at the confirmation, the path still
leads to it. -/
theorem confirm_applies_iff {state pending later : AssistantState ω}
    (continues : service.Continues request state results steps pending)
    (waits : later.find? request.userId request.newId .pending =
      pending.find? request.userId request.newId .pending)
    {position source : Nat} {key : String} {parts : List String} {item : Arguments} {id : Value}
    (targets : Targets results steps position key source parts item)
    (isId : item.get? "id" = some id) :
    (∃ result, results[source]? = some result ∧ result.output.resolveParts parts = .ok id) ∧
    (∀ response final,
      (service.confirm request.userId request.newId later).outcome = .ok (response, final) →
      (service.confirm request.userId request.newId later).commands =
        .executes request.userId steps ::
          (executionCalls service.registry service.hooks request.userId steps
            later.world).flatten.map HandlerCall.command) ∧
    (AppliedTo key id (service.callsAt request.userId steps later.world position) ↔
      (service.callsAt request.userId steps later.world position ≠ [] →
        service.StillLeads request.userId steps later.world source parts id)) := by
  rcases continues.shown with ⟨reply, chats, shows⟩
  rcases chat_waits chats shows with ⟨atPositions, row, isRow, _, dumped⟩
  refine ⟨?_, ?_, ?_⟩
  · rcases targets.shown with ⟨result, place, part, isResult, _, isShown, isPlace, isParts⟩
    refine ⟨result, isResult, ?_⟩
    rw [isParts]
    exact observedItems_resolve isShown isPlace isId
  · intro response final confirms
    exact confirm_commands_of_waiting (waits.trans isRow) dumped confirms
  · have taken := callsAt_taken service request.userId later.world atPositions targets
    constructor
    · intro applied called output answers
      rcases List.exists_mem_of_ne_nil _ called with ⟨call, member⟩
      rcases taken call member with ⟨⟨field, inCall, isKey⟩, leads⟩
      rcases leads field inCall isKey with ⟨again, answersAgain, leadsTo⟩
      rw [applied call member field inCall isKey] at leadsTo
      rw [answersAgain.unique answers]
      exact leadsTo
    · intro leads call member field inCall isKey
      rcases (taken call member).2 field inCall isKey with ⟨output, answers, leadsTo⟩
      have still := leads (List.ne_nil_of_mem member) output answers
      exact Except.ok.inj (leadsTo.symm.trans still)

end WorkflowService

/-! ## An upload before the confirmation

The user asks to trash the first file. The reconnaissance shows `notes`, and `invoice` is
uploaded before the plan is confirmed. -/

section Invoice

private def decimal (text : String) : Option Nat :=
  if text = "" then
    none
  else
    text.toList.foldl (fun number digit => number.bind fun number =>
      if digit.isDigit then some (10 * number + (digit.toNat - 48)) else none) (some 0)

/-- Enough of Python for the numbers in paths. -/
@[reducible] private def decimalText : PythonText :=
  { smallPythonText with int := fun text => (decimal text).map Int.ofNat }

attribute [local instance] smallPlatform smallCollation decimalText

private def dumpedItem (item : DriveItem) : Value :=
  .object [("id", .string (toString item.id)), ("name", .string item.name),
    ("item_type", .string (if item.itemType = .folder then "FOLDER" else "FILE"))]

/-- `list_items` without arguments. -/
private def listRoot : RegisteredSkill System where
  name := "list_items"
  permissionTier := "read"
  requiresSelection := false
  handler userId _ sys :=
    match DriveService.listItems userId none 1 20 .name .asc sys with
    | .ok (items, total) =>
        (.ok (.object [("items", .list (items.map dumpedItem)), ("total", .int total)]), sys)
    | .error _ => (.error "Folder not found", sys)

private def trashGiven : RegisteredSkill System where
  name := "trash_item"
  permissionTier := "destructive"
  requiresSelection := false
  handler userId arguments sys :=
    match arguments.get? "item_id" with
    | some (.string text) =>
        match (decimal text).map fun itemId => TrashService.trashItem userId itemId sys with
        | some (.ok trashed) => (.ok .null, trashed)
        | _ => (.error "Item not found", sys)
    | _ => (.error "Missing required UUID argument: item_id", sys)

private def fileService : WorkflowService System where
  registry := ⟨[listRoot, trashGiven], by decide⟩
  hooks _ _ world := .ok world
  twoPhasePlanning := true

private def firstFile : Value := .object [("from", .int 0), ("path", .string "items.0.id")]

private def asksToTrash : ChatRequest where
  userId := 1
  sessionId := 2
  message := "trash the first file"
  authored := none
  selectedItems := []
  planner asked := .ok (match asked with
    | .first => ⟨"looking", [⟨"list_items", [], []⟩], true⟩
    | .followup _ _ => ⟨"trashing notes", [⟨"trash_item", [("item_id", firstFile)], [0]⟩], false⟩
    | .replan _ => ⟨"", [], false⟩)
  newId := 3

private def withNotes : System :=
  afterFirstDay [.uploadSimple 1 none "notes" [[65]] 1 none]

private def withInvoice : System :=
  afterFirstDay [.uploadSimple 1 none "notes" [[65]] 1 none,
    .uploadSimple 1 none "invoice" [[66]] 1 none]

private def withReport : System :=
  afterFirstDay [.uploadSimple 1 none "notes" [[65]] 1 none,
    .uploadSimple 1 none "report" [[66]] 1 none]

private def beforeChat : AssistantState System := ⟨.empty, [], withNotes⟩

private def afterChat : AssistantState System :=
  match (fileService.chat asksToTrash beforeChat).outcome with
  | .ok (_, after) => after
  | .error _ => beforeChat

private def trashSteps : List WorkflowStep :=
  [⟨0, "list_items", [], [], "read", false⟩,
    ⟨1, "trash_item", [("item_id", firstFile)], [0], "destructive", true⟩]

private def notes : Arguments :=
  [("id", .string "11"), ("name", .string "notes"), ("item_type", .string "FILE")]

private def notesListed : List StepResult :=
  [⟨0, "list_items", true, .object [("items", .list [.object notes]), ("total", .int 1)], none,
    false⟩]

private theorem trash_continues :
    fileService.Continues asksToTrash beforeChat notesListed trashSteps afterChat where
  observed := by
    refine ⟨_, [⟨"list_items", [], []⟩], _, rfl, ?_, rfl, by decide⟩
    constructor
    case looks => exact ⟨rfl, rfl, .inl rfl⟩
    case ran =>
      exact ⟨[⟨0, "list_items", [], [], "read", false⟩], [0],
        [⟨0, "list_items", [], [], "read", false⟩], _, rfl, rfl, by decide, rfl, rfl, rfl⟩
  shown := ⟨_, rfl, rfl⟩

private theorem trash_targets :
    WorkflowService.Targets notesListed trashSteps 1 "item_id" 0 ["items", "0", "id"] notes where
  argument := by
    refine ⟨_, firstFile, rfl, List.mem_singleton_self _, ?_, rfl, rfl, rfl⟩
    intro other member
    cases List.mem_singleton.mp member
    rfl
  shown := ⟨_, 0, "0", rfl, rfl, List.mem_singleton_self _, rfl, rfl⟩

/-- A file that is listed after `notes` does not matter. -/
theorem WorkflowService.confirm_applies_iff_notes :
    AppliedTo "item_id" (.string "11") (fileService.callsAt 1 trashSteps withReport 1) ∧
      fileService.StillLeads 1 trashSteps withReport 0 ["items", "0", "id"] (.string "11") := by
  have waits : (afterChat.withWorld withReport).find? 1 3 .pending =
      afterChat.find? 1 3 .pending := rfl
  have applies := (confirm_applies_iff trash_continues waits trash_targets rfl).2.2
  have calls : fileService.callsAt 1 trashSteps withReport 1 =
      [⟨⟨1, "trash_item", [("item_id", .string "11")]⟩, true⟩] := rfl
  have applied : AppliedTo "item_id" (.string "11")
      (fileService.callsAt 1 trashSteps withReport 1) := by
    rw [calls]
    intro call member field inCall _
    cases List.mem_singleton.mp member
    cases List.mem_singleton.mp inCall
    rfl
  have called : fileService.callsAt 1 trashSteps withReport 1 ≠ [] := by
    rw [calls]
    exact List.cons_ne_nil _ _
  exact ⟨applied, applies.mp applied called⟩

/-- The plan shows `notes` and the call trashes `invoice`. -/
theorem WorkflowService.invoice_trashed :
    fileService.Continues asksToTrash beforeChat notesListed trashSteps afterChat ∧
      Targets notesListed trashSteps 1 "item_id" 0 ["items", "0", "id"] notes ∧
      ((afterChat.withWorld withInvoice).find? 1 3 .pending) = afterChat.find? 1 3 .pending ∧
      fileService.callsAt 1 trashSteps withInvoice 1 =
        [⟨⟨1, "trash_item", [("item_id", .string "13")]⟩, true⟩] ∧
      ¬ AppliedTo "item_id" (.string "11") (fileService.callsAt 1 trashSteps withInvoice 1) := by
  have calls : fileService.callsAt 1 trashSteps withInvoice 1 =
      [⟨⟨1, "trash_item", [("item_id", .string "13")]⟩, true⟩] := rfl
  refine ⟨trash_continues, trash_targets, rfl, calls, ?_⟩
  intro applied
  rw [calls] at applied
  have same : Value.string "13" = .string "11" :=
    applied _ (List.mem_singleton_self _) _ (List.mem_singleton_self _) rfl
  exact absurd (Value.string.inj same) (by decide)

end Invoice

end CloudDrive
