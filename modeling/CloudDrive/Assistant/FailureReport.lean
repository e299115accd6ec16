import CloudDrive.Assistant.ConfirmationGate

/-! # The report of a failed workflow

The report counts steps. A step that fans out makes one call for each element, and is
recorded as failed when one of them raises, whatever the calls before it did. -/

namespace CloudDrive

open Outcome Interruption

/-! ## The calls of an execution -/

/-- A call of a handler, and whether it returned. -/
structure HandlerCall where
  invocation : Invocation
  succeeded : Bool

section Calls

variable {ω : Type} (registry : SkillRegistry ω) (hooks : HookRegistry ω) (userId : Uuid)

/-- The calls for one set of arguments after the other, up to the first that raises. -/
def callsOf (name : String) : List Arguments → ω → List HandlerCall
  | [], _ => []
  | arguments :: rest, world =>
      match registry.get? name with
      | none => []
      | some skill =>
          match skill.handler userId arguments world with
          | (.error _, _) => [⟨⟨userId, name, arguments⟩, false⟩]
          | (.ok _, after) => ⟨⟨userId, name, arguments⟩, true⟩ :: callsOf name rest after

variable [PythonText]

/-- The calls of `attempt`. -/
def attemptCalls (results : List StepResult) (step : WorkflowStep) (world : ω) :
    List HandlerCall :=
  if hasFanout step.arguments then
    match resolveFanoutArguments results step.arguments with
    | .error _ => []
    | .ok argSets => callsOf registry userId step.skill argSets world
  else
    match resolveArguments results step.arguments with
    | .error _ => []
    | .ok arguments => callsOf registry userId step.skill [arguments] world

/-- The calls of one round of the loop of `execute`. -/
def roundCalls (steps : List WorkflowStep) (step : WorkflowStep) (state : ExecutionState ω) :
    List HandlerCall :=
  match blockedDependencies step state.unavailable with
  | _ :: _ => []
  | [] =>
      match hooks .beforeStep ⟨userId, steps, some step, none, none⟩ state.world with
      | .error _ => []
      | .ok world => attemptCalls registry userId state.results step world

/-- The calls of each round. -/
def runCalls (steps : List WorkflowStep) :
    List WorkflowStep → ExecutionState ω → List (List HandlerCall)
  | [], _ => []
  | step :: rest, state =>
      roundCalls registry hooks userId steps step state ::
        match (executeStep registry hooks userId steps step state).outcome with
        | .error _ => []
        | .ok next => runCalls steps rest next

/-- The calls of `execute`, step by step. -/
def executionCalls (steps : List WorkflowStep) (world : ω) : List (List HandlerCall) :=
  match hooks .beforeExecution ⟨userId, steps, none, none, none⟩ world with
  | .error _ => []
  | .ok world => runCalls registry hooks userId steps steps ⟨[], [], world⟩

end Calls

/-! ## One step -/

section Step

variable {ω : Type} {registry : SkillRegistry ω} {hooks : HookRegistry ω} {userId : Uuid}

def HandlerCall.command (call : HandlerCall) : AssistantCommand :=
  .invokes call.invocation

/-- The handler raises for none of the arguments, one after the other. -/
def NoneRaises (skill : RegisteredSkill ω) (userId : Uuid) : List Arguments → ω → Prop
  | [], _ => True
  | arguments :: rest, world =>
      ∃ output after, skill.handler userId arguments world = (.ok output, after) ∧
        NoneRaises skill userId rest after

/-- The first call raises, if there is one. -/
def FirstRaises (skill : RegisteredSkill ω) (userId : Uuid) (argSets : List Arguments)
    (world : ω) : Prop :=
  ∀ arguments ∈ argSets.head?, ∃ message after,
    skill.handler userId arguments world = (.error message, after)

theorem execute_yields {name : String} {skill : RegisteredSkill ω}
    (found : registry.get? name = some skill) (userId : Uuid) (arguments : Arguments)
    (world : ω) :
    (registry.execute userId name arguments world).Yields [.invokes ⟨userId, name, arguments⟩]
      (skill.handler userId arguments world) := by
  rw [SkillRegistry.execute, found]
  exact (Work.yields_command _).bind (Work.yields_pure _)

theorem execute_unknown {name : String} (unknown : registry.get? name = none) (userId : Uuid)
    (arguments : Arguments) (world : ω) :
    (registry.execute userId name arguments world).Yields []
      (.error s!"Unknown assistant skill: {name}", world) := by
  rw [SkillRegistry.execute, unknown]
  exact Work.yields_pure _

theorem callsOf_skill {name : String} : ∀ {argSets : List Arguments} {world : ω},
    ∀ call ∈ callsOf registry userId name argSets world, call.invocation.skill = name
  | [], _, call, member => by cases member
  | arguments :: rest, world, call, member => by
      rw [callsOf] at member
      split at member
      · cases member
      · split at member
        · rw [List.mem_singleton.mp member]
        · rcases List.mem_cons.mp member with rfl | later
          · rfl
          · exact callsOf_skill call later

theorem callsOf_succeeds {name : String} {skill : RegisteredSkill ω}
    (found : registry.get? name = some skill) {argSets : List Arguments} {world : ω} :
    (∃ call ∈ callsOf registry userId name argSets world, call.succeeded = true) ↔
      ¬ FirstRaises skill userId argSets world := by
  cases argSets with
  | nil => simp [callsOf, FirstRaises]
  | cons arguments rest =>
      rw [callsOf, found]
      rcases answered : skill.handler userId arguments world with ⟨message | output, after⟩
      · simp [FirstRaises, answered]
      · simp [FirstRaises, answered]

/-- A fan-out makes the calls up to the first that raises. -/
theorem executeEach_yields {name : String} {skill : RegisteredSkill ω}
    (found : registry.get? name = some skill) (userId : Uuid) :
    ∀ (argSets : List Arguments) (world : ω),
      ∃ answer after, (executeEach registry userId name argSets world).Yields
          ((callsOf registry userId name argSets world).map HandlerCall.command) (answer, after) ∧
        ((∃ outputs, answer = .ok outputs) ↔ NoneRaises skill userId argSets world)
  | [], world => ⟨_, _, Work.yields_pure _, ⟨fun _ => trivial, fun _ => ⟨[], rfl⟩⟩⟩
  | arguments :: rest, world => by
      have first := execute_yields found userId arguments world
      rcases answered : skill.handler userId arguments world with ⟨message | output, after⟩
      · have calls : callsOf registry userId name (arguments :: rest) world =
            [⟨⟨userId, name, arguments⟩, false⟩] := by
          simp only [callsOf, found, answered]
        rw [answered] at first
        rw [executeEach, calls]
        apply Exists.intro (.error message)
        apply Exists.intro after
        constructor
        · apply Work.Yields.bind first
          exact Work.yields_pure _
        · simp [NoneRaises, answered]
      · have calls : callsOf registry userId name (arguments :: rest) world =
            ⟨⟨userId, name, arguments⟩, true⟩ :: callsOf registry userId name rest after := by
          simp only [callsOf, found, answered]
        rw [answered] at first
        rw [executeEach, calls]
        rcases executeEach_yields found userId rest after with ⟨answer, final, later, isOk⟩
        apply Exists.intro (answer.map (output :: ·))
        apply Exists.intro final
        constructor
        · rw [← List.append_nil (callsOf registry userId name rest after), List.map_cons,
            List.map_append]
          apply Work.Yields.bind first
          apply Work.Yields.bind later
          exact Work.yields_pure _
        · have same : NoneRaises skill userId (arguments :: rest) world ↔
              NoneRaises skill userId rest after := by
            simp [NoneRaises, answered]
          rw [same, ← isOk]
          cases answer <;> simp [Except.map]

theorem callsOf_unknown {name : String} (unknown : registry.get? name = none) :
    ∀ (argSets : List Arguments) (world : ω), callsOf registry userId name argSets world = []
  | [], _ => rfl
  | _ :: _, _ => by rw [callsOf, unknown]

theorem executeEach_unknown {name : String} (unknown : registry.get? name = none)
    (userId : Uuid) (argSets : List Arguments) (world : ω) :
    ∃ answer after, (executeEach registry userId name argSets world).Yields [] (answer, after) := by
  cases argSets with
  | nil => exact ⟨_, _, Work.yields_pure _⟩
  | cons arguments rest =>
      apply Exists.intro (.error s!"Unknown assistant skill: {name}")
      apply Exists.intro world
      rw [executeEach, ← List.append_nil []]
      apply Work.Yields.bind (execute_unknown unknown userId arguments world)
      exact Work.yields_pure _

variable (registry userId) in
/-- Of the calls of a fan-out that writes, the first raises or none does. -/
def WholeFanout (name : String) (argSets : List Arguments) (world : ω) : Prop :=
  ∀ skill, registry.get? name = some skill → skill.permissionTier ≠ readTier →
    FirstRaises skill userId argSets world ∨ NoneRaises skill userId argSets world

variable (registry) in
/-- A call that returned and may have changed something belongs to a completed step. -/
def Attributed (calls : List HandlerCall) (completed : Bool) : Prop :=
  ∀ call ∈ calls, call.succeeded = true → ¬ registry.Reads call.invocation.skill →
    completed = true

theorem fanout_attributed {name : String} {argSets : List Arguments} {world after : ω}
    {answer : Except String (List Value)}
    (runs : (executeEach registry userId name argSets world).outcome = .ok (answer, after)) :
    Attributed registry (callsOf registry userId name argSets world) answer.isOk ↔
      WholeFanout registry userId name argSets world := by
  cases found : registry.get? name with
  | none =>
      rw [callsOf_unknown found]
      constructor
      · intro _ skill isSkill
        rw [found] at isSkill
        cases isSkill
      · intro _ call member
        cases member
  | some skill =>
      rcases executeEach_yields found userId argSets world with
        ⟨other, final, yields, isOk⟩
      cases yields.unique runs
      have succeeds : (∃ call ∈ callsOf registry userId name argSets world,
          call.succeeded = true) ↔ ¬ FirstRaises skill userId argSets world :=
        callsOf_succeeds found
      have reads : registry.Reads name ↔ skill.permissionTier = readTier := by
        simp [SkillRegistry.Reads, found]
      constructor
      · intro attributed other isOther writes
        cases found.symm.trans isOther
        by_cases first : FirstRaises skill userId argSets world
        · exact .inl first
        · rcases succeeds.mpr first with ⟨call, member, succeeded⟩
          have completed := attributed call member succeeded
          rw [callsOf_skill call member, reads] at completed
          right
          rw [← isOk]
          cases answer with
          | ok outputs => exact ⟨outputs, rfl⟩
          | error message => cases completed writes
      · intro whole call member succeeded writes
        rw [callsOf_skill call member, reads] at writes
        rcases whole skill found writes with first | none
        · exact absurd first (succeeds.mp ⟨call, member, succeeded⟩)
        · rcases isOk.mpr none with ⟨outputs, rfl⟩
          rfl

variable [PythonText]

/-- The step does not fan out, or it does so as a whole. -/
def WholeAttempt (registry : SkillRegistry ω) (userId : Uuid) (results : List StepResult)
    (step : WorkflowStep) (world : ω) : Prop :=
  hasFanout step.arguments = true →
    ∀ argSets, resolveFanoutArguments results step.arguments = .ok argSets →
      WholeFanout registry userId step.skill argSets world

theorem attempt_attributed {results : List StepResult} {step : WorkflowStep} {world after : ω}
    {answer : Except String Value}
    (runs : (attempt registry userId results step world).outcome = .ok (answer, after)) :
    Attributed registry (attemptCalls registry userId results step world) answer.isOk ↔
      WholeAttempt registry userId results step world := by
  rw [attempt] at runs
  rw [attemptCalls, WholeAttempt]
  by_cases fansOut : hasFanout step.arguments = true
  · rw [if_pos fansOut] at runs ⊢
    cases resolved : resolveFanoutArguments results step.arguments with
    | error message =>
        simp [Attributed]
    | ok argSets =>
        rw [resolved] at runs
        simp only [Work.outcome_bind, bind_eq_ok] at runs
        rcases runs with ⟨⟨outputs, final⟩, each, done⟩
        cases done
        have sameOk : (outputs.map fannedOut).isOk = outputs.isOk := by
          cases outputs <;> rfl
        simp only [sameOk, fanout_attributed each, fansOut, true_implies, Except.ok.injEq,
          forall_eq']
  · rw [if_neg fansOut] at runs ⊢
    apply iff_of_true _ fun isFanout => absurd isFanout fansOut
    cases resolved : resolveArguments results step.arguments with
    | error message =>
        intro call member
        cases member
    | ok arguments =>
        rw [resolved] at runs
        intro call member succeeded _
        change call ∈ callsOf registry userId step.skill [arguments] world at member
        cases found : registry.get? step.skill with
        | none =>
            rw [callsOf_unknown found] at member
            cases member
        | some skill =>
            have isAnswer := (execute_yields found userId arguments world).unique runs
            rcases answered : skill.handler userId arguments world with ⟨message | output, final⟩
            · simp only [callsOf, found, answered, List.mem_singleton] at member
              rw [member] at succeeded
              cases succeeded
            · rw [answered] at isAnswer
              cases isAnswer
              rfl

/-! ## Every step -/

/-- The round of a step that is not blocked does not fan out, or does it as a whole. -/
def WholeRound (registry : SkillRegistry ω) (hooks : HookRegistry ω) (userId : Uuid)
    (steps : List WorkflowStep) (step : WorkflowStep) (state : ExecutionState ω) : Prop :=
  blockedDependencies step state.unavailable = [] →
    ∀ world, hooks .beforeStep ⟨userId, steps, some step, none, none⟩ state.world = .ok world →
      WholeAttempt registry userId state.results step world

/-- Every round is whole in the state that it starts from. -/
def WholeRounds (registry : SkillRegistry ω) (hooks : HookRegistry ω) (userId : Uuid)
    (steps : List WorkflowStep) : List WorkflowStep → ExecutionState ω → Prop
  | [], _ => True
  | step :: rest, state =>
      WholeRound registry hooks userId steps step state ∧
        ∀ next, (executeStep registry hooks userId steps step state).outcome = .ok next →
          WholeRounds registry hooks userId steps rest next

omit [PythonText] in
theorem fire_ok {event : HookEvent} {context : HookContext} {world after : ω}
    (fires : (hooks.fire event context world).outcome = .ok after) :
    hooks event context world = .ok after := by
  rw [HookRegistry.fire, Work.outcome_of] at fires
  cases answered : hooks event context world with
  | error message => simp [answered] at fires
  | ok world => simpa [answered] using fires

/-- A round adds one result, and its calls are attributed when the round is whole. -/
theorem round_attributed {steps : List WorkflowStep} {step : WorkflowStep}
    {state next : ExecutionState ω}
    (runs : (executeStep registry hooks userId steps step state).outcome = .ok next) :
    ∃ result : StepResult, next.results = state.results ++ [result] ∧
      (Attributed registry (roundCalls registry hooks userId steps step state) result.ok ↔
        WholeRound registry hooks userId steps step state) := by
  rw [executeStep] at runs
  rw [roundCalls, WholeRound]
  cases blocked : blockedDependencies step state.unavailable with
  | cons first others =>
      rw [blocked] at runs
      cases runs
      exact ⟨_, rfl, by simp [Attributed]⟩
  | nil =>
      rw [blocked] at runs
      simp only [Work.outcome_bind, bind_eq_ok] at runs
      rcases runs with ⟨world, fires, ⟨answer, after⟩, attempts, finish⟩
      rw [fire_ok fires]
      have attributed := attempt_attributed attempts
      simp only [forall_const, Except.ok.injEq, forall_eq']
      cases answer with
      | error message =>
          simp only [Work.outcome_bind, bind_eq_ok] at finish
          rcases finish with ⟨final, _, done⟩
          cases done
          exact ⟨_, rfl, attributed⟩
      | ok output =>
          simp only [Work.outcome_bind, bind_eq_ok] at finish
          rcases finish with ⟨final, _, done⟩
          cases done
          exact ⟨_, rfl, attributed⟩

/-- The calls of each step are attributed to its result. -/
def AllAttributed (registry : SkillRegistry ω) (calls : List (List HandlerCall))
    (results : List StepResult) : Prop :=
  List.Forall₂ (fun stepCalls (result : StepResult) => Attributed registry stepCalls result.ok)
    calls results

theorem rounds_attributed {steps : List WorkflowStep} :
    ∀ {rest : List WorkflowStep} {state final : ExecutionState ω},
      (Work.forEach (executeStep registry hooks userId steps) rest state).outcome = .ok final →
      ∃ added, final.results = state.results ++ added ∧
        (AllAttributed registry (runCalls registry hooks userId steps rest state) added ↔
          WholeRounds registry hooks userId steps rest state)
  | [], state, final, runs => by
      cases runs
      exact ⟨[], (List.append_nil _).symm, by simp [AllAttributed, runCalls, WholeRounds]⟩
  | step :: rest, state, final, runs => by
      rw [Work.forEach, Work.outcome_bind, bind_eq_ok] at runs
      rcases runs with ⟨next, first, later⟩
      rcases round_attributed first with ⟨result, results, attributed⟩
      rcases rounds_attributed later with ⟨added, finalResults, restAttributed⟩
      apply Exists.intro (result :: added)
      constructor
      · rw [finalResults, results, List.append_assoc, List.singleton_append]
      · rw [runCalls, WholeRounds, first]
        simp only [AllAttributed, List.forall₂_cons, Except.ok.injEq, forall_eq']
        rw [attributed]
        exact and_congr_right' restAttributed

/-! ### The calls are the commands of the execution -/

theorem attempt_commands (results : List StepResult) (step : WorkflowStep) (world : ω) :
    (attempt registry userId results step world).commands =
      (attemptCalls registry userId results step world).map HandlerCall.command := by
  rw [attempt, attemptCalls]
  by_cases fansOut : hasFanout step.arguments = true
  · rw [if_pos fansOut, if_pos fansOut]
    cases resolveFanoutArguments results step.arguments with
    | error message => rfl
    | ok argSets =>
        cases found : registry.get? step.skill with
        | none =>
            rcases executeEach_unknown found userId argSets world with
              ⟨answer, after, yields⟩
            have none : ((executeEach registry userId step.skill argSets world) >>= fun answered =>
                (pure (answered.1.map fannedOut, answered.2) : Assistant _)).Yields _ _ :=
              yields.bind (Work.yields_pure _)
            simp only [callsOf_unknown found]
            exact none.commands
        | some skill =>
            rcases executeEach_yields found userId argSets world with
              ⟨answer, after, yields, _⟩
            have each : ((executeEach registry userId step.skill argSets world) >>= fun answered =>
                (pure (answered.1.map fannedOut, answered.2) : Assistant _)).Yields _ _ :=
              yields.bind (Work.yields_pure _)
            rw [List.append_nil] at each
            exact each.commands
  · rw [if_neg fansOut, if_neg fansOut]
    cases resolveArguments results step.arguments with
    | error message => rfl
    | ok arguments =>
        cases found : registry.get? step.skill with
        | none =>
            simp only [callsOf_unknown found]
            exact (execute_unknown found userId arguments world).commands
        | some skill =>
            have once := (execute_yields found userId arguments world).commands
            rcases answered : skill.handler userId arguments world with ⟨message | output, after⟩
            · simp only [callsOf, found, answered]
              exact once
            · simp only [callsOf, found, answered]
              exact once

theorem round_commands {steps : List WorkflowStep} {step : WorkflowStep}
    {state next : ExecutionState ω}
    (runs : (executeStep registry hooks userId steps step state).outcome = .ok next) :
    (executeStep registry hooks userId steps step state).commands =
      (roundCalls registry hooks userId steps step state).map HandlerCall.command := by
  rw [executeStep] at runs ⊢
  rw [roundCalls]
  cases blocked : blockedDependencies step state.unavailable with
  | cons first others => rfl
  | nil =>
      rw [blocked] at runs
      simp only [Work.outcome_bind, bind_eq_ok] at runs
      rcases runs with ⟨world, fires, ⟨answer, after⟩, attempts, finish⟩
      simp only [Work.commands_bind, fires, attempts, fire_ok fires, attempt_commands]
      cases answer with
      | error message =>
          simp only [Work.outcome_bind, bind_eq_ok] at finish
          rcases finish with ⟨final, lastFires, _⟩
          simp only [Work.commands_bind, lastFires]
          exact List.append_nil _
      | ok output =>
          simp only [Work.outcome_bind, bind_eq_ok] at finish
          rcases finish with ⟨final, lastFires, _⟩
          simp only [Work.commands_bind, lastFires]
          exact List.append_nil _

theorem rounds_commands {steps : List WorkflowStep} :
    ∀ {rest : List WorkflowStep} {state final : ExecutionState ω},
      (Work.forEach (executeStep registry hooks userId steps) rest state).outcome = .ok final →
      (Work.forEach (executeStep registry hooks userId steps) rest state).commands =
        (runCalls registry hooks userId steps rest state).flatten.map HandlerCall.command
  | [], _, _, _ => rfl
  | step :: rest, state, final, runs => by
      rw [Work.forEach, Work.outcome_bind, bind_eq_ok] at runs
      rcases runs with ⟨next, first, later⟩
      rw [Work.forEach, Work.commands_bind, runCalls, first, List.flatten_cons, List.map_append,
        round_commands first]
      exact congrArg _ (rounds_commands later)

/-- The calls of a completed execution are all that it does. -/
theorem executionCalls_commands {steps : List WorkflowStep} {world after : ω}
    {results : List StepResult}
    (executes : (executeSteps registry hooks userId steps world).outcome = .ok (results, after)) :
    (executeSteps registry hooks userId steps world).commands =
      .executes userId steps ::
        (executionCalls registry hooks userId steps world).flatten.map HandlerCall.command := by
  rw [executeSteps] at executes ⊢
  simp only [Work.outcome_bind, bind_eq_ok] at executes
  rcases executes with ⟨_, _, start, fires, final, rounds, done⟩
  rw [executionCalls, fire_ok fires]
  have silent : (hooks.fire .beforeExecution ⟨userId, steps, none, none, none⟩ world).commands =
      [] := rfl
  simp only [Work.commands_bind, fires, rounds, rounds_commands rounds, Work.outcome_command,
    Work.commands_command, Work.commands_pure, silent, List.nil_append, List.append_nil,
    List.singleton_append]

/-! ## The report -/

/-- The report says that nothing was changed, or nothing beyond the completed steps. -/
def StatesNothingElse (message : String) : Prop :=
  "沒有任何步驟完成,也沒有做出任何變更。".toList <:+ message.toList ∨
    "除上述外沒有進一步的變更。".toList <:+ message.toList

omit [PythonText] in
theorem composeFailureMessage_states (results : List StepResult) (retried : Bool) :
    StatesNothingElse (composeFailureMessage results retried) := by
  simp only [StatesNothingElse, composeFailureMessage, String.toList_append]
  by_cases none : (results.filter StepResult.ok).isEmpty = true
  · left
    rw [if_pos none]
    exact List.suffix_append _ _
  · right
    rw [if_neg none]
    apply List.IsSuffix.trans _ (List.suffix_append _ _)
    simp only [String.toList_append]
    apply List.IsSuffix.trans _ (List.suffix_append _ _)
    exact ⟨['。'], by decide⟩

/-- When the report says that nothing else was changed, no call outside the completed
steps has returned that may have changed something. -/
def TruthfulReport (registry : SkillRegistry ω) (calls : List (List HandlerCall))
    (results : List StepResult) : Prop :=
  ∀ retried, StatesNothingElse (composeFailureMessage results retried) →
    AllAttributed registry calls results

/-- The report of an execution is truthful exactly when in every fan-out that writes the
first call raises or none does. -/
theorem truthfulReport_iff {steps : List WorkflowStep} {world after : ω}
    {results : List StepResult}
    (executes : (executeSteps registry hooks userId steps world).outcome = .ok (results, after)) :
    TruthfulReport registry (executionCalls registry hooks userId steps world) results ↔
      ∀ start, hooks .beforeExecution ⟨userId, steps, none, none, none⟩ world = .ok start →
        WholeRounds registry hooks userId steps steps ⟨[], [], start⟩ := by
  have stated : TruthfulReport registry (executionCalls registry hooks userId steps world) results ↔
      AllAttributed registry (executionCalls registry hooks userId steps world) results :=
    ⟨fun truthful => truthful false (composeFailureMessage_states results false),
      fun attributed _ _ => attributed⟩
  rw [executeSteps] at executes
  simp only [Work.outcome_bind, bind_eq_ok] at executes
  rcases executes with ⟨_, _, start, fires, final, rounds, done⟩
  cases done
  rcases rounds_attributed rounds with ⟨added, isResults, attributed⟩
  rw [stated, executionCalls, fire_ok fires]
  simp only [Except.ok.injEq, forall_eq']
  rw [← attributed, isResults, List.nil_append]

end Step

/-! ## A trash of two items -/

section TwoItems

attribute [local instance] smallPythonText

private def listBoth : RegisteredSkill Unit where
  name := "list_items"
  permissionTier := "read"
  requiresSelection := false
  handler _ _ world := (.ok (.list [.string "a", .string "b"]), world)

/-- Trashes `a`; `b` is not found. -/
private def trashOne : RegisteredSkill Unit where
  name := "trash_item"
  permissionTier := "destructive"
  requiresSelection := false
  handler _ arguments world :=
    match arguments.get? "item_id" with
    | some (.string "a") => (.ok .null, world)
    | _ => (.error "Item not found", world)

private def trashRegistry : SkillRegistry Unit :=
  ⟨[listBoth, trashOne], by decide⟩

private def trashEach : List WorkflowStep :=
  [⟨0, "list_items", [], [], "read", false⟩,
    ⟨1, "trash_item", [("item_id", .object [("from", .int 0), ("path", .string "*")])], [0],
      "destructive", true⟩]

private def noHooks : HookRegistry Unit := fun _ _ world => .ok world

private def trashMissing : List WorkflowStep :=
  [⟨0, "list_items", [], [], "read", false⟩,
    ⟨1, "trash_item", [("item_id", .string "b")], [0], "destructive", true⟩]

/-- A trash of the one item that is not found is reported as it was. -/
theorem truthfulReport_iff_trashMissing :
    ∃ results, (executeSteps trashRegistry noHooks 1 trashMissing ()).outcome =
        .ok (results, ()) ∧ results.map StepResult.ok = [true, false] ∧
      TruthfulReport trashRegistry (executionCalls trashRegistry noHooks 1 trashMissing ())
        results := by
  have runs : ∃ results, (executeSteps trashRegistry noHooks 1 trashMissing ()).outcome =
      .ok (results, ()) ∧ results.map StepResult.ok = [true, false] := ⟨_, rfl, rfl⟩
  rcases runs with ⟨results, executes, succeeded⟩
  refine ⟨results, executes, succeeded, (truthfulReport_iff executes).mpr ?_⟩
  intro start _
  have lists : ¬ hasFanout ([] : Arguments) = true := by decide
  have trashes : ¬ hasFanout [("item_id", .string "b")] = true := by decide
  constructor
  · exact fun _ _ _ fansOut => absurd fansOut lists
  · intro _ _
    exact ⟨fun _ _ _ fansOut => absurd fansOut trashes, fun _ _ => trivial⟩

private def trashResults : List StepResult :=
  [⟨0, "list_items", true, .list [.string "a", .string "b"], none, false⟩,
    ⟨1, "trash_item", false, .null, some "Item not found", false⟩]

private def trashCalls : List (List HandlerCall) :=
  [[⟨⟨1, "list_items", []⟩, true⟩],
    [⟨⟨1, "trash_item", [("item_id", .string "a")]⟩, true⟩,
      ⟨⟨1, "trash_item", [("item_id", .string "b")]⟩, false⟩]]

private theorem trashEach_executes :
    (executeSteps trashRegistry noHooks 1 trashEach ()).outcome = .ok (trashResults, ()) := rfl

theorem trashEach_misreported :
    ∃ results, (executeSteps trashRegistry noHooks 1 trashEach ()).outcome = .ok (results, ()) ∧
      StatesNothingElse (composeFailureMessage results false) ∧
      ¬ TruthfulReport trashRegistry (executionCalls trashRegistry noHooks 1 trashEach ())
        results := by
  have states := composeFailureMessage_states trashResults false
  refine ⟨trashResults, trashEach_executes, states, ?_⟩
  intro truthful
  have calls : executionCalls trashRegistry noHooks 1 trashEach () = trashCalls := rfl
  have attributed := truthful false states
  rw [calls] at attributed
  cases attributed with
  | cons _ rest =>
      cases rest with
      | cons trashed _ =>
          have writes : ¬ trashRegistry.Reads "trash_item" := by
            intro reads
            rcases reads with ⟨skill, found, tier⟩
            cases found
            exact absurd tier (by decide)
          have completed := trashed _ List.mem_cons_self rfl writes
          cases completed

end TwoItems

end CloudDrive
