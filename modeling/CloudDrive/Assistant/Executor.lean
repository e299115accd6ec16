import CloudDrive.Assistant.Workflow
import CloudDrive.Foundation.Interruption

/-! # Executing steps

`WorkflowExecutor` of `app/assistant/workflow.py` with what it resolves before each
call. The calls of skills are the commands of the run: they last whatever becomes of
the request. -/

namespace CloudDrive

open Outcome Interruption

/-! ## Resolving arguments -/

/-- `ok_results.get(index)`, where a later result of the same index counts. -/
def okResult? (results : List StepResult) (index : Int) : Option StepResult :=
  results.reverse.find? fun result => result.ok && decide ((result.index : Int) = index)

section Resolve

variable [PythonText]

/-- `_destination_problem`. -/
def destinationProblem (argName : String) (item : Value) : Option String :=
  match item, item.field? "item_type" with
  | .object fields, some itemType =>
      match itemType with
      | .null => none
      | _ =>
          let kind := PythonText.upper (PythonText.str itemType)
          if argName ≠ "parent_id" ∨ kind = "FOLDER" then
            none
          else
            let name := match (Arguments.get? fields "name").filter Value.truthy with
              | some name => PythonText.str name
              | none => "未命名項目"
            let label := if kind = "FILE" then "檔案" else PythonText.str itemType
            some s!"目的地「{name}」是{label}、不是資料夾。請選擇資料夾作為目的地。"
  | _, _ => none

/-- `_reference_parent`. -/
def referenceParent (output : Value) (path : String) : Except Value.PathError Value :=
  match Value.pathParts path with
  | [] => .ok .null
  | parts => output.resolveParts parts.dropLast

/-- The value at `path`, which must not be a known file where a folder is meant. -/
def resolveChecked (key : String) (output : Value) (path : String) :
    Except Value.PathError Value := do
  let value ← output.resolvePath path
  let parent ← referenceParent output path
  match destinationProblem key parent with
  | some problem => .error (.resolution problem)
  | none => pure value

/-- `except (KeyError, IndexError, ValueError, TypeError)`. -/
def orLookup (result : Except Value.PathError Value) (message : String) :
    Except String Value :=
  match result with
  | .ok value => .ok value
  | .error .lookup => .error message
  | .error (.resolution problem) => .error problem

def noResult (key : String) (source : Int) : String :=
  s!"argument '{key}' references step {source}, which did not produce a result"

def resolveArgument (results : List StepResult) (key : String) (value : Value) :
    Except String Value :=
  match value.refStep? with
  | none => .ok value
  | some source => do
      let result ← orRaise (okResult? results source) (noResult key source)
      orLookup (resolveChecked key result.output value.refPath)
        s!"argument '{key}': cannot resolve path '{value.refPath}' from step {source}"

/-- `resolve_arguments`. What is raised is the text of a `StepResolutionError`. -/
def resolveArguments (results : List StepResult) : Arguments → Except String Arguments
  | [] => .ok []
  | (key, value) :: rest => do
      let resolved ← resolveArgument results key value
      let later ← resolveArguments results rest
      pure ((key, resolved) :: later)

/-- `_wildcard_split`. -/
def wildcardSplit (path : String) : Option (String × String) :=
  let parts := Value.pathParts path
  if "*" ∈ parts then
    some (".".intercalate (parts.takeWhile (· ≠ "*")),
      ".".intercalate (parts.dropWhile (· ≠ "*")).tail)
  else
    none

/-- The split path of a reference to every element of a list. -/
def wildcard? (value : Value) : Option (Int × String × String) :=
  match value.refStep?, wildcardSplit value.refPath with
  | some source, some split => some (source, split)
  | _, _ => none

def hasFanout (arguments : Arguments) : Bool :=
  arguments.values.any fun value => (wildcard? value).isSome

/-- A list that the step runs over, under the name of its argument. -/
structure FanoutList where
  key : String
  collection : List Value
  post : String

/-- The list of one wildcard reference. -/
def fanoutList (results : List StepResult) (key : String) (source : Int) (pre post : String) :
    Except String FanoutList := do
  let result ← orRaise (okResult? results source) (noResult key source)
  let collection ← orLookup (result.output.resolvePath pre)
    s!"argument '{key}': cannot resolve list path '{pre}' from step {source}"
  match collection with
  | .list elements => pure ⟨key, elements, post⟩
  | _ => .error s!"argument '{key}': wildcard path '{pre}.*' did not resolve to a list"

/-- The lists of all wildcard references, which must be of one length. -/
def fanoutLists (results : List StepResult) :
    Option Nat → Arguments → Except String (List FanoutList)
  | _, [] => .ok []
  | length, (key, value) :: rest =>
      match wildcard? value with
      | none => fanoutLists results length rest
      | some (source, pre, post) => do
          let first ← fanoutList results key source pre post
          require (∀ known ∈ length, known = first.collection.length)
            "wildcard references span lists of differing lengths"
          let later ← fanoutLists results (some first.collection.length) rest
          pure (first :: later)

/-- The arguments for element `position`, starting from those shared by all. -/
def fanoutRow (position : Nat) : List FanoutList → Arguments → Except String Arguments
  | [], row => .ok row
  | each :: rest, row => do
      let element ← orRaise each.collection[position]? "list index out of range"
      let value ← if each.post = "" then
          pure element
        else
          orLookup (resolveChecked each.key element each.post)
            s!"argument '{each.key}': cannot resolve '{each.post}' on element {position}"
      fanoutRow position rest (row.set each.key value)

/-- `resolve_fanout_arguments`. -/
def resolveFanoutArguments (results : List StepResult) (arguments : Arguments) :
    Except String (List Arguments) := do
  let base ← resolveArguments results (arguments.filter fun field => (wildcard? field.2).isNone)
  let lists ← fanoutLists results none arguments
  let length := match lists with
    | [] => 0
    | first :: _ => first.collection.length
  (List.range length).mapM fun position => fanoutRow position lists base

end Resolve

/-! ## Running -/

/-- A call of a skill. -/
structure Invocation where
  userId : Uuid
  skill : String
  arguments : Arguments

/-- What a call of the assistant does that lasts: it starts to execute steps, and it
calls skills. -/
inductive AssistantCommand where
  | executes (userId : Uuid) (steps : List WorkflowStep)
  | invokes (invocation : Invocation)

abbrev Assistant := Work AssistantCommand AssistantError

inductive HookEvent where
  | beforeExecution
  | beforeStep
  | onError
  | afterStep
  deriving DecidableEq, Repr

structure HookContext where
  userId : Uuid
  steps : List WorkflowStep
  step : Option WorkflowStep
  result : Option StepResult
  error : Option String

/-- The hooks of an event, which may change the world and may raise. -/
abbrev HookRegistry (ω : Type) := HookEvent → HookContext → ω → Except String ω

section Run

variable {ω : Type}

def HookRegistry.fire (hooks : HookRegistry ω) (event : HookEvent) (context : HookContext)
    (world : ω) : Assistant ω :=
  Work.of (match hooks event context world with
    | .ok world => .ok world
    | .error message => .error (.raised message))

/-- `SkillRegistry.execute`. What is raised is known by its text. -/
def SkillRegistry.execute (registry : SkillRegistry ω) (userId : Uuid) (name : String)
    (arguments : Arguments) (world : ω) : Assistant (Except String Value × ω) :=
  match registry.get? name with
  | none => pure (.error s!"Unknown assistant skill: {name}", world)
  | some skill => do
      let _ ← Work.command (.invokes ⟨userId, name, arguments⟩)
      pure (skill.handler userId arguments world)

/-- The calls of a step that fans out, up to the first that raises. -/
def executeEach (registry : SkillRegistry ω) (userId : Uuid) (name : String) :
    List Arguments → ω → Assistant (Except String (List Value) × ω)
  | [], world => pure (.ok [], world)
  | arguments :: rest, world => do
      let (answer, world) ← registry.execute userId name arguments world
      match answer with
      | .error message => pure (.error message, world)
      | .ok output => do
          let (later, world) ← executeEach registry userId name rest world
          pure (later.map (output :: ·), world)

def fannedOut (outputs : List Value) : Value :=
  .object [("items", .list outputs), ("count", .int outputs.length)]

variable [PythonText]

/-- The body of the `try` in `execute`. -/
def attempt (registry : SkillRegistry ω) (userId : Uuid) (results : List StepResult)
    (step : WorkflowStep) (world : ω) : Assistant (Except String Value × ω) :=
  if hasFanout step.arguments then
    match resolveFanoutArguments results step.arguments with
    | .error message => pure (.error message, world)
    | .ok argSets => do
        let (outputs, world) ← executeEach registry userId step.skill argSets world
        pure (outputs.map fannedOut, world)
  else
    match resolveArguments results step.arguments with
    | .error message => pure (.error message, world)
    | .ok arguments => registry.execute userId step.skill arguments world

omit [PythonText] in
/-- `_blocked_dependencies`, in order. -/
def blockedDependencies (step : WorkflowStep) (unavailable : List Nat) : List Nat :=
  let refs := step.arguments.values.filterMap Value.refStep?
  (unavailable.filter fun (index : Nat) =>
    decide ((index : Int) ∈ step.dependsOn ∨ (index : Int) ∈ refs)).dedup.insertionSort (· ≤ ·)

structure ExecutionState (ω : Type) where
  results : List StepResult
  unavailable : List Nat
  world : ω

/-- One round of the loop of `execute`. -/
def executeStep (registry : SkillRegistry ω) (hooks : HookRegistry ω) (userId : Uuid)
    (steps : List WorkflowStep) (step : WorkflowStep) (state : ExecutionState ω) :
    Assistant (ExecutionState ω) :=
  match blockedDependencies step state.unavailable with
  | blocked@(_ :: _) =>
      let blockedList := "、".intercalate (blocked.map fun index => toString (index + 1))
      pure { state with
        results := state.results ++ [{
          index := step.index
          skill := step.skill
          ok := false
          output := .null
          error := some s!"skipped: 依賴的第 {blockedList} 步未成功"
          skipped := true }]
        unavailable := state.unavailable ++ [step.index] }
  | [] => do
      let world ← hooks.fire .beforeStep ⟨userId, steps, some step, none, none⟩ state.world
      let (answer, world) ← attempt registry userId state.results step world
      match answer with
      | .error message => do
          let result : StepResult := ⟨step.index, step.skill, false, .null, some message, false⟩
          let world ← hooks.fire .onError ⟨userId, steps, some step, none, some message⟩ world
          pure ⟨state.results ++ [result], state.unavailable ++ [step.index], world⟩
      | .ok output => do
          let result : StepResult := ⟨step.index, step.skill, true, output, none, false⟩
          let world ← hooks.fire .afterStep ⟨userId, steps, some step, some result, none⟩ world
          pure ⟨state.results ++ [result], state.unavailable, world⟩

/-- `WorkflowExecutor.execute`. -/
def executeSteps (registry : SkillRegistry ω) (hooks : HookRegistry ω) (userId : Uuid)
    (steps : List WorkflowStep) (world : ω) : Assistant (List StepResult × ω) := do
  let _ ← Work.command (.executes userId steps)
  let world ← hooks.fire .beforeExecution ⟨userId, steps, none, none, none⟩ world
  let final ← Work.forEach (executeStep registry hooks userId steps) steps ⟨[], [], world⟩
  pure (final.results, final.world)

/-! ## What is called -/

omit [PythonText] in
theorem fire_only (hooks : HookRegistry ω) (Allowed : AssistantCommand → Prop)
    (event : HookEvent) (context : HookContext) (world : ω) :
    (hooks.fire event context world).Only Allowed :=
  Work.only_of Allowed _

omit [PythonText] in
theorem execute_only {registry : SkillRegistry ω} {Allowed : AssistantCommand → Prop}
    {userId : Uuid} {name : String} {arguments : Arguments}
    (allowed : Allowed (.invokes ⟨userId, name, arguments⟩)) (world : ω) :
    (registry.execute userId name arguments world).Only Allowed := by
  rw [SkillRegistry.execute]
  split
  · exact Work.only_of _ _
  · exact (Work.only_command allowed).bind fun _ _ => Work.only_of _ _

omit [PythonText] in
theorem executeEach_only {registry : SkillRegistry ω} {Allowed : AssistantCommand → Prop}
    {userId : Uuid} {name : String}
    (allowed : ∀ arguments, Allowed (.invokes ⟨userId, name, arguments⟩)) :
    ∀ (argSets : List Arguments) (world : ω),
      (executeEach registry userId name argSets world).Only Allowed
  | [], _ => Work.only_of _ _
  | arguments :: rest, world => by
      rw [executeEach]
      apply (execute_only (allowed arguments) world).bind
      intro answered _
      rcases answered with ⟨message | output, after⟩
      · exact Work.only_of _ _
      · exact (executeEach_only allowed rest after).bind fun _ _ => Work.only_of _ _

theorem attempt_only {registry : SkillRegistry ω} {Allowed : AssistantCommand → Prop}
    {userId : Uuid} {step : WorkflowStep}
    (allowed : ∀ arguments, Allowed (.invokes ⟨userId, step.skill, arguments⟩))
    (results : List StepResult) (world : ω) :
    (attempt registry userId results step world).Only Allowed := by
  rw [attempt]
  split
  · split
    · exact Work.only_of _ _
    · exact (executeEach_only allowed _ world).bind fun _ _ => Work.only_of _ _
  · split
    · exact Work.only_of _ _
    · exact execute_only (allowed _) world

theorem executeStep_only {registry : SkillRegistry ω} {hooks : HookRegistry ω}
    {Allowed : AssistantCommand → Prop} {userId : Uuid} {steps : List WorkflowStep}
    {step : WorkflowStep}
    (allowed : ∀ arguments, Allowed (.invokes ⟨userId, step.skill, arguments⟩))
    (state : ExecutionState ω) :
    (executeStep registry hooks userId steps step state).Only Allowed := by
  rw [executeStep]
  split
  · exact Work.only_of _ _
  · apply (fire_only hooks Allowed _ _ _).bind
    intro world _
    apply (attempt_only allowed state.results world).bind
    intro answered _
    rcases answered with ⟨message | output, after⟩
    · exact (fire_only hooks Allowed _ _ _).bind fun _ _ => Work.only_of _ _
    · exact (fire_only hooks Allowed _ _ _).bind fun _ _ => Work.only_of _ _

/-- Executing steps calls the skills of these steps, for the user. -/
theorem executeSteps_only {registry : SkillRegistry ω} {hooks : HookRegistry ω}
    {Allowed : AssistantCommand → Prop} {userId : Uuid} {steps : List WorkflowStep}
    (starts : Allowed (.executes userId steps))
    (allowed : ∀ step ∈ steps, ∀ arguments,
      Allowed (.invokes ⟨userId, step.skill, arguments⟩)) (world : ω) :
    (executeSteps registry hooks userId steps world).Only Allowed := by
  rw [executeSteps]
  apply (Work.only_command starts).bind
  intro _ _
  apply (fire_only hooks Allowed _ _ _).bind
  intro _ _
  apply Work.Only.bind
  · apply Work.only_forEach fun _ => True
    · intro step member state _
      exact ⟨executeStep_only (allowed step member) state, fun _ _ => trivial⟩
    · trivial
  · exact fun _ _ => Work.only_of _ _

end Run

end CloudDrive
