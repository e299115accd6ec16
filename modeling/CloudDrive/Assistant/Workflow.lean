import CloudDrive.Assistant.Values
import CloudDrive.Names

/-! # Workflow steps

The steps of `app/assistant/workflow.py`, the registry of skills, and what is done to a
plan before it is executed: `classify_steps`, the expansion over the selected items and
the renumbering of the steps that survive a reconnaissance. -/

namespace CloudDrive

open Outcome

/-- A step as the planner proposes it. -/
structure PlannedStep where
  skill : String
  arguments : Arguments
  dependsOn : List Int

/-- A classified, executable step. -/
structure WorkflowStep where
  index : Nat
  skill : String
  arguments : Arguments
  dependsOn : List Int
  permissionTier : String
  requiresApproval : Bool

structure StepResult where
  index : Nat
  skill : String
  ok : Bool
  output : Value
  error : Option String
  skipped : Bool

/-- What a call of the assistant raises: an error of the service, a
`StepResolutionError`, an error of a lookup or of a set in Python, a row that is no step,
or what the planner, a hook or the database raised. -/
inductive AssistantError where
  | app (error : ServiceError)
  | resolution (message : String)
  | lookup
  | unhashable
  | validation
  | raised (message : String)
  deriving DecidableEq, Repr

def AssistantError.ofPath : Value.PathError → AssistantError
  | .lookup => .lookup
  | .resolution message => .resolution message

/-- `READ_TIER`. -/
def readTier : String := "read"

/-- A handler takes the user and the arguments; what it raises is known by its text. -/
structure RegisteredSkill (ω : Type) where
  name : String
  permissionTier : String
  requiresSelection : Bool
  handler : Uuid → Arguments → ω → Except String Value × ω

/-- `register` refuses a name that is taken. -/
structure SkillRegistry (ω : Type) where
  skills : List (RegisteredSkill ω)
  nodup : (skills.map RegisteredSkill.name).Nodup

namespace SkillRegistry

variable {ω : Type}

def get? (registry : SkillRegistry ω) (name : String) : Option (RegisteredSkill ω) :=
  registry.skills.find? fun skill => decide (skill.name = name)

/-- A skill of this name is registered as read-only. -/
def Reads (registry : SkillRegistry ω) (name : String) : Prop :=
  ∃ skill, registry.get? name = some skill ∧ skill.permissionTier = readTier

end SkillRegistry

/-! ## Classifying -/

section Classify

variable {ω : Type}

/-- The round of `classify_steps` at `index`. -/
def classifyStep (registry : SkillRegistry ω) (index : Nat) (planned : PlannedStep) :
    Except AssistantError WorkflowStep := do
  let skill ← orRaise (registry.get? planned.skill)
    (.app (.invalidOperation s!"Plan references unknown skill: {planned.skill}"))
  let invalid := planned.dependsOn.find? fun dependency =>
    decide (dependency < 0 ∨ ↑index ≤ dependency)
  match invalid with
  | some dependency =>
      .error (.app (.invalidOperation s!"Step {index} has an invalid dependency: {dependency}"))
  | none =>
      pure { index := index
             skill := planned.skill
             arguments := planned.arguments
             dependsOn := planned.dependsOn
             permissionTier := skill.permissionTier
             requiresApproval := decide (skill.permissionTier ≠ readTier) }

def classifyFrom (registry : SkillRegistry ω) :
    Nat → List PlannedStep → Except AssistantError (List WorkflowStep)
  | _, [] => .ok []
  | index, planned :: rest => do
      let step ← classifyStep registry index planned
      let later ← classifyFrom registry (index + 1) rest
      pure (step :: later)

/-- `classify_steps`. -/
def classifySteps (planned : List PlannedStep) (registry : SkillRegistry ω) :
    Except AssistantError (List WorkflowStep) :=
  classifyFrom registry 0 planned

/-- The step carries the tier that its skill is registered with. -/
structure Tagged (registry : SkillRegistry ω) (step : WorkflowStep) : Prop where
  registered : ∃ skill, registry.get? step.skill = some skill ∧
    step.permissionTier = skill.permissionTier ∧
    step.requiresApproval = decide (skill.permissionTier ≠ readTier)

theorem Tagged.reads {registry : SkillRegistry ω} {step : WorkflowStep}
    (tagged : Tagged registry step) (free : step.requiresApproval = false) :
    registry.Reads step.skill := by
  rcases tagged.registered with ⟨skill, found, _, approval⟩
  rw [approval, decide_eq_false_iff_not, not_not] at free
  exact ⟨skill, found, free⟩

def WorkflowStep.planned (step : WorkflowStep) : PlannedStep :=
  ⟨step.skill, step.arguments, step.dependsOn⟩

theorem classifyStep_ok {registry : SkillRegistry ω} {index : Nat} {planned : PlannedStep}
    {step : WorkflowStep} (classified : classifyStep registry index planned = .ok step) :
    step.index = index ∧ step.planned = planned ∧ Tagged registry step := by
  simp only [classifyStep, bind_eq_ok, orRaise_eq_ok] at classified
  rcases classified with ⟨skill, found, classified⟩
  split at classified
  · cases classified
  · rw [pure_eq_ok] at classified
    rw [← classified]
    exact ⟨rfl, rfl, ⟨skill, found, rfl, rfl⟩⟩

theorem classifyFrom_ok {registry : SkillRegistry ω} :
    ∀ {index : Nat} {planned : List PlannedStep} {steps : List WorkflowStep},
      classifyFrom registry index planned = .ok steps →
      steps.map WorkflowStep.planned = planned ∧ (∀ step ∈ steps, Tagged registry step) ∧
        ∀ (position : Nat) (step : WorkflowStep), steps[position]? = some step →
          step.index = index + position
  | _, [], steps, classified => by
      cases classified
      exact ⟨rfl, by simp, by simp⟩
  | index, planned :: rest, steps, classified => by
      simp only [classifyFrom, bind_eq_ok, pure_eq_ok] at classified
      rcases classified with ⟨first, isFirst, later, areLater, rfl⟩
      rcases classifyStep_ok isFirst with ⟨firstIndex, firstPlanned, firstTagged⟩
      rcases classifyFrom_ok areLater with ⟨laterPlanned, laterTagged, laterIndex⟩
      apply And.intro
      · rw [List.map_cons, firstPlanned, laterPlanned]
      · apply And.intro
        · intro step member
          rcases List.mem_cons.mp member with rfl | inLater
          · exact firstTagged
          · exact laterTagged step inLater
        · intro position step found
          cases position with
          | zero =>
              cases found
              exact firstIndex
          | succ position =>
              rw [laterIndex position step found, Nat.add_right_comm, Nat.add_assoc]

theorem classifySteps_ok {registry : SkillRegistry ω} {planned : List PlannedStep}
    {steps : List WorkflowStep} (classified : classifySteps planned registry = .ok steps) :
    steps.map WorkflowStep.planned = planned ∧ (∀ step ∈ steps, Tagged registry step) ∧
      ∀ (position : Nat) (step : WorkflowStep), steps[position]? = some step →
        step.index = position := by
  rcases classifyFrom_ok classified with ⟨areThese, tagged, indexed⟩
  apply And.intro areThese
  apply And.intro tagged
  intro position step found
  rw [indexed position step found, Nat.zero_add]

def isAutoConfirmable (steps : List WorkflowStep) : Bool :=
  steps.all fun step => !step.requiresApproval

def hasSelectionReference (steps : List WorkflowStep) (registry : SkillRegistry ω) : Bool :=
  steps.any fun step =>
    (match registry.get? step.skill with
      | some skill => skill.requiresSelection
      | none => false) || step.arguments.values.any Value.isSelectionRef

end Classify

/-! ## Expanding over the selection -/

/-- Which steps a step of the plan has become. -/
abbrev StepMapping := List (Nat × List Nat)

/-- `old_to_new.get(old)`. -/
def StepMapping.get? (mapping : StepMapping) (old : Int) : Option (List Nat) :=
  (mapping.find? fun entry => decide ((entry.1 : Int) = old)).map Prod.snd

/-- `_remap_deps`. -/
def remapDeps (deps : List Int) (oldToNew : StepMapping) : List Int :=
  deps.flatMap fun old =>
    match oldToNew.get? old with
    | some new => new.map Int.ofNat
    | none => [old]

/-- `_remap_step_ref`. -/
def remapStepRef (value : Value) (oldToNew : StepMapping) : Except AssistantError Value :=
  match value.refStep?.bind oldToNew.get?, value with
  | some [], _ => .error .lookup
  | some (first :: _), .object fields =>
      .ok (.object (Arguments.set (Arguments.without fields "from_step") "from" (.int first)))
  | _, _ => .ok value

section Selection

variable {ω : Type}

/-- A skill that needs a selection acts on every selected item, unless its `item_id` is
a reference or a text that is not blank. -/
def bindSelection (step : WorkflowStep) (registry : SkillRegistry ω) : Arguments :=
  let unbound := match step.arguments.get? "item_id" with
    | some (.string text) => decide (strip text = "")
    | some value => !value.isReference
    | none => true
  let needs := match registry.get? step.skill with
    | some skill => skill.requiresSelection
    | none => false
  if needs && unbound then
    step.arguments.set "item_id" (.object [("from", .string "selection"), ("each", .bool true)])
  else
    step.arguments

/-- The arguments that are references to each of the selected items. -/
def eachKeys (arguments : Arguments) : List String :=
  (arguments.filter fun field =>
    field.2.isSelectionRef && ((field.2.field? "each").getD .null).truthy).map Prod.fst

/-- `index` as the position of one of `length` items. -/
def selectedIndex? (index : Value) (length : Nat) : Option Nat :=
  match index with
  | .int position => if 0 ≤ position ∧ position < length then some position.toNat else none
  | _ => none

variable [PythonText]

/-- `_selection_value`. -/
def selectionValue (ref : Value) (items : List Arguments) (forcedIndex : Option Nat) :
    Except AssistantError Value := do
  let index := match forcedIndex with
    | some position => Value.int position
    | none => (ref.field? "item").getD (.int 0)
  let item ← orRaise ((selectedIndex? index items.length).bind fun position => items[position]?)
    (.resolution (s!"selection reference index {PythonText.repr index} out of range " ++
      s!"(have {items.length} selected)"))
  match (ref.field? "path").filter Value.truthy with
  | some path =>
      match (Value.object item).resolvePath (PythonText.str path) with
      | .ok value => pure value
      | .error error => .error (.ofPath error)
  | none =>
      match item.get? "id" with
      | none | some .null => .error (.resolution "selected item has no id")
      | some value => pure value

/-- The arguments of one copy of a step. -/
def resolveSelected (items : List Arguments) (oldToNew : StepMapping) (each : List String)
    (forced : Option Nat) : Arguments → Except AssistantError Arguments
  | [] => .ok []
  | (key, value) :: rest => do
      let resolved ← if value.isSelectionRef then
          selectionValue value items (if key ∈ each then forced else none)
        else
          remapStepRef value oldToNew
      let later ← resolveSelected items oldToNew each forced rest
      pure ((key, resolved) :: later)

/-- The copies of a step, one for each of `forced`. -/
def copies (items : List Arguments) (oldToNew : StepMapping) (each : List String)
    (arguments : Arguments) : List (Option Nat) → Except AssistantError (List Arguments)
  | [] => .ok []
  | forced :: rest => do
      let first ← resolveSelected items oldToNew each forced arguments
      let later ← copies items oldToNew each arguments rest
      pure (first :: later)

structure Expansion where
  expanded : List WorkflowStep
  oldToNew : StepMapping

/-- The round of `apply_selection` for one step. -/
def expandStep (items : List Arguments) (registry : SkillRegistry ω) (step : WorkflowStep)
    (state : Expansion) : Except AssistantError Expansion := do
  let arguments := bindSelection step registry
  let each := eachKeys arguments
  let rounds := if each = [] then [none] else (List.range items.length).map some
  let resolved ← copies items state.oldToNew each arguments rounds
  let added := resolved.mapIdx fun offset arguments =>
    { step with
      index := state.expanded.length + offset
      arguments := arguments
      dependsOn := remapDeps step.dependsOn state.oldToNew }
  pure { expanded := state.expanded ++ added
         oldToNew := (step.index, added.map WorkflowStep.index) :: state.oldToNew }

def applySelection (steps : List WorkflowStep) (items : List Arguments)
    (registry : SkillRegistry ω) : Except AssistantError (List WorkflowStep) := do
  let expansion ← forEach (expandStep items registry) steps ⟨[], []⟩
  pure expansion.expanded

/-- The copies of a step are the step under other numbers and arguments. -/
theorem expandStep_tagged {items : List Arguments} {registry other : SkillRegistry ω}
    {step : WorkflowStep} {before after : Expansion}
    (expands : expandStep items registry step before = .ok after)
    (tagged : Tagged other step) (earlier : ∀ each ∈ before.expanded, Tagged other each) :
    ∀ each ∈ after.expanded, Tagged other each := by
  simp only [expandStep, bind_eq_ok, pure_eq_ok] at expands
  rcases expands with ⟨resolved, _, rfl⟩
  intro each member
  rcases List.mem_append.mp member with old | added
  · exact earlier each old
  · rcases List.mem_mapIdx.mp added with ⟨offset, _, rfl⟩
    exact ⟨tagged.registered⟩

theorem applySelection_tagged {items : List Arguments} {registry : SkillRegistry ω}
    {steps expanded : List WorkflowStep}
    (applied : applySelection steps items registry = .ok expanded)
    (tagged : ∀ step ∈ steps, Tagged registry step) :
    ∀ step ∈ expanded, Tagged registry step := by
  simp only [applySelection, bind_eq_ok, pure_eq_ok] at applied
  rcases applied with ⟨expansion, runs, rfl⟩
  apply forEach_keeps_mem (fun state => ∀ each ∈ state.expanded, Tagged registry each) _ _ runs
  · intro step member _ _ earlier expands
    exact expandStep_tagged expands (tagged step member) earlier
  · exact fun _ member => absurd member List.not_mem_nil

end Selection

/-! ## The steps of a reconnaissance -/

/-- `source in indices`, which raises for what has no hash. -/
def isAmong (source : Value) (indices : List Nat) : Except AssistantError Bool :=
  if source.isHashable then
    .ok (match source.asInteger? with
      | some number => indices.any fun index => decide ((index : Int) = number)
      | none => false)
  else
    .error .unhashable

/-- `any(ref_source(value) in indices for value in values)`. -/
def anyAmong (indices : List Nat) : List Value → Except AssistantError Bool
  | [] => .ok false
  | value :: rest => do
      let among ← isAmong value.refSource indices
      if among then pure true else anyAmong indices rest

/-- `_consumes_output_of`. -/
def consumesOutputOf (step : WorkflowStep) (indices : List Nat) : Except AssistantError Bool :=
  anyAmong indices step.arguments.values

/-- The indices of the steps that need no approval and nothing of those that do. -/
def reconIndices (skipped : List Nat) : List WorkflowStep → Except AssistantError (List Nat)
  | [] => .ok []
  | step :: rest => do
      let consumes ← if step.index ∈ skipped then pure true else consumesOutputOf step skipped
      let later ← reconIndices skipped rest
      pure (if consumes then later else step.index :: later)

theorem reconIndices_ok {skipped : List Nat} : ∀ {steps : List WorkflowStep}
    {indices : List Nat}, reconIndices skipped steps = .ok indices →
    ∀ index ∈ indices, index ∉ skipped
  | [], indices, runs, index, member => by
      cases runs
      cases member
  | step :: rest, indices, runs, index, member => by
      rw [reconIndices] at runs
      by_cases isSkipped : step.index ∈ skipped
      · simp only [if_pos isSkipped, bind_eq_ok, pure_eq_ok] at runs
        rcases runs with ⟨consumes, rfl, later, areLater, rfl⟩
        exact reconIndices_ok areLater index member
      · simp only [if_neg isSkipped, bind_eq_ok, pure_eq_ok] at runs
        rcases runs with ⟨consumes, _, later, areLater, rfl⟩
        cases consumes with
        | true => exact reconIndices_ok areLater index member
        | false =>
            rcases List.mem_cons.mp member with rfl | inLater
            · exact isSkipped
            · exact reconIndices_ok areLater index inLater

theorem reconIndices_sublist {skipped : List Nat} : ∀ {steps : List WorkflowStep}
    {indices : List Nat}, reconIndices skipped steps = .ok indices →
    indices.Sublist (steps.map WorkflowStep.index)
  | [], indices, runs => by
      cases runs
      exact .slnil
  | step :: rest, indices, runs => by
      rw [reconIndices] at runs
      by_cases isSkipped : step.index ∈ skipped
      · simp only [if_pos isSkipped, bind_eq_ok, pure_eq_ok] at runs
        rcases runs with ⟨_, rfl, later, areLater, rfl⟩
        exact (reconIndices_sublist areLater).cons _
      · simp only [if_neg isSkipped, bind_eq_ok, pure_eq_ok] at runs
        rcases runs with ⟨consumes, _, later, areLater, rfl⟩
        cases consumes with
        | true => exact (reconIndices_sublist areLater).cons _
        | false => exact (reconIndices_sublist areLater).cons_cons _

/-- The position of `old` among the steps kept. -/
def newPosition? (kept : List Nat) (old : Int) : Option Nat :=
  kept.findIdx? fun (index : Nat) => decide ((index : Int) = old)

/-- The argument of a kept step, with a reference to a kept step renumbered. -/
def renumberArgument (kept : List Nat) (value : Value) : Value :=
  match value.refStep?.bind (newPosition? kept), value with
  | some position, .object fields =>
      let keyName := if Arguments.has fields "from" then "from" else "from_step"
      .object (Arguments.set fields keyName (.int position))
  | _, _ => value

theorem newPosition?_eq_some {kept : List Nat} {old : Int} {position : Nat}
    (isNew : newPosition? kept old = some position) :
    ∃ index, kept[position]? = some index ∧ (index : Int) = old := by
  rcases List.findIdx?_eq_some_iff_getElem.mp isNew with ⟨inside, isOld, _⟩
  exact ⟨kept[position], List.getElem?_eq_getElem inside, of_decide_eq_true isOld⟩

/-- Of the steps kept in order, what came earlier is still earlier. -/
theorem newPosition?_lt {kept : List Nat} (ordered : kept.Pairwise (· < ·)) {old position : Nat}
    (stands : kept[position]? = some old) {dependency : Int} (earlier : dependency < old)
    {new : Nat} (isNew : newPosition? kept dependency = some new) : new < position := by
  rcases newPosition?_eq_some isNew with ⟨index, found, same⟩
  rcases List.getElem?_eq_some_iff.mp found with ⟨newInside, isIndex⟩
  rcases List.getElem?_eq_some_iff.mp stands with ⟨inside, isOld⟩
  by_contra notEarlier
  rcases Nat.lt_or_eq_of_le (Nat.le_of_not_lt notEarlier) with later | equal
  · have grows := List.pairwise_iff_getElem.mp ordered position new inside newInside later
    omega
  · subst equal
    omega

theorem renumberArgument_refSource {kept : List Nat} {value : Value} {position : Nat}
    (isNew : value.refStep?.bind (newPosition? kept) = some position) :
    (renumberArgument kept value).refSource = .int position := by
  cases value with
  | object fields =>
      unfold renumberArgument
      rw [isNew]
      dsimp only
      by_cases modern : Arguments.has fields "from" = true
      · rw [if_pos modern]
        exact Value.refSource_set_from
      · rw [if_neg modern]
        exact Value.refSource_set_fromStep (Bool.eq_false_iff.mpr modern)
  | null | bool | int | float | string | list => cases isNew

/-- Renumbering makes no reference to the selection. -/
theorem renumberArgument_isSelectionRef (kept : List Nat) (value : Value) :
    (renumberArgument kept value).isSelectionRef = value.isSelectionRef := by
  cases isNew : value.refStep?.bind (newPosition? kept) with
  | none =>
      unfold renumberArgument
      rw [isNew]
  | some position =>
      rw [Value.isSelectionRef, renumberArgument_refSource isNew, Value.isSelectionRef]
      cases source : value.refSource with
      | string text =>
          rw [Value.refStep?, source] at isNew
          cases isNew
      | null | bool | int | float | list | object => rfl

def renumberStep (kept : List Nat) (step : PlannedStep) : PlannedStep where
  skill := step.skill
  arguments := step.arguments.map fun field => (field.1, renumberArgument kept field.2)
  dependsOn := (step.dependsOn.filterMap (newPosition? kept)).map Int.ofNat

/-- `_renumber_kept`. -/
def renumberKept (planned : List PlannedStep) (kept : List Nat) :
    Except AssistantError (List PlannedStep) :=
  kept.mapM fun old => do
    let step ← orRaise planned[old]? .lookup
    pure (renumberStep kept step)

end CloudDrive
