import CloudDrive.Assistant.Privacy
import CloudDrive.Assistant.Workflow

/-! # Validating a plan

`validate_plan` of `app/assistant/planner.py` with the problems it reports, and what a
plan without problems satisfies. -/

namespace CloudDrive

open Outcome Patterns

inductive SkillOutput where
  | pagedItems
  | itemList
  | item
  | newFolder
  | mutatedItem
  | opaqueOutput
  deriving DecidableEq, Repr

structure SkillDeclaration where
  parameters : Arguments
  output : SkillOutput

/-- `parameters.get("required", [])`, where it is a list. -/
def SkillDeclaration.required (declaration : SkillDeclaration) : List Value :=
  match (declaration.parameters.get? "required").getD (.list []) with
  | .list names => names
  | _ => []

/-- A registry with what the skill of each name declares. -/
structure SkillCatalog (ω : Type) where
  registry : SkillRegistry ω
  declared : String → SkillDeclaration

/-- The characters beyond ASCII that `str.isdigit` takes. -/
class UnicodeDigits where
  isDigit : Char → Bool

/-! ## Texts -/

/-- `_BYTE_TOKEN`: `<0x[0-9A-Fa-f]{2}>`. -/
def byteToken : Pattern Char :=
  .seq (Privacy.literal '<') (.seq (Privacy.literal '0') (.seq (Privacy.literal 'x')
    (.seq (Privacy.hexDigits 2) (Privacy.literal '>'))))

def hasByteTokens : Value → Bool
  | .string text => search (fun _ => false) byteToken text.toList
  | _ => false

def pathHead (path : String) : String :=
  (Value.pathParts path).headD ""

def pathField (path : String) : String :=
  let last := String.ofList ((path.toList.splitOn '.').getLastD [])
  if last = "" then "id" else last

def isDigits [UnicodeDigits] (text : String) : Bool :=
  decide (text ≠ "") && text.toList.all fun char =>
    if char.toNat < 128 then char.isDigit else UnicodeDigits.isDigit char

/-! ## Problems -/

section Problems

variable [UnicodeDigits] {ω : Type}

def referenceProblems (catalog : SkillCatalog ω) (index : Nat) (argName path : String)
    (source : Option (RegisteredSkill ω)) (fromStep : Int) : List String :=
  match source with
  | none => []
  | some source =>
      let output := (catalog.declared source.name).output
      if output = .opaqueOutput then
        []
      else
        let head := pathHead path
        let field := pathField path
        let but := s!"step {index}: argument '{argName}' references step {fromStep} " ++
          s!"('{source.name}') with path '{path}', but that step returns "
        let shape :=
          if output = .pagedItems then
            if head ≠ "items" then
              [but ++ "\x7b\"items\": [...], \"total\": N\x7d — use \"items.0." ++ field ++ "\""]
            else
              []
          else if output = .itemList then
            if !isDigits head && head ≠ "*" then
              [but ++ s!"a plain list — use \"0.{field}\""]
            else
              []
          else if head = "items" || head = "*" || isDigits head then
            [but ++ s!"the item itself — use \"{field}\""]
          else
            []
        let destination :=
          if argName = "parent_id" ∧ output = .mutatedItem then
            [s!"step {index}: argument '{argName}' must be a folder, but it references " ++
              s!"step {fromStep} ('{source.name}'), which returns the item that step " ++
              "changed. Reference the step that created or found the destination folder."]
          else
            []
        shape ++ destination

variable [PythonText]

def argumentProblems (catalog : SkillCatalog ω) (allSteps : List PlannedStep) (index : Nat)
    (argName : String) (value : Value) : List String :=
  if hasByteTokens value then
    [s!"step {index}: argument {PythonText.repr (.string argName)} contains raw byte tokens " ++
      s!"({PythonText.repr value}) — that text is corrupted. Write the value again " ++
      "as plain characters."]
  else
    match value.refStep? with
    | none => []
    | some fromStep =>
        if fromStep < 0 ∨ ↑index ≤ fromStep then
          [s!"step {index}: reference must point to an earlier step, got {fromStep}"]
        else
          let source := allSteps[fromStep.toNat]?.bind fun step => catalog.registry.get? step.skill
          referenceProblems catalog index argName value.refPath source fromStep

omit [UnicodeDigits] [PythonText] in
def isMissing : Option Value → Bool
  | none | some .null => true
  | some (.string text) => decide (strip text = "")
  | some _ => false

omit [UnicodeDigits] in
/-- The problems of a required parameter, which raises where it is no key of a `dict`. -/
def requiredProblems (index : Nat) (step : PlannedStep) (parameter : Value) :
    Except AssistantError (List String) :=
  if parameter.isHashable then
    let value := match parameter with
      | .string name => step.arguments.get? name
      | _ => none
    let problem := s!"step {index}: skill '{step.skill}' is missing required argument " ++
      s!"'{PythonText.str parameter}'"
    .ok (if isMissing value && !(value.getD .null).isReference then [problem] else [])
  else
    .error .unhashable

/-- The round of `validate_plan` for the step at `index` of `allSteps`. -/
def stepProblems (catalog : SkillCatalog ω) (allSteps : List PlannedStep) (index : Nat)
    (step : PlannedStep) : Except AssistantError (List String) :=
  match catalog.registry.get? step.skill with
  | none => .ok [s!"step {index}: unknown skill '{step.skill}'"]
  | some skill => do
      let misplaced := step.dependsOn.filter fun dependency =>
        decide (dependency < 0 ∨ ↑index ≤ dependency)
      let dependencies := misplaced.map fun dependency =>
        s!"step {index}: depends_on must point to an earlier step, got {dependency}"
      let arguments := step.arguments.flatMap fun argument =>
        argumentProblems catalog allSteps index argument.1 argument.2
      let parameters := (catalog.declared skill.name).required
      let required ← parameters.mapM (requiredProblems index step)
      pure (dependencies ++ arguments ++ required.flatten)

def problemsFrom (catalog : SkillCatalog ω) (allSteps : List PlannedStep) :
    Nat → List PlannedStep → Except AssistantError (List String)
  | _, [] => .ok []
  | index, step :: rest => do
      let problems ← stepProblems catalog allSteps index step
      let later ← problemsFrom catalog allSteps (index + 1) rest
      pure (problems ++ later)

def validatePlan (steps : List PlannedStep) (catalog : SkillCatalog ω)
    (preceding : List PlannedStep) : Except AssistantError (List String) :=
  problemsFrom catalog (preceding ++ steps) preceding.length steps

/-! ## Plans without problems -/

structure WellPlaced (registry : SkillRegistry ω) (index : Nat) (step : PlannedStep) : Prop where
  known : ∃ skill, registry.get? step.skill = some skill
  dependencies : ∀ dependency ∈ step.dependsOn, 0 ≤ dependency ∧ dependency < index

/-- The arguments are spelled out and refer to earlier steps. -/
structure Validated (registry : SkillRegistry ω) (index : Nat) (step : PlannedStep) : Prop
    extends WellPlaced registry index step where
  spelled : ∀ text, .string text ∈ step.arguments.values →
    ¬ Found (fun _ => false) byteToken text.toList
  references : ∀ value ∈ step.arguments.values, ∀ source, value.refStep? = some source →
    0 ≤ source ∧ source < index

theorem argumentProblems_nil {catalog : SkillCatalog ω} {allSteps : List PlannedStep}
    {index : Nat} {argName : String} {value : Value}
    (free : argumentProblems catalog allSteps index argName value = []) :
    hasByteTokens value = false ∧
      ∀ source, value.refStep? = some source → 0 ≤ source ∧ source < index := by
  rw [argumentProblems] at free
  split at free
  · cases free
  · rename_i spelled
    apply And.intro (Bool.eq_false_iff.mpr spelled)
    intro source refers
    rw [refers] at free
    dsimp only at free
    split at free
    · cases free
    · rename_i earlier
      omega

theorem stepProblems_nil {catalog : SkillCatalog ω} {allSteps : List PlannedStep} {index : Nat}
    {step : PlannedStep} (free : stepProblems catalog allSteps index step = .ok []) :
    Validated catalog.registry index step := by
  rw [stepProblems] at free
  cases known : catalog.registry.get? step.skill with
  | none =>
      rw [known] at free
      cases free
  | some skill =>
      rw [known] at free
      simp only [bind_eq_ok, pure_eq_ok, List.append_eq_nil_iff, List.map_eq_nil_iff,
        List.filter_eq_nil_iff, List.flatMap_eq_nil_iff, decide_eq_true_eq] at free
      rcases free with ⟨_, _, ⟨placed, spelled⟩, _⟩
      have argumentFree : ∀ value ∈ step.arguments.values, hasByteTokens value = false ∧
          ∀ source, value.refStep? = some source → 0 ≤ source ∧ source < index := by
        intro value member
        rcases List.mem_map.mp member with ⟨argument, isArgument, rfl⟩
        exact argumentProblems_nil (spelled argument isArgument)
      constructor
      · constructor
        · exact ⟨skill, known⟩
        · intro dependency member
          have inPlace := placed dependency member
          omega
      · intro text member found
        have spelled := (argumentFree _ member).1
        rw [hasByteTokens, search_iff.mpr found] at spelled
        cases spelled
      · exact fun value member => (argumentFree value member).2

theorem problemsFrom_nil {catalog : SkillCatalog ω} {allSteps : List PlannedStep} :
    ∀ {index : Nat} {steps : List PlannedStep},
      problemsFrom catalog allSteps index steps = .ok [] →
      ∀ (position : Nat) (step : PlannedStep), steps[position]? = some step →
        Validated catalog.registry (index + position) step
  | _, [], _, _, _, found => by cases found
  | index, first :: rest, free, position, step, found => by
      simp only [problemsFrom, bind_eq_ok, pure_eq_ok, List.append_eq_nil_iff] at free
      rcases free with ⟨_, firstFree, _, laterFree, rfl, rfl⟩
      cases position with
      | zero =>
          cases found
          exact stepProblems_nil firstFree
      | succ position =>
          have later := problemsFrom_nil laterFree position step found
          rwa [Nat.add_right_comm, Nat.add_assoc] at later

theorem validatePlan_nil {steps preceding : List PlannedStep} {catalog : SkillCatalog ω}
    (free : validatePlan steps catalog preceding = .ok []) (position : Nat) (step : PlannedStep)
    (found : steps[position]? = some step) :
    Validated catalog.registry (preceding.length + position) step :=
  problemsFrom_nil free position step found

end Problems

end CloudDrive
