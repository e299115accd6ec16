import CloudDrive.Assistant.ConfirmationGate
import CloudDrive.Assistant.PlanValidation
import CloudDrive.Assistant.Selection

/-! # Responses of chat

When `chat` answers and when it raises, for a planner whose plans have no problems. -/

namespace CloudDrive

open Outcome Relational Interruption

/-! ## Hooks -/

section Hooks

variable {ω : Type}

/-- No hook raises. -/
def HookRegistry.Answers (hooks : HookRegistry ω) : Prop :=
  ∀ event context world, Succeeds (hooks event context world)

/-- `_assistant_snapshot_label`. -/
def assistantSnapshotLabel (writeSteps : List WorkflowStep) : String :=
  let names := (writeSteps.map WorkflowStep.skill).eraseDups
  if names.isEmpty then
    "Before assistant action"
  else
    let shown := ", ".intercalate (names.take 3)
    let more := if 3 < names.length then s!", +{names.length - 3} more" else ""
    s!"Before assistant action: {shown}{more}"

/-- `default_hook_registry`, whose hooks write to the log, with
`snapshot_before_write_hook`, which logs what `create` raises. -/
def assistantHooks (create : Uuid → String → ω → Except String Unit × ω) : HookRegistry ω
  | .beforeExecution, context, world =>
      let writeSteps := context.steps.filter WorkflowStep.requiresApproval
      if writeSteps.isEmpty then
        .ok world
      else
        .ok (create context.userId (assistantSnapshotLabel writeSteps) world).2
  | .beforeStep, _, world | .onError, _, world | .afterStep, _, world => .ok world

theorem assistantHooks_answers (create : Uuid → String → ω → Except String Unit × ω) :
    (assistantHooks create).Answers := by
  intro event context world
  cases event with
  | beforeExecution =>
      rw [assistantHooks]
      split
      · exact succeeds_ok _
      · exact succeeds_ok _
  | beforeStep | onError | afterStep => exact succeeds_ok _

end Hooks

/-! ## Executing -/

section Executing

variable [PythonText] {ω : Type} {registry : SkillRegistry ω} {hooks : HookRegistry ω}

omit [PythonText] in
theorem fire_succeeds (answers : hooks.Answers) (event : HookEvent) (context : HookContext)
    (world : ω) : Succeeds (hooks.fire event context world).outcome := by
  rcases answers event context world with ⟨after, answered⟩
  rw [HookRegistry.fire, answered]
  exact succeeds_ok after

omit [PythonText] in
theorem registryExecute_succeeds (userId : Uuid) (name : String) (arguments : Arguments)
    (world : ω) : Succeeds (registry.execute userId name arguments world).outcome := by
  rw [SkillRegistry.execute]
  split
  · exact succeeds_ok _
  · exact Work.bind_succeeds (succeeds_ok _) fun _ _ => succeeds_ok _

omit [PythonText] in
theorem executeEach_succeeds (userId : Uuid) (name : String) : ∀ (argSets : List Arguments)
    (world : ω), Succeeds (executeEach registry userId name argSets world).outcome
  | [], _ => succeeds_ok _
  | arguments :: rest, world => by
      rw [executeEach]
      apply Work.bind_succeeds (registryExecute_succeeds userId name arguments world)
      intro answered _
      rcases answered with ⟨message | output, after⟩
      · exact succeeds_ok _
      · exact Work.bind_succeeds (executeEach_succeeds userId name rest after)
          fun _ _ => succeeds_ok _

theorem attempt_succeeds (userId : Uuid) (results : List StepResult) (step : WorkflowStep)
    (world : ω) : Succeeds (attempt registry userId results step world).outcome := by
  rw [attempt]
  split
  · split
    · exact succeeds_ok _
    · exact Work.bind_succeeds (executeEach_succeeds userId step.skill _ world)
        fun _ _ => succeeds_ok _
  · split
    · exact succeeds_ok _
    · exact registryExecute_succeeds userId step.skill _ world

theorem executeStep_succeeds (answers : hooks.Answers) (userId : Uuid)
    (steps : List WorkflowStep) (step : WorkflowStep) (state : ExecutionState ω) :
    Succeeds (executeStep registry hooks userId steps step state).outcome := by
  rw [executeStep]
  split
  · exact succeeds_ok _
  · apply Work.bind_succeeds (fire_succeeds answers _ _ _)
    intro world _
    apply Work.bind_succeeds (attempt_succeeds userId state.results step world)
    intro answered _
    rcases answered with ⟨message | output, after⟩
    · exact Work.bind_succeeds (fire_succeeds answers _ _ _) fun _ _ => succeeds_ok _
    · exact Work.bind_succeeds (fire_succeeds answers _ _ _) fun _ _ => succeeds_ok _

/-- The executor catches what the skills raise. -/
theorem executeSteps_succeeds (answers : hooks.Answers) (userId : Uuid)
    (steps : List WorkflowStep) (world : ω) :
    Succeeds (executeSteps registry hooks userId steps world).outcome := by
  rw [executeSteps]
  apply Work.bind_succeeds (succeeds_ok _)
  intro _ _
  apply Work.bind_succeeds (fire_succeeds answers _ _ _)
  intro _ _
  apply Work.bind_succeeds
  · exact (Work.forEach_completes fun step _ state =>
      executeStep_succeeds answers userId steps step state).1
  · exact fun _ _ => succeeds_ok _

end Executing

/-! ## Classifying -/

section Classifying

variable {ω : Type} {registry : SkillRegistry ω}

/-- The steps are well placed when the first of them has this index. -/
def PlanPlaced (registry : SkillRegistry ω) (offset : Nat) (steps : List PlannedStep) : Prop :=
  ∀ (position : Nat) (step : PlannedStep), steps[position]? = some step →
    WellPlaced registry (offset + position) step

theorem classifyStep_succeeds {index : Nat} {planned : PlannedStep}
    (placed : WellPlaced registry index planned) :
    Succeeds (classifyStep registry index planned) := by
  rcases placed.known with ⟨skill, known⟩
  have allPlaced : planned.dependsOn.find? (fun dependency =>
      decide (dependency < 0 ∨ ↑index ≤ dependency)) = none := by
    rw [List.find?_eq_none]
    intro dependency member misplaced
    have inPlace := placed.dependencies dependency member
    rw [decide_eq_true_eq] at misplaced
    omega
  rw [classifyStep, known, orRaise, allPlaced]
  exact succeeds_ok _

theorem classifyFrom_succeeds : ∀ {index : Nat} {planned : List PlannedStep},
    PlanPlaced registry index planned → Succeeds (classifyFrom registry index planned)
  | _, [], _ => succeeds_ok _
  | index, first :: rest, placed => by
      have later : PlanPlaced registry (index + 1) rest := by
        intro position step found
        rw [Nat.add_assoc, Nat.add_comm 1]
        exact placed (position + 1) step found
      rw [classifyFrom]
      exact succeeds_both.mpr ⟨classifyStep_succeeds (placed 0 first rfl),
        classifyFrom_succeeds later⟩

theorem classifySteps_succeeds {planned : List PlannedStep}
    (placed : PlanPlaced registry 0 planned) : Succeeds (classifySteps planned registry) :=
  classifyFrom_succeeds placed

theorem PlanPlaced.append {first second : List PlannedStep}
    (firstPlaced : PlanPlaced registry 0 first)
    (secondPlaced : PlanPlaced registry first.length second) :
    PlanPlaced registry 0 (first ++ second) := by
  intro position step found
  rw [Nat.zero_add]
  by_cases inside : position < first.length
  · rw [List.getElem?_append_left inside] at found
    have placed := firstPlaced position step found
    rwa [Nat.zero_add] at placed
  · rw [List.getElem?_append_right (Nat.le_of_not_lt inside)] at found
    have placed := secondPlaced _ step found
    rwa [Nat.add_sub_cancel' (Nat.le_of_not_lt inside)] at placed

theorem classified_indices {planned : List PlannedStep} {steps : List WorkflowStep}
    (classified : classifySteps planned registry = .ok steps) :
    steps.map WorkflowStep.index = List.range planned.length := by
  rcases classifySteps_ok classified with ⟨areThese, _, indexed⟩
  rw [← areThese, List.length_map]
  apply List.ext_getElem?
  intro position
  rw [List.getElem?_map]
  cases found : steps[position]? with
  | none =>
      have outside := List.getElem?_eq_none_iff.mp found
      rw [List.getElem?_eq_none (by rwa [List.length_range])]
      rfl
  | some step =>
      have inside := (List.getElem?_eq_some_iff.mp found).1
      rw [List.getElem?_range inside, Option.map_some, indexed position step found]

/-- The steps kept from a plan are as well placed among themselves. -/
theorem renumberKept_placed {planned steps : List PlannedStep} {kept : List Nat}
    (placed : PlanPlaced registry 0 planned) (ordered : kept.Pairwise (· < ·))
    (renumbered : renumberKept planned kept = .ok steps) : PlanPlaced registry 0 steps := by
  intro position step found
  rcases getElem?_of_mapM renumbered found with ⟨old, stands, isStep⟩
  rcases bind_eq_ok.mp isStep with ⟨before, isBefore, isRenumbered⟩
  rw [pure_eq_ok] at isRenumbered
  have beforePlaced := placed old before (orRaise_eq_ok.mp isBefore)
  rw [Nat.zero_add] at beforePlaced
  rw [← isRenumbered, Nat.zero_add]
  constructor
  · exact beforePlaced.known
  · intro dependency member
    rcases List.mem_map.mp member with ⟨new, isNew, rfl⟩
    rcases List.mem_filterMap.mp isNew with ⟨oldDependency, among, mapped⟩
    have earlier := newPosition?_lt ordered stands (beforePlaced.dependencies _ among).2 mapped
    exact ⟨Int.natCast_nonneg new, Int.ofNat_lt.mpr earlier⟩

end Classifying

/-! ## Looking first -/

section Looking

variable {ω : Type} {registry : SkillRegistry ω}

/-- The source is the number of one of these steps. -/
def RefersAmong (indices : List Nat) (value : Value) : Prop :=
  ∃ index ∈ indices, value.refSource.asInteger? = some ↑index

/-- Every source that is looked up among the steps has a hash: those of the arguments up
to the first that refers to one of them. -/
def SourcesHashable (indices : List Nat) (values : List Value) : Prop :=
  ∀ before value after, values = before ++ value :: after →
    (∀ earlier ∈ before, ¬ RefersAmong indices earlier) → value.refSource.isHashable = true

theorem isAmong_eq_ok {indices : List Nat} {value : Value} {among : Bool}
    (looked : isAmong value.refSource indices = .ok among) :
    value.refSource.isHashable = true ∧ (among = true ↔ RefersAmong indices value) := by
  rw [isAmong] at looked
  split at looked
  · rename_i hashable
    cases looked
    apply And.intro hashable
    cases isInteger : value.refSource.asInteger? with
    | none => simp [RefersAmong, isInteger]
    | some number =>
        constructor
        · intro isAny
          rcases List.any_eq_true.mp isAny with ⟨index, member, same⟩
          exact ⟨index, member, isInteger.trans (congrArg _ (of_decide_eq_true same).symm)⟩
        · intro refers
          rcases refers with ⟨index, member, same⟩
          cases isInteger.symm.trans same
          exact List.any_eq_true.mpr ⟨index, member, decide_eq_true rfl⟩
  · cases looked

theorem anyAmong_succeeds_iff {indices : List Nat} : ∀ {values : List Value},
    Succeeds (anyAmong indices values) ↔ SourcesHashable indices values
  | [] => by
      apply iff_of_true (succeeds_ok _)
      intro before value after split
      exact absurd split.symm (List.append_ne_nil_of_right_ne_nil _ (List.cons_ne_nil _ _))
  | value :: rest => by
      rw [anyAmong, succeeds_bind]
      constructor
      · intro both
        rcases both with ⟨among, looked, later⟩
        rcases isAmong_eq_ok looked with ⟨hashable, isAmong⟩
        intro before other after split free
        cases before with
        | nil =>
            cases split
            exact hashable
        | cons first before =>
            rcases List.cons.inj split with ⟨rfl, inRest⟩
            have notAmong := mt isAmong.mp (free _ List.mem_cons_self)
            rw [if_neg notAmong] at later
            exact anyAmong_succeeds_iff.mp later before other after inRest
              fun earlier member => free earlier (List.mem_cons_of_mem _ member)
      · intro hashable
        have first := hashable [] value rest rfl fun _ member => absurd member List.not_mem_nil
        cases looked : isAmong value.refSource indices with
        | error error =>
            rw [isAmong, if_pos first] at looked
            cases looked
        | ok among =>
            apply Exists.intro among
            apply And.intro rfl
            cases isAmong : among with
            | true => exact succeeds_ok true
            | false =>
                rw [if_neg Bool.false_ne_true]
                apply anyAmong_succeeds_iff.mpr
                intro before other after split free
                apply hashable (value :: before) other after (congrArg _ split)
                intro earlier member
                rcases List.mem_cons.mp member with rfl | inBefore
                · intro refers
                  rw [(isAmong_eq_ok looked).2.mpr refers] at isAmong
                  cases isAmong
                · exact free earlier inBefore

theorem reconIndices_succeeds_iff {skipped : List Nat} : ∀ {steps : List WorkflowStep},
    Succeeds (reconIndices skipped steps) ↔
      ∀ step ∈ steps, step.index ∉ skipped → SourcesHashable skipped step.arguments.values
  | [] => ⟨fun _ _ member => absurd member List.not_mem_nil, fun _ => succeeds_ok _⟩
  | step :: rest => by
      rw [reconIndices, List.forall_mem_cons, ← reconIndices_succeeds_iff]
      by_cases isSkipped : step.index ∈ skipped
      · rw [if_pos isSkipped]
        apply Iff.trans (@succeeds_both _ _ _ _ (pure true) _ _)
        exact and_congr_left fun _ => iff_of_true (succeeds_ok _) fun free => absurd isSkipped free
      · rw [if_neg isSkipped]
        apply succeeds_both.trans
        apply and_congr_left
        intro _
        rw [consumesOutputOf, anyAmong_succeeds_iff]
        exact ⟨fun hashable _ => hashable, fun hashable => hashable isSkipped⟩

/-- The step at the position needs approval. -/
def IsWrite (registry : SkillRegistry ω) (steps : List PlannedStep) (position : Nat) : Prop :=
  ∃ step, steps[position]? = some step ∧ ¬ registry.Reads step.skill

/-- In the arguments of every read step, the sources up to the first one that refers to a
write step are neither lists nor objects. -/
def LooksSafely (registry : SkillRegistry ω) (steps : List PlannedStep) : Prop :=
  ∀ step ∈ steps, registry.Reads step.skill → ∀ before value after,
    step.arguments.values = before ++ value :: after →
    (∀ earlier ∈ before, ∀ position, IsWrite registry steps position →
      earlier.refSource.asInteger? ≠ some (position : Int)) → value.refSource.isHashable = true

/-- The steps that the reconnaissance leaves out. -/
def skippedIndices (classified : List WorkflowStep) : List Nat :=
  (classified.filter WorkflowStep.requiresApproval).map WorkflowStep.index

theorem Tagged.approval_iff {step : WorkflowStep} (tagged : Tagged registry step) :
    step.requiresApproval = true ↔ ¬ registry.Reads step.skill := by
  rcases tagged.registered with ⟨skill, found, _, approval⟩
  rw [approval, decide_eq_true_eq]
  constructor
  · intro writes reads
    rcases reads with ⟨other, isOther, isRead⟩
    cases found.symm.trans isOther
    exact writes isRead
  · intro notReads isRead
    exact notReads ⟨skill, found, isRead⟩

theorem mem_skippedIndices {planned : List PlannedStep} {classified : List WorkflowStep}
    (classifies : classifySteps planned registry = .ok classified) {position : Nat} :
    position ∈ skippedIndices classified ↔ IsWrite registry planned position := by
  rcases classifySteps_ok classifies with ⟨areThese, tagged, indexed⟩
  constructor
  · intro member
    rcases List.mem_map.mp member with ⟨step, isSkipped, rfl⟩
    rcases List.mem_filter.mp isSkipped with ⟨inPlan, approval⟩
    rcases List.getElem?_of_mem inPlan with ⟨position, found⟩
    apply Exists.intro step.planned
    rw [indexed position step found, ← areThese, List.getElem?_map, found]
    exact ⟨rfl, ((tagged step inPlan).approval_iff).mp approval⟩
  · intro isWrite
    rcases isWrite with ⟨before, found, writes⟩
    rw [← areThese, List.getElem?_map] at found
    rcases Option.map_eq_some_iff.mp found with ⟨step, isStep, rfl⟩
    have inPlan := List.mem_of_getElem? isStep
    rw [← indexed position step isStep]
    exact List.mem_map_of_mem
      (List.mem_filter.mpr ⟨inPlan, (tagged step inPlan).approval_iff.mpr writes⟩)

theorem looksSafely_iff {planned : List PlannedStep} {classified : List WorkflowStep}
    (classifies : classifySteps planned registry = .ok classified) :
    Succeeds (reconIndices (skippedIndices classified) classified) ↔
      LooksSafely registry planned := by
  rcases classifySteps_ok classifies with ⟨areThese, tagged, indexed⟩
  have refers : ∀ value, RefersAmong (skippedIndices classified) value ↔
      ∃ position, IsWrite registry planned position ∧
        value.refSource.asInteger? = some ↑position := by
    intro value
    exact ⟨fun among => among.elim fun index both =>
        ⟨index, (mem_skippedIndices classifies).mp both.1, both.2⟩,
      fun among => among.elim fun index both =>
        ⟨index, (mem_skippedIndices classifies).mpr both.1, both.2⟩⟩
  rw [reconIndices_succeeds_iff]
  constructor
  · intro hashable planned member reads before value after split free
    rw [← areThese] at member
    rcases List.mem_map.mp member with ⟨step, inPlan, rfl⟩
    have notSkipped : step.index ∉ skippedIndices classified := by
      intro isSkipped
      rcases List.mem_map.mp isSkipped with ⟨other, isOther, sameIndex⟩
      rcases List.mem_filter.mp isOther with ⟨otherInPlan, approval⟩
      rcases List.getElem?_of_mem inPlan with ⟨position, found⟩
      rcases List.getElem?_of_mem otherInPlan with ⟨otherPosition, otherFound⟩
      rw [indexed position step found, indexed otherPosition other otherFound] at sameIndex
      rw [sameIndex, found] at otherFound
      cases otherFound
      exact (tagged step inPlan).approval_iff.mp approval reads
    apply hashable step inPlan notSkipped before value after split
    intro earlier isEarlier among
    rcases (refers earlier).mp among with ⟨position, isWrite, isNumber⟩
    exact free earlier isEarlier position isWrite isNumber
  · intro safely step inPlan notSkipped before value after split free
    have reads : registry.Reads step.skill := by
      by_contra writes
      apply notSkipped
      exact List.mem_map_of_mem
        (List.mem_filter.mpr ⟨inPlan, (tagged step inPlan).approval_iff.mpr writes⟩)
    have member : step.planned ∈ planned := areThese ▸ List.mem_map_of_mem inPlan
    apply safely step.planned member reads before value after split
    intro earlier isEarlier position isWrite isNumber
    exact free earlier isEarlier ((refers earlier).mpr ⟨position, isWrite, isNumber⟩)

end Looking

/-! ## Selecting -/

section Selecting

variable [PythonText] {ω : Type} {registry : SkillRegistry ω}

omit [PythonText] in
/-- The step needs the selected items. -/
def PlannedStep.Selects (registry : SkillRegistry ω) (step : PlannedStep) : Prop :=
  (∃ skill, registry.get? step.skill = some skill ∧ skill.requiresSelection = true) ∨
    ∃ value ∈ step.arguments.values, value.isSelectionRef = true

omit [PythonText] in
theorem hasSelectionReference_iff {steps : List WorkflowStep} :
    hasSelectionReference steps registry = true ↔
      ∃ planned ∈ steps.map WorkflowStep.planned, planned.Selects registry := by
  have each : ∀ step : WorkflowStep, hasSelectionReference [step] registry = true ↔
      step.planned.Selects registry := by
    intro step
    rw [hasSelectionReference, List.any_cons, List.any_nil, Bool.or_false, Bool.or_eq_true,
      List.any_eq_true, PlannedStep.Selects]
    apply or_congr_left
    show _ ↔ ∃ skill, registry.get? step.skill = some skill ∧ skill.requiresSelection = true
    cases registry.get? step.skill with
    | none => simp
    | some skill => simp
  have some_iff : hasSelectionReference steps registry = true ↔
      ∃ step ∈ steps, hasSelectionReference [step] registry = true := by
    simp only [hasSelectionReference, List.any_cons, List.any_nil, Bool.or_false,
      List.any_eq_true]
  rw [some_iff]
  constructor
  · intro some
    rcases some with ⟨step, member, selects⟩
    exact ⟨step.planned, List.mem_map_of_mem member, (each step).mp selects⟩
  · intro some
    rcases some with ⟨planned, member, selects⟩
    rcases List.mem_map.mp member with ⟨step, isStep, rfl⟩
    exact ⟨step, isStep, (each step).mpr selects⟩

theorem resolvable_of_planned {items : List Arguments} {step other : WorkflowStep}
    (same : step.planned = other.planned) (resolvable : step.Resolvable items registry) :
    other.Resolvable items registry := by
  have sameSkill : step.skill = other.skill := congrArg PlannedStep.skill same
  have sameArguments : step.arguments = other.arguments := congrArg PlannedStep.arguments same
  have bound : bindSelection step registry = bindSelection other registry := by
    rw [bindSelection, bindSelection, sameSkill, sameArguments]
  rw [WorkflowStep.Resolvable, ← bound]
  exact resolvable

/-- A step that does not need the selected items has nothing to resolve. -/
theorem resolvable_of_not_selects {items : List Arguments} {step : WorkflowStep}
    (free : ¬ step.planned.Selects registry) : step.Resolvable items registry := by
  have unbound : bindSelection step registry = step.arguments := by
    rw [bindSelection]
    cases known : registry.get? step.skill with
    | none => rfl
    | some skill =>
        have needless : skill.requiresSelection = false :=
          Bool.eq_false_iff.mpr fun needs => free (.inl ⟨skill, known, needs⟩)
        simp only [needless, Bool.false_and, Bool.false_eq_true, if_false]
  intro argument member refers
  rw [unbound] at member
  exact absurd (.inr ⟨argument.2, List.mem_map_of_mem member, refers⟩) free

omit [PythonText] in
theorem renumberStep_selects {kept : List Nat} {step : PlannedStep} :
    (renumberStep kept step).Selects registry → step.Selects registry := by
  intro selects
  rcases selects with needs | ⟨value, member, refers⟩
  · exact .inl needs
  · rcases List.mem_map.mp member with ⟨renumbered, isRenumbered, rfl⟩
    rcases List.mem_map.mp isRenumbered with ⟨argument, isArgument, rfl⟩
    rw [renumberArgument_isSelectionRef] at refers
    exact .inr ⟨argument.2, List.mem_map_of_mem isArgument, refers⟩

omit [PythonText] in
theorem renumberKept_selects {planned steps : List PlannedStep} {kept : List Nat}
    (renumbered : renumberKept planned kept = .ok steps)
    (free : ¬ ∃ step ∈ planned, step.Selects registry) :
    ¬ ∃ step ∈ steps, step.Selects registry := by
  intro some
  rcases some with ⟨step, member, selects⟩
  rcases mem_of_mapM renumbered step member with ⟨old, _, isStep⟩
  rcases bind_eq_ok.mp isStep with ⟨before, isBefore, isRenumbered⟩
  rw [pure_eq_ok] at isRenumbered
  rw [← isRenumbered] at selects
  exact free ⟨before, List.mem_of_getElem? (orRaise_eq_ok.mp isBefore),
    renumberStep_selects selects⟩

end Selecting

/-- The steps that the asked plan continues. -/
def PlanRequest.preceding : PlanRequest → List PlannedStep
  | .followup _ kept => kept
  | .first | .replan _ => []

namespace WorkflowService

/-! ## Following a plan -/

section Following

variable [PythonText] {ω : Type} {service : WorkflowService ω} {request : ChatRequest}

/-- Every reference of the plan to the selected items resolves. -/
def PlanResolvable (service : WorkflowService ω) (request : ChatRequest) (plan : PlanResult) :
    Prop :=
  ∀ step : WorkflowStep, step.planned ∈ plan.steps →
    step.Resolvable request.selectedItems service.registry

/-- The planner raises nothing, and its plans are well placed after the steps that it is
asked to continue. -/
structure PlannerAnswers (service : WorkflowService ω) (request : ChatRequest) : Prop where
  answers : ∀ asked, ∃ plan, request.planner asked = .ok plan
  first : ∀ plan, request.planner .first = .ok plan → PlanPlaced service.registry 0 plan.steps
  followup : ∀ results kept plan, request.planner (.followup results kept) = .ok plan →
    PlanPlaced service.registry kept.length plan.steps
  replan : ∀ results plan, request.planner (.replan results) = .ok plan →
    PlanPlaced service.registry 0 plan.steps

omit [PythonText] in
theorem plan_outcome {asked : PlanRequest} {plan : PlanResult}
    (answered : request.planner asked = .ok plan) : (request.plan asked).outcome = .ok plan := by
  rw [ChatRequest.plan, answered]
  rfl

theorem replanAfterFailure_succeeds (hooks : service.hooks.Answers)
    (planner : service.PlannerAnswers request) (results : List StepResult)
    (state : AssistantState ω) :
    Succeeds (service.replanAfterFailure request results state).outcome := by
  rcases planner.answers (.replan results) with ⟨replan, answered⟩
  rw [replanAfterFailure]
  apply Work.bind_succeeds ⟨replan, plan_outcome answered⟩
  intro plan isPlan
  cases (plan_outcome answered).symm.trans isPlan
  split
  · exact succeeds_ok _
  · apply Work.bind_succeeds (classifySteps_succeeds (planner.replan results _ answered))
    intro steps _
    split
    · exact succeeds_ok _
    · exact Work.bind_succeeds (executeSteps_succeeds hooks request.userId steps state.world)
        fun _ _ => succeeds_ok _

theorem autoExecute_succeeds (hooks : service.hooks.Answers)
    (planner : service.PlannerAnswers request) (plan : PlanResult) (steps : List WorkflowStep)
    (state : AssistantState ω) : Succeeds (service.autoExecute request plan steps state).outcome := by
  rw [autoExecute]
  apply Work.bind_succeeds (executeSteps_succeeds hooks request.userId steps state.world)
  intro ran _
  dsimp only
  split
  · exact succeeds_ok _
  · exact Work.bind_succeeds (replanAfterFailure_succeeds hooks planner _ _)
      fun _ _ => succeeds_ok _

omit [PythonText] in
theorem createPending_succeeds {plan : PlanResult} {steps : List WorkflowStep}
    {state : AssistantState ω} (fresh : state.workflows.Fresh request.newId) :
    Succeeds (createPending request plan steps state) := by
  rw [createPending, succeeds_bind]
  rcases @Table.insert?_of_fresh _ _ _ _ state.workflows
    ⟨request.newId, request.userId, request.sessionId, request.message,
      steps.map WorkflowStep.dump, .pending, none⟩ fresh with ⟨after, inserted, _⟩
  apply Exists.intro { state with workflows := after }
  apply And.intro
  · rw [AssistantState.addWorkflow, inserted]
    rfl
  · exact succeeds_ok _

/-- Of what is done with the final plan, only the selection may raise. -/
theorem followPlan_succeeds_iff (hooks : service.hooks.Answers)
    (planner : service.PlannerAnswers request) {plan : PlanResult}
    (placed : PlanPlaced service.registry 0 plan.steps) {state : AssistantState ω}
    (fresh : state.workflows.Fresh request.newId) :
    Succeeds (service.followPlan request plan state).outcome ↔
      (request.selectedItems ≠ [] → service.PlanResolvable request plan) := by
  rcases classifySteps_succeeds placed with ⟨classified, classifies⟩
  have areThese := (classifySteps_ok classifies).1
  have ends : ∀ steps : List WorkflowStep, Succeeds (if isAutoConfirmable steps then
      service.autoExecute request plan steps state
    else
      Work.of (createPending request plan steps state)).outcome := by
    intro steps
    split
    · exact autoExecute_succeeds hooks planner plan steps state
    · exact createPending_succeeds fresh
  rw [followPlan, Work.outcome_bind, Work.outcome_of, classifies]
  show Succeeds (Work.outcome (if (hasSelectionReference classified service.registry &&
    request.selectedItems.isEmpty) = true then _ else _)) ↔ _
  by_cases selects : hasSelectionReference classified service.registry = true
  · by_cases selected : request.selectedItems = []
    · rw [if_pos (by rw [selects, selected]; rfl)]
      exact iff_of_true (succeeds_ok _) fun some => absurd selected some
    · have notEmpty : request.selectedItems.isEmpty = false := by
        rw [Bool.eq_false_iff, ne_eq, List.isEmpty_iff]
        exact selected
      rw [if_neg (by rw [notEmpty, Bool.and_false]; exact Bool.false_ne_true),
        Work.outcome_bind, Work.outcome_of, if_pos selects, succeeds_bind]
      constructor
      · intro both _ step member
        rcases both with ⟨steps, applied, _⟩
        rw [← areThese] at member
        rcases List.mem_map.mp member with ⟨other, isOther, same⟩
        exact resolvable_of_planned same
          ((applySelection_succeeds_iff selected).mp ⟨steps, applied⟩ other isOther)
      · intro resolvable
        have all : ∀ step ∈ classified, step.Resolvable request.selectedItems service.registry :=
          fun step member =>
            resolvable selected step (areThese ▸ List.mem_map_of_mem member)
        rcases (applySelection_succeeds_iff selected).mpr all with ⟨steps, applied⟩
        exact ⟨steps, applied, ends steps⟩
  · rw [if_neg (by rw [Bool.not_eq_true] at selects; rw [selects]; exact Bool.false_ne_true),
      Work.outcome_bind, Work.outcome_of, if_neg selects, succeeds_bind]
    apply iff_of_true ⟨classified, rfl, ends classified⟩
    intro _ step member
    apply resolvable_of_not_selects
    intro stepSelects
    exact selects (hasSelectionReference_iff.mpr ⟨_, areThese ▸ member, stepSelects⟩)

end Following

/-! ## Chatting -/

section Chatting

variable [PythonText] {ω : Type} {service : WorkflowService ω} {request : ChatRequest}
variable {first : PlanResult}

/-- The plan is looked at in two phases, and not grounded in selected items. -/
structure LooksFirst (service : WorkflowService ω) (request : ChatRequest) (first : PlanResult) :
    Prop where
  enabled : service.twoPhasePlanning = true
  wanted : first.needsFollowup = true
  ungrounded : request.selectedItems = [] ∨
    ¬ ∃ step ∈ first.steps, step.Selects service.registry

/-- These are the results of the reconnaissance of the plan, with the steps kept. -/
structure Observed (service : WorkflowService ω) (request : ChatRequest) (first : PlanResult)
    (world : ω) (results : List StepResult) (kept : List PlannedStep) : Prop where
  looks : service.LooksFirst request first
  ran : ∃ classified indices recon after,
    classifySteps first.steps service.registry = .ok classified ∧
    reconIndices (skippedIndices classified) classified = .ok indices ∧ indices ≠ [] ∧
    (indices.mapM fun index => orRaise classified[index]? AssistantError.lookup) = .ok recon ∧
    (service.execute request.userId recon world).outcome = .ok (results, after) ∧
    renumberKept first.steps indices = .ok kept

/-- What `chat` needs of the plans to give a response: where it looks first, the sources
that it looks up have hashes, and every reference to the selected items, in the first plan
and in the one that follows what was observed, resolves. -/
structure Answerable (service : WorkflowService ω) (request : ChatRequest) (first : PlanResult)
    (world : ω) : Prop where
  sources : service.LooksFirst request first → LooksSafely service.registry first.steps
  selection : request.selectedItems ≠ [] → service.PlanResolvable request first
  followup : request.selectedItems ≠ [] → ∀ results kept plan,
    service.Observed request first world results kept →
    request.planner (.followup results kept) = .ok plan → service.PlanResolvable request plan

/-- The plan that is followed when the second pass has answered. -/
def combined (first followup : PlanResult) (kept : List PlannedStep) : PlanResult :=
  if followup.steps.isEmpty then
    first
  else
    ⟨if followup.reply = "" then first.reply else followup.reply, kept ++ followup.steps, false⟩

omit [PythonText] in
theorem looksFirst_iff {classified : List WorkflowStep}
    (classifies : classifySteps first.steps service.registry = .ok classified) :
    service.LooksFirst request first ↔
      (!service.twoPhasePlanning || !first.needsFollowup) = false ∧
        (!request.selectedItems.isEmpty &&
          hasSelectionReference classified service.registry) = false := by
  have selects := @hasSelectionReference_iff _ service.registry classified
  rw [(classifySteps_ok classifies).1] at selects
  have grounded : (!request.selectedItems.isEmpty &&
      hasSelectionReference classified service.registry) = false ↔
        request.selectedItems = [] ∨ ¬ ∃ step ∈ first.steps, step.Selects service.registry := by
    rw [Bool.and_eq_false_iff, Bool.not_eq_false', List.isEmpty_iff, ← selects, Bool.not_eq_true]
  rw [Bool.or_eq_false_iff, Bool.not_eq_false', Bool.not_eq_false', grounded]
  exact ⟨fun looks => ⟨⟨looks.enabled, looks.wanted⟩, looks.ungrounded⟩,
    fun both => ⟨both.1.1, both.1.2, both.2⟩⟩

theorem maybePlanFollowup_stays {classified : List WorkflowStep}
    (classifies : classifySteps first.steps service.registry = .ok classified)
    (stays : ¬ service.LooksFirst request first) (world : ω) :
    (service.maybePlanFollowup request first world).outcome = .ok (first, world) := by
  rw [maybePlanFollowup]
  split
  · rfl
  · rename_i wanted
    rw [Work.outcome_bind, Work.outcome_of, classifies]
    show Work.outcome (if _ then _ else _) = _
    rw [if_pos]
    · rfl
    · by_contra free
      exact stays ((looksFirst_iff classifies).mpr
        ⟨Bool.eq_false_iff.mpr wanted, Bool.eq_false_iff.mpr free⟩)

theorem maybePlanFollowup_looks {classified : List WorkflowStep}
    (classifies : classifySteps first.steps service.registry = .ok classified)
    (looks : service.LooksFirst request first) (world : ω) :
    (service.maybePlanFollowup request first world).outcome =
      (reconIndices (skippedIndices classified) classified).bind fun indices =>
        if indices = [] then
          .ok (first, world)
        else
          (service.planFollowup request first classified indices world).outcome := by
  rcases (looksFirst_iff classifies).mp looks with ⟨wanted, ungrounded⟩
  rw [maybePlanFollowup, if_neg (by rw [wanted]; exact Bool.false_ne_true), Work.outcome_bind,
    Work.outcome_of, classifies]
  show Work.outcome (if _ then _ else _) = _
  rw [if_neg (by rw [ungrounded]; exact Bool.false_ne_true), Work.outcome_bind, Work.outcome_of]
  show (reconIndices (skippedIndices classified) classified).bind _ = _
  apply congrArg
  funext indices
  split
  · rfl
  · rfl

/-- The second pass follows what was observed. -/
theorem planFollowup_outcome {classified recon : List WorkflowStep} {indices : List Nat}
    {world after : ω} {results : List StepResult} {kept : List PlannedStep} {followup : PlanResult}
    (picks : (indices.mapM fun index => orRaise classified[index]? AssistantError.lookup) =
      .ok recon)
    (executed : (service.execute request.userId recon world).outcome = .ok (results, after))
    (renumbered : renumberKept first.steps indices = .ok kept)
    (answered : request.planner (.followup results kept) = .ok followup) :
    (service.planFollowup request first classified indices world).outcome =
      .ok (combined first followup kept, after) := by
  rw [planFollowup, Work.outcome_bind, Work.outcome_of, picks]
  show Work.outcome (_ >>= _) = _
  rw [Work.outcome_bind, executed]
  show Work.outcome (_ >>= _) = _
  rw [Work.outcome_bind, Work.outcome_of, renumbered]
  show Work.outcome (_ >>= _) = _
  rw [Work.outcome_bind, plan_outcome answered, combined]
  show Work.outcome (if _ then _ else _) = _
  split
  · rfl
  · rfl

theorem Observed.placed {world : ω} {results : List StepResult} {kept : List PlannedStep}
    (observed : service.Observed request first world results kept)
    (placed : PlanPlaced service.registry 0 first.steps) : PlanPlaced service.registry 0 kept := by
  rcases observed.ran with
    ⟨classified, indices, _, _, classifies, looked, _, _, _, renumbered⟩
  have ordered : indices.Pairwise (· < ·) := by
    have sublist := reconIndices_sublist looked
    rw [classified_indices classifies] at sublist
    exact List.pairwise_lt_range.sublist sublist
  exact renumberKept_placed placed ordered renumbered

theorem Observed.selects {world : ω} {results : List StepResult} {kept : List PlannedStep}
    (observed : service.Observed request first world results kept)
    (free : ¬ ∃ step ∈ first.steps, step.Selects service.registry) :
    ¬ ∃ step ∈ kept, step.Selects service.registry := by
  rcases observed.ran with ⟨_, _, _, _, _, _, _, _, _, renumbered⟩
  exact renumberKept_selects renumbered free

/-- Where `chat` looks first, the sources alone decide whether it comes to a final plan:
the first one, or one that continues what was observed. -/
theorem maybePlanFollowup_followed (hooks : service.hooks.Answers)
    (planner : service.PlannerAnswers request) (placed : PlanPlaced service.registry 0 first.steps)
    (looks : service.LooksFirst request first)
    (safely : LooksSafely service.registry first.steps) (world : ω) :
    ∃ final after, (service.maybePlanFollowup request first world).outcome = .ok (final, after) ∧
      (final = first ∨ ∃ results kept followup,
        service.Observed request first world results kept ∧
        request.planner (.followup results kept) = .ok followup ∧
        final = combined first followup kept) := by
  rcases classifySteps_succeeds placed with ⟨classified, classifies⟩
  rcases (looksSafely_iff classifies).mpr safely with ⟨indices, looked⟩
  rw [maybePlanFollowup_looks classifies looks, looked]
  show ∃ final after, (if indices = [] then _ else _) = _ ∧ _
  by_cases nothing : indices = []
  · rw [if_pos nothing]
    exact ⟨first, world, rfl, .inl rfl⟩
  · rw [if_neg nothing]
    have inPlan : ∀ index ∈ indices, index < first.steps.length := by
      intro index member
      have among := (reconIndices_sublist looked).subset member
      rw [classified_indices classifies] at among
      exact List.mem_range.mp among
    have sameLength : classified.length = first.steps.length := by
      rw [← (classifySteps_ok classifies).1, List.length_map]
    have picks : Succeeds (indices.mapM fun index =>
        orRaise classified[index]? AssistantError.lookup) := by
      apply succeeds_mapM_iff.mpr
      intro index member
      rw [List.getElem?_eq_getElem (sameLength ▸ inPlan index member)]
      exact succeeds_ok _
    have renumbers : Succeeds (renumberKept first.steps indices) := by
      apply succeeds_mapM_iff.mpr
      intro index member
      rw [List.getElem?_eq_getElem (inPlan index member)]
      exact succeeds_ok _
    rcases picks with ⟨recon, picks⟩
    rcases renumbers with ⟨kept, renumbered⟩
    rcases executeSteps_succeeds hooks request.userId recon world with ⟨⟨results, after⟩, executed⟩
    rcases planner.answers (.followup results kept) with ⟨followup, answered⟩
    exact ⟨_, after, planFollowup_outcome picks executed renumbered answered,
      .inr ⟨results, kept, followup, ⟨looks, classified, indices, recon, after, classifies, looked,
        nothing, picks, executed, renumbered⟩, answered, rfl⟩⟩

/-- What was observed and the answer to it determine the final plan. -/
theorem Observed.followed {world : ω} {results : List StepResult} {kept : List PlannedStep}
    {followup : PlanResult} (observed : service.Observed request first world results kept)
    (answered : request.planner (.followup results kept) = .ok followup) :
    ∃ after, (service.maybePlanFollowup request first world).outcome =
      .ok (combined first followup kept, after) := by
  rcases observed.ran with
    ⟨classified, indices, recon, after, classifies, looked, some, picks, executed, renumbered⟩
  apply Exists.intro after
  rw [maybePlanFollowup_looks classifies observed.looks, looked]
  show (if indices = [] then _ else _) = _
  rw [if_neg some, planFollowup_outcome picks executed renumbered answered]

/-- The combined plan resolves when the plan that continues it does. -/
theorem combined_resolvable {world : ω} {results : List StepResult} {kept : List PlannedStep}
    {followup : PlanResult} (observed : service.Observed request first world results kept)
    (free : ¬ ∃ step ∈ first.steps, step.Selects service.registry) :
    service.PlanResolvable request (combined first followup kept) ↔
      service.PlanResolvable request followup := by
  have resolves : ∀ {steps : List PlannedStep},
      (¬ ∃ step ∈ steps, step.Selects service.registry) → ∀ step : WorkflowStep,
      step.planned ∈ steps → step.Resolvable request.selectedItems service.registry :=
    fun free step member => resolvable_of_not_selects fun selects => free ⟨_, member, selects⟩
  rw [combined]
  split
  · rename_i empty
    apply iff_of_true (resolves free)
    intro step member
    rw [List.isEmpty_iff.mp empty] at member
    cases member
  · constructor
    · exact fun resolvable step member => resolvable step (List.mem_append_right _ member)
    · intro resolvable step member
      rcases List.mem_append.mp member with inKept | inFollowup
      · exact resolves (observed.selects free) step inKept
      · exact resolvable step inFollowup

theorem combined_placed {world : ω} {results : List StepResult} {kept : List PlannedStep}
    {followup : PlanResult} (planner : service.PlannerAnswers request)
    (placed : PlanPlaced service.registry 0 first.steps)
    (observed : service.Observed request first world results kept)
    (answered : request.planner (.followup results kept) = .ok followup) :
    PlanPlaced service.registry 0 (combined first followup kept).steps := by
  rw [combined]
  split
  · exact placed
  · exact (observed.placed placed).append (planner.followup results kept followup answered)

/-- `chat`, from a first plan that is not empty. -/
theorem chat_outcome {state : AssistantState ω} (unauthored : request.authored = none)
    (answered : request.planner .first = .ok first) (some : first.steps ≠ []) :
    (service.chat request state).outcome =
      (service.maybePlanFollowup request first state.world).outcome.bind fun followed =>
        (service.followPlan request followed.1 (state.withWorld followed.2)).outcome := by
  rw [chat, unauthored]
  show Work.outcome (_ >>= _) = _
  rw [Work.outcome_bind, plan_outcome answered]
  show Work.outcome (if first.steps.isEmpty then _ else _) = _
  rw [if_neg (by rwa [List.isEmpty_iff]), Work.outcome_bind]
  rfl

/-- A plan without steps needs nothing. -/
theorem answerable_of_empty (empty : first.steps = []) (world : ω) :
    service.Answerable request first world := by
  constructor
  · intro _ step member
    rw [empty] at member
    cases member
  · intro _ step member
    rw [empty] at member
    cases member
  · intro _ results kept plan observed
    rcases observed.ran with ⟨classified, indices, _, _, classifies, looked, some, _⟩
    rw [empty] at classifies
    cases classifies
    cases looked
    exact absurd rfl some

theorem chat_succeeds_iff (hooks : service.hooks.Answers)
    (planner : service.PlannerAnswers request) (answered : request.planner .first = .ok first)
    {state : AssistantState ω} (fresh : state.workflows.Fresh request.newId)
    (unauthored : request.authored = none) :
    Succeeds (service.chat request state).outcome ↔
      service.Answerable request first state.world := by
  have placed := planner.first first answered
  have follows : ∀ {plan : PlanResult} (world : ω), PlanPlaced service.registry 0 plan.steps →
      (Succeeds (service.followPlan request plan (state.withWorld world)).outcome ↔
        (request.selectedItems ≠ [] → service.PlanResolvable request plan)) :=
    fun _ placed => followPlan_succeeds_iff hooks planner placed fresh
  by_cases empty : first.steps = []
  · have replies : (service.chat request state).outcome = .ok (⟨first.reply, none, []⟩, state) := by
      rw [chat, unauthored]
      show Work.outcome (_ >>= _) = _
      rw [Work.outcome_bind, plan_outcome answered]
      show Work.outcome (if first.steps.isEmpty then _ else _) = _
      rw [if_pos (List.isEmpty_iff.mpr empty)]
      rfl
    rw [replies]
    exact iff_of_true (succeeds_ok _) (answerable_of_empty empty state.world)
  · rw [chat_outcome unauthored answered empty]
    apply succeeds_bind.trans
    rcases classifySteps_succeeds placed with ⟨classified, classifies⟩
    by_cases looks : service.LooksFirst request first
    · have free : request.selectedItems ≠ [] →
          ¬ ∃ step ∈ first.steps, step.Selects service.registry :=
        fun selected => looks.ungrounded.resolve_left selected
      constructor
      · intro both
        rcases both with ⟨followed, isFollowed, ends⟩
        constructor
        · intro _
          apply (looksSafely_iff classifies).mp
          rw [maybePlanFollowup_looks classifies looks] at isFollowed
          rcases bind_eq_ok.mp isFollowed with ⟨indices, looked, _⟩
          exact ⟨indices, looked⟩
        · exact fun selected step member =>
            resolvable_of_not_selects fun selects => free selected ⟨_, member, selects⟩
        · intro selected results kept followup observed isFollowup
          rcases observed.followed isFollowup with ⟨after, same⟩
          cases isFollowed.symm.trans same
          have combinedPlaced := combined_placed planner placed observed isFollowup
          have resolvable := (follows after combinedPlaced).mp ends selected
          exact (combined_resolvable observed (free selected)).mp resolvable
      · intro answerable
        rcases maybePlanFollowup_followed hooks planner placed looks (answerable.sources looks)
          state.world with ⟨final, after, isFollowed, same | further⟩
        · apply Exists.intro (final, after)
          apply And.intro isFollowed
          rw [same]
          exact (follows after placed).mpr answerable.selection
        · rcases further with ⟨results, kept, followup, observed, isFollowup, rfl⟩
          apply Exists.intro (_, after)
          apply And.intro isFollowed
          apply (follows after (combined_placed planner placed observed isFollowup)).mpr
          intro selected
          exact (combined_resolvable observed (free selected)).mpr
            (answerable.followup selected results kept followup observed isFollowup)
    · have stays := maybePlanFollowup_stays classifies looks state.world
      constructor
      · intro both
        rcases both with ⟨followed, isFollowed, ends⟩
        cases isFollowed.symm.trans stays
        constructor
        · exact fun looksFirst => absurd looksFirst looks
        · exact (follows state.world placed).mp ends
        · exact fun _ _ _ _ observed => absurd observed.looks looks
      · intro answerable
        exact ⟨_, stays, (follows state.world placed).mpr answerable.selection⟩

variable [UnicodeDigits]

/-- The planner raises nothing, and `validate_plan` finds no problem in its plans. -/
def PlansValidly (service : WorkflowService ω) (declared : String → SkillDeclaration)
    (request : ChatRequest) : Prop :=
  ∀ asked, ∃ plan, request.planner asked = .ok plan ∧
    validatePlan plan.steps ⟨service.registry, declared⟩ asked.preceding = .ok []

theorem PlansValidly.answers {declared : String → SkillDeclaration}
    (validly : service.PlansValidly declared request) : service.PlannerAnswers request := by
  have placed : ∀ asked plan, request.planner asked = .ok plan →
      PlanPlaced service.registry asked.preceding.length plan.steps := by
    intro asked plan isPlan position step found
    rcases validly asked with ⟨other, isOther, valid⟩
    cases isPlan.symm.trans isOther
    exact (validatePlan_nil valid position step found).toWellPlaced
  constructor
  · exact fun asked => (validly asked).elim fun plan both => ⟨plan, both.1⟩
  · exact fun plan isPlan => placed .first plan isPlan
  · exact fun results kept plan isPlan => placed (.followup results kept) plan isPlan
  · exact fun results plan isPlan => placed (.replan results) plan isPlan

/-- With validated plans, `chat` gives a response exactly when what it looks up in them has
a hash and what they say of the selected items resolves. -/
theorem chat_responds_iff {declared : String → SkillDeclaration}
    (hooks : service.hooks.Answers) (validly : service.PlansValidly declared request)
    (answered : request.planner .first = .ok first) {state : AssistantState ω}
    (fresh : state.workflows.Fresh request.newId) :
    (∃ response after, (service.chat request state).outcome = .ok (response, after)) ↔
      (request.authored = none → service.Answerable request first state.world) := by
  have responds : (∃ response after, (service.chat request state).outcome =
      .ok (response, after)) ↔ Succeeds (service.chat request state).outcome :=
    ⟨fun both => both.elim fun response rest => rest.elim fun after done => ⟨_, done⟩,
      fun succeeds => succeeds.elim fun both done => ⟨both.1, both.2, done⟩⟩
  rw [responds]
  cases authored : request.authored with
  | some message =>
      rw [chat, authored]
      exact iff_of_true (succeeds_ok _) fun none => by cases none
  | none =>
      rw [forall_prop_of_true rfl]
      exact chat_succeeds_iff hooks validly.answers answered fresh authored

end Chatting

end WorkflowService

/-! ## A reference beyond the selection -/

section Beyond

attribute [local instance] smallPythonText

@[reducible] private def asciiDigits : UnicodeDigits := ⟨fun _ => false⟩

attribute [local instance] asciiDigits

private def listSkill : RegisteredSkill Unit where
  name := "list_items"
  permissionTier := "read"
  requiresSelection := false
  handler _ _ world := (.ok (.list []), world)

private def moveSkill : RegisteredSkill Unit where
  name := "move_item"
  permissionTier := "write"
  requiresSelection := false
  handler _ arguments world := (.ok (.object arguments), world)

private def noSnapshot (_ : Uuid) (_ : String) (world : Unit) : Except String Unit × Unit :=
  (.error "no snapshot", world)

private def movingService : WorkflowService Unit where
  registry := ⟨[listSkill, moveSkill], by decide⟩
  hooks := assistantHooks noSnapshot
  twoPhasePlanning := true

private def undeclared (_ : String) : SkillDeclaration := ⟨[], .opaqueOutput⟩

/-- The step moves a selected item. -/
private def moveSelected (item : Int) : PlanResult where
  reply := "moving"
  steps := [⟨"move_item", [("item_id", .object [("from", .string "selection"),
    ("item", .int item)])], []⟩]
  needsFollowup := false

/-- The step looks at the output of a list of steps. -/
private def listedSource : PlanResult where
  reply := "looking"
  steps := [⟨"list_items", [("parent_id", .object [("from", .list [])])], []⟩]
  needsFollowup := true

private def asking (plan : PlanResult) : ChatRequest where
  userId := 1
  sessionId := 2
  message := "move it"
  authored := none
  selectedItems := [[("id", .string "a"), ("name", .string "a.txt"), ("item_type", .string "FILE")]]
  planner asked := .ok (match asked with
    | .first => plan
    | _ => ⟨"", [], false⟩)
  newId := 3

private def noRows : AssistantState Unit := ⟨.empty, [], ()⟩

private theorem asking_validly {plan : PlanResult}
    (valid : validatePlan plan.steps ⟨movingService.registry, undeclared⟩ [] = .ok []) :
    movingService.PlansValidly undeclared (asking plan) := by
  intro asked
  cases asked with
  | first => exact ⟨plan, rfl, valid⟩
  | followup | replan => exact ⟨⟨"", [], false⟩, rfl, rfl⟩

theorem WorkflowService.chat_responds_iff_moveSelected :
    (∃ response after, (movingService.chat (asking (moveSelected 0)) noRows).outcome =
      .ok (response, after)) ↔
      ((asking (moveSelected 0)).authored = none →
        movingService.Answerable (asking (moveSelected 0)) (moveSelected 0) ()) :=
  WorkflowService.chat_responds_iff (assistantHooks_answers noSnapshot) (asking_validly rfl)
    rfl fun _ member => absurd member List.not_mem_nil

theorem WorkflowService.beyondSelection_raises :
    movingService.PlansValidly undeclared (asking (moveSelected 5)) ∧
      (movingService.chat (asking (moveSelected 5)) noRows).outcome =
        .error (.resolution "selection reference index 5 out of range (have 1 selected)") ∧
      movingService.PlansValidly undeclared (asking listedSource) ∧
      (movingService.chat (asking listedSource) noRows).outcome = .error .unhashable :=
  ⟨asking_validly rfl, rfl, asking_validly rfl, rfl⟩

end Beyond

end CloudDrive
