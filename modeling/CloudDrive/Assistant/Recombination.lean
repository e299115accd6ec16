import CloudDrive.Assistant.ChatResponses

/-! # Recombining a plan

What the steps kept from a first plan refer to, once `_maybe_plan_followup` has put the
steps of the second pass after them. -/

namespace CloudDrive

open Outcome Relational

/-! ## The steps kept -/

section Kept

variable {ω : Type} {registry : SkillRegistry ω}

/-- The steps of the plan that are run as reconnaissance. -/
def keptIndices (registry : SkillRegistry ω) (steps : List PlannedStep) :
    Except AssistantError (List Nat) := do
  let classified ← classifySteps steps registry
  reconIndices (skippedIndices classified) classified

/-- The step at the position reads, and none of its arguments refers to a write step. -/
def LooksAlone (registry : SkillRegistry ω) (steps : List PlannedStep) (position : Nat) : Prop :=
  ∃ step, steps[position]? = some step ∧ registry.Reads step.skill ∧
    ∀ value ∈ step.arguments.values, ∀ write, IsWrite registry steps write →
      value.refSource.asInteger? ≠ some ↑write

/-- A step that looks alone refers to steps that look alone. -/
def LooksTogether (registry : SkillRegistry ω) (steps : List PlannedStep) : Prop :=
  ∀ position step, LooksAlone registry steps position → steps[position]? = some step →
    ∀ value ∈ step.arguments.values, ∀ source, value.refStep? = some source →
      ∃ earlier : Nat, source = ↑earlier ∧ LooksAlone registry steps earlier

theorem anyAmong_ok {indices : List Nat} : ∀ {values : List Value} {among : Bool},
    anyAmong indices values = .ok among →
      (among = true ↔ ∃ value ∈ values, RefersAmong indices value)
  | [], among, looked => by
      cases looked
      simp
  | value :: rest, among, looked => by
      simp only [anyAmong, bind_eq_ok] at looked
      rcases looked with ⟨first, isFirst, later⟩
      have here := (isAmong_eq_ok isFirst).2
      cases first with
      | true =>
          rw [if_pos rfl, pure_eq_ok] at later
          exact iff_of_true later.symm ⟨value, List.mem_cons_self, here.mp rfl⟩
      | false =>
          rw [if_neg Bool.false_ne_true] at later
          have notHere : ¬ RefersAmong indices value := fun refers => by cases here.mpr refers
          rw [anyAmong_ok later, List.exists_mem_cons_iff, or_iff_right notHere]

theorem mem_reconIndices {skipped : List Nat} : ∀ {steps : List WorkflowStep}
    {indices : List Nat}, reconIndices skipped steps = .ok indices → ∀ index,
    (index ∈ indices ↔ ∃ step ∈ steps, step.index = index ∧ index ∉ skipped ∧
      ¬ ∃ value ∈ step.arguments.values, RefersAmong skipped value)
  | [], indices, looked, index => by
      cases looked
      simp
  | step :: rest, indices, looked, index => by
      rw [reconIndices] at looked
      by_cases isSkipped : step.index ∈ skipped
      · simp only [if_pos isSkipped, bind_eq_ok, pure_eq_ok] at looked
        rcases looked with ⟨_, rfl, later, areLater, rfl⟩
        rw [if_pos rfl, mem_reconIndices areLater, List.exists_mem_cons_iff, or_iff_right]
        rintro ⟨rfl, notSkipped, _⟩
        exact notSkipped isSkipped
      · simp only [if_neg isSkipped, bind_eq_ok, pure_eq_ok] at looked
        rcases looked with ⟨consumes, isConsuming, later, areLater, rfl⟩
        have consuming := anyAmong_ok isConsuming
        rw [List.exists_mem_cons_iff, ← mem_reconIndices areLater]
        cases consumes with
        | true =>
            rw [if_pos rfl, or_iff_right]
            exact fun free => free.2.2 (consuming.mp rfl)
        | false =>
            have free := mt consuming.mpr Bool.false_ne_true
            rw [if_neg Bool.false_ne_true, List.mem_cons]
            apply or_congr_left
            constructor
            · rintro rfl
              exact ⟨rfl, isSkipped, free⟩
            · exact fun same => same.1.symm

theorem keptIndices_ordered {steps : List PlannedStep} {indices : List Nat}
    (kept : keptIndices registry steps = .ok indices) : indices.Pairwise (· < ·) := by
  rcases bind_eq_ok.mp kept with ⟨classified, classifies, looked⟩
  have sublist := reconIndices_sublist looked
  rw [classified_indices classifies] at sublist
  exact List.pairwise_lt_range.sublist sublist

theorem mem_keptIndices {steps : List PlannedStep} {indices : List Nat}
    (kept : keptIndices registry steps = .ok indices) (position : Nat) :
    position ∈ indices ↔ LooksAlone registry steps position := by
  rcases bind_eq_ok.mp kept with ⟨classified, classifies, looked⟩
  rcases classifySteps_ok classifies with ⟨areThese, tagged, indexed⟩
  have writes : ∀ {number : Nat}, number ∈ skippedIndices classified ↔
      IsWrite registry steps number := mem_skippedIndices classifies
  rw [mem_reconIndices looked]
  constructor
  · rintro ⟨step, member, rfl, notSkipped, free⟩
    rcases List.getElem?_of_mem member with ⟨place, found⟩
    have isPlace := indexed place step found
    have stands : steps[step.index]? = some step.planned := by
      rw [isPlace, ← areThese, List.getElem?_map, found, Option.map_some]
    apply Exists.intro step.planned
    apply And.intro stands
    constructor
    · by_contra notReads
      exact notSkipped (writes.mpr ⟨step.planned, stands, notReads⟩)
    · intro value among write isWrite refers
      exact free ⟨value, among, write, writes.mpr isWrite, refers⟩
  · rintro ⟨planned, found, reads, free⟩
    rw [← areThese, List.getElem?_map] at found
    rcases Option.map_eq_some_iff.mp found with ⟨step, isStep, rfl⟩
    refine ⟨step, List.mem_of_getElem? isStep, indexed position step isStep, ?_, ?_⟩
    · intro isSkipped
      rcases writes.mp isSkipped with ⟨other, isOther, notReads⟩
      rw [← areThese, List.getElem?_map, isStep] at isOther
      cases isOther
      exact notReads reads
    · rintro ⟨value, among, write, isSkipped, refers⟩
      exact free value among write (writes.mp isSkipped) refers

end Kept

/-! ## What a kept step refers to -/

/-- The step kept at `old` of the first plan stands at `new`. -/
def Renumbers (indices : List Nat) (old new : Int) : Prop :=
  ∃ index position : Nat, old = ↑index ∧ new = ↑position ∧ indices[position]? = some index

/-- The step refers to the copies of what it referred to, and waits for the copies of what
it waited for. -/
structure KeepsReferences (indices : List Nat) (before after : PlannedStep) : Prop where
  skill : after.skill = before.skill
  names : after.arguments.map Prod.fst = before.arguments.map Prod.fst
  others : ∀ (place : Nat) (old new : String × Value), before.arguments[place]? = some old →
    after.arguments[place]? = some new → old.2.refStep? = none → new = old
  references : ∀ (place : Nat) (old new : String × Value) (source : Int),
    before.arguments[place]? = some old → after.arguments[place]? = some new →
    old.2.refStep? = some source →
    ∃ target, new.2.refStep? = some target ∧ Renumbers indices source target
  dependencies : ∀ dependency, dependency ∈ after.dependsOn ↔
    ∃ old ∈ before.dependsOn, Renumbers indices old dependency

theorem newPosition?_renumbers {indices : List Nat} (ordered : indices.Pairwise (· < ·))
    {old : Int} {position : Nat} :
    newPosition? indices old = some position ↔ Renumbers indices old ↑position := by
  constructor
  · intro isNew
    rcases newPosition?_eq_some isNew with ⟨index, found, same⟩
    exact ⟨index, position, same.symm, rfl, found⟩
  · rintro ⟨index, other, rfl, same, found⟩
    cases Int.ofNat.inj same
    rcases List.getElem?_eq_some_iff.mp found with ⟨inside, isIndex⟩
    apply List.findIdx?_eq_some_iff_getElem.mpr
    refine ⟨inside, decide_eq_true (congrArg _ isIndex), ?_⟩
    intro earlier before same
    have grows := List.pairwise_iff_getElem.mp ordered earlier position
      (before.trans inside) inside before
    rw [decide_eq_true_eq] at same
    omega

theorem renumberArgument_of_none {indices : List Nat} {value : Value}
    (unmapped : value.refStep?.bind (newPosition? indices) = none) :
    renumberArgument indices value = value := by
  unfold renumberArgument
  rw [unmapped]

/-- A step is renumbered soundly when everything that it refers to is kept. -/
theorem renumberStep_keeps_iff {indices : List Nat} (ordered : indices.Pairwise (· < ·))
    {step : PlannedStep} :
    KeepsReferences indices step (renumberStep indices step) ↔
      ∀ value ∈ step.arguments.values, ∀ source, value.refStep? = some source →
        ∃ index ∈ indices, source = ↑index := by
  constructor
  · intro keeps value member source refers
    rcases List.mem_map.mp member with ⟨argument, isArgument, rfl⟩
    rcases List.getElem?_of_mem isArgument with ⟨place, found⟩
    have renumbered : (renumberStep indices step).arguments[place]? =
        some (argument.1, renumberArgument indices argument.2) := by
      rw [renumberStep, List.getElem?_map, found, Option.map_some]
    rcases keeps.references place _ _ source found renumbered refers with
      ⟨target, _, index, position, same, _, isIndex⟩
    exact ⟨index, List.mem_of_getElem? isIndex, same⟩
  · intro allKept
    have atPlace : ∀ {place : Nat} {old new : String × Value},
        step.arguments[place]? = some old →
        (renumberStep indices step).arguments[place]? = some new →
        new = (old.1, renumberArgument indices old.2) := by
      intro place old new isOld isNew
      rw [renumberStep, List.getElem?_map, isOld, Option.map_some] at isNew
      exact (Option.some.inj isNew).symm
    constructor
    case skill => rfl
    case names =>
      rw [renumberStep, List.map_map]
      rfl
    case others =>
      intro place old new isOld isNew free
      rw [atPlace isOld isNew, renumberArgument_of_none (by rw [free]; rfl)]
    case references =>
      intro place old new source isOld isNew refers
      have member : old.2 ∈ step.arguments.values :=
        List.mem_map_of_mem (List.mem_of_getElem? isOld)
      rcases allKept old.2 member source refers with ⟨index, isKept, rfl⟩
      rcases List.getElem?_of_mem isKept with ⟨position, found⟩
      have renumbers : Renumbers indices ↑index ↑position := ⟨index, position, rfl, rfl, found⟩
      have isPosition : old.2.refStep?.bind (newPosition? indices) = some position := by
        rw [refers]
        exact (newPosition?_renumbers ordered).mpr renumbers
      apply Exists.intro (↑position : Int)
      rw [atPlace isOld isNew, Value.refStep?, renumberArgument_refSource isPosition]
      exact ⟨rfl, renumbers⟩
    case dependencies =>
      intro dependency
      rw [renumberStep, List.mem_map]
      constructor
      · rintro ⟨position, isNew, rfl⟩
        rcases List.mem_filterMap.mp isNew with ⟨old, among, mapped⟩
        exact ⟨old, among, (newPosition?_renumbers ordered).mp mapped⟩
      · rintro ⟨old, among, renumbers⟩
        rcases renumbers with ⟨index, position, same, rfl, found⟩
        refine ⟨position, List.mem_filterMap.mpr ⟨old, among, ?_⟩, rfl⟩
        exact (newPosition?_renumbers ordered).mpr ⟨index, position, same, rfl, found⟩

/-! ## Validating the combined plan -/

section Validating

variable [PythonText] [UnicodeDigits] {ω : Type} {catalog : SkillCatalog ω}

omit [UnicodeDigits] in
theorem renumberArgument_refPath (indices : List Nat) (value : Value) :
    (renumberArgument indices value).refPath = value.refPath := by
  cases value with
  | object fields =>
      cases mapped : (Value.object fields).refStep?.bind (newPosition? indices) with
      | none => rw [renumberArgument_of_none mapped]
      | some position =>
          unfold renumberArgument
          rw [mapped]
          dsimp only
          rw [Value.refPath, Value.field?, Value.refPath, Value.field?, Arguments.get?_set_of_ne]
          split <;> decide
  | null | bool | int | float | string | list => rfl

omit [PythonText] [UnicodeDigits] in
theorem hasByteTokens_renumberArgument (indices : List Nat) (value : Value) :
    hasByteTokens (renumberArgument indices value) = hasByteTokens value := by
  cases value with
  | object fields =>
      cases mapped : (Value.object fields).refStep?.bind (newPosition? indices) with
      | none => rw [renumberArgument_of_none mapped]
      | some position =>
          unfold renumberArgument
          rw [mapped]
          rfl
  | null | bool | int | float | string | list => rfl

omit [PythonText] [UnicodeDigits] in
/-- What is missing is no reference, and is not renumbered. -/
theorem isMissing_renumberArgument (indices : List Nat) (value : Value) :
    (isMissing (some (renumberArgument indices value)) &&
        !(renumberArgument indices value).isReference) =
      (isMissing (some value) && !value.isReference) := by
  cases value with
  | object fields =>
      cases mapped : (Value.object fields).refStep?.bind (newPosition? indices) with
      | none => rw [renumberArgument_of_none mapped]
      | some position =>
          unfold renumberArgument
          rw [mapped]
          rfl
  | null | bool | int | float | string | list => rfl

omit [PythonText] [UnicodeDigits] in
theorem get?_renumberStep (indices : List Nat) (step : PlannedStep) (name : String) :
    (renumberStep indices step).arguments.get? name =
      (step.arguments.get? name).map (renumberArgument indices) := by
  rw [renumberStep, Arguments.get?, Arguments.get?, List.find?_map, Option.map_map, Option.map_map]
  rfl

omit [PythonText] in
/-- The problem of a reference is there whatever the numbers of the steps are. -/
theorem referenceProblems_free {index other : Nat} {argName path : String}
    {source : Option (RegisteredSkill ω)} {fromStep otherStep : Int}
    (free : referenceProblems catalog index argName path source fromStep = []) :
    referenceProblems catalog other argName path source otherStep = [] := by
  cases source with
  | none => rfl
  | some source =>
      simp only [referenceProblems] at free ⊢
      split at free
      · rename_i isOpaque
        rw [if_pos isOpaque]
      · rename_i isOpaque
        rw [if_neg isOpaque]
        rw [List.append_eq_nil_iff] at free ⊢
        rcases free with ⟨shaped, placed⟩
        constructor
        · split at shaped
          · rename_i paged
            rw [if_pos paged]
            split at shaped
            · cases shaped
            · rename_i fits
              exact if_neg fits
          · rename_i notPaged
            rw [if_neg notPaged]
            split at shaped
            · rename_i listed
              rw [if_pos listed]
              split at shaped
              · cases shaped
              · rename_i fits
                exact if_neg fits
            · rename_i notListed
              rw [if_neg notListed]
              split at shaped
              · cases shaped
              · rename_i fits
                exact if_neg fits
        · split at placed
          · cases placed
          · rename_i fits
            exact if_neg fits

/-- The steps of a plan in which an argument that is fine is still fine. -/
theorem argumentProblems_renumbered {indices : List Nat} (ordered : indices.Pairwise (· < ·))
    {first final : List PlannedStep} {position old : Nat} {argName : String} {value : Value}
    (stands : indices[position]? = some old)
    (copied : ∀ (place index : Nat), indices[place]? = some index →
      (final[place]?.map PlannedStep.skill) = first[index]?.map PlannedStep.skill)
    (isKept : ∀ source, value.refStep? = some source → ∃ index ∈ indices, source = ↑index)
    (free : argumentProblems catalog first old argName value = []) :
    argumentProblems catalog final position argName (renumberArgument indices value) = [] := by
  rcases argumentProblems_nil free with ⟨spelled, earlier⟩
  rw [argumentProblems, hasByteTokens_renumberArgument, spelled, if_neg Bool.false_ne_true]
  cases refers : value.refStep? with
  | none =>
      rw [renumberArgument_of_none (by rw [refers]; rfl), refers]
  | some source =>
      rcases isKept source refers with ⟨index, among, rfl⟩
      rcases List.getElem?_of_mem among with ⟨place, found⟩
      have isPlace : newPosition? indices ↑index = some place :=
        (newPosition?_renumbers ordered).mpr ⟨index, place, rfl, rfl, found⟩
      have before : place < position :=
        newPosition?_lt ordered stands (earlier _ refers).2 isPlace
      have mapped : value.refStep?.bind (newPosition? indices) = some place := by
        rw [refers]
        exact isPlace
      have target : (renumberArgument indices value).refStep? = some ↑place := by
        rw [Value.refStep?, renumberArgument_refSource mapped]
      rw [target]
      dsimp only
      rw [if_neg (by omega), renumberArgument_refPath, Int.toNat_natCast]
      have sameSkill : (final[place]?.bind fun step => catalog.registry.get? step.skill) =
          first[index]?.bind fun step => catalog.registry.get? step.skill := by
        have same := copied place index found
        cases isFinal : final[place]? <;> cases isFirst : first[index]? <;>
          simp_all
      rw [sameSkill]
      rw [argumentProblems, spelled, if_neg Bool.false_ne_true, refers] at free
      dsimp only at free
      rw [if_neg (by have := (earlier _ refers).2; omega), Int.toNat_natCast] at free
      exact referenceProblems_free free

omit [UnicodeDigits] in
theorem requiredProblems_renumberStep {indices : List Nat} {step : PlannedStep}
    {position old : Nat} {parameter : Value}
    (free : requiredProblems old step parameter = .ok []) :
    requiredProblems position (renumberStep indices step) parameter = .ok [] := by
  cases parameter with
  | string name =>
      rw [requiredProblems, if_pos (by rfl)] at free ⊢
      dsimp only at free ⊢
      rw [get?_renumberStep]
      split at free
      · cases free
      · rename_i supplied
        rw [if_neg]
        cases given : step.arguments.get? name with
        | none =>
            rw [given] at supplied
            exact supplied
        | some value =>
            rw [given] at supplied
            rw [Option.map_some, Option.getD_some, isMissing_renumberArgument]
            exact supplied
  | null | bool | int | float | list | object => cases free

/-- A step without problems has none when it is renumbered. -/
theorem stepProblems_renumbered {indices : List Nat} (ordered : indices.Pairwise (· < ·))
    {first final : List PlannedStep} {position old : Nat} {step : PlannedStep}
    (stands : indices[position]? = some old)
    (copied : ∀ (place index : Nat), indices[place]? = some index →
      (final[place]?.map PlannedStep.skill) = first[index]?.map PlannedStep.skill)
    (isKept : ∀ value ∈ step.arguments.values, ∀ source, value.refStep? = some source →
      ∃ index ∈ indices, source = ↑index)
    (free : stepProblems catalog first old step = .ok []) :
    stepProblems catalog final position (renumberStep indices step) = .ok [] := by
  have validated := stepProblems_nil free
  rcases validated.known with ⟨skill, known⟩
  have sameSkill : (renumberStep indices step).skill = step.skill := rfl
  rw [stepProblems, known] at free
  rw [stepProblems, sameSkill, known]
  simp only [bind_eq_ok, pure_eq_ok, List.append_eq_nil_iff, List.flatMap_eq_nil_iff,
    List.map_eq_nil_iff, List.filter_eq_nil_iff, decide_eq_true_eq] at free ⊢
  rcases free with ⟨required, areRequired, ⟨_, spelled⟩, supplied⟩
  have eachSupplied := mapM_flatten_nil.mp ⟨required, areRequired, supplied⟩
  rcases mapM_flatten_nil.mpr fun parameter member =>
    @requiredProblems_renumberStep _ indices step position old parameter
      (eachSupplied parameter member) with ⟨again, areAgain, stillSupplied⟩
  refine ⟨again, areAgain, ⟨?_, ?_⟩, stillSupplied⟩
  · intro dependency member misplaced
    rcases List.mem_map.mp member with ⟨new, isNew, rfl⟩
    rcases List.mem_filterMap.mp isNew with ⟨oldDependency, among, mapped⟩
    have earlier := newPosition?_lt ordered stands (validated.dependencies _ among).2 mapped
    rw [Int.ofNat_eq_natCast] at misplaced
    omega
  · intro argument member
    rcases List.mem_map.mp member with ⟨before, isBefore, rfl⟩
    exact argumentProblems_renumbered ordered stands copied
      (isKept before.2 (List.mem_map_of_mem isBefore)) (spelled before isBefore)

theorem problemsFrom_nil_iff {allSteps : List PlannedStep} : ∀ {index : Nat}
    {steps : List PlannedStep}, problemsFrom catalog allSteps index steps = .ok [] ↔
      ∀ (position : Nat) (step : PlannedStep), steps[position]? = some step →
        stepProblems catalog allSteps (index + position) step = .ok []
  | index, [] => by
      apply iff_of_true
      · rfl
      · exact fun _ _ found => by cases found
  | index, first :: rest => by
      simp only [problemsFrom, bind_eq_ok, pure_eq_ok, List.append_eq_nil_iff]
      constructor
      · rintro ⟨_, firstFree, _, laterFree, rfl, rfl⟩ position step found
        cases position with
        | zero =>
            cases found
            exact firstFree
        | succ position =>
            have later := problemsFrom_nil_iff.mp laterFree position step found
            rwa [Nat.add_right_comm, Nat.add_assoc] at later
      · intro free
        refine ⟨[], free 0 first rfl, [], ?_, rfl, rfl⟩
        apply problemsFrom_nil_iff.mpr
        intro position step found
        have later := free (position + 1) step found
        rwa [Nat.add_right_comm, Nat.add_assoc]

/-- A plan and what continues it are without problems together when they are apart. -/
theorem validatePlan_append_iff {kept followup : List PlannedStep} :
    validatePlan (kept ++ followup) catalog [] = .ok [] ↔
      problemsFrom catalog (kept ++ followup) 0 kept = .ok [] ∧
        validatePlan followup catalog kept = .ok [] := by
  simp only [validatePlan, List.nil_append, List.length_nil, problemsFrom_nil_iff, Nat.zero_add]
  constructor
  · intro free
    constructor
    · intro position step found
      apply free position step
      rw [List.getElem?_append_left (List.getElem?_eq_some_iff.mp found).1]
      exact found
    · intro position step found
      apply free (kept.length + position) step
      rw [List.getElem?_append_right (Nat.le_add_right _ _), Nat.add_sub_cancel_left]
      exact found
  · intro both position step found
    by_cases inside : position < kept.length
    · rw [List.getElem?_append_left inside] at found
      exact both.1 position step found
    · rw [List.getElem?_append_right (Nat.le_of_not_lt inside)] at found
      have free := both.2 _ step found
      rwa [Nat.add_sub_cancel' (Nat.le_of_not_lt inside)] at free

end Validating

/-! ## The combined plan -/

section Combining

variable [PythonText] [UnicodeDigits] {ω : Type} {catalog : SkillCatalog ω}

/-- Every step kept refers to the copies of what it referred to, and the plan passes both
validators. -/
structure SoundlyCombined (catalog : SkillCatalog ω) (first final : List PlannedStep) :
    Prop where
  kept : ∀ indices, keptIndices catalog.registry first = .ok indices →
    ∀ (position old : Nat), indices[position]? = some old →
      ∃ before after, first[old]? = some before ∧ final[position]? = some after ∧
        KeepsReferences indices before after
  valid : validatePlan final catalog [] = .ok []
  classifies : Succeeds (classifySteps final catalog.registry)

omit [PythonText] [UnicodeDigits] in
theorem getElem?_renumberKept {first kept : List PlannedStep} {indices : List Nat}
    (renumbered : renumberKept first indices = .ok kept) {position old : Nat}
    (stands : indices[position]? = some old) :
    ∃ before, first[old]? = some before ∧
      kept[position]? = some (renumberStep indices before) := by
  rcases getElem?_mapM renumbered stands with ⟨after, isAfter, isStep⟩
  rcases bind_eq_ok.mp isStep with ⟨before, isBefore, isRenumbered⟩
  rw [pure_eq_ok] at isRenumbered
  rw [← isRenumbered] at isAfter
  exact ⟨before, orRaise_eq_ok.mp isBefore, isAfter⟩

omit [PythonText] [UnicodeDigits] in
theorem getElem?_combined {first kept : List PlannedStep} {indices : List Nat}
    (renumbered : renumberKept first indices = .ok kept) (followup : List PlannedStep)
    {position old : Nat} (stands : indices[position]? = some old) :
    ∃ before, first[old]? = some before ∧
      (kept ++ followup)[position]? = some (renumberStep indices before) := by
  rcases getElem?_renumberKept renumbered stands with ⟨before, isBefore, isAfter⟩
  apply Exists.intro before
  apply And.intro isBefore
  rw [List.getElem?_append_left (List.getElem?_eq_some_iff.mp isAfter).1]
  exact isAfter

/-- The steps kept have no problems in the combined plan when they look together. -/
theorem problemsFrom_kept {first kept : List PlannedStep} {indices : List Nat}
    (validFirst : validatePlan first catalog [] = .ok [])
    (areKept : keptIndices catalog.registry first = .ok indices)
    (renumbered : renumberKept first indices = .ok kept) (followup : List PlannedStep)
    (together : LooksTogether catalog.registry first) :
    problemsFrom catalog (kept ++ followup) 0 kept = .ok [] := by
  have ordered := keptIndices_ordered areKept
  have copied : ∀ (place index : Nat), indices[place]? = some index →
      (kept ++ followup)[place]?.map PlannedStep.skill = first[index]?.map PlannedStep.skill := by
    intro place index stands
    rcases getElem?_combined renumbered followup stands with ⟨before, isBefore, isAfter⟩
    rw [isBefore, isAfter]
    rfl
  apply problemsFrom_nil_iff.mpr
  intro position step found
  rw [Nat.zero_add]
  rcases getElem?_of_mapM renumbered found with ⟨old, stands, isStep⟩
  rcases bind_eq_ok.mp isStep with ⟨before, isBefore, isRenumbered⟩
  rw [pure_eq_ok] at isRenumbered
  rw [orRaise_eq_ok] at isBefore
  rw [← isRenumbered]
  have free := problemsFrom_nil_iff.mp validFirst old before isBefore
  rw [List.length_nil, Nat.zero_add] at free
  apply stepProblems_renumbered ordered stands copied _ free
  intro value member source refers
  have alone := (mem_keptIndices areKept old).mp (List.mem_of_getElem? stands)
  rcases together old before alone isBefore value member source refers with
    ⟨earlier, same, earlierAlone⟩
  exact ⟨earlier, (mem_keptIndices areKept earlier).mpr earlierAlone, same⟩

theorem soundlyCombined_iff {first kept followup : List PlannedStep} {indices : List Nat}
    (validFirst : validatePlan first catalog [] = .ok [])
    (areKept : keptIndices catalog.registry first = .ok indices)
    (renumbered : renumberKept first indices = .ok kept)
    (validFollowup : validatePlan followup catalog kept = .ok []) :
    SoundlyCombined catalog first (kept ++ followup) ↔ LooksTogether catalog.registry first := by
  have ordered := keptIndices_ordered areKept
  constructor
  · intro sound position step alone found value member source refers
    have isKept := (mem_keptIndices areKept position).mpr alone
    rcases List.getElem?_of_mem isKept with ⟨place, stands⟩
    rcases sound.kept indices areKept place position stands with
      ⟨before, after, isBefore, isAfter, keeps⟩
    rcases getElem?_combined renumbered followup stands with ⟨same, isSame, isRenumbered⟩
    cases isBefore.symm.trans isSame
    cases isBefore.symm.trans found
    cases isAfter.symm.trans isRenumbered
    rcases (renumberStep_keeps_iff ordered).mp keeps value member source refers with
      ⟨earlier, among, isSource⟩
    exact ⟨earlier, isSource, (mem_keptIndices areKept earlier).mp among⟩
  · intro together
    have valid := validatePlan_append_iff.mpr
      ⟨problemsFrom_kept validFirst areKept renumbered followup together, validFollowup⟩
    constructor
    case kept =>
      intro others areOthers position old stands
      cases areKept.symm.trans areOthers
      rcases getElem?_combined renumbered followup stands with ⟨before, isBefore, isAfter⟩
      refine ⟨before, _, isBefore, isAfter, (renumberStep_keeps_iff ordered).mpr ?_⟩
      intro value member source refers
      have alone := (mem_keptIndices areKept old).mp (List.mem_of_getElem? stands)
      rcases together old before alone isBefore value member source refers with
        ⟨earlier, same, earlierAlone⟩
      exact ⟨earlier, (mem_keptIndices areKept earlier).mpr earlierAlone, same⟩
    case valid => exact valid
    case classifies =>
      apply classifySteps_succeeds
      intro position step found
      have validated := validatePlan_nil valid position step found
      exact validated.toWellPlaced

/-- The plan of the second pass is combined with the steps kept exactly when it can be:
every step reference and dependency of a kept step leads where it led, and both validators
accept the whole, if and only if no step that looks alone refers to one that does not. -/
theorem WorkflowService.maybePlanFollowup_combines_iff {service : WorkflowService ω}
    {declared : String → SkillDeclaration} {request : ChatRequest} {first followup : PlanResult}
    {world : ω} {results : List StepResult} {kept : List PlannedStep}
    (validFirst : validatePlan first.steps ⟨service.registry, declared⟩ [] = .ok [])
    (observed : service.Observed request first world results kept)
    (answered : request.planner (.followup results kept) = .ok followup)
    (validFollowup : validatePlan followup.steps ⟨service.registry, declared⟩ kept = .ok [])
    (some : followup.steps ≠ []) :
    ∃ final after, (service.maybePlanFollowup request first world).outcome = .ok (final, after) ∧
      (SoundlyCombined ⟨service.registry, declared⟩ first.steps final.steps ↔
        LooksTogether service.registry first.steps) := by
  rcases observed.followed answered with ⟨after, isFollowed⟩
  rcases observed.ran with
    ⟨classified, indices, _, _, classifies, looked, _, _, _, renumbered⟩
  have areKept : keptIndices service.registry first.steps = .ok indices :=
    bind_eq_ok.mpr ⟨classified, classifies, looked⟩
  refine ⟨_, after, isFollowed, ?_⟩
  rw [combined, if_neg (by rwa [List.isEmpty_iff])]
  exact soundlyCombined_iff validFirst areKept renumbered validFollowup

end Combining

/-! ## A read that needs what was dropped -/

section Dropped

attribute [local instance] smallPythonText

@[reducible] private def plainDigits : UnicodeDigits := ⟨fun _ => false⟩

attribute [local instance] plainDigits

private def browseSkill : RegisteredSkill Unit where
  name := "list_items"
  permissionTier := "read"
  requiresSelection := false
  handler _ _ world := (.ok (.object [("items", .list []), ("total", .int 0)]), world)

private def folderSkill : RegisteredSkill Unit where
  name := "create_folder"
  permissionTier := "write"
  requiresSelection := false
  handler _ arguments world := (.ok (.object arguments), world)

private def lookingService : WorkflowService Unit where
  registry := ⟨[browseSkill, folderSkill], by decide⟩
  hooks _ _ world := .ok world
  twoPhasePlanning := true

private def declares (name : String) : SkillDeclaration :=
  ⟨[], if name = "list_items" then .pagedItems else .newFolder⟩

/-- A reference to the output of a step. -/
private def outputOf (step : Int) (path : String) : Value :=
  .object [("from", .int step), ("path", .string path)]

/-- The folder that is made is listed, and then what is in the first folder listed. -/
private def chained : PlanResult where
  reply := "looking"
  steps := [⟨"create_folder", [("name", .string "a")], []⟩,
    ⟨"list_items", [("parent_id", outputOf 0 "id")], []⟩,
    ⟨"list_items", [("parent_id", outputOf 1 "items.0.id")], [1]⟩]
  needsFollowup := true

/-- The root is listed, and then what was found there is looked for. -/
private def grounded : PlanResult where
  reply := "looking"
  steps := [⟨"create_folder", [("name", .string "a")], []⟩, ⟨"list_items", [], []⟩,
    ⟨"list_items", [("q", outputOf 1 "items")], [0, 1]⟩]
  needsFollowup := true

private def makesFolder : PlanResult where
  reply := "making"
  steps := [⟨"create_folder", [("name", .string "b")], []⟩]
  needsFollowup := false

private def continuing (plan : PlanResult) : ChatRequest where
  userId := 1
  sessionId := 2
  message := "look"
  authored := none
  selectedItems := []
  planner asked := .ok (match asked with
    | .first => plan
    | _ => makesFolder)
  newId := 3

private theorem observed_grounded : ∃ results kept,
    lookingService.Observed (continuing grounded) grounded () results kept ∧
    validatePlan makesFolder.steps ⟨lookingService.registry, declares⟩ kept = .ok [] :=
  ⟨_, _, ⟨⟨rfl, rfl, .inl rfl⟩, _, [1, 2], _, (), rfl, rfl, by decide, rfl, rfl, rfl⟩, rfl⟩

theorem WorkflowService.maybePlanFollowup_combines_grounded :
    ∃ final after, (lookingService.maybePlanFollowup (continuing grounded) grounded ()).outcome =
        .ok (final, after) ∧
      (SoundlyCombined ⟨lookingService.registry, declares⟩ grounded.steps final.steps ↔
        LooksTogether lookingService.registry grounded.steps) := by
  rcases observed_grounded with ⟨results, kept, observed, validFollowup⟩
  exact WorkflowService.maybePlanFollowup_combines_iff rfl observed rfl validFollowup
    (List.cons_ne_nil _ _)

/-- The step that is kept refers to the first step of the second pass. -/
theorem WorkflowService.chained_misdirected :
    validatePlan chained.steps ⟨lookingService.registry, declares⟩ [] = .ok [] ∧
      ∃ final kept,
        (lookingService.maybePlanFollowup (continuing chained) chained ()).outcome =
          .ok (final, ()) ∧
        final.steps = kept ++ makesFolder.steps ∧
        validatePlan makesFolder.steps ⟨lookingService.registry, declares⟩ kept = .ok [] ∧
        ¬ SoundlyCombined ⟨lookingService.registry, declares⟩ chained.steps final.steps :=
  ⟨rfl, _, [⟨"list_items", [("parent_id", outputOf 1 "items.0.id")], []⟩], rfl, rfl, rfl,
    fun sound => by cases sound.valid⟩

end Dropped

end CloudDrive
