import CloudDrive.Foundation.Propagation
import CloudDrive.Assistant.FailureReport

/-! # Failures stay with their dependents

`execute` gives each step one result. A step is skipped when a step that it names in
`depends_on` or in a reference has no result to offer, and is attempted otherwise. -/

namespace CloudDrive

open Outcome Interruption Relation

/-! ## Dependencies -/

/-- What the step names in `depends_on` and in its references to steps. -/
def WorkflowStep.dependencies (step : WorkflowStep) : List Int :=
  step.dependsOn ++ step.arguments.values.filterMap Value.refStep?

/-- The step at `position` depends directly on the step at `source`. -/
def DependsOn (steps : List WorkflowStep) (position source : Nat) : Prop :=
  ∃ step earlier, steps[position]? = some step ∧ steps[source]? = some earlier ∧
    (earlier.index : Int) ∈ step.dependencies

/-- The steps have different numbers and depend on earlier steps only. -/
structure WellOrdered (steps : List WorkflowStep) : Prop where
  distinct : (steps.map WorkflowStep.index).Nodup
  earlier : ∀ (position : Nat) (step : WorkflowStep), steps[position]? = some step →
    ∀ dependency ∈ step.dependencies, ∃ source < position, ∃ other : WorkflowStep,
      steps[source]? = some other ∧ (other.index : Int) = dependency

theorem WellOrdered.lt {steps : List WorkflowStep} (ordered : WellOrdered steps)
    {position source : Nat} (depends : DependsOn steps position source) : source < position := by
  rcases depends with ⟨step, named, isStep, isNamed, among⟩
  rcases ordered.earlier position step isStep named.index among with
    ⟨before, isBefore, other, isOther, sameIndex⟩
  have positions : before = source := by
    rcases List.getElem?_eq_some_iff.mp isOther with ⟨inside, _⟩
    have insideMap : before < (steps.map WorkflowStep.index).length := by
      rw [List.length_map]
      exact inside
    apply (List.getElem?_inj insideMap ordered.distinct).mp
    rw [List.getElem?_map, List.getElem?_map, isOther, isNamed, Option.map_some, Option.map_some,
      Int.ofNat.inj sameIndex]
  exact positions ▸ isBefore

theorem WellOrdered.wellFounded {steps : List WorkflowStep} (ordered : WellOrdered steps) :
    WellFounded fun source position => DependsOn steps position source :=
  Subrelation.wf ordered.lt Nat.lt_wfRel.wf

/-! ## What references supply -/

section References

variable [PythonText]

/-- `taken` is what the reference `raw` takes out of an output: the value at its path, or at
the rest of the path in one element of the list before the wildcard. -/
def TakenFrom (raw output taken : Value) : Prop :=
  match wildcardSplit raw.refPath with
  | none => output.resolvePath raw.refPath = .ok taken
  | some (pre, post) => ∃ elements, output.resolvePath pre = .ok (.list elements) ∧
      ∃ element ∈ elements, element.resolvePath post = .ok taken

/-- An argument is handed over as it is, and a reference to a step as what it takes out of
the output of that step, whose result is ok. -/
def SuppliedBy (results : List StepResult) (raw supplied : Value) : Prop :=
  match raw.refStep? with
  | none => supplied = raw
  | some source => ∃ result ∈ results, result.ok = true ∧ (result.index : Int) = source ∧
      TakenFrom raw result.output supplied

theorem SuppliedBy.sub {results more : List StepResult} {raw supplied : Value}
    (suppliedBy : SuppliedBy results raw supplied)
    (sub : ∀ result, result ∈ results → result ∈ more) : SuppliedBy more raw supplied := by
  rw [SuppliedBy] at suppliedBy ⊢
  cases isRef : raw.refStep? with
  | none => simpa only [isRef] using suppliedBy
  | some source =>
      simp only [isRef] at suppliedBy ⊢
      rcases suppliedBy with ⟨result, member, supplies⟩
      exact ⟨result, sub result member, supplies⟩

/-- Every argument of the call is one of the step's, supplied by the results, and none of
the step's is missing. -/
structure Resolves (results : List StepResult) (arguments resolved : Arguments) : Prop where
  supplied : ∀ field ∈ resolved, ∃ raw, (field.1, raw) ∈ arguments ∧
    SuppliedBy results raw field.2
  complete : ∀ field ∈ arguments, resolved.has field.1 = true

omit [PythonText] in
theorem okResult?_eq_some {results : List StepResult} {index : Int} {result : StepResult}
    (found : okResult? results index = some result) :
    result ∈ results ∧ result.ok = true ∧ (result.index : Int) = index := by
  have passes := List.find?_some found
  rw [Bool.and_eq_true, decide_eq_true_eq] at passes
  exact ⟨List.mem_reverse.mp (List.mem_of_find?_eq_some found), passes⟩

omit [PythonText] in
theorem orLookup_eq_ok {read : Except Value.PathError Value} {message : String} {value : Value} :
    orLookup read message = .ok value ↔ read = .ok value := by
  rcases read with (_ | _) | _ <;> simp [orLookup]

theorem resolveChecked_ok {key path : String} {output value : Value}
    (checked : resolveChecked key output path = .ok value) :
    output.resolvePath path = .ok value := by
  simp only [resolveChecked, bind_eq_ok] at checked
  rcases checked with ⟨found, isFound, parent, _, passes⟩
  split at passes
  · cases passes
  · rw [isFound, pure_eq_ok.mp passes]

omit [PythonText] in
theorem has_of_mem {fields : Arguments} {name : String} {value : Value}
    (member : (name, value) ∈ fields) : fields.has name = true :=
  List.any_eq_true.mpr ⟨(name, value), member, decide_eq_true rfl⟩

theorem resolveArgument_supplied {results : List StepResult} {key : String} {raw value : Value}
    (single : wildcard? raw = none) (resolves : resolveArgument results key raw = .ok value) :
    SuppliedBy results raw value := by
  rw [resolveArgument] at resolves
  rw [SuppliedBy]
  rw [wildcard?] at single
  cases isRef : raw.refStep? with
  | none =>
      rw [isRef] at resolves
      cases resolves
      rfl
  | some source =>
      simp only [isRef, bind_eq_ok, orRaise_eq_ok, orLookup_eq_ok] at resolves
      rcases resolves with ⟨result, found, checked⟩
      rcases okResult?_eq_some found with ⟨member, isOk, isSource⟩
      refine ⟨result, member, isOk, isSource, ?_⟩
      rw [isRef] at single
      rw [TakenFrom]
      cases split : wildcardSplit raw.refPath with
      | none => exact resolveChecked_ok checked
      | some parts =>
          rw [split] at single
          cases single

theorem resolveArguments_resolves {results : List StepResult} :
    ∀ {arguments resolved : Arguments}, (∀ field ∈ arguments, wildcard? field.2 = none) →
      resolveArguments results arguments = .ok resolved → Resolves results arguments resolved
  | [], resolved, _, resolves => by
      cases resolves
      exact ⟨fun _ member => absurd member List.not_mem_nil,
        fun _ member => absurd member List.not_mem_nil⟩
  | (key, raw) :: rest, resolved, single, resolves => by
      simp only [resolveArguments, bind_eq_ok, pure_eq_ok] at resolves
      rcases resolves with ⟨value, isValue, later, areLater, rfl⟩
      have here := resolveArgument_supplied (single _ List.mem_cons_self) isValue
      have rests := resolveArguments_resolves
        (fun field member => single field (List.mem_cons_of_mem _ member)) areLater
      constructor
      · intro field member
        rcases List.mem_cons.mp member with rfl | inLater
        · exact ⟨raw, List.mem_cons_self, here⟩
        · rcases rests.supplied field inLater with ⟨source, among, supplied⟩
          exact ⟨source, List.mem_cons_of_mem _ among, supplied⟩
      · intro field member
        rcases List.mem_cons.mp member with rfl | inRest
        · exact has_of_mem List.mem_cons_self
        · rw [Arguments.has, List.any_cons, Bool.or_eq_true]
          exact .inr (rests.complete field inRest)

/-! ### Fan-out -/

/-- The list comes from a wildcard reference of the step to an ok output. -/
structure ListedBy (results : List StepResult) (arguments : Arguments) (each : FanoutList) :
    Prop where
  supplied : ∃ raw, (each.key, raw) ∈ arguments ∧
    ∀ element ∈ each.collection, ∀ taken, element.resolvePath each.post = .ok taken →
      SuppliedBy results raw taken

theorem fanoutList_listed {results : List StepResult} {arguments : Arguments} {key : String}
    {raw : Value} {source : Int} {pre post : String} {each : FanoutList}
    (member : (key, raw) ∈ arguments) (isWildcard : wildcard? raw = some (source, pre, post))
    (lists : fanoutList results key source pre post = .ok each) :
    each.key = key ∧ ListedBy results arguments each := by
  simp only [fanoutList, bind_eq_ok, orRaise_eq_ok, orLookup_eq_ok] at lists
  rcases lists with ⟨result, found, collection, isCollection, finish⟩
  rcases okResult?_eq_some found with ⟨among, isOk, isSource⟩
  rw [wildcard?] at isWildcard
  split at isWildcard
  · rename_i number parts isRef split
    cases isWildcard
    cases collection with
    | list elements =>
        cases finish
        apply And.intro rfl
        refine ⟨raw, member, ?_⟩
        intro element inList taken isTaken
        rw [SuppliedBy, isRef]
        refine ⟨result, among, isOk, isSource, ?_⟩
        rw [TakenFrom, split]
        exact ⟨elements, isCollection, element, inList, isTaken⟩
    | null | bool | int | float | string | object => cases finish
  · cases isWildcard

theorem fanoutLists_listed {results : List StepResult} {arguments : Arguments} :
    ∀ {rest : Arguments} {length : Option Nat} {lists : List FanoutList},
      (∀ field ∈ rest, field ∈ arguments) → fanoutLists results length rest = .ok lists →
      (∀ each ∈ lists, ListedBy results arguments each) ∧
        ∀ field ∈ rest, wildcard? field.2 = none ∨ ∃ each ∈ lists, each.key = field.1
  | [], _, lists, _, runs => by
      cases runs
      exact ⟨fun _ member => absurd member List.not_mem_nil,
        fun _ member => absurd member List.not_mem_nil⟩
  | (key, raw) :: rest, length, lists, sub, runs => by
      have subRest : ∀ field ∈ rest, field ∈ arguments :=
        fun field member => sub field (List.mem_cons_of_mem _ member)
      rw [fanoutLists] at runs
      split at runs
      · rename_i single
        rcases fanoutLists_listed subRest runs with ⟨listed, covered⟩
        apply And.intro listed
        intro field member
        rcases List.mem_cons.mp member with rfl | inRest
        · exact .inl single
        · exact covered field inRest
      · rename_i source pre post isWildcard
        simp only [bind_eq_ok, require_eq_ok, pure_eq_ok] at runs
        rcases runs with ⟨first, isFirst, _, _, later, areLater, rfl⟩
        rcases fanoutList_listed (sub _ List.mem_cons_self) isWildcard isFirst with
          ⟨isKey, firstListed⟩
        rcases fanoutLists_listed subRest areLater with ⟨listed, covered⟩
        constructor
        · intro each member
          rcases List.mem_cons.mp member with rfl | inLater
          · exact firstListed
          · exact listed each inLater
        · intro field member
          rcases List.mem_cons.mp member with rfl | inRest
          · exact .inr ⟨first, List.mem_cons_self, isKey⟩
          · rcases covered field inRest with single | ⟨each, inLater, sameKey⟩
            · exact .inl single
            · exact .inr ⟨each, List.mem_cons_of_mem _ inLater, sameKey⟩

omit [PythonText] in
theorem mem_of_mem_set {fields : Arguments} {name : String} {value : Value}
    {field : String × Value} (member : field ∈ fields.set name value) :
    field = (name, value) ∨ field ∈ fields := by
  rw [Arguments.set] at member
  split at member
  · rcases List.mem_map.mp member with ⟨earlier, among, rfl⟩
    by_cases same : earlier.1 = name
    · rw [if_pos same]
      exact .inl rfl
    · rw [if_neg same]
      exact .inr among
  · rcases List.mem_append.mp member with among | isNew
    · exact .inr among
    · exact .inl (List.mem_singleton.mp isNew)

omit [PythonText] in
theorem has_set {fields : Arguments} {name other : String} {value : Value}
    (has : fields.has other = true ∨ other = name) : (fields.set name value).has other = true := by
  rw [Arguments.has_iff_get?]
  by_cases same : other = name
  · exact ⟨value, same ▸ Arguments.get?_set_self⟩
  · rw [Arguments.get?_set_of_ne same, ← Arguments.has_iff_get?]
    exact has.resolve_right same

theorem resolvePath_empty (output : Value) : output.resolvePath "" = .ok output := rfl

/-- A row takes the value at the rest of the path in an element of the list. -/
theorem fanoutRow_cons {position : Nat} {each : FanoutList} {rest : List FanoutList}
    {row final : Arguments} (runs : fanoutRow position (each :: rest) row = .ok final) :
    ∃ element ∈ each.collection, ∃ value, element.resolvePath each.post = .ok value ∧
      fanoutRow position rest (row.set each.key value) = .ok final := by
  by_cases isEmpty : each.post = ""
  · simp only [fanoutRow, if_pos isEmpty, bind_eq_ok, orRaise_eq_ok, pure_eq_ok] at runs
    rcases runs with ⟨element, found, value, rfl, later⟩
    rw [isEmpty]
    exact ⟨element, List.mem_of_getElem? found, element, resolvePath_empty element, later⟩
  · simp only [fanoutRow, if_neg isEmpty, bind_eq_ok, orRaise_eq_ok, orLookup_eq_ok] at runs
    rcases runs with ⟨element, found, value, isValue, later⟩
    exact ⟨element, List.mem_of_getElem? found, value, resolveChecked_ok isValue, later⟩

theorem fanoutRow_supplied {results : List StepResult} {arguments : Arguments} {position : Nat} :
    ∀ {lists : List FanoutList} {row final : Arguments},
      (∀ each ∈ lists, ListedBy results arguments each) →
      (∀ field ∈ row, ∃ raw, (field.1, raw) ∈ arguments ∧ SuppliedBy results raw field.2) →
      fanoutRow position lists row = .ok final →
      (∀ field ∈ final, ∃ raw, (field.1, raw) ∈ arguments ∧ SuppliedBy results raw field.2) ∧
        ∀ name, (row.has name = true ∨ ∃ each ∈ lists, each.key = name) → final.has name = true
  | [], row, final, _, supplied, runs => by
      cases runs
      apply And.intro supplied
      intro name either
      rcases either with has | ⟨_, member, _⟩
      · exact has
      · cases member
  | each :: rest, row, final, listed, supplied, runs => by
      rcases fanoutRow_cons runs with ⟨element, inList, value, taken, later⟩
      have setSupplied : ∀ field ∈ row.set each.key value,
          ∃ raw, (field.1, raw) ∈ arguments ∧ SuppliedBy results raw field.2 := by
        intro field member
        rcases mem_of_mem_set member with rfl | earlier
        · rcases (listed each List.mem_cons_self).supplied with ⟨raw, among, supplies⟩
          exact ⟨raw, among, supplies element inList value taken⟩
        · exact supplied field earlier
      rcases fanoutRow_supplied (fun other member => listed other (List.mem_cons_of_mem _ member))
        setSupplied later with ⟨allSupplied, complete⟩
      apply And.intro allSupplied
      intro name either
      apply complete
      rcases either with has | ⟨other, member, sameKey⟩
      · exact .inl (has_set (.inl has))
      · rcases List.mem_cons.mp member with rfl | inRest
        · exact .inl (has_set (.inr sameKey.symm))
        · exact .inr ⟨other, inRest, sameKey⟩

theorem resolveFanoutArguments_resolves {results : List StepResult} {arguments : Arguments}
    {argSets : List Arguments} (runs : resolveFanoutArguments results arguments = .ok argSets) :
    ∀ resolved ∈ argSets, Resolves results arguments resolved := by
  simp only [resolveFanoutArguments, bind_eq_ok] at runs
  rcases runs with ⟨base, isBase, lists, areLists, rows⟩
  have shared := resolveArguments_resolves
    (fun field member => Option.isNone_iff_eq_none.mp (List.mem_filter.mp member).2) isBase
  rcases fanoutLists_listed (fun field member => member) areLists with ⟨listed, covered⟩
  intro resolved member
  rcases mem_of_mapM rows resolved member with ⟨position, _, isRow⟩
  have baseSupplied : ∀ field ∈ base,
      ∃ raw, (field.1, raw) ∈ arguments ∧ SuppliedBy results raw field.2 := by
    intro field inBase
    rcases shared.supplied field inBase with ⟨raw, among, supplied⟩
    exact ⟨raw, (List.mem_filter.mp among).1, supplied⟩
  rcases fanoutRow_supplied listed baseSupplied isRow with ⟨supplied, complete⟩
  apply Resolves.mk supplied
  intro field among
  apply complete
  rcases covered field among with single | inLists
  · left
    apply shared.complete
    exact List.mem_filter.mpr ⟨among, Option.isNone_iff_eq_none.mpr single⟩
  · exact .inr inLists

end References

/-! ## Rounds -/

section Rounds

variable {ω : Type} {registry : SkillRegistry ω} {hooks : HookRegistry ω} {userId : Uuid}

def HookRegistry.NeverRaises (hooks : HookRegistry ω) : Prop :=
  ∀ event context world, ∃ after, hooks event context world = .ok after

/-- The set `unavailable` that belongs to the results so far. -/
def unavailableOf (results : List StepResult) : List Nat :=
  (results.filter fun result => !result.ok).map StepResult.index

def resultOf (step : WorkflowStep) : Except String Value → StepResult
  | .ok output => ⟨step.index, step.skill, true, output, none, false⟩
  | .error message => ⟨step.index, step.skill, false, .null, some message, false⟩

variable [PythonText]

/-- The result and the calls are those of an attempt of the step. -/
def Attempts (registry : SkillRegistry ω) (userId : Uuid) (earlier : List StepResult)
    (step : WorkflowStep) (result : StepResult) (calls : List HandlerCall) : Prop :=
  ∃ world answer after,
    (attempt registry userId earlier step world).outcome = .ok (answer, after) ∧
      result = resultOf step answer ∧ calls = attemptCalls registry userId earlier step world

/-- What a round adds after the results `earlier`. -/
inductive RoundResult (registry : SkillRegistry ω) (userId : Uuid) (earlier : List StepResult)
    (step : WorkflowStep) (result : StepResult) (calls : List HandlerCall) : Prop
  | skipped : blockedDependencies step (unavailableOf earlier) ≠ [] →
      result.index = step.index → result.skill = step.skill → result.ok = false →
      result.skipped = true → calls = [] → RoundResult registry userId earlier step result calls
  | attempted : blockedDependencies step (unavailableOf earlier) = [] →
      Attempts registry userId earlier step result calls →
      RoundResult registry userId earlier step result calls

omit [PythonText] in
theorem resultOf_named (step : WorkflowStep) (answer : Except String Value) :
    (resultOf step answer).index = step.index ∧ (resultOf step answer).skill = step.skill ∧
      (resultOf step answer).skipped = false := by
  cases answer <;> exact ⟨rfl, rfl, rfl⟩

theorem RoundResult.named {earlier : List StepResult} {step : WorkflowStep} {result : StepResult}
    {calls : List HandlerCall} (round : RoundResult registry userId earlier step result calls) :
    result.index = step.index ∧ result.skill = step.skill := by
  cases round with
  | skipped _ sameIndex sameSkill _ _ _ => exact ⟨sameIndex, sameSkill⟩
  | attempted _ attempts =>
      rcases attempts with ⟨_, answer, _, _, rfl, _⟩
      exact ⟨(resultOf_named step answer).1, (resultOf_named step answer).2.1⟩

theorem RoundResult.skipped_iff {earlier : List StepResult} {step : WorkflowStep}
    {result : StepResult} {calls : List HandlerCall}
    (round : RoundResult registry userId earlier step result calls) :
    result.skipped = true ↔ blockedDependencies step (unavailableOf earlier) ≠ [] := by
  cases round with
  | skipped blocked _ _ _ isSkipped _ => exact iff_of_true isSkipped blocked
  | attempted free attempts =>
      rcases attempts with ⟨_, answer, _, _, rfl, _⟩
      rw [(resultOf_named step answer).2.2]
      exact iff_of_false Bool.false_ne_true (not_not.mpr free)

omit [PythonText] in
theorem execute_returns (name : String) (arguments : Arguments) (world : ω) :
    ∃ answer after, (registry.execute userId name arguments world).outcome =
      .ok (answer, after) := by
  cases found : registry.get? name with
  | none => exact ⟨_, _, (execute_unknown found userId arguments world).outcome⟩
  | some skill => exact ⟨_, _, (execute_yields found userId arguments world).outcome⟩

omit [PythonText] in
theorem executeEach_returns (registry : SkillRegistry ω) (userId : Uuid) (name : String)
    (argSets : List Arguments) (world : ω) :
    ∃ answer after, (executeEach registry userId name argSets world).outcome =
      .ok (answer, after) := by
  cases found : registry.get? name with
  | none =>
      rcases executeEach_unknown found userId argSets world with ⟨answer, after, yields⟩
      exact ⟨answer, after, yields.outcome⟩
  | some skill =>
      rcases executeEach_yields found userId argSets world with ⟨answer, after, yields, _⟩
      exact ⟨answer, after, yields.outcome⟩

/-- Whatever the handlers do, an attempt comes to an answer. -/
theorem attempt_returns (registry : SkillRegistry ω) (userId : Uuid) (results : List StepResult)
    (step : WorkflowStep) (world : ω) :
    ∃ answer after, (attempt registry userId results step world).outcome =
      .ok (answer, after) := by
  rw [attempt]
  split
  · split
    · exact ⟨_, _, rfl⟩
    · rename_i argSets _
      rcases executeEach_returns registry userId step.skill argSets world with
        ⟨outputs, after, returns⟩
      rw [Work.outcome_bind, returns]
      exact ⟨_, _, rfl⟩
  · split
    · exact ⟨_, _, rfl⟩
    · exact execute_returns _ _ _

omit [PythonText] in
theorem fire_returns (calm : hooks.NeverRaises) (event : HookEvent) (context : HookContext)
    (world : ω) : ∃ after, (hooks.fire event context world).outcome = .ok after ∧
      hooks event context world = .ok after := by
  rcases calm event context world with ⟨after, answered⟩
  rw [HookRegistry.fire, answered]
  exact ⟨after, rfl, rfl⟩

omit [PythonText] in
theorem unavailableOf_append (results : List StepResult) (result : StepResult) :
    unavailableOf (results ++ [result]) =
      unavailableOf results ++ if result.ok then [] else [result.index] := by
  rw [unavailableOf, List.filter_append, List.map_append]
  cases isOk : result.ok <;> simp [unavailableOf, isOk]

theorem round_result (registry : SkillRegistry ω) (userId : Uuid) (calm : hooks.NeverRaises)
    (steps : List WorkflowStep) (step : WorkflowStep) {state : ExecutionState ω}
    (known : state.unavailable = unavailableOf state.results) :
    ∃ next result, (executeStep registry hooks userId steps step state).outcome = .ok next ∧
      next.results = state.results ++ [result] ∧
      next.unavailable = unavailableOf next.results ∧
      RoundResult registry userId state.results step result
        (roundCalls registry hooks userId steps step state) := by
  rw [executeStep, roundCalls]
  cases blocked : blockedDependencies step state.unavailable with
  | cons first others =>
      refine ⟨_, _, rfl, rfl, ?_, ?_⟩
      · rw [known, unavailableOf_append]
        rfl
      · apply RoundResult.skipped _ rfl rfl rfl rfl rfl
        rw [← known, blocked]
        exact List.cons_ne_nil first others
  | nil =>
      have free : blockedDependencies step (unavailableOf state.results) = [] := known ▸ blocked
      rcases fire_returns calm .beforeStep ⟨userId, steps, some step, none, none⟩ state.world with
        ⟨world, fires, answered⟩
      rcases attempt_returns registry userId state.results step world with
        ⟨answer, after, attempts⟩
      have attempted : Attempts registry userId state.results step (resultOf step answer)
          (attemptCalls registry userId state.results step world) :=
        ⟨world, answer, after, attempts, rfl, rfl⟩
      simp only [Work.outcome_bind, fires, attempts, answered, ok_bind]
      cases answer with
      | error message =>
          rcases fire_returns calm .onError ⟨userId, steps, some step, none, some message⟩ after
            with ⟨final, lastFires, _⟩
          simp only [Work.outcome_bind, lastFires, ok_bind]
          refine ⟨_, _, rfl, rfl, ?_, .attempted free attempted⟩
          rw [known, unavailableOf_append]
          rfl
      | ok output =>
          rcases fire_returns calm .afterStep ⟨userId, steps, some step,
            some (resultOf step (.ok output)), none⟩ after with ⟨final, lastFires, _⟩
          simp only [resultOf] at lastFires
          simp only [Work.outcome_bind, lastFires, ok_bind]
          refine ⟨_, _, rfl, rfl, ?_, .attempted free attempted⟩
          rw [known, unavailableOf_append]
          exact (List.append_nil _).symm

/-- Every step has a result and calls, which its round adds to the results before it. -/
structure Explained (registry : SkillRegistry ω) (userId : Uuid) (earlier : List StepResult)
    (steps : List WorkflowStep) (added : List StepResult) (calls : List (List HandlerCall)) :
    Prop where
  resultEach : added.length = steps.length
  callsEach : calls.length = steps.length
  rounds : ∀ (position : Nat) (step : WorkflowStep), steps[position]? = some step →
    ∃ result made, added[position]? = some result ∧ calls[position]? = some made ∧
      RoundResult registry userId (earlier ++ added.take position) step result made

theorem Explained.cons {earlier added : List StepResult} {step : WorkflowStep}
    {rest : List WorkflowStep} {result : StepResult} {made : List HandlerCall}
    {calls : List (List HandlerCall)} (first : RoundResult registry userId earlier step result made)
    (later : Explained registry userId (earlier ++ [result]) rest added calls) :
    Explained registry userId earlier (step :: rest) (result :: added) (made :: calls) where
  resultEach := congrArg (· + 1) later.resultEach
  callsEach := congrArg (· + 1) later.callsEach
  rounds position each found := by
    cases position with
    | zero =>
        cases found
        rw [List.take_zero, List.append_nil]
        exact ⟨result, made, rfl, rfl, first⟩
    | succ position =>
        rcases later.rounds position each found with ⟨other, others, isOther, areOthers, round⟩
        rw [List.append_assoc] at round
        exact ⟨other, others, isOther, areOthers, round⟩

theorem rounds_explained (registry : SkillRegistry ω) (userId : Uuid) (calm : hooks.NeverRaises)
    (steps : List WorkflowStep) :
    ∀ (rest : List WorkflowStep) {state : ExecutionState ω},
      state.unavailable = unavailableOf state.results →
      ∃ final added,
        (Work.forEach (executeStep registry hooks userId steps) rest state).outcome = .ok final ∧
        final.results = state.results ++ added ∧
        Explained registry userId state.results rest added
          (runCalls registry hooks userId steps rest state)
  | [], state, _ => ⟨state, [], rfl, (List.append_nil _).symm, rfl, rfl, fun _ _ found => by
      cases found⟩
  | step :: rest, state, known => by
      rcases round_result registry userId calm steps step known with
        ⟨next, result, runs, results, knownNext, round⟩
      rcases rounds_explained registry userId calm steps rest knownNext with
        ⟨final, added, later, finalResults, explained⟩
      refine ⟨final, result :: added, ?_, ?_, ?_⟩
      · rw [Work.forEach, Work.outcome_bind, runs]
        exact later
      · rw [finalResults, results, List.append_assoc, List.singleton_append]
      · rw [runCalls, runs]
        rw [results] at explained
        exact .cons round explained

theorem execute_explained (registry : SkillRegistry ω) (userId : Uuid)
    (calm : hooks.NeverRaises) (steps : List WorkflowStep) (world : ω) :
    ∃ results after, (executeSteps registry hooks userId steps world).outcome =
        .ok (results, after) ∧
      Explained registry userId [] steps results
        (executionCalls registry hooks userId steps world) := by
  rcases fire_returns calm .beforeExecution ⟨userId, steps, none, none, none⟩ world with
    ⟨start, fires, answered⟩
  have known : (⟨[], [], start⟩ : ExecutionState ω).unavailable =
      unavailableOf (⟨[], [], start⟩ : ExecutionState ω).results := rfl
  rcases rounds_explained registry userId calm steps steps known with
    ⟨final, results, runs, isResults, explained⟩
  refine ⟨results, final.world, ?_, ?_⟩
  · rw [executeSteps]
    simp only [Work.outcome_bind, Work.outcome_command, fires, runs, ok_bind, isResults,
      List.nil_append]
    rfl
  · rw [executionCalls, answered]
    exact explained

/-! ## The calls of a step -/

omit [PythonText] in
theorem callsOf_arguments {name : String} : ∀ {argSets : List Arguments} {world : ω},
    ∀ call ∈ callsOf registry userId name argSets world,
      call.invocation.arguments ∈ argSets ∧ call.invocation.userId = userId
  | [], _, call, member => by cases member
  | arguments :: rest, world, call, member => by
      rw [callsOf] at member
      split at member
      · cases member
      · split at member
        · rw [List.mem_singleton.mp member]
          exact ⟨List.mem_cons_self, rfl⟩
        · rcases List.mem_cons.mp member with rfl | later
          · exact ⟨List.mem_cons_self, rfl⟩
          · rcases callsOf_arguments call later with ⟨among, isUser⟩
            exact ⟨List.mem_cons_of_mem _ among, isUser⟩

/-- The call is made for the user and the step, with arguments that the results supply. -/
structure CallOf (userId : Uuid) (results : List StepResult) (step : WorkflowStep)
    (invocation : Invocation) : Prop where
  userId : invocation.userId = userId
  skill : invocation.skill = step.skill
  arguments : Resolves results step.arguments invocation.arguments

theorem attemptCalls_resolve {results : List StepResult} {step : WorkflowStep} {world : ω} :
    ∀ call ∈ attemptCalls registry userId results step world,
      CallOf userId results step call.invocation := by
  intro call member
  rw [attemptCalls] at member
  split at member
  · split at member
    · cases member
    · rename_i argSets resolved
      rcases callsOf_arguments call member with ⟨among, isUser⟩
      exact ⟨isUser, callsOf_skill call member,
        resolveFanoutArguments_resolves resolved _ among⟩
  · rename_i single
    split at member
    · cases member
    · rename_i arguments resolved
      rcases callsOf_arguments call member with ⟨among, isUser⟩
      refine ⟨isUser, callsOf_skill call member, ?_⟩
      rw [List.mem_singleton.mp among]
      apply resolveArguments_resolves _ resolved
      intro field inArguments
      by_contra isWildcard
      apply single
      apply List.any_eq_true.mpr
      exact ⟨field.2, List.mem_map_of_mem inArguments, Option.isSome_iff_ne_none.mpr isWildcard⟩

theorem RoundResult.callOf {earlier : List StepResult} {step : WorkflowStep} {result : StepResult}
    {calls : List HandlerCall} (round : RoundResult registry userId earlier step result calls) :
    ∀ call ∈ calls, CallOf userId earlier step call.invocation := by
  cases round with
  | skipped _ _ _ _ _ silent =>
      intro call member
      rw [silent] at member
      cases member
  | attempted _ attempts =>
      rcases attempts with ⟨_, _, _, _, _, rfl⟩
      exact attemptCalls_resolve

theorem CallOf.sub {results more : List StepResult} {step : WorkflowStep}
    {invocation : Invocation} (callOf : CallOf userId results step invocation)
    (sub : ∀ result, result ∈ results → result ∈ more) : CallOf userId more step invocation where
  userId := callOf.userId
  skill := callOf.skill
  arguments := {
    complete := callOf.arguments.complete
    supplied := by
      intro field member
      rcases callOf.arguments.supplied field member with ⟨raw, among, supplied⟩
      exact ⟨raw, among, supplied.sub sub⟩ }

/-! ## Isolation -/

/-- Failures stay with the steps that depend on them. -/
structure Isolated (registry : SkillRegistry ω) (userId : Uuid) (steps : List WorkflowStep)
    (results : List StepResult) (calls : List (List HandlerCall)) : Prop where
  inOrder : results.map StepResult.index = steps.map WorkflowStep.index ∧
    results.map StepResult.skill = steps.map WorkflowStep.skill ∧ calls.length = steps.length
  skippedByDependency : ∀ (position : Nat) (result : StepResult),
    results[position]? = some result → (result.skipped = true ↔
      ∃ source dependency, DependsOn steps position source ∧
        results[source]? = some dependency ∧ dependency.ok = false)
  skippedByFailure : ∀ (position : Nat) (result : StepResult),
    results[position]? = some result → (result.skipped = true ↔
      ∃ source failure, TransGen (DependsOn steps) position source ∧
        results[source]? = some failure ∧ failure.ok = false ∧ failure.skipped = false)
  silent : ∀ (position : Nat) (result : StepResult), results[position]? = some result →
    result.skipped = true → calls[position]? = some []
  attempted : ∀ (position : Nat) (step : WorkflowStep), steps[position]? = some step →
    (∀ source, DependsOn steps position source →
      ∀ dependency, results[source]? = some dependency → dependency.ok = true) →
    ∃ result made, results[position]? = some result ∧ calls[position]? = some made ∧
      result.skipped = false ∧ Attempts registry userId (results.take position) step result made
  resolved : ∀ (position : Nat) (step : WorkflowStep) (made : List HandlerCall),
    steps[position]? = some step → calls[position]? = some made →
    ∀ call ∈ made, CallOf userId results step call.invocation

omit [PythonText] in
theorem mem_blockedDependencies {step : WorkflowStep} {results : List StepResult} {index : Nat} :
    index ∈ blockedDependencies step (unavailableOf results) ↔
      (index : Int) ∈ step.dependencies ∧
        ∃ result ∈ results, result.ok = false ∧ result.index = index := by
  rw [blockedDependencies, List.mem_insertionSort, List.mem_dedup, List.mem_filter,
    decide_eq_true_eq, WorkflowStep.dependencies, List.mem_append, unavailableOf, List.mem_map,
    and_comm]
  apply and_congr_right'
  apply exists_congr
  intro result
  rw [List.mem_filter, Bool.not_eq_true', and_assoc]

theorem Explained.result_of {steps : List WorkflowStep} {results : List StepResult}
    {calls : List (List HandlerCall)} (explained : Explained registry userId [] steps results calls)
    {position : Nat} {result : StepResult} (found : results[position]? = some result) :
    ∃ step made, steps[position]? = some step ∧ calls[position]? = some made ∧
      RoundResult registry userId (results.take position) step result made := by
  rcases List.getElem?_eq_some_iff.mp found with ⟨inside, _⟩
  rw [explained.resultEach] at inside
  rcases explained.rounds position _ (List.getElem?_eq_getElem inside) with
    ⟨other, made, isOther, areMade, round⟩
  cases isOther.symm.trans found
  exact ⟨_, made, List.getElem?_eq_getElem inside, areMade, round⟩

theorem Explained.skipped_iff {steps : List WorkflowStep} {results : List StepResult}
    {calls : List (List HandlerCall)} (explained : Explained registry userId [] steps results calls)
    (ordered : WellOrdered steps) {position : Nat} {result : StepResult}
    (found : results[position]? = some result) :
    result.skipped = true ↔ ∃ source dependency, DependsOn steps position source ∧
      results[source]? = some dependency ∧ dependency.ok = false := by
  rcases explained.result_of found with ⟨step, made, isStep, _, round⟩
  rw [round.skipped_iff]
  constructor
  · intro blocked
    rcases List.exists_mem_of_ne_nil _ blocked with ⟨index, among⟩
    rcases mem_blockedDependencies.mp among with ⟨isDependency, dependency, before, notOk, rfl⟩
    rcases List.getElem?_of_mem before with ⟨source, isSource⟩
    rw [List.getElem?_take] at isSource
    split at isSource
    · rcases explained.result_of isSource with ⟨earlier, _, isEarlier, _, sourceRound⟩
      refine ⟨source, dependency, ⟨step, earlier, isStep, isEarlier, ?_⟩, isSource, notOk⟩
      rw [← sourceRound.named.1]
      exact isDependency
    · cases isSource
  · intro cause
    rcases cause with ⟨source, dependency, depends, isSource, notOk⟩
    have isBefore := ordered.lt depends
    rcases depends with ⟨same, earlier, isSame, isEarlier, isDependency⟩
    cases isSame.symm.trans isStep
    rcases explained.result_of isSource with ⟨other, _, isOther, _, sourceRound⟩
    cases isOther.symm.trans isEarlier
    apply List.ne_nil_of_mem (a := earlier.index)
    apply mem_blockedDependencies.mpr
    apply And.intro isDependency
    refine ⟨dependency, ?_, notOk, sourceRound.named.1⟩
    apply List.mem_of_getElem? (i := source)
    rw [List.getElem?_take, if_pos isBefore]
    exact isSource

theorem RoundResult.not_ok {earlier : List StepResult} {step : WorkflowStep} {result : StepResult}
    {calls : List HandlerCall} (round : RoundResult registry userId earlier step result calls)
    (isSkipped : result.skipped = true) : result.ok = false ∧ calls = [] := by
  cases round with
  | skipped _ _ _ notOk _ silent => exact ⟨notOk, silent⟩
  | attempted _ attempts =>
      rcases attempts with ⟨_, answer, _, _, rfl, _⟩
      rw [(resultOf_named step answer).2.2] at isSkipped
      cases isSkipped

/-- A step is skipped exactly when some failed step is reached along its dependencies. -/
theorem Explained.skipped_iff_reaches {steps : List WorkflowStep} {results : List StepResult}
    {calls : List (List HandlerCall)} (explained : Explained registry userId [] steps results calls)
    (ordered : WellOrdered steps) {position : Nat} {result : StepResult}
    (found : results[position]? = some result) :
    result.skipped = true ↔ ∃ source failure, TransGen (DependsOn steps) position source ∧
      results[source]? = some failure ∧ failure.ok = false ∧ failure.skipped = false := by
  let failed (node : Nat) : Prop :=
    ∃ failure, results[node]? = some failure ∧ failure.ok = false ∧ failure.skipped = false
  let blocked (node : Nat) : Prop := ∃ other, results[node]? = some other ∧ other.skipped = true
  have notOk : ∀ node, failed node ∨ blocked node ↔
      ∃ other, results[node]? = some other ∧ other.ok = false := by
    intro node
    constructor
    · intro either
      rcases either with ⟨other, isOther, notOk, _⟩ | ⟨other, isOther, isSkipped⟩
      · exact ⟨other, isOther, notOk⟩
      · rcases explained.result_of isOther with ⟨_, _, _, _, round⟩
        exact ⟨other, isOther, (round.not_ok isSkipped).1⟩
    · intro isNot
      rcases isNot with ⟨other, isOther, notOk⟩
      by_cases isSkipped : other.skipped = true
      · exact .inr ⟨other, isOther, isSkipped⟩
      · exact .inl ⟨other, isOther, notOk, Bool.eq_false_iff.mpr isSkipped⟩
  constructor
  · intro isSkipped
    have caused : ∀ node, blocked node →
        ∃ source, DependsOn steps node source ∧ (failed source ∨ blocked source) := by
      intro node isBlocked
      rcases isBlocked with ⟨other, isOther, otherSkipped⟩
      rcases (explained.skipped_iff ordered isOther).mp otherSkipped with
        ⟨source, dependency, depends, isSource, fails⟩
      exact ⟨source, depends, (notOk source).mpr ⟨dependency, isSource, fails⟩⟩
    rcases Propagation.reaches_of_blocked failed blocked caused ordered.wellFounded position
      ⟨result, found, isSkipped⟩ with ⟨source, reaches, failure, isFailure, fails⟩
    exact ⟨source, failure, reaches, isFailure, fails⟩
  · intro cause
    rcases cause with ⟨source, failure, reaches, isFailure, fails⟩
    have isBlocked : blocked position := by
      apply Propagation.blocked_of_reaches failed blocked _ reaches
        ⟨failure, isFailure, fails⟩
      intro node next depends either
      rcases (notOk next).mp either with ⟨dependency, isNext, notOk⟩
      have isNode := depends
      rcases isNode with ⟨step, _, isStep, _, _⟩
      rcases explained.rounds node step isStep with ⟨other, _, isOther, _, _⟩
      refine ⟨other, isOther, ?_⟩
      exact (explained.skipped_iff ordered isOther).mpr ⟨next, dependency, depends, isNext, notOk⟩
    rcases isBlocked with ⟨same, isSame, isSkipped⟩
    cases isSame.symm.trans found
    exact isSkipped

theorem Explained.inOrder {steps : List WorkflowStep} {results : List StepResult}
    {calls : List (List HandlerCall)}
    (explained : Explained registry userId [] steps results calls) :
    results.map StepResult.index = steps.map WorkflowStep.index ∧
      results.map StepResult.skill = steps.map WorkflowStep.skill ∧
      calls.length = steps.length := by
  have named : ∀ position : Nat, results[position]?.map StepResult.index =
        steps[position]?.map WorkflowStep.index ∧
      results[position]?.map StepResult.skill = steps[position]?.map WorkflowStep.skill := by
    intro position
    cases isStep : steps[position]? with
    | none =>
        have beyond : results[position]? = none := by
          rw [List.getElem?_eq_none_iff, explained.resultEach]
          exact List.getElem?_eq_none_iff.mp isStep
        rw [beyond]
        exact ⟨rfl, rfl⟩
    | some step =>
        rcases explained.rounds position step isStep with ⟨result, _, found, _, round⟩
        rw [found]
        exact ⟨congrArg some round.named.1, congrArg some round.named.2⟩
  refine ⟨?_, ?_, explained.callsEach⟩
  · apply List.ext_getElem?
    intro position
    rw [List.getElem?_map, List.getElem?_map, (named position).1]
  · apply List.ext_getElem?
    intro position
    rw [List.getElem?_map, List.getElem?_map, (named position).2]

/-- `execute` gives one result for each step in order. A step is skipped exactly when a
direct dependency is not ok, that is when some failed step is reached along dependencies; a
skipped step calls nothing, every other step is attempted, and what references hand over
comes from outputs of steps that are ok. -/
theorem execute_isolates (registry : SkillRegistry ω) (userId : Uuid) {steps : List WorkflowStep}
    (ordered : WellOrdered steps) (calm : hooks.NeverRaises) (world : ω) :
    ∃ results after,
      (executeSteps registry hooks userId steps world).outcome = .ok (results, after) ∧
      Isolated registry userId steps results
        (executionCalls registry hooks userId steps world) ∧
      (executeSteps registry hooks userId steps world).commands =
        .executes userId steps ::
          (executionCalls registry hooks userId steps world).flatten.map HandlerCall.command := by
  rcases execute_explained registry userId calm steps world with
    ⟨results, after, executes, explained⟩
  refine ⟨results, after, executes, ?_, executionCalls_commands executes⟩
  constructor
  case inOrder => exact explained.inOrder
  case skippedByDependency =>
    intro position result found
    exact explained.skipped_iff ordered found
  case skippedByFailure =>
    intro position result found
    exact explained.skipped_iff_reaches ordered found
  case silent =>
    intro position result found isSkipped
    rcases explained.result_of found with ⟨step, made, _, areMade, round⟩
    rw [areMade, (round.not_ok isSkipped).2]
  case attempted =>
    intro position step isStep available
    rcases explained.rounds position step isStep with ⟨result, made, found, areMade, round⟩
    have notSkipped : ¬ result.skipped = true := by
      intro isSkipped
      rcases (explained.skipped_iff ordered found).mp isSkipped with
        ⟨source, dependency, depends, isSource, notOk⟩
      rw [available source depends dependency isSource] at notOk
      cases notOk
    refine ⟨result, made, found, areMade, Bool.eq_false_iff.mpr notSkipped, ?_⟩
    cases round with
    | skipped _ _ _ _ isSkipped _ => exact absurd isSkipped notSkipped
    | attempted _ attempts => exact attempts
  case resolved =>
    intro position step made isStep areMade call member
    rcases explained.rounds position step isStep with ⟨result, others, _, areOthers, round⟩
    cases areOthers.symm.trans areMade
    exact (round.callOf call member).sub fun _ => List.mem_of_mem_take

end Rounds

/-! ## A failure among five steps

The items of a listing are to be trashed and the second is not found. Two steps depend on
that, one of them through the other, and one step does not. -/

section FiveSteps

attribute [local instance] smallPythonText

private def listTwo : RegisteredSkill Unit where
  name := "list_items"
  permissionTier := "read"
  requiresSelection := false
  handler _ _ world := (.ok (.list [.string "a", .string "b"]), world)

private def trashFirst : RegisteredSkill Unit where
  name := "trash_item"
  permissionTier := "destructive"
  requiresSelection := false
  handler _ arguments world :=
    match arguments.get? "item_id" with
    | some (.string "a") => (.ok .null, world)
    | _ => (.error "Item not found", world)

private def twoSkills : SkillRegistry Unit :=
  ⟨[listTwo, trashFirst], by decide⟩

private def silentHooks : HookRegistry Unit := fun _ _ world => .ok world

private def fiveSteps : List WorkflowStep :=
  [⟨0, "list_items", [], [], "read", false⟩,
    ⟨1, "trash_item", [("item_id", .object [("from", .int 0), ("path", .string "*")])], [],
      "destructive", true⟩,
    ⟨2, "list_items", [], [1], "read", false⟩,
    ⟨3, "trash_item", [("item_id", .object [("from", .int 2), ("path", .string "0")])], [],
      "destructive", true⟩,
    ⟨4, "list_items", [], [0], "read", false⟩]

private theorem fiveSteps_ordered : WellOrdered fiveSteps where
  distinct := by decide
  earlier position step found dependency among := by
    have positions : position < 5 := (List.getElem?_eq_some_iff.mp found).1
    interval_cases position <;> cases found
    · cases among
    · cases List.mem_singleton.mp among
      exact ⟨0, by decide, _, rfl, rfl⟩
    · cases List.mem_singleton.mp among
      exact ⟨1, by decide, _, rfl, rfl⟩
    · cases List.mem_singleton.mp among
      exact ⟨2, by decide, _, rfl, rfl⟩
    · cases List.mem_singleton.mp among
      exact ⟨0, by decide, _, rfl, rfl⟩

theorem execute_isolates_fiveSteps :
    ∃ results, (executeSteps twoSkills silentHooks 1 fiveSteps ()).outcome = .ok (results, ()) ∧
      results.map (fun result => (result.ok, result.skipped)) =
        [(true, false), (false, false), (false, true), (false, true), (true, false)] ∧
      Isolated twoSkills 1 fiveSteps results
        (executionCalls twoSkills silentHooks 1 fiveSteps ()) := by
  have calm : silentHooks.NeverRaises := fun _ _ world => ⟨world, rfl⟩
  rcases execute_isolates twoSkills 1 fiveSteps_ordered calm () with
    ⟨results, after, executes, isolated, _⟩
  refine ⟨results, executes, ?_, isolated⟩
  cases executes
  rfl

end FiveSteps

end CloudDrive
