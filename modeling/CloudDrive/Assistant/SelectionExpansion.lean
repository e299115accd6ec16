import CloudDrive.Assistant.ObservedTargets

/-! # Expanding a plan

Which steps `apply_selection` makes of a plan, how they are numbered and what their
references lead to. -/

namespace CloudDrive

open Outcome

/-! ## Numbers of copies -/

/-- `item_id` is neither a reference nor a text that is not blank. -/
def isUnbound (arguments : Arguments) : Bool :=
  match arguments.get? "item_id" with
  | some (.string text) => decide (strip text = "")
  | some value => !value.isReference
  | none => true

/-- The value refers to each of the selected items. -/
def Value.isEachRef (value : Value) : Bool :=
  value.isSelectionRef && ((value.field? "each").getD .null).truthy

section Counting

variable {ω : Type}

/-- The skill of the step requires a selection, and the step has no item to act on. -/
def WorkflowStep.needsItem (registry : SkillRegistry ω) (step : WorkflowStep) : Bool :=
  (match registry.get? step.skill with
    | some skill => skill.requiresSelection
    | none => false) && isUnbound step.arguments

/-- The step acts on every selected item. -/
def WorkflowStep.fansOut (registry : SkillRegistry ω) (step : WorkflowStep) : Bool :=
  step.needsItem registry || step.arguments.any fun field => field.2.isEachRef

/-- How many steps each step becomes, with this number of selected items. -/
def copyCounts (registry : SkillRegistry ω) (selected : Nat) (steps : List WorkflowStep) :
    List Nat :=
  steps.map fun step => if step.fansOut registry then selected else 1

/-- The number of the first copy of a step. -/
def firstCopy (counts : List Nat) (position : Nat) : Nat :=
  (counts.take position).sum

/-- The numbers of the copies of a step. -/
def copiesOf (counts : List Nat) (position : Nat) : List Nat :=
  List.range' (firstCopy counts position) (counts[position]?.getD 0)

theorem bindSelection_eq (registry : SkillRegistry ω) (step : WorkflowStep) :
    bindSelection step registry =
      if step.needsItem registry = true then
        step.arguments.set "item_id"
          (.object [("from", .string "selection"), ("each", .bool true)])
      else
        step.arguments := rfl

theorem eachKeys_eq_nil {arguments : Arguments} :
    eachKeys arguments = [] ↔ (arguments.any fun field => field.2.isEachRef) = false := by
  rw [eachKeys, List.map_eq_nil_iff, List.filter_eq_nil_iff, List.any_eq_false]
  rfl

theorem Arguments.mem_of_get? {arguments : Arguments} {name : String} {value : Value}
    (found : arguments.get? name = some value) : (name, value) ∈ arguments := by
  rcases Option.map_eq_some_iff.mp found with ⟨field, isField, rfl⟩
  have named := List.find?_some isField
  rw [decide_eq_true_eq] at named
  rw [← named]
  exact List.mem_of_find?_eq_some isField

theorem eachKeys_bindSelection {registry : SkillRegistry ω} {step : WorkflowStep} :
    eachKeys (bindSelection step registry) = [] ↔ step.fansOut registry = false := by
  rw [eachKeys_eq_nil, bindSelection_eq, WorkflowStep.fansOut]
  split
  · rename_i bound
    rw [bound, Bool.true_or]
    apply iff_of_false
    · rw [Bool.not_eq_false]
      apply List.any_eq_true.mpr
      exact ⟨_, Arguments.mem_of_get? Arguments.get?_set_self, rfl⟩
    · exact Bool.noConfusion
  · rename_i unbound
    rw [Bool.not_eq_true] at unbound
    rw [unbound, Bool.false_or]

theorem length_roundsOf {registry : SkillRegistry ω} {step : WorkflowStep}
    (items : List Arguments) :
    (roundsOf items (eachKeys (bindSelection step registry))).length =
      if step.fansOut registry then items.length else 1 := by
  rw [roundsOf]
  by_cases fans : step.fansOut registry = true
  · rw [if_neg (mt eachKeys_bindSelection.mp (by rw [fans]; exact Bool.noConfusion)), if_pos fans,
      List.length_map, List.length_range]
  · rw [if_pos (eachKeys_bindSelection.mpr (Bool.eq_false_iff.mpr fans)), if_neg fans]
    rfl

/-- What a step refers to is bound to the selection only where it was no reference. -/
theorem get?_bindSelection {registry : SkillRegistry ω} {step : WorkflowStep} {name : String}
    {value : Value} (refers : value.isReference = true) :
    step.arguments.get? name = some value →
      (bindSelection step registry).get? name = some value := by
  intro found
  rw [bindSelection_eq]
  split
  · rename_i bound
    rw [Arguments.get?_set_of_ne]
    · exact found
    · rintro rfl
      rw [WorkflowStep.needsItem, Bool.and_eq_true, isUnbound, found] at bound
      cases value with
      | object fields =>
          have unbound := bound.2
          dsimp only at unbound
          rw [refers] at unbound
          cases unbound
      | null | bool | int | float | string | list => cases refers
  · exact found

/-- The step refers by itself to what it refers to once it is bound. -/
theorem get?_of_bindSelection {registry : SkillRegistry ω} {step : WorkflowStep} {name : String}
    {value : Value} {source : Int} (refers : value.refStep? = some source)
    (found : (bindSelection step registry).get? name = some value) :
    step.arguments.get? name = some value := by
  rw [bindSelection_eq] at found
  split at found
  · by_cases isItem : name = "item_id"
    · rw [isItem, Arguments.get?_set_self] at found
      cases found
      cases refers
    · rwa [Arguments.get?_set_of_ne isItem] at found
  · exact found

theorem isReference_of_refStep? {value : Value} {source : Int}
    (refers : value.refStep? = some source) : value.isReference = true := by
  cases value with
  | object fields =>
      rw [Value.isReference, Bool.or_eq_true]
      cases modern : Arguments.get? fields "from" with
      | some given => exact .inl (Arguments.has_iff_get?.mpr ⟨given, modern⟩)
      | none =>
          cases older : Arguments.get? fields "from_step" with
          | some given => exact .inr (Arguments.has_iff_get?.mpr ⟨given, older⟩)
          | none =>
              rw [Value.refStep?, Value.refSource, modern, older] at refers
              cases refers
  | null | bool | int | float | string | list => cases refers

theorem firstCopy_succ {counts : List Nat} {position count : Nat}
    (isCount : counts[position]? = some count) :
    firstCopy counts (position + 1) = firstCopy counts position + count := by
  rcases List.getElem?_eq_some_iff.mp isCount with ⟨inside, rfl⟩
  rw [firstCopy, firstCopy, List.take_succ_eq_append_getElem inside, List.sum_append,
    List.sum_singleton]

theorem firstCopy_mono (counts : List Nat) {first second : Nat} (before : first ≤ second) :
    firstCopy counts first ≤ firstCopy counts second := by
  induction before with
  | refl => exact Nat.le_refl _
  | step _ induction =>
      rename_i last _
      apply Nat.le_trans induction
      cases found : counts[last]? with
      | none =>
          have outside := List.getElem?_eq_none_iff.mp found
          rw [firstCopy, firstCopy, List.take_of_length_le outside,
            List.take_of_length_le (Nat.le_succ_of_le outside)]
      | some count =>
          rw [firstCopy_succ found]
          exact Nat.le_add_right _ _

/-- The copies of an earlier step stand before those of a later one. -/
theorem copiesOf_lt {counts : List Nat} {first second copy : Nat} (before : first < second)
    (isCopy : copy ∈ copiesOf counts first) : copy < firstCopy counts second := by
  rcases List.mem_range'_1.mp isCopy with ⟨_, beyond⟩
  cases found : counts[first]? with
  | none =>
      rw [found, Option.getD_none, Nat.add_zero] at beyond
      exact Nat.lt_of_lt_of_le beyond (firstCopy_mono counts (Nat.le_of_lt before))
  | some count =>
      rw [found, Option.getD_some, ← firstCopy_succ found] at beyond
      exact Nat.lt_of_lt_of_le beyond (firstCopy_mono counts before)

end Counting

/-! ## The arguments of a copy -/

section Resolving

variable [PythonText]

/-- The argument of a copy that an argument of its step has become. -/
def selectArgument (items : List Arguments) (oldToNew : StepMapping) (each : List String)
    (forced : Option Nat) (key : String) (value : Value) : Except AssistantError Value :=
  if value.isSelectionRef then
    selectionValue value items (if key ∈ each then forced else none)
  else
    remapStepRef value oldToNew

theorem resolveSelected_ok {items : List Arguments} {oldToNew : StepMapping}
    {each : List String} {forced : Option Nat} : ∀ {arguments resolved : Arguments},
    resolveSelected items oldToNew each forced arguments = .ok resolved →
      resolved.map Prod.fst = arguments.map Prod.fst ∧
      (∀ field ∈ resolved, ∃ value, (field.1, value) ∈ arguments ∧
        selectArgument items oldToNew each forced field.1 value = .ok field.2) ∧
      ∀ name value, arguments.get? name = some value → ∃ new, resolved.get? name = some new ∧
        selectArgument items oldToNew each forced name value = .ok new
  | [], resolved, done => by
      cases done
      exact ⟨rfl, fun _ member => absurd member List.not_mem_nil, fun _ _ found => by cases found⟩
  | (key, value) :: rest, resolved, done => by
      have isFirst : ∃ first later, selectArgument items oldToNew each forced key value =
          .ok first ∧ resolveSelected items oldToNew each forced rest = .ok later ∧
          resolved = (key, first) :: later := by
        rw [resolveSelected] at done
        unfold selectArgument
        by_cases selects : value.isSelectionRef = true
        · simp only [if_pos selects, bind_eq_ok, pure_eq_ok] at done ⊢
          rcases done with ⟨first, isFirst, later, areLater, same⟩
          exact ⟨first, later, isFirst, areLater, same.symm⟩
        · simp only [if_neg selects, bind_eq_ok, pure_eq_ok] at done ⊢
          rcases done with ⟨first, isFirst, later, areLater, same⟩
          exact ⟨first, later, isFirst, areLater, same.symm⟩
      rcases isFirst with ⟨first, later, isFirst, areLater, rfl⟩
      rcases resolveSelected_ok areLater with ⟨names, fields, byName⟩
      refine ⟨?_, ?_, ?_⟩
      · rw [List.map_cons, List.map_cons, names]
      · intro field member
        rcases List.mem_cons.mp member with rfl | inLater
        · exact ⟨value, List.mem_cons_self, isFirst⟩
        · rcases fields field inLater with ⟨source, among, resolves⟩
          exact ⟨source, List.mem_cons_of_mem _ among, resolves⟩
      · intro name given found
        by_cases isKey : key = name
        · subst isKey
          have isGiven : value = given := by simpa [Arguments.get?] using found
          exact ⟨first, by simp [Arguments.get?], isGiven ▸ isFirst⟩
        · have inRest : Arguments.get? rest name = some given := by
            simpa [Arguments.get?, isKey] using found
          rcases byName name given inRest with ⟨new, isNew, resolves⟩
          exact ⟨new, by simpa [Arguments.get?, isKey] using isNew, resolves⟩

omit [PythonText] in
theorem Arguments.get?_isSome_iff {arguments : Arguments} {name : String} :
    (∃ value, arguments.get? name = some value) ↔ name ∈ arguments.map Prod.fst := by
  rw [← Arguments.has_iff_get?, Arguments.has, List.any_eq_true, List.mem_map]
  exact exists_congr fun field => and_congr_right fun _ => decide_eq_true_iff

theorem copies_ok {items : List Arguments} {oldToNew : StepMapping} {each : List String}
    {arguments : Arguments} : ∀ {rounds : List (Option Nat)} {resolved : List Arguments},
    copies items oldToNew each arguments rounds = .ok resolved →
      ∀ (round : Nat) (forced : Option Nat), rounds[round]? = some forced →
        ∃ copy, resolved[round]? = some copy ∧
          resolveSelected items oldToNew each forced arguments = .ok copy
  | [], _, _, _, _, found => by cases found
  | first :: rest, resolved, done, round, forced, found => by
      simp only [copies, bind_eq_ok, pure_eq_ok] at done
      rcases done with ⟨copy, isCopy, later, areLater, rfl⟩
      cases round with
      | zero =>
          cases found
          exact ⟨copy, rfl, isCopy⟩
      | succ round => exact copies_ok areLater round forced found

omit [PythonText] in
theorem remapStepRef_of_none {value : Value} {oldToNew : StepMapping}
    (free : value.refStep? = none) : remapStepRef value oldToNew = .ok value := by
  unfold remapStepRef
  rw [free]
  rfl

omit [PythonText] in
/-- A reference to a step refers to its first copy. -/
theorem remapStepRef_first {value new : Value} {oldToNew : StepMapping} {source : Int}
    {first : Nat} {rest : List Nat} (refers : value.refStep? = some source)
    (mapped : oldToNew.get? source = some (first :: rest))
    (remaps : remapStepRef value oldToNew = .ok new) :
    new.refStep? = some ↑first ∧ new.field? "path" = value.field? "path" := by
  cases value with
  | object fields =>
      unfold remapStepRef at remaps
      rw [refers, Option.bind_some, mapped] at remaps
      cases remaps
      constructor
      · rw [Value.refStep?, Value.refSource_set_from]
      · rw [Value.field?, Value.field?, Arguments.get?_set_of_ne (by decide), Arguments.without,
          Arguments.get?, Arguments.get?, List.find?_filter]
        apply congrArg
        apply congrArg (List.find? · fields)
        funext field
        by_cases isPath : field.1 = "path" <;> simp [isPath]
  | null | bool | int | float | string | list => cases refers

/-! ### Records -/

/-- The record holds texts and is no reference. `_resolve_selection` gives an item its
`id`, its `name` and its `item_type`. -/
structure FlatRecord (item : Arguments) : Prop where
  texts : ∀ value ∈ item.values, ∃ text, value = .string text
  plain : (Value.object item).isReference = false

omit [PythonText] in
theorem refSource_of_plain {value : Value} (plain : value.isReference = false) :
    value.refSource = .null := by
  cases value with
  | object fields =>
      rw [Value.isReference, Bool.or_eq_false_iff] at plain
      have absent : ∀ {name : String}, Arguments.has fields name = false →
          Arguments.get? fields name = none := by
        intro name missing
        rw [Option.eq_none_iff_forall_ne_some]
        intro given found
        rw [Arguments.has_iff_get?.mpr ⟨given, found⟩] at missing
        cases missing
      rw [Value.refSource, absent plain.1]
      dsimp only
      rw [absent plain.2]
      rfl
  | null | bool | int | float | string | list => rfl

/-- What is read of a flat record is no reference. -/
theorem resolveParts_plain {item : Arguments} (flat : FlatRecord item) {parts : List String}
    {value : Value} (resolves : (Value.object item).resolveParts parts = .ok value) :
    value.isReference = false := by
  cases parts with
  | nil =>
      cases resolves
      exact flat.plain
  | cons part rest =>
      simp only [Value.resolveParts, List.foldlM_cons, bind_eq_ok] at resolves
      rcases resolves with ⟨inner, isInner, resolves⟩
      have isText : ∃ text, inner = .string text := by
        simp only [Value.descend] at isInner
        split at isInner
        · rename_i found
          cases isInner
          exact flat.texts inner (List.mem_map_of_mem (Arguments.mem_of_get? found))
        · cases isInner
      rcases isText with ⟨text, rfl⟩
      cases rest with
      | nil =>
          cases resolves
          rfl
      | cons next rest => cases resolves

theorem selectionValue_plain {items : List Arguments} (flat : ∀ item ∈ items, FlatRecord item)
    {ref value : Value} {forced : Option Nat}
    (selected : selectionValue ref items forced = .ok value) : value.isReference = false := by
  unfold selectionValue at selected
  rw [bind_eq_ok] at selected
  rcases selected with ⟨item, isItem, ends⟩
  rcases Option.bind_eq_some_iff.mp (orRaise_eq_ok.mp isItem) with ⟨position, _, found⟩
  have isFlat := flat item (List.mem_of_getElem? found)
  cases isPath : (ref.field? "path").filter Value.truthy with
  | some path =>
      rw [isPath] at ends
      dsimp only at ends
      cases resolves : (Value.object item).resolvePath (PythonText.str path) with
      | ok other =>
          rw [resolves] at ends
          cases ends
          exact resolveParts_plain isFlat resolves
      | error error =>
          rw [resolves] at ends
          cases ends
  | none =>
      rw [isPath] at ends
      dsimp only at ends
      cases isId : item.get? "id" with
      | none =>
          rw [isId] at ends
          cases ends
      | some given =>
          rcases isFlat.texts given (List.mem_map_of_mem (Arguments.mem_of_get? isId)) with
            ⟨text, rfl⟩
          rw [isId] at ends
          cases ends
          rfl

end Resolving

/-! ## The expansion -/

section Expanding

variable [PythonText] {ω : Type} {registry : SkillRegistry ω} {items : List Arguments}
  {steps : List WorkflowStep}

/-- The step is the copy of `step` made in this round. -/
structure CopyOf (registry : SkillRegistry ω) (items : List Arguments)
    (steps : List WorkflowStep) (step : WorkflowStep) (round : Nat) (copy : WorkflowStep) :
    Prop where
  skill : copy.skill = step.skill
  tier : copy.permissionTier = step.permissionTier
  approval : copy.requiresApproval = step.requiresApproval
  dependencies : copy.dependsOn = step.dependsOn.flatMap fun old =>
    (copiesOf (copyCounts registry items.length steps) old.toNat).map Int.ofNat
  names : copy.arguments.map Prod.fst = (bindSelection step registry).map Prod.fst
  fields : ∀ field ∈ copy.arguments, ∃ value oldToNew forced,
    (field.1, value) ∈ bindSelection step registry ∧
    selectArgument items oldToNew (eachKeys (bindSelection step registry)) forced field.1 value =
      .ok field.2
  selected : ∀ name value, (bindSelection step registry).get? name = some value →
    value.isSelectionRef = true → ∃ new, copy.arguments.get? name = some new ∧
      selectionValue value items
        (if name ∈ eachKeys (bindSelection step registry) then some round else none) = .ok new
  references : ∀ name value source, (bindSelection step registry).get? name = some value →
    value.refStep? = some source → ∃ new, copy.arguments.get? name = some new ∧
      new.refStep? = some ↑(firstCopy (copyCounts registry items.length steps) source.toNat) ∧
      new.field? "path" = value.field? "path"
  others : ∀ name value, (bindSelection step registry).get? name = some value →
    value.isSelectionRef = false → value.refStep? = none →
    copy.arguments.get? name = some value

/-- The first steps of the plan have been expanded, up to this position. -/
structure ExpandedTo (registry : SkillRegistry ω) (items : List Arguments)
    (steps : List WorkflowStep) (done : Nat) (state : Expansion) : Prop where
  length : state.expanded.length = firstCopy (copyCounts registry items.length steps) done
  mapping : ∀ old < done, state.oldToNew.get? ↑old =
    some (copiesOf (copyCounts registry items.length steps) old)
  copies : ∀ position step, position < done → steps[position]? = some step →
    ∀ round < (if step.fansOut registry then items.length else 1),
    ∃ copy, state.expanded[firstCopy (copyCounts registry items.length steps) position + round]? =
      some copy ∧ CopyOf registry items steps step round copy

/-- What a step refers to and waits for comes before this position. -/
structure PointsBackward (position : Nat) (step : WorkflowStep) : Prop where
  dependencies : ∀ dependency ∈ step.dependsOn, 0 ≤ dependency ∧ dependency < position
  references : ∀ value ∈ step.arguments.values, ∀ source, value.refStep? = some source →
    0 ≤ source ∧ source < position

structure StepBackward (position : Nat) (step : WorkflowStep) : Prop
    extends PointsBackward position step where
  index : step.index = position

omit [PythonText] in
theorem copyCounts_getElem? {position : Nat} {step : WorkflowStep}
    (found : steps[position]? = some step) :
    (copyCounts registry items.length steps)[position]? =
      some (if step.fansOut registry then items.length else 1) := by
  rw [copyCounts, List.getElem?_map, found, Option.map_some]

omit [PythonText] in
/-- Every step of the plan has a first copy. -/
theorem copiesOf_eq_cons (selected : items ≠ []) {position : Nat}
    (inside : position < steps.length) :
    ∃ rest, copiesOf (copyCounts registry items.length steps) position =
      firstCopy (copyCounts registry items.length steps) position :: rest := by
  have some := List.length_pos_of_ne_nil selected
  rw [copiesOf, copyCounts_getElem? (List.getElem?_eq_getElem inside), Option.getD_some]
  split
  · rcases Nat.exists_eq_add_one.mpr some with ⟨fewer, isLength⟩
    rw [isLength, List.range'_succ]
    exact ⟨_, rfl⟩
  · exact ⟨[], rfl⟩

omit [PythonText] in
theorem roundsOf_getElem? {step : WorkflowStep} {round : Nat}
    (inside : round < if step.fansOut registry then items.length else 1) :
    ∃ forced, (roundsOf items (eachKeys (bindSelection step registry)))[round]? = some forced ∧
      ∀ name, (if name ∈ eachKeys (bindSelection step registry) then forced else none) =
        if name ∈ eachKeys (bindSelection step registry) then some round else none := by
  rw [roundsOf]
  by_cases each : eachKeys (bindSelection step registry) = []
  · rw [eachKeys_bindSelection.mp each, if_neg Bool.false_ne_true] at inside
    have isFirst := Nat.lt_one_iff.mp inside
    rw [if_pos each, isFirst]
    apply Exists.intro none
    apply And.intro rfl
    intro name
    rw [each, if_neg List.not_mem_nil, if_neg List.not_mem_nil]
  · have fans : step.fansOut registry = true := by
      by_contra notFans
      exact each (eachKeys_bindSelection.mpr (Bool.eq_false_iff.mpr notFans))
    rw [fans, if_pos rfl] at inside
    rw [if_neg each]
    apply Exists.intro (some round)
    apply And.intro
    · rw [List.getElem?_map, List.getElem?_range inside, Option.map_some]
    · exact fun name => rfl

omit [PythonText] in
theorem remapDeps_copiesOf {done : Nat} {state : Expansion}
    (mapping : ∀ old < done, state.oldToNew.get? ↑old =
      some (copiesOf (copyCounts registry items.length steps) old)) {dependencies : List Int}
    (backward : ∀ dependency ∈ dependencies, 0 ≤ dependency ∧ dependency < done) :
    remapDeps dependencies state.oldToNew = dependencies.flatMap fun old =>
      (copiesOf (copyCounts registry items.length steps) old.toNat).map Int.ofNat := by
  rw [remapDeps]
  apply List.flatMap_congr
  intro old member
  rcases backward old member with ⟨nonneg, before⟩
  have mapped := mapping old.toNat (by omega)
  rw [Int.toNat_of_nonneg nonneg] at mapped
  rw [mapped]

/-- One round of the expansion makes a copy of its step. -/
theorem copyOf_round (selected : items ≠ []) {done : Nat} {state : Expansion}
    (expandedTo : ExpandedTo registry items steps done state) (inside : done ≤ steps.length)
    {step : WorkflowStep} (backward : StepBackward done step) {round index : Nat}
    {forced : Option Nat}
    (isForced : ∀ name, (if name ∈ eachKeys (bindSelection step registry) then forced else none) =
      if name ∈ eachKeys (bindSelection step registry) then some round else none)
    {resolved : Arguments}
    (resolves : resolveSelected items state.oldToNew (eachKeys (bindSelection step registry))
      forced (bindSelection step registry) = .ok resolved) :
    CopyOf registry items steps step round
      { step with
        index := index
        arguments := resolved
        dependsOn := remapDeps step.dependsOn state.oldToNew } := by
  rcases resolveSelected_ok resolves with ⟨names, fields, byName⟩
  constructor
  case skill => rfl
  case tier => rfl
  case approval => rfl
  case dependencies => exact remapDeps_copiesOf expandedTo.mapping backward.dependencies
  case names => exact names
  case fields =>
    intro field member
    rcases fields field member with ⟨value, among, resolves⟩
    exact ⟨value, _, _, among, resolves⟩
  case selected =>
    intro name value found selects
    rcases byName name value found with ⟨new, isNew, becomes⟩
    rw [selectArgument, if_pos selects, isForced] at becomes
    exact ⟨new, isNew, becomes⟩
  case references =>
    intro name value source found refers
    rcases byName name value found with ⟨new, isNew, becomes⟩
    have notSelected : value.isSelectionRef = false := by
      rw [Value.refStep?] at refers
      rw [Value.isSelectionRef]
      cases isSource : value.refSource with
      | string text =>
          rw [isSource] at refers
          cases refers
      | null | bool | int | float | list | object => rfl
    have own := get?_of_bindSelection refers found
    have earlier := backward.references value
      (List.mem_map_of_mem (Arguments.mem_of_get? own)) source refers
    have mapped := expandedTo.mapping source.toNat (by omega)
    rcases @copiesOf_eq_cons _ registry items steps selected source.toNat (by omega) with
      ⟨rest, isFirst⟩
    rw [Int.toNat_of_nonneg earlier.1, isFirst] at mapped
    rw [selectArgument, notSelected, if_neg Bool.false_ne_true] at becomes
    rcases remapStepRef_first refers mapped becomes with ⟨leads, samePath⟩
    exact ⟨new, isNew, leads, samePath⟩
  case others =>
    intro name value found notSelected free
    rcases byName name value found with ⟨new, isNew, becomes⟩
    rw [selectArgument, notSelected, if_neg Bool.false_ne_true, remapStepRef_of_none free]
      at becomes
    cases becomes
    exact isNew

omit [PythonText] in
theorem StepMapping.get?_cons_self {mapping : StepMapping} {old : Nat} {new : List Nat} :
    StepMapping.get? ((old, new) :: mapping) ↑old = some new := by
  rw [StepMapping.get?, List.find?_cons_of_pos (by simp), Option.map_some]

omit [PythonText] in
theorem StepMapping.get?_cons_of_ne {mapping : StepMapping} {old other : Nat} {new : List Nat}
    (different : other ≠ old) :
    StepMapping.get? ((old, new) :: mapping) ↑other = StepMapping.get? mapping ↑other := by
  rw [StepMapping.get?, List.find?_cons_of_neg]
  · rfl
  · rw [decide_eq_true_eq]
    dsimp only
    omega

theorem expandStep_expandedTo (selected : items ≠ []) {done : Nat} {before after : Expansion}
    (expandedTo : ExpandedTo registry items steps done before) {step : WorkflowStep}
    (found : steps[done]? = some step) (backward : StepBackward done step)
    (expands : expandStep items registry step before = .ok after) :
    ExpandedTo registry items steps (done + 1) after := by
  simp only [expandStep, bind_eq_ok, pure_eq_ok] at expands
  rcases expands with ⟨resolved, copied, rfl⟩
  have isCount := @copyCounts_getElem? _ registry items steps done step found
  have sameLength : resolved.length = if step.fansOut registry then items.length else 1 :=
    (copies_length copied).trans (length_roundsOf items)
  have inside := (List.getElem?_eq_some_iff.mp found).1
  constructor
  case length =>
    rw [List.length_append, List.length_mapIdx, expandedTo.length, sameLength,
      firstCopy_succ isCount]
  case mapping =>
    intro old earlier
    rw [backward.index]
    by_cases isThis : old = done
    · subst isThis
      rw [StepMapping.get?_cons_self, copiesOf, isCount, Option.getD_some, ← sameLength,
        ← expandedTo.length]
      apply congrArg
      apply List.ext_getElem?
      intro place
      rw [List.getElem?_map, List.getElem?_mapIdx]
      rcases Nat.lt_or_ge place resolved.length with within | beyond
      · rw [List.getElem?_eq_getElem within, List.getElem?_range' within]
        simp
      · rw [List.getElem?_eq_none beyond, List.getElem?_eq_none (by simpa using beyond)]
        rfl
    · rw [StepMapping.get?_cons_of_ne isThis]
      exact expandedTo.mapping old (by omega)
  case copies =>
    intro position other earlier isOther round within
    by_cases isThis : position = done
    · subst isThis
      cases isOther.symm.trans found
      rcases roundsOf_getElem? within with ⟨forced, isRound, isForced⟩
      rcases copies_ok copied round forced isRound with ⟨arguments, isCopy, resolves⟩
      have copyOf := @copyOf_round _ _ registry items steps selected position before expandedTo
        (Nat.le_of_lt inside) step backward round (before.expanded.length + round) forced isForced
        arguments resolves
      refine ⟨_, ?_, copyOf⟩
      rw [← expandedTo.length, List.getElem?_append_right (Nat.le_add_right _ _),
        Nat.add_sub_cancel_left, List.getElem?_mapIdx, isCopy, Option.map_some]
    · rcases expandedTo.copies position other (by omega) isOther round within with
        ⟨copy, isCopy, copyOf⟩
      refine ⟨copy, ?_, copyOf⟩
      rw [List.getElem?_append_left (List.getElem?_eq_some_iff.mp isCopy).1]
      exact isCopy

/-- The whole plan has been expanded when the loop ends. -/
theorem forEach_expandedTo (selected : items ≠ [])
    (backward : ∀ position step, steps[position]? = some step → StepBackward position step) :
    ∀ {rest : List WorkflowStep} {done : Nat} {before after : Expansion},
      steps.drop done = rest → ExpandedTo registry items steps done before →
      done ≤ steps.length → forEach (expandStep items registry) rest before = .ok after →
      ExpandedTo registry items steps steps.length after
  | [], done, before, after, isRest, expandedTo, inside, runs => by
      cases runs
      have atEnd : done = steps.length := Nat.le_antisymm inside (List.drop_eq_nil_iff.mp isRest)
      rwa [atEnd] at expandedTo
  | step :: rest, done, before, after, isRest, expandedTo, inside, runs => by
      rw [forEach_cons, bind_eq_ok] at runs
      rcases runs with ⟨middle, expands, runs⟩
      have found : steps[done]? = some step := by
        rw [← Nat.add_zero done, ← List.getElem?_drop, isRest]
        rfl
      have isLater : steps.drop (done + 1) = rest := by
        rw [← List.drop_drop, isRest]
        rfl
      exact forEach_expandedTo selected backward isLater
        (expandStep_expandedTo selected expandedTo found (backward done step found) expands)
        (List.getElem?_eq_some_iff.mp found).1 runs

theorem applySelection_expandedTo (selected : items ≠ [])
    (backward : ∀ position step, steps[position]? = some step → StepBackward position step)
    {expanded : List WorkflowStep}
    (applied : applySelection steps items registry = .ok expanded) :
    ∃ oldToNew, ExpandedTo registry items steps steps.length ⟨expanded, oldToNew⟩ := by
  simp only [applySelection, bind_eq_ok, pure_eq_ok] at applied
  rcases applied with ⟨⟨_, oldToNew⟩, runs, rfl⟩
  refine ⟨oldToNew, forEach_expandedTo selected backward (List.drop_zero) ?_ (Nat.zero_le _) runs⟩
  constructor
  case length => rfl
  case mapping => exact fun _ before => absurd before (Nat.not_lt_zero _)
  case copies => exact fun _ _ before => absurd before (Nat.not_lt_zero _)

omit [PythonText] in
theorem classified_backward {planned : List PlannedStep}
    (classified : classifySteps planned registry = .ok steps)
    (backward : ∀ position step, steps[position]? = some step → PointsBackward position step) :
    ∀ position step, steps[position]? = some step → StepBackward position step :=
  fun position step found =>
    ⟨backward position step found, classifySteps_atPositions classified position step found⟩

/-! ## What the expansion keeps -/

/-- The number is that of a copy of the step numbered `source`. -/
def CopyNumber (counts : List Nat) (source target : Int) : Prop :=
  ∃ old new : Nat, source = ↑old ∧ target = ↑new ∧ new ∈ copiesOf counts old

/-- The copy has the skill and the tier of the step. It waits for all the copies of what the
step waits for, and refers to copies of what the step refers to, all of them earlier. -/
structure StepCopied (counts : List Nat) (step copy : WorkflowStep) : Prop where
  skill : copy.skill = step.skill
  tier : copy.permissionTier = step.permissionTier
  approval : copy.requiresApproval = step.requiresApproval
  dependencies : ∀ dependency, dependency ∈ copy.dependsOn ↔
    ∃ old ∈ step.dependsOn, CopyNumber counts old dependency
  waits : ∀ dependency ∈ copy.dependsOn, dependency < copy.index
  references : ∀ name new target, copy.arguments.get? name = some new →
    new.refStep? = some target → target < copy.index ∧
      ∃ value source, step.arguments.get? name = some value ∧ value.refStep? = some source ∧
        CopyNumber counts source target
  refers : ∀ name value source, step.arguments.get? name = some value →
    value.refStep? = some source → ∃ new target, copy.arguments.get? name = some new ∧
      new.refStep? = some target ∧ CopyNumber counts source target
  unselected : ∀ value ∈ copy.arguments.values, value.isSelectionRef = false

/-- The step has the number and the references that it had. -/
structure StepNumbered (step copy : WorkflowStep) : Prop where
  index : copy.index = step.index
  dependencies : copy.dependsOn = step.dependsOn
  references : ∀ name value source, step.arguments.get? name = some value →
    value.refStep? = some source →
      ∃ new, copy.arguments.get? name = some new ∧ new.refStep? = some source

/-- The plan is the copies of each of these steps, one step after the other. -/
structure PlanExpanded (registry : SkillRegistry ω) (selected : Nat)
    (steps expanded : List WorkflowStep) : Prop where
  length : expanded.length = (copyCounts registry selected steps).sum
  indices : ∀ (position : Nat) copy, expanded[position]? = some copy → copy.index = position
  copies : ∀ (position : Nat) step, steps[position]? = some step →
    ∀ number ∈ copiesOf (copyCounts registry selected steps) position,
      ∃ copy, expanded[number]? = some copy ∧
        StepCopied (copyCounts registry selected steps) step copy
  origins : ∀ (number : Nat) copy, expanded[number]? = some copy →
    ∃ position < steps.length, number ∈ copiesOf (copyCounts registry selected steps) position
  single : selected = 1 → ∀ (position : Nat) step copy, steps[position]? = some step →
    expanded[position]? = some copy → StepNumbered step copy

omit [PythonText] in
theorem exists_copiesOf {counts : List Nat} {number : Nat} : ∀ {done : Nat},
    number < firstCopy counts done → ∃ position < done, number ∈ copiesOf counts position
  | 0, inside => absurd inside (Nat.not_lt_zero _)
  | done + 1, inside => by
      rcases Nat.lt_or_ge number (firstCopy counts done) with before | notBefore
      · rcases exists_copiesOf before with ⟨position, earlier, isCopy⟩
        exact ⟨position, Nat.lt_succ_of_lt earlier, isCopy⟩
      · refine ⟨done, Nat.lt_succ_self done, List.mem_range'_1.mpr ⟨notBefore, ?_⟩⟩
        cases found : counts[done]? with
        | none =>
            have outside := List.getElem?_eq_none_iff.mp found
            rw [firstCopy, List.take_of_length_le (Nat.le_succ_of_le outside),
              ← List.take_of_length_le outside] at inside
            exact absurd inside (Nat.not_lt_of_le notBefore)
        | some count => rwa [firstCopy_succ found] at inside

omit [PythonText] in
theorem isSelectionRef_of_plain {value : Value} (plain : value.isReference = false) :
    value.isSelectionRef = false := by
  rw [Value.isSelectionRef, refSource_of_plain plain]

omit [PythonText] in
theorem remapStepRef_unselected {value new : Value} {oldToNew : StepMapping}
    (notSelected : value.isSelectionRef = false)
    (remaps : remapStepRef value oldToNew = .ok new) : new.isSelectionRef = false := by
  unfold remapStepRef at remaps
  split at remaps
  · cases remaps
  · cases remaps
    rw [Value.isSelectionRef, Value.refSource_set_from]
  · cases remaps
    exact notSelected

theorem CopyOf.unselected (flat : ∀ item ∈ items, FlatRecord item) {step copy : WorkflowStep}
    {round : Nat} (copyOf : CopyOf registry items steps step round copy) :
    ∀ value ∈ copy.arguments.values, value.isSelectionRef = false := by
  intro new member
  rcases List.mem_map.mp member with ⟨field, isField, rfl⟩
  rcases copyOf.fields field isField with ⟨value, oldToNew, forced, _, becomes⟩
  rw [selectArgument] at becomes
  split at becomes
  · exact isSelectionRef_of_plain (selectionValue_plain flat becomes)
  · rename_i notSelected
    exact remapStepRef_unselected (Bool.eq_false_iff.mpr notSelected) becomes

/-- A reference of a copy to a step comes from one of its step. -/
theorem CopyOf.source (flat : ∀ item ∈ items, FlatRecord item) {step copy : WorkflowStep}
    {round : Nat} (copyOf : CopyOf registry items steps step round copy) {name : String}
    {new : Value} {target : Int} (found : copy.arguments.get? name = some new)
    (refers : new.refStep? = some target) :
    ∃ value source, step.arguments.get? name = some value ∧ value.refStep? = some source ∧
      target = ↑(firstCopy (copyCounts registry items.length steps) source.toNat) := by
  have named : name ∈ (bindSelection step registry).map Prod.fst :=
    copyOf.names ▸ Arguments.get?_isSome_iff.mp ⟨new, found⟩
  rcases Arguments.get?_isSome_iff.mpr named with ⟨value, isValue⟩
  by_cases selects : value.isSelectionRef = true
  · rcases copyOf.selected name value isValue selects with ⟨other, isOther, selected⟩
    cases found.symm.trans isOther
    rw [Value.refStep?, refSource_of_plain (selectionValue_plain flat selected)] at refers
    cases refers
  · rw [Bool.not_eq_true] at selects
    cases isStep : value.refStep? with
    | none =>
        cases found.symm.trans (copyOf.others name value isValue selects isStep)
        rw [isStep] at refers
        cases refers
    | some source =>
        rcases copyOf.references name value source isValue isStep with ⟨other, isOther, leads, _⟩
        cases found.symm.trans isOther
        rw [leads] at refers
        exact ⟨value, source, get?_of_bindSelection isStep isValue, isStep,
          (Option.some.inj refers).symm⟩

omit [PythonText] in
theorem copyNumber_iff {counts : List Nat} {source target : Int} (nonneg : 0 ≤ source) :
    CopyNumber counts source target ↔
      ∃ new ∈ copiesOf counts source.toNat, target = ↑new := by
  constructor
  · rintro ⟨old, new, rfl, rfl, isCopy⟩
    exact ⟨new, isCopy, rfl⟩
  · rintro ⟨new, isCopy, rfl⟩
    exact ⟨source.toNat, new, (Int.toNat_of_nonneg nonneg).symm, rfl, isCopy⟩

omit [PythonText] in
/-- A copy of an earlier step stands before the copies of this one. -/
theorem CopyNumber.before {counts : List Nat} {source target : Int} {position round : Nat}
    (isCopy : CopyNumber counts source target) (earlier : source < position) :
    target < ↑(firstCopy counts position + round) := by
  rcases isCopy with ⟨old, new, rfl, rfl, among⟩
  have stands := copiesOf_lt (Int.ofNat_lt.mp earlier) among
  omega

omit [PythonText] in
theorem firstCopy_isCopy (selected : items ≠ []) {source : Int}
    (inPlan : 0 ≤ source ∧ source < steps.length) :
    CopyNumber (copyCounts registry items.length steps) source
      ↑(firstCopy (copyCounts registry items.length steps) source.toNat) := by
  rcases @copiesOf_eq_cons _ registry items steps selected source.toNat (by omega) with
    ⟨rest, isFirst⟩
  rw [copyNumber_iff inPlan.1]
  exact ⟨_, isFirst ▸ List.mem_cons_self, rfl⟩

theorem CopyOf.stepCopied (selected : items ≠ []) (flat : ∀ item ∈ items, FlatRecord item)
    {position round : Nat} {step copy : WorkflowStep} (inside : position < steps.length)
    (backward : StepBackward position step)
    (isIndex : copy.index = firstCopy (copyCounts registry items.length steps) position + round)
    (copyOf : CopyOf registry items steps step round copy) :
    StepCopied (copyCounts registry items.length steps) step copy := by
  have inPlan : ∀ {number : Int}, 0 ≤ number ∧ number < position →
      0 ≤ number ∧ number < steps.length := by
    intro number bounds
    omega
  have dependencies : ∀ dependency, dependency ∈ copy.dependsOn ↔ ∃ old ∈ step.dependsOn,
      CopyNumber (copyCounts registry items.length steps) old dependency := by
    intro dependency
    rw [copyOf.dependencies, List.mem_flatMap]
    apply exists_congr
    intro old
    apply and_congr_right
    intro member
    rw [copyNumber_iff (backward.dependencies old member).1, List.mem_map]
    exact exists_congr fun new => and_congr_right fun _ => eq_comm
  have ownReferences : ∀ {name : String} {value : Value} {source : Int},
      step.arguments.get? name = some value → value.refStep? = some source →
      0 ≤ source ∧ source < position :=
    fun found refers => backward.references _
      (List.mem_map_of_mem (Arguments.mem_of_get? found)) _ refers
  constructor
  case skill => exact copyOf.skill
  case tier => exact copyOf.tier
  case approval => exact copyOf.approval
  case dependencies => exact dependencies
  case waits =>
    intro dependency member
    rcases (dependencies dependency).mp member with ⟨old, among, isCopy⟩
    rw [isIndex]
    exact isCopy.before (backward.dependencies old among).2
  case references =>
    intro name new target found refers
    rcases copyOf.source flat found refers with ⟨value, source, isValue, isStep, rfl⟩
    have earlier := ownReferences isValue isStep
    have isCopy := @firstCopy_isCopy _ registry items steps selected source (inPlan earlier)
    rw [isIndex]
    exact ⟨isCopy.before earlier.2, value, source, isValue, isStep, isCopy⟩
  case refers =>
    intro name value source isValue isStep
    have bound := @get?_bindSelection _ registry step _ _ (isReference_of_refStep? isStep) isValue
    rcases copyOf.references name value source bound isStep with ⟨new, found, leads, _⟩
    exact ⟨new, _, found, leads, firstCopy_isCopy selected (inPlan (ownReferences isValue isStep))⟩
  case unselected => exact copyOf.unselected flat

omit [PythonText] in
/-- With one selected item, every step is its own copy. -/
theorem firstCopy_single : ∀ {position : Nat}, position ≤ steps.length →
    firstCopy (copyCounts registry 1 steps) position = position
  | 0, _ => rfl
  | position + 1, inside => by
      have found := @copyCounts_getElem? _ registry [[]] steps position _
        (List.getElem?_eq_getElem inside)
      rw [List.length_singleton, ite_self] at found
      rw [firstCopy_succ found, firstCopy_single (Nat.le_of_lt inside)]

omit [PythonText] in
theorem copiesOf_single {position : Nat} (inside : position < steps.length) :
    copiesOf (copyCounts registry 1 steps) position = [position] := by
  have found := @copyCounts_getElem? _ registry [[]] steps position _
    (List.getElem?_eq_getElem inside)
  rw [List.length_singleton, ite_self] at found
  rw [copiesOf, firstCopy_single (Nat.le_of_lt inside), found]
  rfl

theorem CopyOf.stepNumbered (single : items.length = 1) {position round : Nat}
    {step copy : WorkflowStep} (inside : position < steps.length)
    (backward : StepBackward position step) (isIndex : copy.index = position)
    (copyOf : CopyOf registry items steps step round copy) : StepNumbered step copy := by
  have alone : ∀ {number : Int}, 0 ≤ number ∧ number < position →
      number.toNat < steps.length ∧ (↑number.toNat : Int) = number := by
    intro number bounds
    omega
  constructor
  case index => rw [isIndex, backward.index]
  case dependencies =>
    rw [copyOf.dependencies, single]
    have each : ∀ old ∈ step.dependsOn,
        (copiesOf (copyCounts registry 1 steps) old.toNat).map Int.ofNat = [old] := by
      intro old member
      rcases alone (backward.dependencies old member) with ⟨inPlan, same⟩
      rw [copiesOf_single inPlan, List.map_singleton, Int.ofNat_eq_natCast, same]
    rw [List.flatMap_congr each, List.flatMap_singleton']
  case references =>
    intro name value source isValue isStep
    have bound := @get?_bindSelection _ registry step _ _ (isReference_of_refStep? isStep) isValue
    rcases copyOf.references name value source bound isStep with ⟨new, found, leads, _⟩
    rcases alone (backward.references value
      (List.mem_map_of_mem (Arguments.mem_of_get? isValue)) source isStep) with ⟨inPlan, same⟩
    rw [single, firstCopy_single (Nat.le_of_lt inPlan), same] at leads
    exact ⟨new, found, leads⟩

/-- `apply_selection` keeps the structure of the plan. -/
theorem applySelection_planExpanded {planned : List PlannedStep} {expanded : List WorkflowStep}
    (classified : classifySteps planned registry = .ok steps)
    (backward : ∀ position step, steps[position]? = some step → PointsBackward position step)
    (selected : items ≠ []) (flat : ∀ item ∈ items, FlatRecord item)
    (applied : applySelection steps items registry = .ok expanded) :
    PlanExpanded registry items.length steps expanded := by
  have placed := classified_backward classified backward
  have atPositions := applySelection_atPositions applied
  rcases applySelection_expandedTo selected placed applied with ⟨_, expandedTo⟩
  have whole : firstCopy (copyCounts registry items.length steps) steps.length =
      (copyCounts registry items.length steps).sum := by
    rw [firstCopy, List.take_of_length_le (by rw [copyCounts, List.length_map])]
  constructor
  case length => exact expandedTo.length.trans whole
  case indices => exact atPositions
  case copies =>
    intro position step found number isCopy
    have inside := (List.getElem?_eq_some_iff.mp found).1
    rw [copiesOf, copyCounts_getElem? found, Option.getD_some] at isCopy
    rcases List.mem_range'_1.mp isCopy with ⟨after, before⟩
    rcases Nat.exists_eq_add_of_le after with ⟨round, rfl⟩
    rcases expandedTo.copies position step inside found round (by omega) with
      ⟨copy, isCopy, copyOf⟩
    exact ⟨copy, isCopy, copyOf.stepCopied selected flat inside (placed position step found)
      (atPositions _ copy isCopy)⟩
  case origins =>
    intro number copy found
    apply exists_copiesOf
    rw [← expandedTo.length]
    exact (List.getElem?_eq_some_iff.mp found).1
  case single =>
    intro alone position step copy isStep isCopy
    have inside := (List.getElem?_eq_some_iff.mp isStep).1
    rcases expandedTo.copies position step inside isStep 0 (by rw [alone, ite_self]; decide) with
      ⟨other, isOther, copyOf⟩
    rw [alone, firstCopy_single (Nat.le_of_lt inside), Nat.add_zero, isCopy] at isOther
    cases isOther
    exact copyOf.stepNumbered alone inside (placed position step isStep)
      (atPositions position copy isCopy)

/-! ## Element by element -/

omit [PythonText] in
/-- In each round, the copy of `consumer` refers to the copy of `source` by this argument. -/
def PairsUp (counts : List Nat) (selected source consumer : Nat) (name : String)
    (expanded : List WorkflowStep) : Prop :=
  ∀ round < selected, ∃ copy new, expanded[firstCopy counts consumer + round]? = some copy ∧
    copy.arguments.get? name = some new ∧
    new.refStep? = some ↑(firstCopy counts source + round)

/-- The step does in this round what the one does that was made for its item alone. -/
structure ActsAs (registry : SkillRegistry ω) (steps : List WorkflowStep) (counts : List Nat)
    (round : Nat) (single copy : WorkflowStep) : Prop where
  skill : copy.skill = single.skill
  names : copy.arguments.map Prod.fst = single.arguments.map Prod.fst
  others : ∀ name value, single.arguments.get? name = some value → value.refStep? = none →
    copy.arguments.get? name = some value
  references : ∀ (name : String) (value : Value) (source : Nat) (step : WorkflowStep),
    single.arguments.get? name = some value → value.refStep? = some ↑source →
    steps[source]? = some step → ∃ new, copy.arguments.get? name = some new ∧
      new.refStep? = some ↑(firstCopy counts source + if step.fansOut registry then round else 0) ∧
      new.field? "path" = value.field? "path"

/-- For each item, the steps that act on it do what those of the plan for it alone do. -/
def ActsAlone (registry : SkillRegistry ω) (items : List Arguments)
    (steps expanded : List WorkflowStep) : Prop :=
  ∀ (round : Nat) item, items[round]? = some item →
    ∃ alone, applySelection steps [item] registry = .ok alone ∧
      ∀ (position : Nat) step single, steps[position]? = some step →
        step.fansOut registry = true → alone[position]? = some single →
        ∃ copy, expanded[firstCopy (copyCounts registry items.length steps) position + round]? =
          some copy ∧
            ActsAs registry steps (copyCounts registry items.length steps) round single copy

theorem actsAlone_of_le_one {expanded : List WorkflowStep} (few : items.length ≤ 1)
    (applied : applySelection steps items registry = .ok expanded) :
    ActsAlone registry items steps expanded := by
  intro round item isItem
  have inside := (List.getElem?_eq_some_iff.mp isItem).1
  have isFirst : round = 0 := by omega
  have isAll : items = [item] := by
    rcases List.length_eq_one_iff.mp (by omega : items.length = 1) with ⟨only, rfl⟩
    subst isFirst
    cases isItem
    rfl
  subst isFirst isAll
  refine ⟨expanded, applied, ?_⟩
  intro position step single isStep _ isSingle
  have inPlan := (List.getElem?_eq_some_iff.mp isStep).1
  refine ⟨single, ?_, ?_⟩
  · rw [List.length_singleton, firstCopy_single (Nat.le_of_lt inPlan), Nat.add_zero]
    exact isSingle
  · constructor
    case skill => rfl
    case names => rfl
    case others => exact fun _ _ found _ => found
    case references =>
      intro name value source other found refers isOther
      have otherInPlan := (List.getElem?_eq_some_iff.mp isOther).1
      rw [List.length_singleton, firstCopy_single (Nat.le_of_lt otherInPlan), ite_self,
        Nat.add_zero]
      exact ⟨value, found, refers, rfl⟩

/-- Where both steps fan out, every copy of the one that refers to the other refers to its
first copy: the plan acts element by element exactly when no second item is selected. -/
theorem applySelection_pairsUp_iff {planned : List PlannedStep} {expanded : List WorkflowStep}
    (classified : classifySteps planned registry = .ok steps)
    (backward : ∀ position step, steps[position]? = some step → PointsBackward position step)
    (applied : applySelection steps items registry = .ok expanded) {source consumer : Nat}
    {name : String} {value : Value} {first second : WorkflowStep}
    (_isFirst : steps[source]? = some first) (_firstFans : first.fansOut registry = true)
    (isSecond : steps[consumer]? = some second) (secondFans : second.fansOut registry = true)
    (isArgument : second.arguments.get? name = some value)
    (refers : value.refStep? = some ↑source) :
    (PairsUp (copyCounts registry items.length steps) items.length source consumer name expanded ∧
      ActsAlone registry items steps expanded) ↔ items.length ≤ 1 := by
  have inPlan := (List.getElem?_eq_some_iff.mp isSecond).1
  have placed := classified_backward classified backward
  have leads : ∀ round < items.length, ∃ copy new,
      expanded[firstCopy (copyCounts registry items.length steps) consumer + round]? = some copy ∧
      copy.arguments.get? name = some new ∧
      new.refStep? = some ↑(firstCopy (copyCounts registry items.length steps) source) := by
    intro round inside
    have selected : items ≠ [] := List.ne_nil_of_length_pos (Nat.zero_lt_of_lt inside)
    rcases applySelection_expandedTo selected placed applied with ⟨_, expandedTo⟩
    rcases expandedTo.copies consumer second inPlan isSecond round
      (by rw [if_pos secondFans]; exact inside) with ⟨copy, isCopy, copyOf⟩
    have bound := @get?_bindSelection _ registry second _ _ (isReference_of_refStep? refers)
      isArgument
    rcases copyOf.references name value source bound refers with ⟨new, found, leads, _⟩
    exact ⟨copy, new, isCopy, found, leads⟩
  constructor
  · rintro ⟨pairs, _⟩
    by_contra many
    rcases leads 1 (by omega) with ⟨copy, new, isCopy, found, toFirst⟩
    rcases pairs 1 (by omega) with ⟨other, paired, isOther, alsoFound, toSecond⟩
    cases isCopy.symm.trans isOther
    cases found.symm.trans alsoFound
    have same := Option.some.inj (toFirst.symm.trans toSecond)
    omega
  · intro few
    refine ⟨?_, actsAlone_of_le_one few applied⟩
    intro round inside
    have isFirst : round = 0 := by omega
    subst isFirst
    exact leads 0 inside

end Expanding

/-! ## A folder for every selected file -/

section Folders

attribute [local instance] smallPythonText

private def makeFolder : RegisteredSkill Unit where
  name := "create_folder"
  permissionTier := "write"
  requiresSelection := false
  handler _ arguments world := (.ok (.object arguments), world)

private def moveIntoFolder : RegisteredSkill Unit where
  name := "move_item"
  permissionTier := "write"
  requiresSelection := false
  handler _ arguments world := (.ok (.object arguments), world)

private def folderRegistry : SkillRegistry Unit :=
  ⟨[makeFolder, moveIntoFolder], by decide⟩

/-- A folder is made under the name of each selected file, and the file moved into it. -/
private def folderEach : List PlannedStep :=
  [⟨"create_folder", [("name", .object [("from", .string "selection"), ("each", .bool true),
      ("path", .string "name")])], []⟩,
    ⟨"move_item", [("item_id", .object [("from", .string "selection"), ("each", .bool true)]),
      ("parent_id", .object [("from", .int 0), ("path", .string "id")])], [0]⟩]

private def folderSteps : List WorkflowStep :=
  folderEach.mapIdx fun index step =>
    ⟨index, step.skill, step.arguments, step.dependsOn, "write", true⟩

private def fileRecord (id name : String) : Arguments :=
  [("id", .string id), ("name", .string name), ("item_type", .string "FILE")]

private theorem folderSteps_backward : ∀ (position : Nat) step,
    folderSteps[position]? = some step → PointsBackward position step := by
  intro position step found
  match position, found with
  | 0, found =>
      cases found
      constructor
      · exact fun _ member => absurd member List.not_mem_nil
      · intro value member source refers
        cases List.mem_singleton.mp member
        cases refers
  | 1, found =>
      cases found
      constructor
      · intro dependency member
        cases List.mem_singleton.mp member
        decide
      · intro value member source refers
        rcases List.mem_cons.mp member with rfl | member
        · cases refers
        · cases List.mem_singleton.mp member
          cases refers
          decide

private theorem fileRecord_flat (id name : String) : FlatRecord (fileRecord id name) := by
  constructor
  · intro value member
    simp only [fileRecord, Arguments.values, List.map_cons, List.map_nil, List.mem_cons,
      List.not_mem_nil, or_false] at member
    rcases member with rfl | rfl | rfl
    · exact ⟨_, rfl⟩
    · exact ⟨_, rfl⟩
    · exact ⟨_, rfl⟩
  · rfl

private def oneFile : List Arguments := [fileRecord "1" "a"]

private def twoFiles : List Arguments := [fileRecord "1" "a", fileRecord "2" "b"]

private theorem twoFiles_flat : ∀ item ∈ twoFiles, FlatRecord item := by
  intro item member
  simp only [twoFiles, List.mem_cons, List.not_mem_nil, or_false] at member
  rcases member with rfl | rfl
  · exact fileRecord_flat _ _
  · exact fileRecord_flat _ _

private theorem folderSteps_classified :
    classifySteps folderEach folderRegistry = .ok folderSteps := rfl

theorem applySelection_planExpanded_folders : ∃ expanded,
    applySelection folderSteps twoFiles folderRegistry = .ok expanded ∧
      PlanExpanded folderRegistry twoFiles.length folderSteps expanded :=
  ⟨_, rfl, applySelection_planExpanded folderSteps_classified folderSteps_backward
    (List.cons_ne_nil _ _) twoFiles_flat rfl⟩

theorem applySelection_pairsUp_file : ∃ expanded,
    applySelection folderSteps oneFile folderRegistry = .ok expanded ∧
      ((PairsUp (copyCounts folderRegistry oneFile.length folderSteps) oneFile.length 0 1
          "parent_id" expanded ∧ ActsAlone folderRegistry oneFile folderSteps expanded) ↔
        oneFile.length ≤ 1) :=
  ⟨_, rfl, applySelection_pairsUp_iff folderSteps_classified folderSteps_backward rfl rfl rfl
    rfl rfl rfl rfl⟩

/-- Both files are moved into the first folder. -/
theorem folderEach_collapses : ∃ expanded,
    applySelection folderSteps twoFiles folderRegistry = .ok expanded ∧
      ¬ (PairsUp (copyCounts folderRegistry twoFiles.length folderSteps) twoFiles.length 0 1
          "parent_id" expanded ∧ ActsAlone folderRegistry twoFiles folderSteps expanded) := by
  refine ⟨_, rfl, ?_⟩
  rintro ⟨pairs, _⟩
  rcases pairs 1 (by decide) with ⟨copy, new, isCopy, found, leads⟩
  cases isCopy
  cases found
  cases leads

end Folders

end CloudDrive
