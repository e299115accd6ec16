import CloudDrive.Assistant.Workflow

/-! # Resolving the selection

When `apply_selection` resolves every reference to the selected items. -/

namespace CloudDrive

open Outcome

variable [PythonText] {ω : Type}

/-! ## One reference -/

/-- The path of the reference leads to a value in the item. -/
def LeadsInto (ref : Value) (item : Arguments) : Prop :=
  match (ref.field? "path").filter Value.truthy with
  | some path => Succeeds ((Value.object item).resolvePath (PythonText.str path))
  | none => ∃ value, item.get? "id" = some value ∧ value ≠ .null

omit [PythonText] in
theorem selectedIndex?_bind {index : Value} {items : List Arguments} {item : Arguments} :
    (selectedIndex? index items.length).bind (fun position => items[position]?) = some item ↔
      ∃ position : Nat, index = .int position ∧ items[position]? = some item := by
  constructor
  · intro found
    rcases Option.bind_eq_some_iff.mp found with ⟨position, isPosition, isItem⟩
    cases index with
    | int number =>
        rw [selectedIndex?] at isPosition
        split at isPosition
        · rename_i inRange
          cases isPosition
          exact ⟨number.toNat, by rw [Int.toNat_of_nonneg inRange.1], isItem⟩
        · cases isPosition
    | null | bool | float | string | list | object => cases isPosition
  · intro found
    rcases found with ⟨position, rfl, isItem⟩
    have inside := (List.getElem?_eq_some_iff.mp isItem).1
    have inRange : (0 : Int) ≤ position ∧ (position : Int) < items.length := by omega
    rw [selectedIndex?, if_pos inRange, Option.bind_some, Int.toNat_natCast, isItem]

/-- The item that a reference names, by the round of its step or by its own number. -/
def selectedBy (ref : Value) (forced : Option Nat) : Value :=
  match forced with
  | some position => .int position
  | none => (ref.field? "item").getD (.int 0)

theorem selectionValue_succeeds_iff {ref : Value} {items : List Arguments}
    {forced : Option Nat} : Succeeds (selectionValue ref items forced) ↔
      ∃ (position : Nat) (item : Arguments), selectedBy ref forced = .int position ∧
        items[position]? = some item ∧ LeadsInto ref item := by
  have leads : Succeeds (selectionValue ref items forced) ↔ ∃ item,
      (selectedIndex? (selectedBy ref forced) items.length).bind
        (fun position => items[position]?) = some item ∧ LeadsInto ref item := by
    unfold selectionValue
    rw [succeeds_bind]
    refine exists_congr fun item => and_congr orRaise_eq_ok ?_
    rw [LeadsInto]
    cases (ref.field? "path").filter Value.truthy with
    | some path =>
        dsimp only
        cases (Value.object item).resolvePath (PythonText.str path) with
        | ok value => exact iff_of_true (succeeds_ok value) (succeeds_ok value)
        | error error => exact iff_of_false (not_succeeds_error _) (not_succeeds_error _)
    | none =>
        dsimp only
        cases item.get? "id" with
        | none => exact iff_of_false (not_succeeds_error _) (fun found => by simp at found)
        | some value =>
            cases value with
            | null => exact iff_of_false (not_succeeds_error _) (fun found => by simp at found)
            | bool | int | float | string | list | object =>
                exact iff_of_true (succeeds_ok _) ⟨_, rfl, fun same => by cases same⟩
  rw [leads]
  constructor
  · intro both
    rcases both with ⟨item, isItem, ends⟩
    rcases selectedIndex?_bind.mp isItem with ⟨position, isIndex, found⟩
    exact ⟨position, item, isIndex, found, ends⟩
  · intro named
    rcases named with ⟨position, item, isIndex, found, ends⟩
    exact ⟨item, selectedIndex?_bind.mpr ⟨position, isIndex, found⟩, ends⟩

/-! ## One step -/

/-- A reference to each item leads into all of them, and any other into the one that it
names. -/
def SelectionResolves (items : List Arguments) (each : List String) (key : String)
    (ref : Value) : Prop :=
  if key ∈ each then
    ∀ item ∈ items, LeadsInto ref item
  else
    ∃ (position : Nat) (item : Arguments), (ref.field? "item").getD (.int 0) = .int position ∧
      items[position]? = some item ∧ LeadsInto ref item

/-- Every reference of the step to the selection resolves. -/
def WorkflowStep.Resolvable (items : List Arguments) (registry : SkillRegistry ω)
    (step : WorkflowStep) : Prop :=
  let arguments := bindSelection step registry
  ∀ argument ∈ arguments, argument.2.isSelectionRef = true →
    SelectionResolves items (eachKeys arguments) argument.1 argument.2

/-- No step of the plan has become no step at all. -/
def Filled (oldToNew : StepMapping) : Prop :=
  ∀ entry ∈ oldToNew, entry.2 ≠ []

omit [PythonText] in
theorem remapStepRef_succeeds {oldToNew : StepMapping} (filled : Filled oldToNew)
    (value : Value) : Succeeds (remapStepRef value oldToNew) := by
  unfold remapStepRef
  split
  · rename_i empty
    rcases Option.bind_eq_some_iff.mp empty with ⟨old, _, found⟩
    rcases Option.map_eq_some_iff.mp found with ⟨entry, isEntry, isEmpty⟩
    exact absurd isEmpty (filled entry (List.mem_of_find?_eq_some isEntry))
  · exact succeeds_ok _
  · exact succeeds_ok _

theorem resolveSelected_succeeds_iff {items : List Arguments} {oldToNew : StepMapping}
    (filled : Filled oldToNew) {each : List String} {forced : Option Nat} :
    ∀ {arguments : Arguments},
      Succeeds (resolveSelected items oldToNew each forced arguments) ↔
        ∀ argument ∈ arguments, argument.2.isSelectionRef = true →
          Succeeds (selectionValue argument.2 items (if argument.1 ∈ each then forced else none))
  | [] => ⟨fun _ _ member => absurd member List.not_mem_nil, fun _ => succeeds_ok _⟩
  | (key, value) :: rest => by
      rw [resolveSelected, List.forall_mem_cons, ← resolveSelected_succeeds_iff filled]
      by_cases selects : value.isSelectionRef = true
      · rw [if_pos selects]
        apply succeeds_both.trans
        apply and_congr_left
        intro _
        exact ⟨fun succeeds _ => succeeds, fun succeeds => succeeds selects⟩
      · rw [if_neg selects]
        apply succeeds_both.trans
        apply and_congr_left
        intro _
        exact iff_of_true (remapStepRef_succeeds filled value) fun refers => absurd refers selects

theorem copies_succeeds_iff {items : List Arguments} {oldToNew : StepMapping}
    {each : List String} {arguments : Arguments} : ∀ {rounds : List (Option Nat)},
      Succeeds (copies items oldToNew each arguments rounds) ↔
        ∀ forced ∈ rounds, Succeeds (resolveSelected items oldToNew each forced arguments)
  | [] => ⟨fun _ _ member => absurd member List.not_mem_nil, fun _ => succeeds_ok _⟩
  | forced :: rest => by
      rw [copies, List.forall_mem_cons, ← copies_succeeds_iff]
      exact succeeds_both

theorem copies_length {items : List Arguments} {oldToNew : StepMapping} {each : List String}
    {arguments : Arguments} : ∀ {rounds : List (Option Nat)} {resolved : List Arguments},
      copies items oldToNew each arguments rounds = .ok resolved →
      resolved.length = rounds.length
  | [], _, done => by
      cases done
      rfl
  | forced :: rest, resolved, done => by
      simp only [copies, bind_eq_ok, pure_eq_ok] at done
      rcases done with ⟨first, _, later, areLater, rfl⟩
      rw [List.length_cons, List.length_cons, copies_length areLater]

/-- The rounds in which a step is copied. -/
def roundsOf (items : List Arguments) (each : List String) : List (Option Nat) :=
  if each = [] then [none] else (List.range items.length).map some

omit [PythonText] in
theorem roundsOf_ne_nil {items : List Arguments} (some : items ≠ []) (each : List String) :
    roundsOf items each ≠ [] := by
  rw [roundsOf]
  split
  · exact List.cons_ne_nil _ _
  · intro empty
    have noRange := List.range_eq_nil.mp (List.map_eq_nil_iff.mp empty)
    exact some (List.length_eq_zero_iff.mp noRange)

theorem selectionResolves_iff {items : List Arguments} (selected : items ≠ [])
    {each : List String} {key : String} {ref : Value} :
    (∀ forced ∈ roundsOf items each,
      Succeeds (selectionValue ref items (if key ∈ each then forced else none))) ↔
        SelectionResolves items each key ref := by
  rw [SelectionResolves]
  by_cases isEach : key ∈ each
  · have rounds : roundsOf items each = (List.range items.length).map some := by
      rw [roundsOf, if_neg (List.ne_nil_of_mem isEach)]
    simp only [if_pos isEach, rounds, List.forall_mem_map, List.mem_range,
      selectionValue_succeeds_iff, selectedBy]
    constructor
    · intro leads item member
      rcases List.getElem?_of_mem member with ⟨position, found⟩
      rcases leads position (List.getElem?_eq_some_iff.mp found).1 with
        ⟨other, named, same, isNamed, ends⟩
      cases same
      rw [found] at isNamed
      cases isNamed
      exact ends
    · intro leads position inside
      have found := List.getElem?_eq_getElem inside
      exact ⟨position, _, rfl, found, leads _ (List.mem_of_getElem? found)⟩
  · simp only [if_neg isEach]
    rcases List.exists_mem_of_ne_nil _ (roundsOf_ne_nil selected each) with ⟨round, isRound⟩
    constructor
    · exact fun resolves => selectionValue_succeeds_iff.mp (resolves round isRound)
    · exact fun resolves _ _ => selectionValue_succeeds_iff.mpr resolves

theorem expandStep_succeeds_iff {items : List Arguments} (selected : items ≠ [])
    {registry : SkillRegistry ω} {step : WorkflowStep} {state : Expansion}
    (filled : Filled state.oldToNew) :
    Succeeds (expandStep items registry step state) ↔ step.Resolvable items registry := by
  have copied : Succeeds (expandStep items registry step state) ↔
      Succeeds (copies items state.oldToNew (eachKeys (bindSelection step registry))
        (bindSelection step registry)
        (roundsOf items (eachKeys (bindSelection step registry)))) := by
    rw [expandStep, succeeds_bind]
    exact ⟨fun both => both.elim fun resolved is => ⟨resolved, is.1⟩,
      fun succeeds => succeeds.elim fun resolved done => ⟨resolved, done, succeeds_ok _⟩⟩
  rw [copied, copies_succeeds_iff]
  simp only [resolveSelected_succeeds_iff filled, WorkflowStep.Resolvable]
  constructor
  · intro resolves argument member refers
    apply (selectionResolves_iff selected).mp
    exact fun forced isRound => resolves forced isRound argument member refers
  · intro resolves forced isRound argument member refers
    exact (selectionResolves_iff selected).mpr (resolves argument member refers) forced isRound

theorem expandStep_filled {items : List Arguments} (selected : items ≠ [])
    {registry : SkillRegistry ω} {step : WorkflowStep} {before after : Expansion}
    (filled : Filled before.oldToNew) (expands : expandStep items registry step before = .ok after) :
    Filled after.oldToNew := by
  simp only [expandStep, bind_eq_ok, pure_eq_ok] at expands
  rcases expands with ⟨resolved, copied, rfl⟩
  intro entry member
  rcases List.mem_cons.mp member with rfl | older
  · intro empty
    rw [List.map_eq_nil_iff, List.mapIdx_eq_nil_iff] at empty
    have noRounds := copies_length copied
    rw [empty, List.length_nil] at noRounds
    exact roundsOf_ne_nil selected _ (List.length_eq_zero_iff.mp noRounds.symm)
  · exact filled entry older

/-- `apply_selection` raises when some reference to the selected items does not resolve. -/
theorem applySelection_succeeds_iff {items : List Arguments} (selected : items ≠ [])
    {registry : SkillRegistry ω} {steps : List WorkflowStep} :
    Succeeds (applySelection steps items registry) ↔
      ∀ step ∈ steps, step.Resolvable items registry := by
  have loop : Succeeds (applySelection steps items registry) ↔
      Succeeds (forEach (expandStep items registry) steps ⟨[], []⟩) := by
    rw [applySelection, succeeds_bind]
    exact ⟨fun both => both.elim fun expansion is => ⟨expansion, is.1⟩,
      fun succeeds => succeeds.elim fun expansion done => ⟨expansion, done, succeeds_ok _⟩⟩
  rw [loop]
  apply forEach_succeeds_iff (fun state => Filled state.oldToNew)
  · intro step _ before filled
    exact ⟨expandStep_succeeds_iff selected filled,
      fun after expands => expandStep_filled selected filled expands⟩
  · exact fun _ member => absurd member List.not_mem_nil

end CloudDrive
