/-! # Computations that may raise

The two guards a service method is written with, and the inversion lemmas that
take a successful run apart. -/

namespace Outcome

variable {ε α β : Type _}

/-- `if not condition: raise error`. -/
def require (condition : Prop) [Decidable condition] (error : ε) : Except ε Unit :=
  if condition then .ok () else .error error

/-- `if value is None: raise error`. -/
def orRaise (value : Option α) (error : ε) : Except ε α :=
  match value with
  | some value => .ok value
  | none => .error error

/-- `if value is not None: check(value)`. -/
def whenSome (value : Option α) (check : α → Except ε Unit) : Except ε Unit :=
  match value with
  | some value => check value
  | none => .ok ()

@[simp] theorem bind_eq_ok {first : Except ε α} {next : α → Except ε β} {value : β} :
    first >>= next = .ok value ↔
      ∃ middle, first = .ok middle ∧ next middle = .ok value := by
  cases first with
  | error error => simp [bind, Except.bind]
  | ok middle => simp [bind, Except.bind]

theorem ok_bind (value : α) (next : α → Except ε β) :
    ((.ok value : Except ε α) >>= next) = next value := rfl

@[simp] theorem pure_eq_ok {given value : α} :
    (pure given : Except ε α) = .ok value ↔ given = value := by
  simp [pure, Except.pure]

@[simp] theorem require_eq_ok {condition : Prop} [Decidable condition] {error : ε}
    {done : Unit} : require condition error = .ok done ↔ condition := by
  by_cases holds : condition <;> simp [require, holds]

@[simp] theorem orRaise_eq_ok {source : Option α} {error : ε} {value : α} :
    orRaise source error = .ok value ↔ source = some value := by
  cases source <;> simp [orRaise]

@[simp] theorem whenSome_eq_ok {value : Option α} {check : α → Except ε Unit}
    {done : Unit} : whenSome value check = .ok done ↔
      ∀ given ∈ value, check given = .ok () := by
  cases value <;> simp [whenSome]

theorem require_true {condition : Prop} [Decidable condition] {error : ε}
    (holds : condition) : require condition error = .ok () := by
  simp [require, holds]

theorem require_false {condition : Prop} [Decidable condition] {error : ε}
    (fails : ¬ condition) : require condition error = .error error := by
  simp [require, fails]

/-- Every element of a list comprehension comes from one of the source. -/
theorem mem_of_mapM {read : α → Except ε β} : ∀ {elements : List α} {values : List β},
    elements.mapM read = .ok values →
    ∀ value ∈ values, ∃ element ∈ elements, read element = .ok value
  | [], values, done, value, member => by
      cases done
      cases member
  | element :: rest, values, done, value, member => by
      simp only [List.mapM_cons, bind_eq_ok, pure_eq_ok] at done
      rcases done with ⟨first, isFirst, later, areLater, rfl⟩
      rcases List.mem_cons.mp member with rfl | inLater
      · exact ⟨element, List.mem_cons_self, isFirst⟩
      · rcases mem_of_mapM areLater value inLater with ⟨source, among, isValue⟩
        exact ⟨source, List.mem_cons_of_mem _ among, isValue⟩

/-- The element of a list comprehension at a position comes from the one there. -/
theorem getElem?_of_mapM {read : α → Except ε β} : ∀ {elements : List α} {values : List β},
    elements.mapM read = .ok values → ∀ {position : Nat} {value : β},
      values[position]? = some value →
      ∃ element, elements[position]? = some element ∧ read element = .ok value
  | [], values, done, position, value, found => by
      cases done
      cases found
  | element :: rest, values, done, position, value, found => by
      simp only [List.mapM_cons, bind_eq_ok, pure_eq_ok] at done
      rcases done with ⟨first, isFirst, later, areLater, rfl⟩
      cases position with
      | zero =>
          cases found
          exact ⟨element, rfl, isFirst⟩
      | succ position => exact getElem?_of_mapM areLater found

/-- The element at a position is read into the value there. -/
theorem getElem?_mapM {read : α → Except ε β} : ∀ {elements : List α}
    {values : List β}, elements.mapM read = .ok values → ∀ {position : Nat} {element : α},
    elements[position]? = some element →
      ∃ value, values[position]? = some value ∧ read element = .ok value
  | [], _, _, _, _, found => by cases found
  | first :: rest, values, done, position, element, found => by
      simp only [List.mapM_cons, bind_eq_ok, pure_eq_ok] at done
      rcases done with ⟨value, isValue, later, areLater, rfl⟩
      cases position with
      | zero =>
          cases found
          exact ⟨value, rfl, isValue⟩
      | succ position => exact getElem?_mapM areLater found

/-- A list comprehension is as long as its source. -/
theorem length_of_mapM {read : α → Except ε β} : ∀ {elements : List α}
    {values : List β}, elements.mapM read = .ok values → values.length = elements.length
  | [], values, done => by
      cases done
      rfl
  | first :: rest, values, done => by
      simp only [List.mapM_cons, bind_eq_ok, pure_eq_ok] at done
      rcases done with ⟨value, _, later, areLater, rfl⟩
      rw [List.length_cons, List.length_cons, length_of_mapM areLater]

/-- A comprehension of lists is empty where every list is. -/
theorem mapM_flatten_nil {read : α → Except ε (List β)} : ∀ {elements : List α},
    (∃ values, elements.mapM read = .ok values ∧ values.flatten = []) ↔
      ∀ element ∈ elements, read element = .ok []
  | [] => by
      apply iff_of_true
      · exact ⟨[], rfl, rfl⟩
      · exact fun _ member => absurd member List.not_mem_nil
  | element :: rest => by
      rw [List.forall_mem_cons, ← mapM_flatten_nil]
      simp only [List.mapM_cons, bind_eq_ok, pure_eq_ok]
      constructor
      · rintro ⟨_, ⟨first, isFirst, later, areLater, rfl⟩, empty⟩
        rw [List.flatten_cons, List.append_eq_nil_iff] at empty
        exact ⟨empty.1 ▸ isFirst, later, areLater, empty.2⟩
      · rintro ⟨isFirst, later, areLater, empty⟩
        exact ⟨_, ⟨[], isFirst, later, areLater, rfl⟩, empty⟩

/-- A list comprehension whose reads all succeed. -/
theorem mapM_eq_map {read : α → Except ε β} {value : α → β} : ∀ {elements : List α},
    (∀ element ∈ elements, read element = .ok (value element)) →
    elements.mapM read = .ok (elements.map value)
  | [], _ => rfl
  | element :: rest, reads => by
      rw [List.forall_mem_cons] at reads
      simp only [List.mapM_cons, bind_eq_ok, pure_eq_ok]
      exact ⟨_, reads.1, _, mapM_eq_map reads.2, rfl⟩

/-- A loop `for element in elements` whose body may raise. -/
def forEach (body : α → β → Except ε β) : List α → β → Except ε β
  | [], state => .ok state
  | element :: rest, state => body element state >>= forEach body rest

@[simp] theorem forEach_nil (body : α → β → Except ε β) (state : β) :
    forEach body [] state = .ok state := rfl

theorem forEach_cons (body : α → β → Except ε β) (element : α) (rest : List α)
    (state : β) :
    forEach body (element :: rest) state =
      body element state >>= forEach body rest := rfl

theorem forEach_append (body : α → β → Except ε β) : ∀ (first second : List α) (state : β),
    forEach body (first ++ second) state = forEach body first state >>= forEach body second
  | [], _, _ => rfl
  | element :: rest, second, state => by
      rw [List.cons_append, forEach_cons, forEach_cons]
      cases body element state with
      | error => rfl
      | ok middle => exact forEach_append body rest second middle

/-- What the iteration for each element keeps, the loop keeps. -/
theorem forEach_keeps_mem {body : α → β → Except ε β} (Keep : β → Prop) :
    ∀ {elements : List α} {before after : β},
      (∀ element ∈ elements, ∀ before after, Keep before →
        body element before = .ok after → Keep after) →
      Keep before → forEach body elements before = .ok after → Keep after
  | [], before, after, _, keep, done => by
      cases done
      exact keep
  | element :: rest, before, after, step, keep, done => by
      rw [forEach_cons, bind_eq_ok] at done
      rcases done with ⟨middle, first, later⟩
      apply forEach_keeps_mem Keep _ _ later
      · exact fun other member => step other (List.mem_cons_of_mem _ member)
      · exact step element List.mem_cons_self before middle keep first

/-- What every iteration keeps, the loop keeps. -/
theorem forEach_keeps {body : α → β → Except ε β} (Keep : β → Prop)
    (step : ∀ element before after, Keep before →
      body element before = .ok after → Keep after)
    {elements : List α} {before after : β} (keep : Keep before)
    (done : forEach body elements before = .ok after) : Keep after :=
  forEach_keeps_mem Keep (fun element _ => step element) keep done

/-! ## Computations that succeed -/

def Succeeds (result : Except ε α) : Prop :=
  ∃ value, result = .ok value

theorem succeeds_ok (value : α) : Succeeds (.ok value : Except ε α) :=
  ⟨value, rfl⟩

theorem not_succeeds_error (error : ε) : ¬ Succeeds (.error error : Except ε α) := by
  intro succeeds
  rcases succeeds with ⟨_, done⟩
  cases done

theorem succeeds_bind {first : Except ε α} {next : α → Except ε β} :
    Succeeds (first >>= next) ↔ ∃ value, first = .ok value ∧ Succeeds (next value) := by
  constructor
  · intro succeeds
    rcases succeeds with ⟨result, done⟩
    rcases bind_eq_ok.mp done with ⟨value, isFirst, isNext⟩
    exact ⟨value, isFirst, result, isNext⟩
  · intro both
    rcases both with ⟨value, isFirst, result, isNext⟩
    exact ⟨result, bind_eq_ok.mpr ⟨value, isFirst, isNext⟩⟩

theorem succeeds_bind_ok {first : Except ε α} {finish : α → β} :
    Succeeds (first >>= fun value => .ok (finish value)) ↔ Succeeds first := by
  rw [succeeds_bind]
  constructor
  · intro both
    rcases both with ⟨value, isFirst, _⟩
    exact ⟨value, isFirst⟩
  · intro succeeds
    rcases succeeds with ⟨value, isFirst⟩
    exact ⟨value, isFirst, succeeds_ok _⟩

/-- Two computations that do not depend on one another. -/
theorem succeeds_both {γ : Type _} {first : Except ε α} {second : Except ε β}
    {join : α → β → γ} :
    Succeeds (first.bind fun value => second.bind fun other => .ok (join value other)) ↔
      Succeeds first ∧ Succeeds second := by
  cases first with
  | error error => exact iff_of_false (not_succeeds_error _) fun both => not_succeeds_error _ both.1
  | ok value =>
      cases second with
      | error error =>
          exact iff_of_false (not_succeeds_error _) fun both => not_succeeds_error _ both.2
      | ok other => exact iff_of_true (succeeds_ok _) ⟨succeeds_ok _, succeeds_ok _⟩

theorem succeeds_mapM_iff {read : α → Except ε β} : ∀ {elements : List α},
    Succeeds (elements.mapM read) ↔ ∀ element ∈ elements, Succeeds (read element)
  | [] => ⟨fun _ _ member => absurd member List.not_mem_nil, fun _ => succeeds_ok _⟩
  | element :: rest => by
      rw [List.mapM_cons, List.forall_mem_cons, ← succeeds_mapM_iff]
      exact succeeds_both

/-- A loop succeeds when it does so for each element, in every state that a property
kept by the iterations allows. -/
theorem forEach_succeeds_iff {body : α → β → Except ε β} (Keep : β → Prop) (Good : α → Prop) :
    ∀ {elements : List α} {before : β},
      (∀ element ∈ elements, ∀ before, Keep before →
        (Succeeds (body element before) ↔ Good element) ∧
          ∀ after, body element before = .ok after → Keep after) →
      Keep before →
      (Succeeds (forEach body elements before) ↔ ∀ element ∈ elements, Good element)
  | [], before, _, _ => ⟨fun _ _ member => absurd member List.not_mem_nil,
      fun _ => succeeds_ok before⟩
  | element :: rest, before, step, keep => by
      have later : ∀ {middle : β}, Keep middle →
          (Succeeds (forEach body rest middle) ↔ ∀ other ∈ rest, Good other) :=
        fun keep => forEach_succeeds_iff Keep Good
          (fun other member => step other (List.mem_cons_of_mem _ member)) keep
      rcases step element List.mem_cons_self before keep with ⟨good, keeps⟩
      rw [forEach_cons, succeeds_bind, List.forall_mem_cons]
      constructor
      · intro both
        rcases both with ⟨middle, isMiddle, ends⟩
        exact ⟨good.mp ⟨middle, isMiddle⟩, (later (keeps middle isMiddle)).mp ends⟩
      · intro both
        rcases good.mpr both.1 with ⟨middle, isMiddle⟩
        exact ⟨middle, isMiddle, (later (keeps middle isMiddle)).mpr both.2⟩

/-! ## The errors of a computation -/

/-- Every error that the computation raises is one of these. -/
def Raises (errors : ε → Prop) (result : Except ε α) : Prop :=
  ∀ error, result = .error error → errors error

theorem Raises.bind {errors : ε → Prop} {first : Except ε α} {next : α → Except ε β}
    (here : Raises errors first) (later : ∀ value, Raises errors (next value)) :
    Raises errors (first >>= next) := by
  intro error raised
  cases isFirst : first with
  | error earlier =>
      rw [isFirst] at raised
      cases raised
      exact here error isFirst
  | ok value =>
      rw [isFirst] at raised
      exact later value error raised

theorem Raises.ok {errors : ε → Prop} {value : α} :
    Raises errors (.ok value : Except ε α) := by
  intro error raised
  cases raised

theorem Raises.require {errors : ε → Prop} {condition : Prop} [Decidable condition] {error : ε}
    (allowed : errors error) : Raises errors (require condition error) := by
  intro other raised
  by_cases holds : condition
  · rw [require_true holds] at raised
    cases raised
  · rw [require_false holds] at raised
    cases raised
    exact allowed

theorem Raises.orRaise {errors : ε → Prop} {source : Option α} {error : ε}
    (allowed : errors error) : Raises errors (orRaise source error) := by
  intro other raised
  cases source with
  | some value => cases raised
  | none =>
      cases raised
      exact allowed

/-- A computation with one error succeeds unless it raises that one. -/
theorem Raises.succeeds_iff {error : ε} {result : Except ε α}
    (only : Raises (· = error) result) : Succeeds result ↔ result ≠ .error error := by
  cases isResult : result with
  | error raised =>
      rw [only raised isResult]
      exact iff_of_false (not_succeeds_error error) fun differs => differs rfl
  | ok value => exact iff_of_true (succeeds_ok value) fun same => by cases same

end Outcome
