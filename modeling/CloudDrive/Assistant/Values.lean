import CloudDrive.Models

/-! # Values of plans and of skill outputs

The JSON values that a planner proposes and a skill returns, the references among them
and the paths that lead into them, as in `app/assistant/workflow.py`. -/

namespace CloudDrive

/-- A float is known by its text and by the integer it equals, if there is one. -/
inductive Value where
  | null
  | bool (value : Bool)
  | int (value : Int)
  | float (text : String) (whole : Option Int)
  | string (text : String)
  | list (elements : List Value)
  | object (fields : List (String × Value))

/-- A `dict` with text keys, in the order of insertion. -/
abbrev Arguments := List (String × Value)

/-- What the built-in functions of Python say about texts: `str` and `repr` of a value,
`int` of a text (`none` where it raises `ValueError`) and `str.upper`. -/
class PythonText where
  str : Value → String
  repr : Value → String
  int : String → Option Int
  upper : String → String
  str_string : ∀ text, str (.string text) = text

namespace Arguments

/-- `fields.get(name)`. -/
def get? (fields : Arguments) (name : String) : Option Value :=
  (fields.find? fun field => decide (field.1 = name)).map Prod.snd

def has (fields : Arguments) (name : String) : Bool :=
  fields.any fun field => decide (field.1 = name)

/-- `fields[name] = value`. -/
def set (fields : Arguments) (name : String) (value : Value) : Arguments :=
  if fields.has name then
    fields.map fun field => if field.1 = name then (name, value) else field
  else
    fields ++ [(name, value)]

/-- `{k: v for k, v in fields.items() if k != name}`. -/
def without (fields : Arguments) (name : String) : Arguments :=
  fields.filter fun field => decide (field.1 ≠ name)

def values (fields : Arguments) : List Value :=
  fields.map Prod.snd

theorem has_iff_get? : ∀ {fields : Arguments} {name : String},
    fields.has name = true ↔ ∃ value, fields.get? name = some value
  | [], _ => by simp [has, get?]
  | field :: rest, name => by
      by_cases same : field.1 = name
      · simp [has, get?, same]
      · have inRest := @has_iff_get? rest name
        simpa [has, get?, same] using inRest

theorem get?_set_self {fields : Arguments} {name : String} {value : Value} :
    (fields.set name value).get? name = some value := by
  have mapped : ∀ {fields : Arguments}, fields.has name = true →
      Arguments.get? (fields.map fun field => if field.1 = name then (name, value) else field)
        name = some value := by
    intro fields
    induction fields with
    | nil => simp [has]
    | cons field rest induction =>
        intro here
        by_cases same : field.1 = name
        · simp [get?, same]
        · have inRest : has rest name = true := by simpa [has, same] using here
          simpa [get?, same] using induction inRest
  rw [set]
  split
  · rename_i here
    exact mapped here
  · rename_i absent
    have none : fields.find? (fun field => decide (field.1 = name)) = none := by
      rw [List.find?_eq_none]
      intro field member isName
      exact absent (List.any_eq_true.mpr ⟨field, member, isName⟩)
    simp [get?, none]

theorem get?_set_of_ne {fields : Arguments} {name other : String} {value : Value}
    (different : other ≠ name) : (fields.set name value).get? other = fields.get? other := by
  rw [set]
  split
  · clear * - different
    induction fields with
    | nil => rfl
    | cons field rest induction =>
        by_cases same : field.1 = name
        · simpa [get?, same, different.symm] using induction
        · by_cases isOther : field.1 = other
          · simp [get?, isOther, different]
          · simpa [get?, same, isOther] using induction
  · simp [get?, List.find?_append, different.symm]

end Arguments

namespace Value

/-- `bool(value)`. -/
def truthy : Value → Bool
  | .null => false
  | .bool value => value
  | .int value => decide (value ≠ 0)
  | .float _ whole => decide (whole ≠ some 0)
  | .string text => decide (text ≠ "")
  | .list elements => !elements.isEmpty
  | .object fields => !fields.isEmpty

/-- `type(value).__name__`. -/
def typeName : Value → String
  | .null => "NoneType"
  | .bool _ => "bool"
  | .int _ => "int"
  | .float .. => "float"
  | .string _ => "str"
  | .list _ => "list"
  | .object _ => "dict"

/-- The integer that the value equals under `==`. -/
def asInteger? : Value → Option Int
  | .int value => some value
  | .bool value => some (if value then 1 else 0)
  | .float _ whole => whole
  | _ => none

def isHashable : Value → Bool
  | .list _ | .object _ => false
  | _ => true

/-! ## References -/

/-- `ref_source`, with `null` for `None`. -/
def refSource : Value → Value
  | .object fields =>
      match Arguments.get? fields "from" with
      | some source => source
      | none => (Arguments.get? fields "from_step").getD .null
  | _ => .null

def isReference : Value → Bool
  | .object fields => Arguments.has fields "from" || Arguments.has fields "from_step"
  | _ => false

def isSelectionRef (value : Value) : Bool :=
  match value.refSource with
  | .string source => decide (source = "selection")
  | _ => false

/-- The step that a reference to an earlier step points at. -/
def refStep? (value : Value) : Option Int :=
  match value.refSource with
  | .int source => some source
  | _ => none

theorem refSource_set_from {fields : Arguments} {source : Value} :
    (Value.object (fields.set "from" source)).refSource = source := by
  rw [refSource, Arguments.get?_set_self]

theorem refSource_set_fromStep {fields : Arguments} {source : Value}
    (modern : Arguments.has fields "from" = false) :
    (Value.object (fields.set "from_step" source)).refSource = source := by
  have none : Arguments.get? fields "from" = none := by
    rw [Option.eq_none_iff_forall_ne_some]
    intro value found
    rw [Arguments.has_iff_get?.mpr ⟨value, found⟩] at modern
    cases modern
  rw [refSource, Arguments.get?_set_of_ne (by decide), none]
  dsimp only
  rw [Arguments.get?_set_self, Option.getD_some]

/-- `value.get(name)` of a reference. -/
def field? : Value → String → Option Value
  | .object fields, name => Arguments.get? fields name
  | _, _ => none

/-! ## Paths -/

/-- `[part for part in path.split(".") if part]`. -/
def pathParts (path : String) : List String :=
  ((path.toList.splitOn '.').map String.ofList).filter fun part => decide (part ≠ "")

/-- `_resolve_path` raises `KeyError`, `IndexError` or `ValueError`, or its own
`StepResolutionError`. -/
inductive PathError where
  | lookup
  | resolution (message : String)
  deriving DecidableEq, Repr

/-- `elements[index]`, where a negative index counts from the end. -/
def elementAt (elements : List Value) (index : Int) : Option Value :=
  if 0 ≤ index then
    elements[index.toNat]?
  else if -index ≤ elements.length then
    elements[(elements.length + index).toNat]?
  else
    none

variable [PythonText]

/-- One round of `_resolve_path`. -/
def descend (current : Value) (part : String) : Except PathError Value :=
  match current with
  | .list elements =>
      match (PythonText.int part).bind (elementAt elements) with
      | some element => .ok element
      | none => .error .lookup
  | .object fields =>
      match Arguments.get? fields part with
      | some value => .ok value
      | none => .error .lookup
  | _ => .error (.resolution s!"cannot descend into {current.typeName} at '{part}'")

def resolveParts (output : Value) (parts : List String) : Except PathError Value :=
  parts.foldlM descend output

/-- `_resolve_path`. -/
def resolvePath (output : Value) (path : String) : Except PathError Value :=
  output.resolveParts (pathParts path)

/-- `str(value.get("path", ""))`. -/
def refPath (value : Value) : String :=
  match value.field? "path" with
  | some path => PythonText.str path
  | none => ""

end Value

end CloudDrive
