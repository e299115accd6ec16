import CloudDrive.Assistant.Values
import CloudDrive.Foundation.Outcome

/-! # Skill manifests

`validate_manifest` of `app/assistant/skills/manifest.py`, over the JSON that a model or the
database gives, and `model_dump` of what it accepts. -/

namespace CloudDrive

open Outcome

structure ContextMenuAction where
  label : String
  handler : String
  itemTypes : List ItemType
  deriving DecidableEq, Repr

/-- `SkillManifest`, with the `context_menu` of its `ui`. -/
structure SkillManifest where
  name : String
  description : String
  version : String
  contextMenu : List ContextMenuAction
  deriving DecidableEq, Repr

/-- The characters that `\d` takes, and the first error of a `ValidationError`: its location
joined by dots, or `manifest`, and its message. -/
class ManifestText where
  isDecimal : Char → Bool
  decimal_zero : isDecimal '0' = true
  decimal_one : isDecimal '1' = true
  firstError : Value → String × String

namespace SkillManifest

/-- `$` also matches before a newline at the end. -/
def dropNewline (text : List Char) : List Char :=
  if text.getLast? = some '\n' then text.dropLast else text

/-- `_NAME_RE.match`. -/
def isIdentifier (value : String) : Bool :=
  match value.toList with
  | [] => false
  | first :: rest =>
      let rest := dropNewline rest
      decide ('a' ≤ first ∧ first ≤ 'z') && decide (1 ≤ rest.length ∧ rest.length ≤ 63) &&
        rest.all fun char =>
          decide ('a' ≤ char ∧ char ≤ 'z') || decide ('0' ≤ char ∧ char ≤ '9') || char == '_'

/-- `_VERSION_RE.match`. -/
def isVersion [ManifestText] (value : String) : Bool :=
  let parts := (dropNewline value.toList).splitOn '.'
  decide (parts.length = 3) && parts.all fun part =>
    !part.isEmpty && part.all ManifestText.isDecimal

def itemTypeText : ItemType → String
  | .file => "FILE"
  | .folder => "FOLDER"

/-! ## Reading -/

/-- A `str` field with `min_length` and `max_length`. -/
def readText (fields : Arguments) (key : String) (low high : Nat) : Option String :=
  match fields.get? key with
  | some (.string text) => if low ≤ text.length ∧ text.length ≤ high then some text else none
  | _ => none

/-- `extra="forbid"`. -/
def onlyKeys (allowed : List String) (fields : Arguments) : Bool :=
  fields.all fun field => decide (field.1 ∈ allowed)

def readItemType : Value → Option ItemType
  | .string text =>
      if text = "FILE" then some .file else if text = "FOLDER" then some .folder else none
  | _ => none

def readItemTypes (value : Option Value) : Option (List ItemType) :=
  match value with
  | some (.list elements) => elements.mapM readItemType
  | _ => none

def readAction : Value → Option ContextMenuAction
  | .object fields => do
      let label ← readText fields "label" 1 64
      let handler ← readText fields "handler" 2 64
      let itemTypes ← readItemTypes (Arguments.get? fields "item_types")
      if onlyKeys ["label", "handler", "item_types"] fields = true ∧
          isIdentifier handler = true ∧ itemTypes ≠ [] ∧ itemTypes.Nodup then
        some ⟨label, handler, itemTypes⟩
      else none
  | _ => none

/-- The `context_menu` of a `ui`, empty where one of the two is left out. -/
def readUi (value : Option Value) : Option (List ContextMenuAction) :=
  match value with
  | none => some []
  | some (.object fields) =>
      if onlyKeys ["context_menu"] fields = true then
        match Arguments.get? fields "context_menu" with
        | none => some []
        | some (.list elements) => elements.mapM readAction
        | some _ => none
      else none
  | some _ => none

def readVersion [ManifestText] (value : Option Value) : Option String :=
  match value with
  | none => some "1.0.0"
  | some (.string text) => if isVersion text = true then some text else none
  | some _ => none

/-- `SkillManifest.model_validate`. -/
def modelValidate [ManifestText] (fields : Arguments) : Option SkillManifest := do
  let name ← readText fields "name" 2 64
  let description ← readText fields "description" 1 500
  let version ← readVersion (fields.get? "version")
  let contextMenu ← readUi (fields.get? "ui")
  if onlyKeys ["name", "description", "version", "ui"] fields = true ∧ isIdentifier name = true then
    some ⟨name, description, version, contextMenu⟩
  else none

def invalidManifest [ManifestText] (raw : Value) : ServiceError :=
  .invalidOperation ("Invalid skill manifest at " ++ (ManifestText.firstError raw).1 ++ ": " ++
    (ManifestText.firstError raw).2)

def foreignHandler [PythonText] (handler name : String) : ServiceError :=
  .invalidOperation ("Context-menu handler " ++ PythonText.repr (.string handler) ++
    " does not match skill name " ++ PythonText.repr (.string name))

def validateManifest [ManifestText] [PythonText] (raw : Value) :
    Except ServiceError SkillManifest :=
  match raw with
  | .object fields => do
      let manifest ← orRaise (modelValidate fields) (invalidManifest raw)
      match manifest.contextMenu.find? fun action => decide (action.handler ≠ manifest.name) with
      | some action => .error (foreignHandler action.handler manifest.name)
      | none => pure manifest
  | _ => .error (.invalidOperation "Manifest must be a JSON object")

/-! ## Writing -/

def ofAction (action : ContextMenuAction) : Value :=
  .object [("label", .string action.label), ("handler", .string action.handler),
    ("item_types", .list (action.itemTypes.map fun itemType => .string (itemTypeText itemType)))]

/-- `model_dump(mode="json")`. -/
def dump (manifest : SkillManifest) : Arguments :=
  [("name", .string manifest.name), ("description", .string manifest.description),
    ("version", .string manifest.version),
    ("ui", .object [("context_menu", .list (manifest.contextMenu.map ofAction))])]

/-! ## Accepted manifests -/

structure ValidAction (name : String) (action : ContextMenuAction) : Prop where
  label : 1 ≤ action.label.length ∧ action.label.length ≤ 64
  handler : action.handler = name
  someType : action.itemTypes ≠ []
  distinct : action.itemTypes.Nodup

structure Valid [ManifestText] (manifest : SkillManifest) : Prop where
  size : 2 ≤ manifest.name.length ∧ manifest.name.length ≤ 64
  identifier : isIdentifier manifest.name = true
  description : 1 ≤ manifest.description.length ∧ manifest.description.length ≤ 500
  version : isVersion manifest.version = true
  actions : ∀ action ∈ manifest.contextMenu, ValidAction manifest.name action

theorem readText_eq_some {fields : Arguments} {key text : String} {low high : Nat} :
    readText fields key low high = some text ↔
      fields.get? key = some (.string text) ∧ low ≤ text.length ∧ text.length ≤ high := by
  rw [readText]
  split
  · rename_i other found
    rw [found]
    by_cases fits : low ≤ other.length ∧ other.length ≤ high
    · rw [if_pos fits]
      constructor
      · intro same
        cases same
        exact ⟨rfl, fits⟩
      · intro both
        cases both.1
        rfl
    · rw [if_neg fits]
      constructor
      · intro same
        cases same
      · intro both
        cases both.1
        exact absurd both.2 fits
  · rename_i notText
    constructor
    · intro same
      cases same
    · exact fun both => absurd both.1 (notText text)

theorem readAction_valid {value : Value} {action : ContextMenuAction}
    (reads : readAction value = some action) :
    (1 ≤ action.label.length ∧ action.label.length ≤ 64) ∧ action.itemTypes ≠ [] ∧
      action.itemTypes.Nodup := by
  cases value with
  | object fields =>
      simp only [readAction, Option.bind_eq_bind, Option.bind_eq_some_iff] at reads
      rcases reads with ⟨label, isLabel, handler, _, itemTypes, _, reads⟩
      split at reads
      · rename_i checks
        cases reads
        exact ⟨(readText_eq_some.mp isLabel).2, checks.2.2⟩
      · cases reads
  | _ => cases reads

theorem mapM_mem {α β : Type} {read : α → Option β} : ∀ {elements : List α} {values : List β},
    elements.mapM read = some values →
    ∀ value ∈ values, ∃ element ∈ elements, read element = some value
  | [], values, done, value, member => by
      cases done
      cases member
  | element :: rest, values, done, value, member => by
      simp only [List.mapM_cons, Option.bind_eq_bind, Option.bind_eq_some_iff, Option.pure_def,
        Option.some.injEq] at done
      rcases done with ⟨first, isFirst, later, areLater, rfl⟩
      rcases List.mem_cons.mp member with rfl | inLater
      · exact ⟨element, List.mem_cons_self, isFirst⟩
      · rcases mapM_mem areLater value inLater with ⟨source, among, isValue⟩
        exact ⟨source, List.mem_cons_of_mem _ among, isValue⟩

theorem readUi_valid {value : Option Value} {actions : List ContextMenuAction}
    (reads : readUi value = some actions) : ∀ action ∈ actions,
      (1 ≤ action.label.length ∧ action.label.length ≤ 64) ∧ action.itemTypes ≠ [] ∧
        action.itemTypes.Nodup := by
  intro action member
  unfold readUi at reads
  split at reads
  · cases reads
    cases member
  · split at reads
    · split at reads
      · cases reads
        cases member
      · rcases mapM_mem reads action member with ⟨_, _, isAction⟩
        exact readAction_valid isAction
      · cases reads
    · cases reads
  · cases reads

theorem readVersion_valid [ManifestText] {value : Option Value} {version : String}
    (reads : readVersion value = some version) : isVersion version = true := by
  have numbers : isVersion "1.0.0" = true := by
    have parts : (dropNewline "1.0.0".toList).splitOn '.' = [['1'], ['0'], ['0']] := by decide
    rw [isVersion, parts]
    simp [ManifestText.decimal_zero, ManifestText.decimal_one]
  unfold readVersion at reads
  split at reads
  · cases reads
    exact numbers
  · split at reads
    · rename_i isVersion_
      cases reads
      exact isVersion_
    · cases reads
  · cases reads

/-- What is accepted is well formed, and no menu entry can invoke another skill. -/
theorem validateManifest_valid [ManifestText] [PythonText] {raw : Value}
    {manifest : SkillManifest} (accepts : validateManifest raw = .ok manifest) :
    manifest.Valid := by
  cases raw with
  | object fields =>
      simp only [validateManifest, bind_eq_ok, orRaise_eq_ok] at accepts
      rcases accepts with ⟨model, validated, accepts⟩
      simp only [modelValidate, Option.bind_eq_bind, Option.bind_eq_some_iff] at validated
      rcases validated with ⟨name, isName, description, isDescription, version, isVersion_,
        contextMenu, isMenu, validated⟩
      split at validated
      · rename_i checks
        cases validated
        cases foreign : contextMenu.find? fun action => decide (action.handler ≠ name) with
        | some action =>
            rw [foreign] at accepts
            cases accepts
        | none =>
            rw [foreign] at accepts
            cases accepts
            refine ⟨(readText_eq_some.mp isName).2, checks.2, (readText_eq_some.mp
              isDescription).2, readVersion_valid isVersion_, ?_⟩
            intro action member
            rcases readUi_valid isMenu action member with ⟨label, someType, distinct⟩
            have own := List.find?_eq_none.mp foreign action member
            exact ⟨label, by_contra fun other => own (decide_eq_true other), someType, distinct⟩
      · cases validated
  | _ => cases accepts

theorem readItemTypes_dump (itemTypes : List ItemType) :
    (itemTypes.map fun itemType => Value.string (itemTypeText itemType)).mapM readItemType =
      some itemTypes := by
  induction itemTypes with
  | nil => rfl
  | cons itemType rest induction =>
      rw [List.map_cons, List.mapM_cons, induction]
      cases itemType with
      | file => rfl
      | folder => rfl

theorem readAction_dump {name : String} (size : 2 ≤ name.length ∧ name.length ≤ 64)
    (identifier : isIdentifier name = true) {action : ContextMenuAction}
    (valid : ValidAction name action) : readAction (ofAction action) = some action := by
  have label : readText [("label", .string action.label), ("handler", .string action.handler),
      ("item_types", .list (action.itemTypes.map fun itemType =>
        .string (itemTypeText itemType)))] "label" 1 64 = some action.label :=
    readText_eq_some.mpr ⟨rfl, valid.label⟩
  have handler : readText [("label", .string action.label), ("handler", .string action.handler),
      ("item_types", .list (action.itemTypes.map fun itemType =>
        .string (itemTypeText itemType)))] "handler" 2 64 = some action.handler :=
    readText_eq_some.mpr ⟨rfl, valid.handler ▸ size⟩
  have checks : isIdentifier action.handler = true ∧ action.itemTypes ≠ [] ∧
      action.itemTypes.Nodup := ⟨valid.handler ▸ identifier, valid.someType, valid.distinct⟩
  rw [ofAction, readAction, label, handler]
  show (readItemTypes (some (.list _))).bind _ = _
  rw [readItemTypes, readItemTypes_dump]
  exact if_pos ⟨rfl, checks⟩

theorem mapM_dump {name : String} (size : 2 ≤ name.length ∧ name.length ≤ 64)
    (identifier : isIdentifier name = true) : ∀ {actions : List ContextMenuAction},
      (∀ action ∈ actions, ValidAction name action) →
      (actions.map ofAction).mapM readAction = some actions
  | [], _ => rfl
  | action :: rest, valid => by
      rw [List.map_cons, List.mapM_cons,
        readAction_dump size identifier (valid action List.mem_cons_self),
        mapM_dump size identifier fun other member => valid other (List.mem_cons_of_mem _ member)]
      rfl

/-- What was accepted is accepted again when it is read back. -/
theorem validateManifest_dump [ManifestText] [PythonText] {manifest : SkillManifest}
    (valid : manifest.Valid) : validateManifest (.object manifest.dump) = .ok manifest := by
  have name : readText manifest.dump "name" 2 64 = some manifest.name :=
    readText_eq_some.mpr ⟨rfl, valid.size⟩
  have description : readText manifest.dump "description" 1 500 = some manifest.description :=
    readText_eq_some.mpr ⟨rfl, valid.description⟩
  have version : readVersion (manifest.dump.get? "version") = some manifest.version := by
    show readVersion (some (.string manifest.version)) = _
    rw [readVersion, if_pos valid.version]
  have menu : readUi (manifest.dump.get? "ui") = some manifest.contextMenu :=
    mapM_dump valid.size valid.identifier valid.actions
  have validated : modelValidate manifest.dump = some manifest := by
    rw [modelValidate, name, description, version, menu]
    exact if_pos ⟨rfl, valid.identifier⟩
  have own : manifest.contextMenu.find?
      (fun action => decide (action.handler ≠ manifest.name)) = none := by
    apply List.find?_eq_none.mpr
    intro action member foreign
    exact of_decide_eq_true foreign (valid.actions action member).handler
  simp only [validateManifest, validated, orRaise, ok_bind, own]
  rfl

end SkillManifest

end CloudDrive
