import Mathlib.Data.List.Sort
import CloudDrive.Assistant.Codegen
import CloudDrive.Foundation.Execution

/-! # The life of a skill

`app/assistant/skills/authoring.py` over the rows of `assistant_skills`: a skill is drafted
in a chat, approved, edited, deleted and executed. A failed request is rolled back. -/

namespace CloudDrive

open Outcome Relational Execution CodeGuard SkillManifest

inductive SkillStatus where
  | pending
  | installed
  deriving DecidableEq, Repr

structure AssistantSkill where
  id : Uuid
  userId : Uuid
  name : String
  description : String
  manifest : Arguments
  code : String
  status : SkillStatus
  chatEnabled : Bool
  createdAt : Timestamp
  updatedAt : Timestamp

instance : Keyed AssistantSkill Uuid := ⟨AssistantSkill.id⟩

@[simp] theorem AssistantSkill.key_eq (row : AssistantSkill) : Keyed.key row = row.id := rfl

/-- The committed rows, and the next id that `uuid4` draws. -/
structure SkillState where
  skills : Table AssistantSkill
  uuid4 : Uuid

/-- `name`, `description`, `manifest` and `code` of `create_or_replace_pending`. -/
structure SkillDraft where
  name : String
  description : String
  manifest : Arguments
  code : String

/-- What a row has of its draft. -/
def AssistantSkill.draft (row : AssistantSkill) : SkillDraft :=
  ⟨row.name, row.description, row.manifest, row.code⟩

/-! ## What the columns take -/

/-- PostgreSQL takes no U+0000, neither in a text nor in a JSON document. -/
def hasNoNul (text : String) : Bool :=
  text.toList.all (· ≠ Char.ofNat 0)

mutual

def Value.isStorable : Value → Bool
  | .string text => hasNoNul text
  | .list elements => elementsStorable elements
  | .object fields => fieldsStorable fields
  | .null | .bool _ | .int _ | .float _ _ => true

def elementsStorable : List Value → Bool
  | [] => true
  | element :: rest => element.isStorable && elementsStorable rest

def fieldsStorable : Arguments → Bool
  | [] => true
  | (key, value) :: rest => hasNoNul key && value.isStorable && fieldsStorable rest

end

/-- A row with the draft can be written. -/
def SkillDraft.isStorable (draft : SkillDraft) : Bool :=
  hasNoNul draft.name && hasNoNul draft.description && hasNoNul draft.code &&
    fieldsStorable draft.manifest

/-! ## The repository -/

namespace AssistantSkillRepository

def getById (userId skillId : Uuid) (state : SkillState) : Option AssistantSkill :=
  (state.skills.find? skillId).filter fun row => decide (row.userId = userId)

/-- `scalar_one_or_none` raises when the query returns several rows. -/
def getByName (userId : Uuid) (name : String) (state : SkillState) :
    Except ServiceError (Option AssistantSkill) :=
  match state.skills.rows.filter fun row => decide (row.userId = userId ∧ row.name = name) with
  | [] => .ok none
  | [row] => .ok (some row)
  | _ :: _ :: _ => .error .multipleResultsFound

def listByStatus (userId : Uuid) (status : SkillStatus) (state : SkillState) :
    List AssistantSkill :=
  (state.skills.rows.filter fun row =>
    decide (row.userId = userId ∧ row.status = status)).mergeSort fun first second =>
      decide (first.createdAt ≤ second.createdAt)

def newSkill (userId : Uuid) (now : Timestamp) (draft : SkillDraft) (id : Uuid) :
    AssistantSkill where
  id := id
  userId := userId
  name := draft.name
  description := draft.description
  manifest := draft.manifest
  code := draft.code
  status := .pending
  chatEnabled := false
  createdAt := now
  updatedAt := now

/-- A draft that has the name of a skill takes its row. -/
def redrafted (now : Timestamp) (draft : SkillDraft) (row : AssistantSkill) : AssistantSkill :=
  { row with
    description := draft.description
    manifest := draft.manifest
    code := draft.code
    status := .pending
    updatedAt := now }

def createOrReplacePending (userId : Uuid) (now : Timestamp) (draft : SkillDraft)
    (state : SkillState) : Except ServiceError (AssistantSkill × SkillState) := do
  let found ← getByName userId draft.name state
  require (draft.isStorable = true) .dataError
  match found with
  | none =>
      let skill := newSkill userId now draft state.uuid4
      let skills ← orRaise (state.skills.insert? skill) .integrityError
      pure (skill, ⟨skills, state.uuid4 + 1⟩)
  | some row =>
      let skill := redrafted now draft row
      pure (skill, { state with skills := state.skills.put skill })

/-- The assignments to the row that `get_by_id` finds. -/
def assign (userId skillId : Uuid) (change : AssistantSkill → AssistantSkill)
    (state : SkillState) : Option (AssistantSkill × SkillState) :=
  (getById userId skillId state).map fun row =>
    (change row, { state with skills := state.skills.put (change row) })

def approve (userId skillId : Uuid) (now : Timestamp) (state : SkillState) :
    Option (AssistantSkill × SkillState) :=
  assign userId skillId (fun row => { row with status := .installed, updatedAt := now }) state

def update (userId skillId : Uuid) (description : String) (manifest : Arguments) (code : String)
    (now : Timestamp) (state : SkillState) :
    Except ServiceError (Option (AssistantSkill × SkillState)) := do
  let updated := assign userId skillId (fun row =>
    { row with
      description := description
      manifest := manifest
      code := code
      updatedAt := now }) state
  require (updated.all (fun written => written.1.draft.isStorable) = true) .dataError
  pure updated

def setChatEnabled (userId skillId : Uuid) (enabled : Bool) (now : Timestamp)
    (state : SkillState) : Option (AssistantSkill × SkillState) :=
  assign userId skillId (fun row => { row with chatEnabled := enabled, updatedAt := now }) state

def delete (userId skillId : Uuid) (state : SkillState) : Option SkillState :=
  (getById userId skillId state).map fun row =>
    { state with skills := state.skills.filter fun other => decide (other.id ≠ row.id) }

end AssistantSkillRepository

/-! ## The service -/

namespace AssistantSkillService

open AssistantSkillRepository

def inspectDetailsSkillName : String := "inspect_item_details"

def inspectDetailsDescription : String := "Show details for a selected drive item."

/-- `_inspect_details_manifest`. -/
def inspectDetailsManifest : Arguments :=
  [("name", .string inspectDetailsSkillName),
    ("description", .string inspectDetailsDescription),
    ("version", .string "1.0.0"),
    ("ui", .object [("context_menu", .list [.object [
      ("label", .string "Inspect details"),
      ("handler", .string inspectDetailsSkillName),
      ("item_types", .list [.string "FILE", .string "FOLDER"])]])])]

/-- `_inspect_details_code`. -/
def inspectDetailsCode : String :=
  "\n".intercalate ["handler: inspect_item_details", "permission: read",
    "input: \x7b item_id: uuid \x7d",
    "output: selected item's metadata for a right-click details panel"]

/-- `any(phrase in lowered for phrase in phrases)`. -/
def mentions (phrases : List String) (lowered : String) : Bool :=
  phrases.any fun phrase => (findText phrase lowered.toList).isSome

/-- `_GENERATION_VERBS`. -/
def generationVerbs : List String :=
  ["做一個", "做個", "製作", "生成", "新增功能", "建立一個功能", "幫我做", "make", "create", "build",
    "generate", "author", "add a"]

/-- `_GENERATION_TARGETS`. -/
def generationTargets : List String :=
  ["功能", "技能", "skill", "function", "feature", "解壓", "解壓縮", "壓縮", "7zip", "7-zip",
    "decompress", "compress", "extract", "convert", "轉換", "縮圖", "thumbnail"]

/-- The item that a skill runs on, as far as the service looks at it. -/
structure SkillItem where
  name : String
  itemType : ItemType

/-- What a request meets outside the rows: the agent, the sandbox, and the drive with what
`get_item` and `get_raw_item` find there, the snapshot and the input that are made before a
run, and the files that are taken in after it. -/
structure SkillHost where
  codegen : Option CodegenSubAgent
  sandbox : Option (SandboxRun → SandboxResult)
  hasDrive : Bool
  getItem : Uuid → Uuid → Except ServiceError SkillItem
  getRawItem : Uuid → Uuid → Except ServiceError SkillItem
  prepare : Uuid → SkillItem → Except ServiceError Unit
  ingest : SandboxResult → Except ServiceError (List String)
  dumps : Value → String

structure AssistantAuthoringResult where
  message : String
  skillProposal : Option AssistantSkill
  doneReason : Option String
  promptTokens : Option Nat
  completionTokens : Option Nat

structure AssistantSkillExecuteResponse where
  skillId : Uuid
  skillName : String
  itemId : Uuid
  message : String

/-- `_skill_item_types`, each type once. -/
def skillItemTypes (skill : AssistantSkill) : List String :=
  let actions := match Arguments.get? skill.manifest "ui" with
    | some (.object ui) =>
        match Arguments.get? ui "context_menu" with
        | some (.list actions) => actions
        | _ => []
    | _ => []
  let types := unique (actions.flatMap fun action =>
    match action with
    | .object fields =>
        match Arguments.get? fields "item_types" with
        | some (.list types) => types.filterMap fun itemType =>
            match itemType with
            | .string text => some text
            | _ => none
        | _ => []
    | _ => [])
  if types = [] then ["FILE"] else types

/-- `_wrong_type_message`. -/
def wrongTypeMessage (allowed : List String) : String :=
  if allowed = ["FILE"] then "This skill runs on a file"
  else if allowed = ["FOLDER"] then "This skill runs on a folder"
  else
    let sorted := allowed.mergeSort fun first second => decide (first ≤ second)
    "This skill runs on " ++ " or ".intercalate (sorted.map fun itemType =>
      if itemType = "FILE" then "a file" else "a folder")

def skillNotFound : ServiceError := .notFound "Assistant skill not found"

section Requests

variable [Platform] [PythonText] [PlanText] [PythonParser] [ManifestText]

omit [PythonText] [PlanText] [PythonParser] [ManifestText] in
/-- `_looks_like_context_menu_skill_request`. -/
def looksLikeContextMenuSkillRequest (message : String) : Bool :=
  let lowered := Platform.lower message
  mentions ["right click", "right-click", "context menu", "右鍵", "選單"] lowered &&
    mentions ["inspect", "detail", "details", "metadata", "建立", "新增", "新功能", "查看"] lowered

omit [PythonText] [PlanText] [PythonParser] [ManifestText] in
/-- `_looks_like_skill_generation_request`. -/
def looksLikeSkillGenerationRequest (message : String) : Bool :=
  let lowered := Platform.lower message
  mentions (generationVerbs.map Platform.lower) lowered &&
    mentions (generationTargets.map Platform.lower) lowered

omit [Platform] [PlanText] [PythonParser] in
/-- `_propose_inspect_details`. -/
def proposeInspectDetails (userId : Uuid) (now : Timestamp) (state : SkillState) :
    Except ServiceError (AssistantAuthoringResult × SkillState) := do
  let found ← getByName userId inspectDetailsSkillName state
  if (found.map AssistantSkill.status) = some .installed then
    pure (⟨"Inspect details is already installed in the right-click menu.", none, none, none,
      none⟩, state)
  else
    let manifest ← validateManifest (.object inspectDetailsManifest)
    let (skill, after) ← createOrReplacePending userId now ⟨inspectDetailsSkillName,
      inspectDetailsDescription, manifest.dump, inspectDetailsCode⟩ state
    pure (⟨"I drafted a right-click menu skill named Inspect details. " ++
      "Review and approve it to install the manifest.", some skill, none, none, none⟩, after)

omit [Platform] [PythonText] [PlanText] [PythonParser] [ManifestText] in
/-- The end of `_generate_skill`, after the agent has returned. -/
def proposeGenerated (userId : Uuid) (now : Timestamp) (result : CodegenResult)
    (state : SkillState) : Except ServiceError (AssistantAuthoringResult × SkillState) :=
  match if result.ok = true then result.manifest else none with
  | none =>
      let detail := if result.problems = [] then "" else
        " (" ++ "; ".intercalate result.problems ++ ")"
      pure (⟨result.reply ++ detail, none, result.doneReason, result.promptTokens,
        result.completionTokens⟩, state)
  | some manifest => do
      let (skill, after) ← createOrReplacePending userId now
        ⟨result.name, result.description, manifest.dump, result.code⟩ state
      pure (⟨"我生成了一個技能「" ++ result.name ++ "」。請檢視程式碼,核可後才會安裝;" ++
        "安裝後的執行會在受限沙箱中進行。", some skill, result.doneReason,
        result.promptTokens, result.completionTokens⟩, after)

omit [Platform] [PlanText] [PythonParser] in
def approveSkill (userId skillId : Uuid) (now : Timestamp) (state : SkillState) :
    Except ServiceError (AssistantSkill × SkillState) := do
  let pending ← orRaise (AssistantSkillRepository.getById userId skillId state) skillNotFound
  let _ ← validateManifest (.object pending.manifest)
  orRaise (approve userId skillId now state) skillNotFound

omit [Platform] [PythonText] [PlanText] [ManifestText] in
/-- The scan of the code that an edit puts in place. -/
def editProblems (existing : AssistantSkill) (code : Option String) :
    Except ServiceError (List String) :=
  if code.isSome = true ∧ existing.name ≠ inspectDetailsSkillName then
    (validateSkillCode (code.getD existing.code)).mapError .uncaught
  else .ok []

omit [Platform] [PythonText] [PlanText] [ManifestText] in
/-- `update_skill` from the new description and code on. -/
def editSkill (userId : Uuid) (existing : AssistantSkill) (description code : Option String)
    (now : Timestamp) (state : SkillState) : Except ServiceError (AssistantSkill × SkillState) := do
  let newCode := code.getD existing.code
  let newDescription := (description.map strip).getD existing.description
  require (newDescription ≠ "") (.invalidOperation "Description cannot be empty")
  let problems ← editProblems existing code
  require (problems = [])
    (.invalidOperation ("Edited code failed validation: " ++ "; ".intercalate problems))
  let updated ← update userId existing.id newDescription
    (Arguments.set existing.manifest "description" (.string newDescription)) newCode now state
  orRaise updated skillNotFound

omit [Platform] [PythonText] [PlanText] [ManifestText] in
def updateSkill (userId skillId : Uuid) (description code : Option String)
    (chatEnabled : Option Bool) (now : Timestamp) (state : SkillState) :
    Except ServiceError (AssistantSkill × SkillState) := do
  let existing ← orRaise (AssistantSkillRepository.getById userId skillId state) skillNotFound
  match chatEnabled with
  | none => editSkill userId existing description code now state
  | some enabled => do
      let toggled ← orRaise (setChatEnabled userId skillId enabled now state) skillNotFound
      if description = none ∧ code = none then pure toggled
      else editSkill userId existing description code now toggled.2

omit [Platform] [PythonText] [PlanText] [PythonParser] [ManifestText] in
def deleteSkill (userId skillId : Uuid) (state : SkillState) : Except ServiceError SkillState :=
  orRaise (delete userId skillId state) skillNotFound

/-! ### Execution -/

omit [Platform] [PythonText] [PlanText] [PythonParser] [ManifestText] in
/-- `_execute_inspect`. -/
def executeInspect (host : SkillHost) (userId : Uuid) (skill : AssistantSkill) (itemId : Uuid) :
    Except ServiceError AssistantSkillExecuteResponse := do
  let item ← host.getItem userId itemId
  pure ⟨skill.id, skill.name, itemId, "Details for " ++ item.name⟩

omit [Platform] [PythonText] [PlanText] [PythonParser] [ManifestText] in
/-- `_execute_generated` up to the run. -/
def readyToRun (host : SkillHost) (userId : Uuid) (skill : AssistantSkill) (itemId : Uuid) :
    Except ServiceError (SkillItem × (SandboxRun → SandboxResult)) := do
  let sandbox ← orRaise (host.sandbox.filter fun _ => host.hasDrive)
    (.invalidOperation "Sandbox execution is not available")
  let item ← host.getRawItem userId itemId
  let allowed := skillItemTypes skill
  require (itemTypeText item.itemType ∈ allowed) (.invalidOperation (wrongTypeMessage allowed))
  host.prepare userId item
  pure (item, sandbox)

omit [Platform] [PythonText] [PlanText] [PythonParser] [ManifestText] in
/-- `_execute_generated` from the result of the run on. -/
def takeIn (host : SkillHost) (skill : AssistantSkill) (itemId : Uuid) (item : SkillItem)
    (result : SandboxResult) : Except ServiceError AssistantSkillExecuteResponse := do
  let detail := (result.error.filter fun error => error ≠ "").getD "unknown error"
  require (result.ok = true) (.invalidOperation ("Skill execution failed: " ++ detail))
  let ingested ← host.ingest result
  let summary := String.ofList ((host.dumps result.output).toList.take 200)
  require (ingested ≠ []) (.invalidOperation ("Skill '" ++ skill.name ++
    "' ran without error but wrote no output file for " ++ item.name ++
    ", so there is nothing to save. The skill reported: " ++ summary))
  pure ⟨skill.id, skill.name, itemId, skill.name ++ " produced " ++
    toString ingested.length ++ " file(s) from " ++ item.name ++ "."⟩

omit [Platform] [PythonText] [PlanText] [PythonParser] [ManifestText] in
/-- `execute_skill`, with the run that it makes. -/
def executeSkill (host : SkillHost) (userId skillId itemId : Uuid) (state : SkillState) :
    List SandboxRun × Except ServiceError AssistantSkillExecuteResponse :=
  let found := AssistantSkillRepository.getById userId skillId state
  match found.filter fun row => decide (row.status = .installed) with
  | none => ([], .error skillNotFound)
  | some skill =>
      if skill.name = inspectDetailsSkillName then ([], executeInspect host userId skill itemId)
      else
        match readyToRun host userId skill itemId with
        | .error error => ([], .error error)
        | .ok (item, sandbox) =>
            let run : SandboxRun := ⟨skill.code, itemTypeText item.itemType⟩
            ([run], takeIn host skill itemId item (sandbox run))

omit [Platform] [PythonText] [PlanText] [PythonParser] [ManifestText] in
/-- A round of the loop of `_register_installed_skills`, of a registry that has the names. -/
def registerSkill (names : List String) (added : List AssistantSkill) (skill : AssistantSkill) :
    List AssistantSkill :=
  if skill.chatEnabled = true ∧ skill.name ∉ names ++ added.map AssistantSkill.name then
    added ++ [skill]
  else added

omit [Platform] [PythonText] [PlanText] [PythonParser] [ManifestText] in
/-- The skills that `_register_installed_skills` adds. -/
def registerInstalledSkills (userId : Uuid) (state : SkillState) (names : List String) :
    List AssistantSkill :=
  (listByStatus userId .installed state).foldl (registerSkill names) []

end Requests

end AssistantSkillService

/-! ## Requests -/

open AssistantSkillService AssistantSkillRepository

/-- A message to the chat and the requests under `/skills`. A skill that the planner calls is
executed as well. -/
inductive SkillRequest where
  | message (text : String)
  | approve (skillId : Uuid)
  | update (skillId : Uuid) (description code : Option String) (chatEnabled : Option Bool)
  | delete (skillId : Uuid)
  | execute (skillId itemId : Uuid)

/-- `AssistantSkillUpdateRequest` bounds both texts. -/
def SkillRequest.Offered : SkillRequest → Prop
  | .update _ description code _ =>
      (∀ text ∈ description, 1 ≤ text.length ∧ text.length ≤ 500) ∧
        ∀ text ∈ code, text.length ≤ 20000
  | _ => True

inductive SkillFailure where
  | service (error : ServiceError)
  | chat (error : ChatError)

inductive SkillReply where
  | ordinary
  | authored (result : AssistantAuthoringResult)
  | skill (row : AssistantSkill)
  | deleted
  | executed (response : AssistantSkillExecuteResponse)

/-- The code that a request has run, and its reply with the state to commit. -/
structure SkillReaction where
  runs : List SandboxRun
  outcome : Except SkillFailure (SkillReply × SkillState)

/-- A request that runs nothing. -/
def SkillReaction.quiet {α : Type} (reply : α → SkillReply)
    (outcome : Except ServiceError (α × SkillState)) : SkillReaction where
  runs := []
  outcome := match outcome with
    | .error error => .error (.service error)
    | .ok (value, after) => .ok (reply value, after)

/-- A request of a user, when it is made and what it meets. -/
structure SkillCall where
  userId : Uuid
  now : Timestamp
  host : SkillHost
  request : SkillRequest

section Reactions

variable [Platform] [PythonText] [PlanText] [PythonParser] [ManifestText]

omit [Platform] in
/-- `_generate_skill`. -/
def SkillCall.generate (call : SkillCall) (agent : CodegenSubAgent) (message : String)
    (state : SkillState) : SkillReaction :=
  let authoring := agent.author call.host.sandbox message
  match authoring.outcome with
  | .error (.chat error) => ⟨authoring.runs, .error (.chat error)⟩
  | .error (.uncaught text) => ⟨authoring.runs, .error (.service (.uncaught text))⟩
  | .ok result =>
      { SkillReaction.quiet .authored (proposeGenerated call.userId call.now result state) with
        runs := authoring.runs }

/-- `handle_authoring_message`. -/
def SkillCall.handleAuthoringMessage (call : SkillCall) (message : String)
    (state : SkillState) : SkillReaction :=
  if looksLikeContextMenuSkillRequest message then
    .quiet .authored (proposeInspectDetails call.userId call.now state)
  else
    match call.host.codegen with
    | some agent =>
        if looksLikeSkillGenerationRequest message then call.generate agent message state
        else ⟨[], .ok (.ordinary, state)⟩
    | none => ⟨[], .ok (.ordinary, state)⟩

def SkillCall.react (call : SkillCall) (state : SkillState) : SkillReaction :=
  match call.request with
  | .message text => call.handleAuthoringMessage text state
  | .approve skillId => .quiet .skill (approveSkill call.userId skillId call.now state)
  | .update skillId description code chatEnabled =>
      .quiet .skill (updateSkill call.userId skillId description code chatEnabled call.now state)
  | .delete skillId =>
      .quiet (fun _ : Unit => .deleted)
        ((deleteSkill call.userId skillId state).map fun after => ((), after))
  | .execute skillId itemId =>
      let (runs, outcome) := executeSkill call.host call.userId skillId itemId state
      { SkillReaction.quiet .executed (outcome.map fun response => (response, state)) with
        runs := runs }

/-- A request commits or is rolled back. -/
def SkillReaction.committed (reaction : SkillReaction) (before : SkillState) : SkillState :=
  match reaction.outcome with
  | .ok (_, after) => after
  | .error _ => before

def SkillStep (call : SkillCall) (before after : SkillState) : Prop :=
  call.request.Offered ∧ after = (call.react before).committed before

/-- A run of the deployment from an empty table on. -/
def SkillHistory (firstId : Uuid) (events : List (Event SkillState SkillCall))
    (state : SkillState) : Prop :=
  Run SkillStep ⟨Table.empty, firstId⟩ events state

end Reactions

/-! ## What a request changes -/

namespace AssistantSkillRepository

theorem getById_eq_some {userId skillId : Uuid} {state : SkillState} {row : AssistantSkill} :
    getById userId skillId state = some row ↔
      row ∈ state.skills ∧ row.id = skillId ∧ row.userId = userId := by
  rw [getById, Option.filter_eq_some_iff, Table.find?_eq_some, AssistantSkill.key_eq,
    decide_eq_true_eq, and_assoc]

/-- One row was replaced by another with its id. -/
structure RowReplaced (before after : SkillState) (old new : AssistantSkill) : Prop where
  member : old ∈ before.skills
  sameId : new.id = old.id
  rows : ∀ row, row ∈ after.skills ↔ row = new ∨ row ∈ before.skills ∧ row.id ≠ old.id
  drawn : after.uuid4 = before.uuid4

theorem RowReplaced.put {before : SkillState} {old new : AssistantSkill}
    (member : old ∈ before.skills) (sameId : new.id = old.id) :
    RowReplaced before { before with skills := before.skills.put new } old new := by
  constructor
  case member => exact member
  case sameId => exact sameId
  case rows =>
    intro row
    rw [Table.mem_put, AssistantSkill.key_eq, AssistantSkill.key_eq, sameId]
    constructor
    · rintro (⟨same, _⟩ | other)
      · exact .inl same
      · exact .inr other
    · rintro (same | other)
      · exact .inl ⟨same, old, member, rfl⟩
      · exact .inr other
  case drawn => rfl

theorem RowReplaced.trans {before middle after : SkillState} {old between new : AssistantSkill}
    (first : RowReplaced before middle old between)
    (second : RowReplaced middle after between new) : RowReplaced before after old new := by
  constructor
  case member => exact first.member
  case sameId => exact second.sameId.trans first.sameId
  case rows =>
    intro row
    rw [second.rows, first.rows, first.sameId]
    constructor
    · rintro (same | ⟨rfl | other, different⟩)
      · exact .inl same
      · exact absurd first.sameId different
      · exact .inr other
    · rintro (same | other)
      · exact .inl same
      · exact .inr ⟨.inr other, other.2⟩
  case drawn => exact second.drawn.trans first.drawn

theorem assign_eq_some {userId skillId : Uuid} {change : AssistantSkill → AssistantSkill}
    {before after : SkillState} {new : AssistantSkill} (sameId : ∀ row, (change row).id = row.id)
    (assigned : assign userId skillId change before = some (new, after)) :
    ∃ old, old.id = skillId ∧ old.userId = userId ∧ new = change old ∧
      RowReplaced before after old new := by
  rcases Option.map_eq_some_iff.mp assigned with ⟨old, found, written⟩
  rcases getById_eq_some.mp found with ⟨member, isId, isOwner⟩
  cases written
  exact ⟨old, isId, isOwner, rfl, .put member (sameId old)⟩

/-- A row was added. -/
structure Added (before after : SkillState) (new : AssistantSkill) : Prop where
  isNew : new.id = before.uuid4
  rows : ∀ row, row ∈ after.skills ↔ row ∈ before.skills ∨ row = new
  drawn : after.uuid4 = before.uuid4 + 1

theorem getByName_none {userId : Uuid} {name : String} {state : SkillState}
    (found : getByName userId name state = .ok none) :
    ∀ row ∈ state.skills, row.userId = userId → row.name ≠ name := by
  intro row member isOwner isName
  rw [getByName] at found
  have selected : row ∈ state.skills.rows.filter fun row =>
      decide (row.userId = userId ∧ row.name = name) :=
    List.mem_filter.mpr ⟨member, decide_eq_true ⟨isOwner, isName⟩⟩
  split at found
  · rename_i none_
    rw [none_] at selected
    cases selected
  · cases found
  · cases found

theorem getByName_some {userId : Uuid} {name : String} {state : SkillState}
    {row : AssistantSkill} (found : getByName userId name state = .ok (some row)) :
    row ∈ state.skills ∧ row.userId = userId ∧ row.name = name := by
  rw [getByName] at found
  split at found
  · cases found
  · rename_i only one
    cases found
    have selected : row ∈ state.skills.rows.filter fun row =>
        decide (row.userId = userId ∧ row.name = name) := one ▸ List.mem_singleton_self _
    rcases List.mem_filter.mp selected with ⟨member, isRow⟩
    exact ⟨member, of_decide_eq_true isRow⟩
  · cases found

/-- A draft adds a row, or takes the one that has its name. -/
inductive Drafted (userId : Uuid) (now : Timestamp) (draft : SkillDraft)
    (before after : SkillState) : Prop
  | added : (∀ row ∈ before.skills, row.userId = userId → row.name ≠ draft.name) →
      Added before after (newSkill userId now draft before.uuid4) →
      Drafted userId now draft before after
  | replaced (old : AssistantSkill) : old.userId = userId → old.name = draft.name →
      RowReplaced before after old (redrafted now draft old) →
      Drafted userId now draft before after

theorem createOrReplacePending_eq_ok {userId : Uuid} {now : Timestamp} {draft : SkillDraft}
    {before after : SkillState} {skill : AssistantSkill}
    (drafts : createOrReplacePending userId now draft before = .ok (skill, after)) :
    Drafted userId now draft before after := by
  simp only [createOrReplacePending, bind_eq_ok] at drafts
  rcases drafts with ⟨found, isFound, _, _, drafts⟩
  cases found with
  | none =>
      simp only [bind_eq_ok, orRaise_eq_ok, pure_eq_ok] at drafts
      rcases drafts with ⟨skills, inserted, written⟩
      cases written
      refine .added (getByName_none isFound) ⟨rfl, ?_, rfl⟩
      intro row
      exact Table.mem_of_insert? inserted
  | some old =>
      simp only [pure_eq_ok] at drafts
      cases drafts
      rcases getByName_some isFound with ⟨member, isOwner, isName⟩
      exact .replaced old isOwner isName (.put member rfl)

end AssistantSkillRepository

namespace AssistantSkillService

/-- The manifest that `_inspect_details_manifest` writes down. -/
def inspectDetails : SkillManifest where
  name := inspectDetailsSkillName
  description := inspectDetailsDescription
  version := "1.0.0"
  contextMenu := [⟨"Inspect details", inspectDetailsSkillName, [.file, .folder]⟩]

theorem inspectDetailsManifest_eq : inspectDetailsManifest = inspectDetails.dump := rfl

theorem inspectDetails_valid [ManifestText] : inspectDetails.Valid where
  size := by decide
  identifier := by decide
  description := by decide
  version := readVersion_valid (rfl : readVersion none = some inspectDetails.version)
  actions := by
    intro action member
    rw [List.mem_singleton.mp member]
    constructor
    case label => decide
    case handler => rfl
    case someType => decide
    case distinct => decide

end AssistantSkillService

/-! ## Drafts -/

section Soundness

variable [PythonParser] [ManifestText]

/-- The manifest is the dump of one that was accepted, with the name and the description of
the draft, and the code was scanned, unless it is that of the skill which runs none. -/
structure SkillDraft.Sound (draft : SkillDraft) : Prop where
  manifest : ∃ manifest : SkillManifest, manifest.Valid ∧ draft.manifest = manifest.dump ∧
    manifest.name = draft.name ∧ manifest.description = draft.description
  code : draft.name ≠ inspectDetailsSkillName → validateSkillCode draft.code = .ok []

theorem sound_of_inspect : SkillDraft.Sound ⟨inspectDetailsSkillName, inspectDetailsDescription,
    inspectDetails.dump, inspectDetailsCode⟩ where
  manifest := ⟨inspectDetails, inspectDetails_valid, rfl, rfl, rfl⟩
  code := fun generated => absurd rfl generated

theorem sound_of_result {result : CodegenResult} {manifest : SkillManifest}
    (drafts : CodegenSubAgent.Drafts result manifest) :
    SkillDraft.Sound ⟨result.name, result.description, manifest.dump, result.code⟩ where
  manifest := ⟨manifest, drafts.valid, rfl, drafts.name.symm, drafts.description.symm⟩
  code := fun _ => drafts.clean

/-- `manifest["description"] = new_description` writes the dump of another valid manifest. -/
theorem SkillDraft.Sound.describe {draft : SkillDraft} (sound : draft.Sound)
    {description code : String} (size : 1 ≤ description.length ∧ description.length ≤ 500)
    (clean : draft.name ≠ inspectDetailsSkillName → validateSkillCode code = .ok []) :
    SkillDraft.Sound ⟨draft.name, description,
      Arguments.set draft.manifest "description" (.string description), code⟩ := by
  rcases sound.manifest with ⟨manifest, valid, isDump, isName, _⟩
  have describes : SkillManifest.Valid { manifest with description := description } :=
    ⟨valid.size, valid.identifier, size, valid.version, valid.actions⟩
  refine ⟨⟨_, describes, ?_, isName, rfl⟩, clean⟩
  rw [isDump]
  rfl

theorem SkillDraft.Sound.described {draft : SkillDraft} (sound : draft.Sound) :
    1 ≤ draft.description.length ∧ draft.description.length ≤ 500 := by
  rcases sound.manifest with ⟨manifest, valid, _, _, isDescription⟩
  exact isDescription ▸ valid.description

end Soundness

theorem length_strip_le (text : String) : (strip text).length ≤ text.length := by
  have front := (List.dropWhile_suffix isSpace (l := text.toList)).length_le
  have back := (List.dropWhile_suffix isSpace
    (l := (text.toList.dropWhile isSpace).reverse)).length_le
  rw [strip, String.length_ofList, List.length_reverse, ← String.length_toList]
  rw [List.length_reverse] at back
  exact back.trans front

theorem one_le_length {text : String} (some_ : text ≠ "") : 1 ≤ text.length := by
  rw [← String.length_toList]
  apply List.length_pos_iff.mpr
  intro empty
  exact some_ (String.toList_inj.mp empty)

/-! ## What the service writes -/

namespace AssistantSkillService

section Writing

variable [PythonText] [PlanText] [PythonParser] [ManifestText]

omit [PlanText] [PythonParser] in
theorem approveSkill_eq_ok {userId skillId : Uuid} {now : Timestamp} {before after : SkillState}
    {row : AssistantSkill} (approves : approveSkill userId skillId now before = .ok (row, after)) :
    ∃ old, old.id = skillId ∧ old.userId = userId ∧
      RowReplaced before after old { old with status := .installed, updatedAt := now } := by
  simp only [approveSkill, bind_eq_ok, orRaise_eq_ok] at approves
  rcases approves with ⟨_, _, _, _, approves⟩
  rcases assign_eq_some (by intro row; rfl) approves with ⟨old, isId, isOwner, rfl, replaced⟩
  exact ⟨old, isId, isOwner, replaced⟩

omit [PlanText] in
theorem approveSkill_sound {now : Timestamp} {state : SkillState} {row : AssistantSkill}
    (member : row ∈ state.skills) (sound : row.draft.Sound) :
    ∃ after, approveSkill row.userId row.id now state =
      .ok ({ row with status := .installed, updatedAt := now }, after) := by
  have found : AssistantSkillRepository.getById row.userId row.id state = some row :=
    getById_eq_some.mpr ⟨member, rfl, rfl⟩
  rcases sound.manifest with ⟨manifest, valid, isDump, _⟩
  have accepts : validateManifest (.object row.manifest) = .ok manifest :=
    (congrArg (fun fields => validateManifest (.object fields)) isDump).trans
      (validateManifest_dump valid)
  simp only [approveSkill, found, orRaise, ok_bind, accepts, approve, assign, Option.map_some]
  exact ⟨_, rfl⟩

omit [PythonText] [PlanText] in
/-- What a request to update a skill makes of its row. -/
structure Edits (description code : Option String) (chatEnabled : Option Bool)
    (old new : AssistantSkill) : Prop where
  owner : new.userId = old.userId
  name : new.name = old.name
  status : new.status = old.status
  chat : new.chatEnabled = chatEnabled.getD old.chatEnabled
  code : new.code = code.getD old.code
  sound : (∀ text ∈ description, 1 ≤ text.length ∧ text.length ≤ 500) → old.draft.Sound →
    new.draft.Sound

omit [PythonText] [PlanText] in
theorem editSkill_eq_ok {userId : Uuid} {existing row : AssistantSkill}
    {description code : Option String} {now : Timestamp} {before after : SkillState}
    (edits : editSkill userId existing description code now before = .ok (row, after)) :
    ∃ old, old.id = existing.id ∧ RowReplaced before after old row ∧
      (old.draft = existing.draft → Edits description code none old row) := by
  simp only [editSkill, update, bind_eq_ok, require_eq_ok, orRaise_eq_ok, pure_eq_ok,
    exists_const] at edits
  rcases edits with ⟨described, problems, isScan, clean, _, ⟨_, rfl⟩, edits⟩
  rw [clean] at isScan
  rcases assign_eq_some (by intro row; rfl) edits with ⟨old, isId, isOwner, rfl, replaced⟩
  refine ⟨old, isId, replaced, ?_⟩
  intro same
  have sameName : old.name = existing.name := congrArg SkillDraft.name same
  have sameCode : old.code = existing.code := congrArg SkillDraft.code same
  refine ⟨rfl, rfl, rfl, rfl, congrArg code.getD sameCode.symm, ?_⟩
  intro within sound
  rw [same] at sound
  have size : 1 ≤ ((description.map strip).getD existing.description).length ∧
      ((description.map strip).getD existing.description).length ≤ 500 := by
    refine ⟨one_le_length described, ?_⟩
    cases description with
    | none => exact sound.described.2
    | some text => exact (length_strip_le text).trans (within text rfl).2
  have scanned : existing.name ≠ inspectDetailsSkillName →
      validateSkillCode (code.getD existing.code) = .ok [] := by
    intro generated
    cases code with
    | none => exact sound.code generated
    | some text =>
        rw [editProblems, if_pos ⟨rfl, generated⟩] at isScan
        cases scan : validateSkillCode text with
        | error error =>
            rw [Option.getD_some, scan] at isScan
            cases isScan
        | ok problems =>
            rw [Option.getD_some, scan] at isScan
            cases isScan
            exact scan
  show SkillDraft.Sound ⟨old.name, _, _, _⟩
  rw [sameName]
  exact sound.describe size scanned

omit [PythonText] [PlanText] in
theorem updateSkill_eq_ok {userId skillId : Uuid} {description code : Option String}
    {chatEnabled : Option Bool} {now : Timestamp} {before after : SkillState}
    {row : AssistantSkill}
    (updates : updateSkill userId skillId description code chatEnabled now before =
      .ok (row, after)) :
    ∃ old, old.id = skillId ∧ old.userId = userId ∧ RowReplaced before after old row ∧
      Edits description code chatEnabled old row := by
  simp only [updateSkill, bind_eq_ok, orRaise_eq_ok] at updates
  rcases updates with ⟨existing, found, updates⟩
  rcases getById_eq_some.mp found with ⟨member, isId, isOwner⟩
  cases chatEnabled with
  | none =>
      rcases editSkill_eq_ok updates with ⟨old, sameId, replaced, edits⟩
      have same : old = existing := Table.eq_of_key_eq replaced.member member sameId
      rw [same] at replaced edits
      exact ⟨existing, isId, isOwner, replaced, edits rfl⟩
  | some enabled =>
      simp only [bind_eq_ok, orRaise_eq_ok] at updates
      rcases updates with ⟨toggled, toggles, updates⟩
      rcases assign_eq_some (by intro row; rfl) toggles with ⟨old, oldId, _, isToggled, replaced⟩
      have same : old = existing :=
        Table.eq_of_key_eq replaced.member member (oldId.trans isId.symm)
      rw [same] at replaced isToggled
      split at updates
      · rename_i unset
        simp only [pure_eq_ok] at updates
        subst updates
        dsimp only at isToggled replaced
        refine ⟨existing, isId, isOwner, replaced, ?_⟩
        rw [isToggled, unset.1, unset.2]
        exact ⟨rfl, rfl, rfl, rfl, rfl, fun _ sound => sound⟩
      · rcases editSkill_eq_ok updates with ⟨middle, middleId, edited, edits⟩
        have isMiddle : middle = toggled.1 :=
          Table.eq_of_key_eq edited.member ((replaced.rows _).mpr (.inl rfl))
            (middleId.trans replaced.sameId.symm)
        rw [isMiddle] at edited edits
        have both := edits (by rw [isToggled]; rfl)
        refine ⟨existing, isId, isOwner, replaced.trans edited, ?_⟩
        rw [isToggled] at both
        exact ⟨both.owner, both.name, both.status, both.chat, both.code, both.sound⟩

omit [PlanText] in
theorem proposeInspectDetails_eq_ok {userId : Uuid} {now : Timestamp}
    {before after : SkillState} {result : AssistantAuthoringResult}
    (proposes : proposeInspectDetails userId now before = .ok (result, after)) :
    after = before ∨ ∃ draft : SkillDraft, draft.Sound ∧
      Drafted userId now draft before after := by
  simp only [proposeInspectDetails, bind_eq_ok] at proposes
  rcases proposes with ⟨found, _, proposes⟩
  split at proposes
  · cases proposes
    exact .inl rfl
  · rw [inspectDetailsManifest_eq, validateManifest_dump inspectDetails_valid] at proposes
    simp only [bind_eq_ok, pure_eq_ok] at proposes
    rcases proposes with ⟨manifest, isManifest, written, drafts, proposes⟩
    cases isManifest
    cases proposes
    exact .inr ⟨_, sound_of_inspect, createOrReplacePending_eq_ok drafts⟩

omit [PythonText] [PlanText] in
theorem proposeGenerated_eq_ok {userId : Uuid} {now : Timestamp} {drafted : CodegenResult}
    {before after : SkillState} {result : AssistantAuthoringResult}
    (authored : (∃ manifest, CodegenSubAgent.Drafts drafted manifest) ∨ drafted.manifest = none)
    (proposes : proposeGenerated userId now drafted before = .ok (result, after)) :
    after = before ∨ ∃ draft : SkillDraft, draft.Sound ∧
      Drafted userId now draft before after := by
  rw [proposeGenerated] at proposes
  split at proposes
  · cases proposes
    exact .inl rfl
  · rename_i manifest isManifest
    simp only [bind_eq_ok, pure_eq_ok] at proposes
    rcases proposes with ⟨written, drafts, proposes⟩
    cases proposes
    have isResult : drafted.manifest = some manifest := by
      split at isManifest
      · exact isManifest
      · cases isManifest
    rcases authored with ⟨other, drafts'⟩ | missing
    · have same := isResult.symm.trans drafts'.isManifest
      cases same
      exact .inr ⟨_, sound_of_result drafts', createOrReplacePending_eq_ok drafts⟩
    · rw [missing] at isResult
      cases isResult

omit [PythonText] [PlanText] [PythonParser] [ManifestText] in
theorem deleteSkill_eq_ok {userId skillId : Uuid} {before after : SkillState}
    (deletes : deleteSkill userId skillId before = .ok after) :
    ∃ old ∈ before.skills, old.id = skillId ∧ old.userId = userId ∧
      after.uuid4 = before.uuid4 ∧
      ∀ row, row ∈ after.skills ↔ row ∈ before.skills ∧ row.id ≠ old.id := by
  rcases Option.map_eq_some_iff.mp (orRaise_eq_ok.mp deletes) with ⟨old, found, written⟩
  rcases getById_eq_some.mp found with ⟨member, isId, isOwner⟩
  cases written
  refine ⟨old, member, isId, isOwner, rfl, ?_⟩
  intro row
  rw [Table.mem_filter, decide_eq_true_eq]

end Writing

end AssistantSkillService

/-! ## What a step changes -/

section Steps

variable [Platform] [PythonText] [PlanText] [PythonParser] [ManifestText]

omit [Platform] [PythonText] [PlanText] in
/-- All that a request can do to the rows. -/
inductive SkillCall.Changes (call : SkillCall) (before after : SkillState) : Prop
  | nothing : after = before → Changes call before after
  | drafted (text : String) (draft : SkillDraft) : call.request = .message text → draft.Sound →
      Drafted call.userId call.now draft before after → Changes call before after
  | approved (old : AssistantSkill) : call.request = .approve old.id →
      old.userId = call.userId →
      RowReplaced before after old { old with status := .installed, updatedAt := call.now } →
      Changes call before after
  | edited (old new : AssistantSkill) (description code : Option String)
      (chatEnabled : Option Bool) :
      call.request = .update old.id description code chatEnabled → old.userId = call.userId →
      RowReplaced before after old new → Edits description code chatEnabled old new →
      Changes call before after
  | deleted (old : AssistantSkill) : old ∈ before.skills → call.request = .delete old.id →
      old.userId = call.userId → after.uuid4 = before.uuid4 →
      (∀ row, row ∈ after.skills ↔ row ∈ before.skills ∧ row.id ≠ old.id) →
      Changes call before after

omit [Platform] [PythonText] [PlanText] [PythonParser] [ManifestText] in
theorem SkillReaction.quiet_committed {α : Type} {reply : α → SkillReply}
    {outcome : Except ServiceError (α × SkillState)} {before after : SkillState}
    (commits : after = (SkillReaction.quiet reply outcome).committed before) :
    after = before ∨ ∃ value, outcome = .ok (value, after) := by
  cases outcome with
  | error error => exact .inl commits
  | ok written =>
      have isAfter : after = written.2 := commits
      rw [isAfter]
      exact .inr ⟨written.1, rfl⟩

omit [Platform] in
theorem SkillCall.generate_changes {call : SkillCall} {agent : CodegenSubAgent}
    {message text : String} {before after : SkillState} (isMessage : call.request = .message text)
    (commits : after = (call.generate agent message before).committed before) :
    call.Changes before after := by
  rw [SkillCall.generate] at commits
  dsimp only at commits
  cases outcome : (agent.author call.host.sandbox message).outcome with
  | error error =>
      rw [outcome] at commits
      cases error with
      | chat _ => exact .nothing commits
      | uncaught _ => exact .nothing commits
  | ok result =>
      rw [outcome] at commits
      have sameOutcome : after = (SkillReaction.quiet .authored
          (proposeGenerated call.userId call.now result before)).committed before := commits
      rcases SkillReaction.quiet_committed sameOutcome with same | ⟨value, proposes⟩
      · exact .nothing same
      · have drafts := CodegenSubAgent.author_drafts outcome
        rcases proposeGenerated_eq_ok drafts proposes with same | ⟨draft, sound, drafted⟩
        · exact .nothing same
        · exact .drafted text draft isMessage sound drafted

theorem SkillCall.message_changes {call : SkillCall} {text : String} {before after : SkillState}
    (isMessage : call.request = .message text)
    (commits : after = (call.handleAuthoringMessage text before).committed before) :
    call.Changes before after := by
  rw [SkillCall.handleAuthoringMessage] at commits
  split at commits
  · rcases SkillReaction.quiet_committed commits with same | ⟨value, proposes⟩
    · exact .nothing same
    · rcases proposeInspectDetails_eq_ok proposes with same | ⟨draft, sound, drafted⟩
      · exact .nothing same
      · exact .drafted text draft isMessage sound drafted
  · cases hasAgent : call.host.codegen with
    | none =>
        rw [hasAgent] at commits
        exact .nothing commits
    | some agent =>
        rw [hasAgent] at commits
        dsimp only at commits
        split at commits
        · exact SkillCall.generate_changes isMessage commits
        · exact .nothing commits

theorem SkillStep.changes {call : SkillCall} {before after : SkillState}
    (taken : SkillStep call before after) : call.Changes before after := by
  have commits := taken.2
  rw [SkillCall.react] at commits
  cases isRequest : call.request with
  | message text =>
      rw [isRequest] at commits
      exact SkillCall.message_changes isRequest commits
  | approve skillId =>
      rw [isRequest] at commits
      rcases SkillReaction.quiet_committed commits with same | ⟨row, approves⟩
      · exact .nothing same
      · rcases approveSkill_eq_ok approves with ⟨old, rfl, isOwner, replaced⟩
        exact .approved old isRequest isOwner replaced
  | update skillId description code chatEnabled =>
      rw [isRequest] at commits
      rcases SkillReaction.quiet_committed commits with same | ⟨row, updates⟩
      · exact .nothing same
      · rcases updateSkill_eq_ok updates with ⟨old, rfl, isOwner, replaced, edits⟩
        exact .edited old row description code chatEnabled isRequest isOwner replaced edits
  | delete skillId =>
      rw [isRequest] at commits
      rcases SkillReaction.quiet_committed commits with same | ⟨done, deletes⟩
      · exact .nothing same
      · cases outcome : deleteSkill call.userId skillId before with
        | error error =>
            rw [outcome] at deletes
            cases deletes
        | ok rest =>
            rw [outcome] at deletes
            cases deletes
            rcases deleteSkill_eq_ok outcome with ⟨old, member, rfl, isOwner, drawn, rows⟩
            exact .deleted old member isRequest isOwner drawn rows
  | execute skillId itemId =>
      rw [isRequest] at commits
      apply SkillCall.Changes.nothing
      dsimp only at commits
      cases outcome : (executeSkill call.host call.userId skillId itemId before).2 with
      | error error =>
          rw [outcome] at commits
          exact commits
      | ok response =>
          rw [outcome] at commits
          exact commits

/-! ## Sound rows -/

/-- Every row is sound, its id was drawn, and a user has one skill of a name. -/
structure SkillState.Sound (state : SkillState) : Prop where
  rows : ∀ row ∈ state.skills, row.draft.Sound
  drawn : ∀ row ∈ state.skills, row.id < state.uuid4
  named : ∀ row ∈ state.skills, ∀ other ∈ state.skills, row.userId = other.userId →
    row.name = other.name → row = other

omit [Platform] [PythonText] [PlanText] in
theorem SkillState.Sound.replaced {before after : SkillState} {old new : AssistantSkill}
    (sound : before.Sound) (replaced : RowReplaced before after old new)
    (sameOwner : new.userId = old.userId) (sameName : new.name = old.name)
    (draft : new.draft.Sound) : after.Sound := by
  constructor
  case rows =>
    intro row member
    rcases (replaced.rows row).mp member with rfl | ⟨kept, _⟩
    · exact draft
    · exact sound.rows row kept
  case drawn =>
    intro row member
    rw [replaced.drawn]
    rcases (replaced.rows row).mp member with rfl | ⟨kept, _⟩
    · exact replaced.sameId ▸ sound.drawn old replaced.member
    · exact sound.drawn row kept
  case named =>
    have alone : ∀ other ∈ before.skills, other.id ≠ old.id → new.userId = other.userId →
        new.name ≠ other.name := by
      intro other kept different owner name
      have same := sound.named old replaced.member other kept (sameOwner.symm.trans owner)
        (sameName.symm.trans name)
      exact different (congrArg AssistantSkill.id same.symm)
    intro row member other otherMember owner name
    rcases (replaced.rows row).mp member with rfl | ⟨kept, different⟩
    · rcases (replaced.rows other).mp otherMember with rfl | ⟨otherKept, otherDifferent⟩
      · rfl
      · exact absurd name (alone other otherKept otherDifferent owner)
    · rcases (replaced.rows other).mp otherMember with rfl | ⟨otherKept, _⟩
      · exact absurd name.symm (alone row kept different owner.symm)
      · exact sound.named row kept other otherKept owner name

omit [Platform] [PythonText] [PlanText] in
theorem SkillState.Sound.drafted {userId : Uuid} {now : Timestamp} {draft : SkillDraft}
    {before after : SkillState} (sound : before.Sound) (isSound : draft.Sound)
    (drafted : Drafted userId now draft before after) : after.Sound := by
  cases drafted with
  | replaced old isOwner isName replaced =>
      apply sound.replaced replaced
      · rfl
      · rfl
      · have written : (redrafted now draft old).draft = draft :=
          congrArg (fun name => SkillDraft.mk name draft.description draft.manifest draft.code)
            isName
        rw [written]
        exact isSound
  | added unused added =>
      constructor
      case rows =>
        intro row member
        rcases (added.rows row).mp member with kept | rfl
        · exact sound.rows row kept
        · exact isSound
      case drawn =>
        intro row member
        rw [added.drawn]
        rcases (added.rows row).mp member with kept | rfl
        · exact Nat.lt_succ_of_lt (sound.drawn row kept)
        · exact Nat.lt_succ_self _
      case named =>
        intro row member other otherMember owner name
        rcases (added.rows row).mp member with kept | rfl
        · rcases (added.rows other).mp otherMember with otherKept | rfl
          · exact sound.named row kept other otherKept owner name
          · exact absurd name (unused row kept owner)
        · rcases (added.rows other).mp otherMember with otherKept | rfl
          · exact absurd name.symm (unused other otherKept owner.symm)
          · rfl

theorem SkillStep.sound {call : SkillCall} {before after : SkillState} (sound : before.Sound)
    (taken : SkillStep call before after) : after.Sound := by
  cases taken.changes with
  | nothing same => exact same ▸ sound
  | drafted text draft _ isSound drafted => exact sound.drafted isSound drafted
  | approved old _ _ replaced =>
      exact sound.replaced replaced rfl rfl (sound.rows old replaced.member)
  | edited old new description code chatEnabled isRequest _ replaced edits =>
      have offered := taken.1
      rw [isRequest] at offered
      exact sound.replaced replaced edits.owner edits.name
        (edits.sound offered.1 (sound.rows old replaced.member))
  | deleted old _ _ _ drawn rows =>
      constructor
      case rows => exact fun row member => sound.rows row ((rows row).mp member).1
      case drawn => exact fun row member => drawn ▸ sound.drawn row ((rows row).mp member).1
      case named =>
        intro row member other otherMember
        exact sound.named row ((rows row).mp member).1 other ((rows other).mp otherMember).1

theorem SkillHistory.sound {firstId : Uuid} {events : List (Event SkillState SkillCall)}
    {state : SkillState} (history : SkillHistory firstId events state) : state.Sound := by
  apply Run.keeps _ (fun event _ sound taken => SkillStep.sound sound taken) history
  constructor
  case rows => exact fun row member => absurd member (Table.not_mem_empty row)
  case drawn => exact fun row member => absurd member (Table.not_mem_empty row)
  case named => exact fun row member => absurd member (Table.not_mem_empty row)

/-! ## Requests that the rows never refuse -/

omit [Platform] [PythonText] [PlanText] in
theorem SkillState.Sound.getByName {state : SkillState} (sound : state.Sound) (userId : Uuid)
    (name : String) :
    ∃ found, AssistantSkillRepository.getByName userId name state = .ok found := by
  rw [AssistantSkillRepository.getByName]
  split
  · exact ⟨none, rfl⟩
  · exact ⟨_, rfl⟩
  · rename_i first second rest several
    have selected : ∀ row ∈ first :: second :: rest,
        row ∈ state.skills ∧ row.userId = userId ∧ row.name = name := by
      intro row member
      rw [← several] at member
      rcases List.mem_filter.mp member with ⟨among, isRow⟩
      exact ⟨among, of_decide_eq_true isRow⟩
    rcases selected first List.mem_cons_self with ⟨firstAmong, firstOwner, firstName⟩
    rcases selected second (List.mem_cons_of_mem _ List.mem_cons_self) with
      ⟨secondAmong, secondOwner, secondName⟩
    have same := sound.named first firstAmong second secondAmong
      (firstOwner.trans secondOwner.symm) (firstName.trans secondName.symm)
    have distinct : (first :: second :: rest).Nodup :=
      several ▸ (List.Nodup.of_map _ state.skills.nodup).filter _
    exact absurd (same ▸ List.mem_cons_self) (List.nodup_cons.mp distinct).1

omit [Platform] [PythonText] [PlanText] in
/-- A draft is refused only for a U+0000. -/
theorem SkillState.Sound.drafts {state : SkillState} (sound : state.Sound) (userId : Uuid)
    (now : Timestamp) (draft : SkillDraft) :
    createOrReplacePending userId now draft state = .error .dataError ∧
        draft.isStorable = false ∨
      ∃ written, createOrReplacePending userId now draft state = .ok written := by
  rcases sound.getByName userId draft.name with ⟨found, isFound⟩
  rw [createOrReplacePending, isFound, ok_bind]
  cases storable : draft.isStorable with
  | false =>
      rw [require_false Bool.false_ne_true]
      exact .inl ⟨rfl, rfl⟩
  | true =>
      rw [require_true rfl, ok_bind]
      refine .inr ?_
      cases found with
      | none =>
          have fresh : state.skills.Fresh (newSkill userId now draft state.uuid4).id :=
            fun row member => Nat.ne_of_lt (sound.drawn row member)
          rcases Table.insert?_of_fresh fresh with ⟨after, inserted, _⟩
          dsimp only
          rw [inserted]
          exact ⟨_, rfl⟩
      | some row => exact ⟨_, rfl⟩

omit [Platform] [PlanText] in
theorem SkillState.Sound.proposesInspectDetails {state : SkillState} (sound : state.Sound)
    (userId : Uuid) (now : Timestamp) :
    ∃ written, proposeInspectDetails userId now state = .ok written := by
  rcases sound.getByName userId inspectDetailsSkillName with ⟨found, isFound⟩
  rw [proposeInspectDetails, isFound, ok_bind]
  split
  · exact ⟨_, rfl⟩
  · rw [inspectDetailsManifest_eq, validateManifest_dump inspectDetails_valid, ok_bind]
    rcases sound.drafts userId now ⟨inspectDetailsSkillName, inspectDetailsDescription,
      inspectDetails.dump, inspectDetailsCode⟩ with ⟨_, refused⟩ | ⟨written, drafts⟩
    · cases refused.symm.trans (by decide +kernel : SkillDraft.isStorable _ = true)
    · rw [drafts]
      exact ⟨_, rfl⟩

/-- The generated draft has a U+0000. -/
def CodegenResult.HasNul (result : CodegenResult) : Prop :=
  ∃ manifest, result.manifest = some manifest ∧ SkillDraft.isStorable
    ⟨result.name, result.description, manifest.dump, result.code⟩ = false

omit [Platform] [PythonText] [PlanText] in
theorem SkillState.Sound.proposesGenerated {state : SkillState} (sound : state.Sound)
    (userId : Uuid) (now : Timestamp) (result : CodegenResult) :
    proposeGenerated userId now result state = .error .dataError ∧ result.HasNul ∨
      ∃ written, proposeGenerated userId now result state = .ok written := by
  rw [proposeGenerated]
  split
  · exact .inr ⟨_, rfl⟩
  · rename_i manifest isManifest
    rcases sound.drafts userId now ⟨result.name, result.description, manifest.dump, result.code⟩
      with ⟨fails, refused⟩ | ⟨written, drafts⟩
    · rw [fails]
      refine .inl ⟨rfl, manifest, ?_, refused⟩
      split at isManifest
      · exact isManifest
      · cases isManifest
    · rw [drafts]
      exact .inr ⟨_, rfl⟩

omit [Platform] [PythonText] [PlanText] [PythonParser] [ManifestText] in
theorem SkillReaction.quiet_error {α : Type} {reply : α → SkillReply}
    {outcome : Except ServiceError (α × SkillState)} (works : ∃ written, outcome = .ok written)
    {failure : SkillFailure} : (SkillReaction.quiet reply outcome).outcome ≠ .error failure := by
  rcases works with ⟨written, rfl⟩
  intro fails
  cases fails

/-- What spoils a request for a skill: the model fails, or reading one of its replies raises an
error that nothing catches, or what it wrote has a U+0000. -/
inductive Spoiled (agent : CodegenSubAgent) (sandbox : Option (SandboxRun → SandboxResult))
    (request : String) : SkillFailure → Prop
  | chat {error : ChatError} :
      (agent.author sandbox request).outcome = .error (.chat error) →
      Spoiled agent sandbox request (.chat error)
  | uncaught {call : Nat} {sent : List LLMMessage} {reply : LLMReply} {text : String} :
      agent.chat call sent = .ok reply → LetThrough reply.content text →
      Spoiled agent sandbox request (.service (.uncaught text))
  | refused {result : CodegenResult} : (agent.author sandbox request).outcome = .ok result →
      result.HasNul → Spoiled agent sandbox request (.service .dataError)

theorem SkillState.Sound.generate_fails {state : SkillState} (sound : state.Sound)
    {call : SkillCall} {agent : CodegenSubAgent} {text : String} {failure : SkillFailure}
    (fails : (call.generate agent text state).outcome = .error failure) :
    Spoiled agent call.host.sandbox text failure := by
  rw [SkillCall.generate] at fails
  dsimp only at fails
  cases outcome : (agent.author call.host.sandbox text).outcome with
  | error error =>
      rw [outcome] at fails
      cases error with
      | chat error =>
          cases fails
          exact .chat outcome
      | uncaught raised =>
          cases fails
          rcases CodegenSubAgent.author_uncaught outcome with ⟨_, _, _, answers, through⟩
          exact .uncaught answers through
  | ok result =>
      rw [outcome] at fails
      rcases sound.proposesGenerated call.userId call.now result with ⟨refused, hasNul⟩ | works
      · dsimp only at fails
        rw [refused] at fails
        cases fails
        exact .refused outcome hasNul
      · exact absurd fails (SkillReaction.quiet_error works)

/-- A message fails only if writing the skill that it asks for is spoiled. -/
theorem SkillState.Sound.message_fails {state : SkillState} (sound : state.Sound)
    {call : SkillCall} {text : String} {failure : SkillFailure}
    (fails : (call.handleAuthoringMessage text state).outcome = .error failure) :
    ∃ agent, call.host.codegen = some agent ∧ Spoiled agent call.host.sandbox text failure := by
  rw [SkillCall.handleAuthoringMessage] at fails
  split at fails
  · exact absurd fails
      (SkillReaction.quiet_error (sound.proposesInspectDetails call.userId call.now))
  · cases hasAgent : call.host.codegen with
    | none =>
        rw [hasAgent] at fails
        cases fails
    | some agent =>
        rw [hasAgent] at fails
        dsimp only at fails
        split at fails
        · exact ⟨agent, rfl, sound.generate_fails fails⟩
        · cases fails

end Steps

end CloudDrive
