import CloudDrive.Assistant.ChatResponses
import CloudDrive.Assistant.ModelRouter

/-! # The planner

`WorkflowPlanner.plan` of `app/assistant/planner.py`: what is read out of a model's text,
and the rounds in which an invalid plan is sent back. -/

namespace CloudDrive

open Outcome Patterns

/-! ## Reading a response -/

def stripChar (char : Char) (text : List Char) : List Char :=
  ((text.dropWhile (· == char)).reverse.dropWhile (· == char)).reverse

def findText (part : String) (text : List Char) : Option Nat :=
  text.tails.findIdx? fun rest => part.toList.isPrefixOf rest

def lastIndex (char : Char) (text : List Char) : Option Nat :=
  (text.reverse.findIdx? (· == char)).map fun behind => text.length - 1 - behind

def extractJson (content : String) : String :=
  let text := (strip content).toList
  let text :=
    if "```".toList.isPrefixOf text then
      let text := stripChar (Char.ofNat 96) text
      let text := if (text.take 4).map Char.toLower = "json".toList then text.drop 4 else text
      (strip (String.ofList text)).toList
    else
      text
  match text.findIdx? (· == '{'), lastIndex '}' text with
  | some start, some stop =>
      String.ofList (if start < stop then (text.take (stop + 1)).drop start else text)
  | _, _ => String.ofList text

def decodingArtifacts : List String :=
  ["<tool_call", "<|", "<end_of_turn>", "<start_of_turn>"]

/-- A match of `_JSON_CLOSURE_DEBRIS` starts here. -/
def closesJson : List Char → Bool
  | char :: rest =>
      (char == '\'' || char == '"') &&
        match rest.dropWhile isSpace with
        | bracket :: _ => bracket == '}' || bracket == ']'
        | [] => false
  | [] => false

def artifactTail : List Char :=
  ['\'', '"', Char.ofNat 96, '}', ']', '{', '[', ' ', '\t', '\r', '\n']

def stripDecodingArtifacts (value : String) : String :=
  let text := value.toList
  let cuts := decodingArtifacts.filterMap (findText · text) ++
    (text.tails.findIdx? closesJson).toList
  match cuts.min? with
  | none => value
  | some cut => String.ofList ((text.take cut).reverse.dropWhile (· ∈ artifactTail)).reverse

mutual

def cleanArtifacts : Value → Value
  | .string text => .string (stripDecodingArtifacts text)
  | .list elements => .list (cleanElements elements)
  | .object fields => .object (cleanFields fields)
  | .null => .null
  | .bool value => .bool value
  | .int value => .int value
  | .float text whole => .float text whole

def cleanElements : List Value → List Value
  | [] => []
  | element :: rest => cleanArtifacts element :: cleanElements rest

def cleanFields : List (String × Value) → List (String × Value)
  | [] => []
  | (key, value) :: rest => (key, cleanArtifacts value) :: cleanFields rest

end

/-- What `json.loads` raises: `JSONDecodeError`, or an error that is none, such as the
`ValueError` for an integer of more than 4300 digits and the `RecursionError` for a text
that is nested too deeply. -/
inductive JsonError where
  | decode
  | uncaught (text : String)

/-- `json.loads`; the `RecursionError` of `_clean_artifacts` on a value that is nested too
deeply for the stack; and `PlanResult.model_validate`, without a result where it raises
`ValidationError`. -/
class PlanText where
  loads : String → Except JsonError Value
  overflows : Value → Option String
  validate : Value → Option PlanResult

def stripByteTokens (value : String) : String :=
  String.ofList (sub (fun _ => false) byteToken [] value.toList)

def readable (result : PlanResult) : PlanResult :=
  if hasByteTokens (.string result.reply) then
    { result with reply := stripByteTokens result.reply }
  else
    result

/-- `_parse`. The error is the text of one that its `except` clause does not name. -/
def parsePlan [PlanText] (content : String) : Except String (Option PlanResult) :=
  match PlanText.loads (extractJson content) with
  | .error .decode => .ok none
  | .error (.uncaught text) => .error text
  | .ok data =>
      match PlanText.overflows data with
      | some text => .error text
      | none => .ok ((PlanText.validate (cleanArtifacts data)).map readable)

/-- Reading the response raises an error that `_parse` does not catch. -/
inductive Unreadable [PlanText] (content : String) : Prop
  | json {text : String} : PlanText.loads (extractJson content) = .error (.uncaught text) →
      Unreadable content
  | nesting {data : Value} {text : String} : PlanText.loads (extractJson content) = .ok data →
      PlanText.overflows data = some text → Unreadable content

theorem parsePlan_succeeds_iff [PlanText] {content : String} :
    Succeeds (parsePlan content) ↔ ¬ Unreadable content := by
  rw [parsePlan]
  constructor
  · intro reads unreadable
    cases unreadable with
    | json raises =>
        rw [raises] at reads
        exact not_succeeds_error _ reads
    | nesting loads raises =>
        rw [loads] at reads
        dsimp only at reads
        rw [raises] at reads
        exact not_succeeds_error _ reads
  · intro readable
    cases loads : PlanText.loads (extractJson content) with
    | error error =>
        cases error with
        | decode => exact succeeds_ok none
        | uncaught text => exact absurd (.json loads) readable
    | ok data =>
        dsimp only
        cases overflows : PlanText.overflows data with
        | some text => exact absurd (.nesting loads overflows) readable
        | none => exact succeeds_ok _

/-! ## Planning -/

/-- The loop of `trim`, over the messages that are not of the system, newest first. -/
def trimNewest (limit : Nat) : Bool → Nat → List LLMMessage → List LLMMessage
  | _, _, [] => []
  | selected, used, message :: rest =>
      if selected = true ∧ limit < used + message.content.length then
        []
      else
        message :: trimNewest limit true (used + message.content.length) rest

def ContextManager.maxChars (numCtx : Int) : Nat :=
  (max 1024 (numCtx * 4)).toNat

def trimMessages (numCtx : Int) (messages : List LLMMessage) : List LLMMessage :=
  let system := messages.filter fun message => decide (message.role = .system)
  let others := messages.filter fun message => decide (message.role ≠ .system)
  let used := (system.map fun message => message.content.length).sum
  system ++ (trimNewest (ContextManager.maxChars numCtx) false used others.reverse).reverse

def repairMessage (problems : List String) : String :=
  let unsatisfiable := problems.any fun problem =>
    (findText "unknown skill" problem.toList).isSome
  let tail :=
    if unsatisfiable then
      " If a skill you need does not exist, return an empty steps list and explain " ++
        "briefly in reply."
    else
      " Apply exactly these corrections and keep the rest of the plan as it is. " ++
        "Do not ask the user to select files, and do not give up on a fixable step."
  "Your previous plan was invalid: " ++ "; ".intercalate problems ++ "." ++ tail

/-- What `plan` raises: an error of the model, one of `_parse`, or one of `validate_plan`. -/
inductive PlanningError where
  | chat (error : ChatError)
  | uncaught (text : String)
  | validation (error : AssistantError)

/-- The planner with its registry and the prompt that is built from it. `chat` is the text
that the model answers each time it is called with these messages. A call is one of
`ModelRouter.chat`: the attempts within it are not counted here, and where its validator,
which is `_parse` as well, raises on an answer, that answer is the text. -/
structure WorkflowPlanner (ω : Type) where
  catalog : SkillCatalog ω
  prompt : String
  numCtx : Int
  maxRepair : Int
  chat : Nat → List LLMMessage → Except ChatError String

/-- The messages of each call of the model, in order, and what came of them. -/
structure Planning where
  calls : List (List LLMMessage)
  outcome : Except PlanningError PlanResult

def couldNotPlan : String := "I could not plan that request."

def orText (text default : String) : String :=
  if text = "" then default else text

namespace WorkflowPlanner

variable [PythonText] [UnicodeDigits] [PlanText] {ω : Type}

def repairs (planner : WorkflowPlanner ω) : Nat :=
  (max 0 planner.maxRepair).toNat

/-- The rounds of `plan` that remain. -/
def rounds (planner : WorkflowPlanner ω) (preceding : List PlannedStep) :
    Nat → List LLMMessage → String → Planning
  | 0, _, lastReply =>
      { calls := []
        outcome := .ok
          ⟨if lastReply ≠ couldNotPlan then lastReply
            else "I couldn't turn that into a valid action with the tools I have. " ++
              "Could you rephrase or be more specific?", [], false⟩ }
  | remaining + 1, messages, lastReply =>
      let sent := trimMessages planner.numCtx messages
      match planner.chat (planner.repairs - remaining) sent with
      | .error error => ⟨[sent], .error (.chat error)⟩
      | .ok content =>
          match parsePlan content with
          | .error text => ⟨[sent], .error (.uncaught text)⟩
          | .ok none => ⟨[sent], .ok ⟨orText (strip content) lastReply, [], false⟩⟩
          | .ok (some result) =>
              let lastReply := orText result.reply lastReply
              match validatePlan result.steps planner.catalog preceding with
              | .error error => ⟨[sent], .error (.validation error)⟩
              | .ok [] => ⟨[sent], .ok result⟩
              | .ok problems =>
                  let later := planner.rounds preceding remaining (messages ++
                    [⟨.assistant, content⟩, ⟨.user, repairMessage problems⟩]) lastReply
                  ⟨sent :: later.calls, later.outcome⟩

omit [UnicodeDigits] [PlanText] in
/-- What the planner is told of the files that are selected. -/
def selectionMessage (selected : List Arguments) : String :=
  if selected.isEmpty then
    "The user has NO files selected right now, so selection references " ++
      "(\x7b\"from\": \"selection\", ...\x7d) are unavailable — a plan using one " ++
      "cannot run. Find the items you need with search or list_items and " ++
      "reference those steps' output instead."
  else
    let listing := "  ".intercalate (selected.mapIdx fun index item =>
      let name := (item.get? "name").getD (.string "?")
      s!"[{index}] {PythonText.str name}")
    s!"The user currently has {selected.length} file(s) selected: {listing}. " ++
      "Reference a specific one as \x7b\"from\": \"selection\", \"item\": i\x7d or all of " ++
      "them as \x7b\"from\": \"selection\", \"each\": true\x7d. Do NOT ask which file, and " ++
      "never write their UUIDs."

def opening (planner : WorkflowPlanner ω) (message : String) (selected : List Arguments)
    (history : List LLMMessage) : List LLMMessage :=
  [⟨.system, planner.prompt⟩, ⟨.system, selectionMessage selected⟩] ++ history ++
    [⟨.user, message⟩]

def plan (planner : WorkflowPlanner ω) (message : String) (selected : List Arguments)
    (history : List LLMMessage) (preceding : List PlannedStep) : Planning :=
  planner.rounds preceding (planner.repairs + 1) (planner.opening message selected history)
    couldNotPlan

/-! ## What is planned -/

theorem rounds_calls (planner : WorkflowPlanner ω) (preceding : List PlannedStep) :
    ∀ (remaining : Nat) (messages : List LLMMessage) (lastReply : String),
      (planner.rounds preceding remaining messages lastReply).calls.length ≤ remaining
  | 0, _, _ => Nat.le_refl 0
  | remaining + 1, messages, lastReply => by
      rw [rounds]
      dsimp only
      split
      · exact Nat.le_add_left 1 remaining
      · split
        · exact Nat.le_add_left 1 remaining
        · exact Nat.le_add_left 1 remaining
        · split
          · exact Nat.le_add_left 1 remaining
          · exact Nat.le_add_left 1 remaining
          · exact Nat.succ_le_succ (rounds_calls planner preceding remaining _ _)

theorem rounds_executable (planner : WorkflowPlanner ω) (preceding : List PlannedStep) :
    ∀ {remaining : Nat} {messages : List LLMMessage} {lastReply : String} {result : PlanResult},
      (planner.rounds preceding remaining messages lastReply).outcome = .ok result →
      result.steps = [] ∨ validatePlan result.steps planner.catalog preceding = .ok []
  | 0, _, _, result, returned => by
      cases returned
      exact .inl rfl
  | remaining + 1, messages, lastReply, result, returned => by
      rw [rounds] at returned
      dsimp only at returned
      split at returned
      · cases returned
      · split at returned
        · cases returned
        · cases returned
          exact .inl rfl
        · split at returned
          · cases returned
          · rename_i valid
            cases returned
            exact .inr valid
          · exact rounds_executable planner preceding returned

end WorkflowPlanner

section Whole

variable [PythonText] [UnicodeDigits] {ω : Type} {catalog : SkillCatalog ω}

/-- The required parameters of the skills that the steps use can be keys of a `dict`. -/
def Checkable (catalog : SkillCatalog ω) (steps : List PlannedStep) : Prop :=
  ∀ step ∈ steps, ∀ skill, catalog.registry.get? step.skill = some skill →
    ∀ parameter ∈ (catalog.declared skill.name).required, parameter.isHashable = true

omit [UnicodeDigits] in
theorem requiredProblems_succeeds_iff {index : Nat} {step : PlannedStep} {parameter : Value} :
    Succeeds (requiredProblems index step parameter) ↔ parameter.isHashable = true := by
  unfold requiredProblems
  by_cases hashable : parameter.isHashable = true
  · rw [if_pos hashable]
    exact iff_of_true (succeeds_ok _) hashable
  · rw [if_neg hashable]
    exact iff_of_false (not_succeeds_error _) hashable

theorem stepProblems_succeeds_iff {allSteps : List PlannedStep} {index : Nat}
    {step : PlannedStep} : Succeeds (stepProblems catalog allSteps index step) ↔
      ∀ skill, catalog.registry.get? step.skill = some skill →
        ∀ parameter ∈ (catalog.declared skill.name).required, parameter.isHashable = true := by
  rw [stepProblems]
  cases catalog.registry.get? step.skill with
  | none => exact iff_of_true (succeeds_ok _) fun skill known => by cases known
  | some skill =>
      have each : Succeeds ((catalog.declared skill.name).required.mapM
          (requiredProblems index step)) ↔
            ∀ parameter ∈ (catalog.declared skill.name).required,
              parameter.isHashable = true := by
        rw [succeeds_mapM_iff]
        exact forall₂_congr fun parameter _ => requiredProblems_succeeds_iff
      dsimp only
      constructor
      · rintro succeeds _ ⟨⟩
        exact each.mp (succeeds_bind_ok.mp succeeds)
      · exact fun hashable => succeeds_bind_ok.mpr (each.mpr (hashable skill rfl))

/-- `validate_plan` raises only where the name of a required parameter has no hash. -/
theorem validatePlan_succeeds_iff {steps preceding : List PlannedStep} :
    Succeeds (validatePlan steps catalog preceding) ↔ Checkable catalog steps := by
  have all : ∀ (allSteps : List PlannedStep) (steps : List PlannedStep) (index : Nat),
      Succeeds (problemsFrom catalog allSteps index steps) ↔ Checkable catalog steps := by
    intro allSteps steps
    induction steps with
    | nil => exact fun _ => iff_of_true (succeeds_ok _) fun step member => by cases member
    | cons step rest induction =>
        intro index
        rw [problemsFrom, Checkable, List.forall_mem_cons, ← stepProblems_succeeds_iff]
        exact succeeds_both.trans (and_congr_right fun _ => induction (index + 1))
  exact all _ _ _

/-- Every step reference of the plan leads strictly backwards, to a step with a registered
skill. -/
def RefersBackward (registry : SkillRegistry ω) (steps : List PlannedStep) : Prop :=
  ∀ (position : Nat) step, steps[position]? = some step → ∀ value ∈ step.arguments.values,
    ∀ source, value.refStep? = some source → 0 ≤ source ∧ source < position ∧
      ∃ target skill, steps[source.toNat]? = some target ∧ registry.get? target.skill = some skill

/-- Where `validate_plan` finds no problem in a whole plan, `classify_steps` finds none. -/
theorem validatePlan_whole {steps : List PlannedStep}
    (valid : validatePlan steps catalog [] = .ok []) :
    Succeeds (classifySteps steps catalog.registry) ∧ RefersBackward catalog.registry steps := by
  have validated : ∀ (position : Nat) step, steps[position]? = some step →
      Validated catalog.registry position step := by
    intro position step found
    have atPosition := validatePlan_nil valid position step found
    rwa [List.length_nil, Nat.zero_add] at atPosition
  constructor
  · apply classifySteps_succeeds
    intro position step found
    rw [Nat.zero_add]
    exact (validated position step found).toWellPlaced
  · intro position step found value member source refers
    have earlier := (validated position step found).references value member source refers
    have inside := (List.getElem?_eq_some_iff.mp found).1
    have isTarget := List.getElem?_eq_getElem (show source.toNat < steps.length by omega)
    rcases (validated _ _ isTarget).known with ⟨skill, known⟩
    exact ⟨earlier.1, earlier.2, _, skill, isTarget, known⟩

end Whole

/-! ## Responses that cannot be read -/

namespace WorkflowPlanner

variable [PythonText] [UnicodeDigits] [PlanText] {ω : Type}

/-- A response is read and its steps are checked, and none of it raises. -/
structure Handled (planner : WorkflowPlanner ω) (content : String) : Prop where
  readable : ¬ Unreadable content
  checkable : ∀ result, parsePlan content = .ok (some result) →
    Checkable planner.catalog result.steps

/-- The call numbered `call` comes with these messages: each response before it was a plan
with problems, which were sent back. -/
inductive Asked (planner : WorkflowPlanner ω) (preceding : List PlannedStep) :
    Nat → List LLMMessage → Nat → List LLMMessage → Prop
  | now {call : Nat} {messages : List LLMMessage} :
      Asked planner preceding call messages call messages
  | repaired {call later : Nat} {messages asked : List LLMMessage} {content : String}
      {result : PlanResult} {problems : List String} :
      planner.chat call (trimMessages planner.numCtx messages) = .ok content →
      parsePlan content = .ok (some result) →
      validatePlan result.steps planner.catalog preceding = .ok problems → problems ≠ [] →
      Asked planner preceding (call + 1) (messages ++
        [⟨.assistant, content⟩, ⟨.user, repairMessage problems⟩]) later asked →
      Asked planner preceding call messages later asked

/-- Whatever is asked within the repairs, the response does not make the planner raise. -/
def Settles (planner : WorkflowPlanner ω) (preceding : List PlannedStep) (first : Nat)
    (messages : List LLMMessage) : Prop :=
  ∀ call asked content, call ≤ planner.repairs →
    Asked planner preceding first messages call asked →
    planner.chat call (trimMessages planner.numCtx asked) = .ok content →
    planner.Handled content

omit [PlanText] in
theorem not_checkable_of_error {catalog : SkillCatalog ω} {steps preceding : List PlannedStep}
    {error : AssistantError}
    (validates : validatePlan steps catalog preceding = .error error) :
    ¬ Checkable catalog steps := by
  intro checkable
  have succeeds : Succeeds (validatePlan steps catalog preceding) :=
    validatePlan_succeeds_iff.mpr checkable
  rw [validates] at succeeds
  exact not_succeeds_error error succeeds

theorem Handled.of_validated {planner : WorkflowPlanner ω} {content : String}
    {result : PlanResult} {preceding : List PlannedStep} {problems : List String}
    (reads : parsePlan content = .ok (some result))
    (validates : validatePlan result.steps planner.catalog preceding = .ok problems) :
    planner.Handled content := by
  constructor
  case readable => exact parsePlan_succeeds_iff.mp ⟨_, reads⟩
  case checkable =>
    intro other isOther
    cases reads.symm.trans isOther
    exact validatePlan_succeeds_iff.mp ⟨problems, validates⟩

omit [PythonText] [UnicodeDigits] in
theorem Handled.parses {planner : WorkflowPlanner ω} {content : String}
    (handled : planner.Handled content) : Succeeds (parsePlan content) :=
  parsePlan_succeeds_iff.mpr handled.readable

section Conversation

variable {planner : WorkflowPlanner ω} {preceding : List PlannedStep} {first : Nat}
  {messages : List LLMMessage}

theorem Asked.first_le {call : Nat} {asked : List LLMMessage}
    (isAsked : Asked planner preceding first messages call asked) : first ≤ call := by
  induction isAsked with
  | now => exact Nat.le_refl _
  | repaired _ _ _ _ _ later => exact Nat.le_of_succ_le later

theorem settles_after (exhausted : planner.repairs < first) :
    planner.Settles preceding first messages := by
  intro call asked content within isAsked
  exact absurd (isAsked.first_le.trans within) (Nat.not_le_of_lt exhausted)

/-- One round: its response is handled, and so are those to the messages that it sends back. -/
theorem settles_iff {content : String} (within : first ≤ planner.repairs)
    (answered : planner.chat first (trimMessages planner.numCtx messages) = .ok content) :
    planner.Settles preceding first messages ↔ planner.Handled content ∧
      ∀ result problems, parsePlan content = .ok (some result) →
        validatePlan result.steps planner.catalog preceding = .ok problems → problems ≠ [] →
        planner.Settles preceding (first + 1) (messages ++
          [⟨.assistant, content⟩, ⟨.user, repairMessage problems⟩]) := by
  constructor
  · intro settles
    refine ⟨settles first messages content within .now answered, ?_⟩
    intro result problems reads validates some_ call asked other inRepairs isAsked
    exact settles call asked other inRepairs (.repaired answered reads validates some_ isAsked)
  · rintro ⟨handled, settles⟩ call asked other inRepairs isAsked isOther
    cases isAsked with
    | now =>
        cases answered.symm.trans isOther
        exact handled
    | repaired isContent reads validates some_ isAsked =>
        cases answered.symm.trans isContent
        exact settles _ _ reads validates some_ call asked other inRepairs isAsked isOther

end Conversation

/-- The planner returns exactly when no response that it reads makes it raise. -/
theorem rounds_returns_iff (planner : WorkflowPlanner ω) (preceding : List PlannedStep)
    (answers : ∀ call messages, ∃ text, planner.chat call messages = .ok text) :
    ∀ (remaining : Nat) (messages : List LLMMessage) (lastReply : String),
      remaining ≤ planner.repairs + 1 →
      (Succeeds (planner.rounds preceding remaining messages lastReply).outcome ↔
        planner.Settles preceding (planner.repairs + 1 - remaining) messages)
  | 0, _, _, _ => iff_of_true (succeeds_ok _) (settles_after (Nat.lt_succ_self _))
  | remaining + 1, messages, lastReply, within => by
      rcases answers (planner.repairs - remaining) (trimMessages planner.numCtx messages) with
        ⟨content, answered⟩
      have next : planner.repairs - remaining + 1 = planner.repairs + 1 - remaining := by omega
      rw [Nat.add_sub_add_right, settles_iff (Nat.sub_le _ _) answered, next, rounds]
      dsimp only
      rw [answered]
      dsimp only
      cases reads : parsePlan content with
      | error text =>
          have raises : ¬ planner.Handled content := by
            intro handled
            rcases handled.parses with ⟨_, parses⟩
            cases reads.symm.trans parses
          exact iff_of_false (not_succeeds_error _) fun both => raises both.1
      | ok parsed =>
          have readable : ¬ Unreadable content := parsePlan_succeeds_iff.mp ⟨parsed, reads⟩
          cases parsed with
          | none =>
              apply iff_of_true (succeeds_ok _)
              refine ⟨⟨readable, ?_⟩, ?_⟩
              · intro result isResult
                cases reads.symm.trans isResult
              · intro result problems isResult
                cases isResult
          | some result =>
              dsimp only
              cases validates : validatePlan result.steps planner.catalog preceding with
              | error error =>
                  exact iff_of_false (not_succeeds_error _) fun both =>
                    not_checkable_of_error validates (both.1.checkable result reads)
              | ok problems =>
                  have handled := Handled.of_validated reads validates
                  cases problems with
                  | nil =>
                      apply iff_of_true (succeeds_ok _)
                      refine ⟨handled, ?_⟩
                      rintro other problems ⟨⟩ isProblems some_
                      cases validates.symm.trans isProblems
                      exact absurd rfl some_
                  | cons problem rest =>
                      have later := rounds_returns_iff planner preceding answers remaining
                        (messages ++ [⟨.assistant, content⟩,
                          ⟨.user, repairMessage (problem :: rest)⟩])
                        (orText result.reply lastReply) (Nat.le_of_succ_le within)
                      apply later.trans
                      constructor
                      · intro settles
                        refine ⟨handled, ?_⟩
                        rintro other problems ⟨⟩ isProblems _
                        cases validates.symm.trans isProblems
                        exact settles
                      · exact fun both => both.2 result _ rfl validates (List.cons_ne_nil _ _)

/-- A plan comes back after at most a call for each repair and one more, it is empty or has no
problems, and what `validate_plan` finds no problem in, `classify_steps` accepts. -/
structure ExecutableOrEmpty (planner : WorkflowPlanner ω) (preceding : List PlannedStep)
    (planning : Planning) : Prop where
  bounded : planning.calls.length ≤ planner.repairs + 1
  returned : ∃ result, planning.outcome = .ok result ∧
    (result.steps = [] ∨ validatePlan result.steps planner.catalog preceding = .ok [])
  agrees : ∀ steps, validatePlan steps planner.catalog [] = .ok [] →
    Succeeds (classifySteps steps planner.catalog.registry) ∧
      RefersBackward planner.catalog.registry steps

end WorkflowPlanner

/-! ## An integer that is too long -/

section LongInteger

private def limitExceeded (digits : Nat) : String :=
  s!"Exceeds the limit (4300 digits) for integer string conversion: value has {digits} digits" ++
    "; use sys.set_int_max_str_digits() to increase the limit"

/-- `json.loads` of an integer, with the limit of the interpreter on its digits. -/
@[reducible] private def integerPlanText : PlanText where
  loads text :=
    if text ≠ "" ∧ text.toList.all Char.isDigit = true then
      if 4300 < text.length then .error (.uncaught (limitExceeded text.length))
      else .ok (.int (text.toNat?.getD 0))
    else .error .decode
  overflows _ := none
  validate _ := none

@[reducible] private def planDigits : UnicodeDigits := ⟨fun _ => false⟩

attribute [local instance] smallPythonText integerPlanText planDigits

private def repeated (char : Char) (count : Nat) : String :=
  String.ofList (List.replicate count char)

private theorem extractJson_repeated {char : Char} (count : Nat) (visible : isSpace char = false)
    (noFence : char ≠ Char.ofNat 96) (noBrace : char ≠ '{') :
    extractJson (repeated char count) = repeated char count := by
  have stripped : strip (repeated char count) = repeated char count := by
    simp [strip, repeated, visible]
  have unfenced : "```".toList.isPrefixOf (List.replicate count char) = false := by
    cases count with
    | zero => rfl
    | succ count =>
        have differs : (Char.ofNat 96 == char) = false := beq_false_of_ne noFence.symm
        rw [List.replicate_succ]
        show (Char.ofNat 96 == char && _) = false
        rw [differs, Bool.false_and]
  have unopened : (List.replicate count char).findIdx? (· == '{') = none := by
    rw [List.findIdx?_eq_none_iff]
    intro other member
    rw [List.eq_of_mem_replicate member]
    exact beq_false_of_ne noBrace
  have text : (repeated char count).toList = List.replicate count char := String.toList_ofList
  simp only [extractJson, stripped, text, unfenced, unopened, Bool.false_eq_true, if_false]
  rfl

private theorem parsePlan_repeated {count : Nat} (long : 4300 < count) :
    parsePlan (repeated '1' count) = .error (limitExceeded count) := by
  have length : (repeated '1' count).length = count := by
    rw [repeated, String.length_ofList, List.length_replicate]
  have nonempty : repeated '1' count ≠ "" := by
    intro empty
    rw [empty] at length
    rw [← length] at long
    exact absurd long (Nat.not_lt_zero _)
  have loads : PlanText.loads (repeated '1' count) =
      .error (.uncaught (limitExceeded count)) := by
    simp only [PlanText.loads]
    rw [if_pos ⟨nonempty, by simp [repeated]⟩, if_pos (length.symm ▸ long), length]
  rw [parsePlan, extractJson_repeated count (by decide) (by decide) (by decide), loads]

private def answering (content : String) : WorkflowPlanner Unit where
  catalog := ⟨⟨[], List.nodup_nil⟩, fun _ => ⟨[], .opaqueOutput⟩⟩
  prompt := "Respond with a single JSON object."
  numCtx := 2048
  maxRepair := 2
  chat _ _ := .ok content

private theorem answering_raises {content text : String}
    (raises : parsePlan content = .error text) :
    ¬ (answering content).ExecutableOrEmpty []
      ((answering content).plan "hello" [] [] []) := by
  intro executable
  rcases executable.returned with ⟨result, returned, _⟩
  have answered : ∀ call messages, (answering content).chat call messages = .ok content :=
    fun _ _ => rfl
  rw [WorkflowPlanner.plan, WorkflowPlanner.rounds] at returned
  dsimp only at returned
  rw [answered] at returned
  dsimp only at returned
  rw [raises] at returned
  cases returned

end LongInteger

end CloudDrive
