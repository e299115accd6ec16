import CloudDrive.Assistant.CodeGuard
import CloudDrive.Assistant.Manifest
import CloudDrive.Assistant.ContextTrimming

/-! # Writing a skill

`CodegenSubAgent.author` of `app/assistant/subagent.py`: the model is asked for a manifest and
code, and told what is wrong with them, until a reply passes. The trial run of
`skills/smoke.py` is part of a round. -/

namespace CloudDrive

open Outcome CodeGuard SkillManifest

/-! ## The trial run -/

structure SandboxResult where
  ok : Bool
  output : Value
  error : Option String

/-- Code that was handed to the sandbox, and for an input of which type. -/
structure SandboxRun where
  code : String
  itemType : String
  deriving DecidableEq, Repr

structure SmokeOutcome where
  ok : Bool
  error : String
  isCodeDefect : Bool
  deriving DecidableEq, Repr

/-- `_CODE_DEFECT_MARKERS`. -/
def codeDefectMarkers : List String :=
  ["NameError", "SyntaxError", "IndentationError", "AttributeError", "UnboundLocalError",
    "TypeError", "re.error", "bad escape", "ModuleNotFoundError", "ImportError"]

/-- `_looks_like_code_defect`. -/
def looksLikeCodeDefect (error : String) : Bool :=
  codeDefectMarkers.any fun marker => (findText marker error.toList).isSome

/-- The loop of `smoke_test_generated_code`, with the runs that it makes. -/
def smokeEach (sandbox : SandboxRun → SandboxResult) (code : String) :
    List String → SmokeOutcome × List SandboxRun
  | [] => (⟨true, "", false⟩, [])
  | itemType :: rest =>
      let run : SandboxRun := ⟨code, itemType⟩
      let result := sandbox run
      let error := (result.error.filter fun error => error ≠ "").getD "unknown error"
      if result.ok = false ∧ looksLikeCodeDefect error = true then
        (⟨false, s!"running it on a {itemType} input raised: {error}", true⟩, [run])
      else
        let later := smokeEach sandbox code rest
        (later.1, run :: later.2)

def smokeTestGeneratedCode (sandbox : SandboxRun → SandboxResult) (code : String)
    (itemTypes : List String) : SmokeOutcome × List SandboxRun :=
  smokeEach sandbox code (if itemTypes = [] then ["FILE"] else itemTypes)

/-! ## Reading a reply -/

/-- `item["handler"] = name`, where the item is a dict. -/
def setHandler (name : String) : Value → Value
  | .object fields => .object (Arguments.set fields "handler" (.string name))
  | value => value

/-- The handlers of the menu, where there is one. -/
def setHandlers (name : String) (ui : Value) : Value :=
  match ui with
  | .object fields =>
      match Arguments.get? fields "context_menu" with
      | some (.list items) =>
          .object (Arguments.set fields "context_menu" (.list (items.map (setHandler name))))
      | _ => ui
  | _ => ui

/-- The manifest that is made of the fields of a reply. -/
def proposedManifest (data : Arguments) : Arguments :=
  let name := (data.get? "name").getD (.string "")
  let ui := (data.get? "ui").getD (.object [("context_menu", .list [])])
  let ui := match name with
    | .string text => if text ≠ "" then setHandlers text ui else ui
    | _ => ui
  [("name", name), ("description", (data.get? "description").getD (.string "")),
    ("version", (data.get? "version").getD (.string "1.0.0")), ("ui", ui)]

/-- `_split_manifest_and_code`. The error is the text of one that it does not catch. -/
def splitManifestAndCode [PlanText] (content : String) :
    Except String (Option (Arguments × String)) :=
  match PlanText.loads (extractJson content) with
  | .error .decode => .ok none
  | .error (.uncaught text) => .error text
  | .ok (.object data) =>
      match Arguments.get? data "code" with
      | some (.string code) => .ok (some (proposedManifest data, code))
      | _ => .ok none
  | .ok _ => .ok none

/-- `_declared_item_types`, of a manifest that was validated. -/
def declaredItemTypes (manifest : SkillManifest) : List String :=
  let types := unique (manifest.contextMenu.flatMap fun action =>
    action.itemTypes.map itemTypeText)
  if types = [] then ["FILE"] else types

/-- `exc.message`. -/
def ServiceError.message : ServiceError → String
  | .notFound message => message
  | .forbidden message => message
  | .nameConflict message => message
  | .invalidOperation message => message
  | .quotaExceeded message => message
  | .fileTooLarge message => message
  | .multipleResultsFound => ""
  | .noResultFound => ""
  | .integrityError => ""
  | .dataError => ""
  | .uncaught _ => ""
  | .storageKeyNotFound _ => ""
  | .diverged => ""

section Authoring

variable [PythonText] [PlanText] [PythonParser] [ManifestText]

omit [PlanText] in
/-- `_validate`. -/
def validateProposal (manifest : Arguments) (code : String) :
    Except String (Option SkillManifest × List String) := do
  let scanned ← validateSkillCode code
  match validateManifest (.object manifest) with
  | .ok validated => pure (some validated, scanned)
  | .error error => pure (none, ("manifest: " ++ error.message) :: scanned)

/-- What a round makes of a reply: a manifest and its code, or problems, or an error that
nothing catches. -/
inductive Verdict where
  | accepted (manifest : SkillManifest) (code : String)
  | rejected (problems : List String)
  | raised (text : String)

/-- The verdict on a reply, and the trial runs that led to it. -/
structure Examined where
  verdict : Verdict
  runs : List SandboxRun

/-- The trial run of a manifest and code without problems, where there is a sandbox. -/
def tryOut (sandbox : Option (SandboxRun → SandboxResult)) (validated : SkillManifest)
    (code : String) : Examined :=
  match sandbox with
  | none => ⟨.accepted validated code, []⟩
  | some sandbox =>
      let smoke := smokeTestGeneratedCode sandbox code (declaredItemTypes validated)
      if smoke.1.ok = false ∧ smoke.1.isCodeDefect = true then
        ⟨.rejected [smoke.1.error], smoke.2⟩
      else ⟨.accepted validated code, smoke.2⟩

/-- The part of a round after the model has answered. -/
def examine (sandbox : Option (SandboxRun → SandboxResult)) (content : String) : Examined :=
  match splitManifestAndCode content with
  | .error text => ⟨.raised text, []⟩
  | .ok none =>
      ⟨.rejected ["respond with ONE valid JSON object only (no prose, no code fences)"], []⟩
  | .ok (some (manifest, code)) =>
      match validateProposal manifest code with
      | .error text => ⟨.raised text, []⟩
      | .ok (none, problems) => ⟨.rejected problems, []⟩
      | .ok (some validated, problems) =>
          if problems = [] then tryOut sandbox validated code
          else ⟨.rejected problems, []⟩

/-! ## The loop -/

structure LLMReply where
  content : String
  doneReason : Option String
  promptTokens : Option Nat
  completionTokens : Option Nat
  deriving DecidableEq, Repr

structure CodegenResult where
  ok : Bool
  name : String
  description : String
  manifest : Option SkillManifest
  code : String
  problems : List String
  reply : String
  doneReason : Option String
  promptTokens : Option Nat
  completionTokens : Option Nat
  deriving DecidableEq, Repr

/-- The agent with the model that answers its calls and the system prompt for a request. -/
structure CodegenSubAgent where
  prompt : String → String
  numCtx : Int
  maxRepair : Int
  chat : Nat → List LLMMessage → Except ChatError LLMReply

/-- What `author` raises: an error of the model, or one of `json.loads` or `ast.parse`. -/
inductive AuthoringError where
  | chat (error : ChatError)
  | uncaught (text : String)

/-- The messages of each call of the model, the runs in the sandbox, and what came of it. -/
structure Authoring where
  calls : List (List LLMMessage)
  runs : List SandboxRun
  outcome : Except AuthoringError CodegenResult

namespace CodegenSubAgent

/-- `max(0, max_repair)`. -/
def repairs (agent : CodegenSubAgent) : Nat :=
  (max 0 agent.maxRepair).toNat

def drafted (manifest : SkillManifest) (code : String) (reply : LLMReply) : CodegenResult where
  ok := true
  name := manifest.name
  description := manifest.description
  manifest := some manifest
  code := code
  problems := []
  reply := "I drafted a skill named " ++ manifest.name ++ "."
  doneReason := reply.doneReason
  promptTokens := reply.promptTokens
  completionTokens := reply.completionTokens

def exhausted (problems : List String) (reply : LLMReply) : CodegenResult where
  ok := false
  name := ""
  description := ""
  manifest := none
  code := ""
  problems := problems
  reply := "I couldn't generate a safe, valid skill for that request."
  doneReason := reply.doneReason
  promptTokens := reply.promptTokens
  completionTokens := reply.completionTokens

def rejection (problems : List String) : String :=
  "Your generated skill was rejected: " ++ "; ".intercalate problems ++
    ". Fix these and resend the single JSON object."

/-- A round and those after it, of which `remaining` are left. -/
def rounds (agent : CodegenSubAgent) (sandbox : Option (SandboxRun → SandboxResult)) :
    Nat → List LLMMessage → Authoring
  | remaining, messages =>
      let sent := trimMessages agent.numCtx messages
      match agent.chat (agent.repairs - remaining) sent with
      | .error error => ⟨[sent], [], .error (.chat error)⟩
      | .ok reply =>
          let examined := examine sandbox reply.content
          match examined.verdict with
          | .accepted manifest code => ⟨[sent], examined.runs, .ok (drafted manifest code reply)⟩
          | .raised text => ⟨[sent], examined.runs, .error (.uncaught text)⟩
          | .rejected problems =>
              match remaining with
              | 0 => ⟨[sent], examined.runs, .ok (exhausted problems reply)⟩
              | remaining + 1 =>
                  let later := agent.rounds sandbox remaining (messages ++
                    [⟨.assistant, reply.content⟩, ⟨.user, rejection problems⟩])
                  ⟨sent :: later.calls, examined.runs ++ later.runs, later.outcome⟩

/-- `author`. -/
def author (agent : CodegenSubAgent) (sandbox : Option (SandboxRun → SandboxResult))
    (request : String) : Authoring :=
  agent.rounds sandbox agent.repairs
    [⟨.system, agent.prompt request⟩, ⟨.user, request⟩]

end CodegenSubAgent

/-! ## What a round accepts -/

omit [PythonText] [PlanText] [PythonParser] [ManifestText] in
theorem smokeEach_runs {sandbox : SandboxRun → SandboxResult} {code : String} :
    ∀ {itemTypes : List String}, ∀ run ∈ (smokeEach sandbox code itemTypes).2, run.code = code
  | [], run, member => by cases member
  | itemType :: rest, run, member => by
      rw [smokeEach] at member
      dsimp only at member
      split at member
      · rw [List.mem_singleton.mp member]
      · rcases List.mem_cons.mp member with rfl | later
        · rfl
        · exact smokeEach_runs run later

omit [PlanText] in
theorem validateProposal_accepts {manifest : Arguments} {code : String}
    {validated : SkillManifest}
    (accepts : validateProposal manifest code = .ok (some validated, [])) :
    validateManifest (.object manifest) = .ok validated ∧ validateSkillCode code = .ok [] := by
  rw [validateProposal, bind_eq_ok] at accepts
  rcases accepts with ⟨scanned, isScanned, accepts⟩
  cases outcome : validateManifest (.object manifest) with
  | error error =>
      rw [outcome] at accepts
      cases accepts
  | ok other =>
      rw [outcome] at accepts
      cases accepts
      exact ⟨rfl, isScanned⟩

omit [PlanText] in
theorem validateProposal_rejects {manifest : Arguments} {code : String} {problems : List String}
    (rejects : validateProposal manifest code = .ok (none, problems)) : problems ≠ [] := by
  rw [validateProposal, bind_eq_ok] at rejects
  rcases rejects with ⟨scanned, _, rejects⟩
  cases outcome : validateManifest (.object manifest) with
  | error error =>
      rw [outcome] at rejects
      cases rejects
      exact List.cons_ne_nil _ _
  | ok validated =>
      rw [outcome] at rejects
      cases rejects

/-- A reply that passes has a manifest and code that were both checked. -/
structure Checked (content : String) (manifest : SkillManifest) (code : String) : Prop where
  proposed : ∃ raw, splitManifestAndCode content = .ok (some (raw, code)) ∧
    validateManifest (.object raw) = .ok manifest
  clean : validateSkillCode code = .ok []

/-- The error is one of `json.loads` on the reply, or of `ast.parse` on its code. -/
inductive LetThrough (content text : String) : Prop
  | json : splitManifestAndCode content = .error text → LetThrough content text
  | code {raw : Arguments} {code : String} :
      splitManifestAndCode content = .ok (some (raw, code)) →
      PythonParser.parse code = .error (.uncaught text) → LetThrough content text

/-- A round ends with a checked manifest and code, with a problem or with an error that
reading the reply raised, and runs nothing that was not checked. -/
structure Guarded (content : String) (examined : Examined) : Prop where
  accepted : ∀ manifest code, examined.verdict = .accepted manifest code →
    Checked content manifest code
  rejected : ∀ problems, examined.verdict = .rejected problems → problems ≠ []
  raised : ∀ text, examined.verdict = .raised text → LetThrough content text
  runs : ∀ run ∈ examined.runs, validateSkillCode run.code = .ok []

/-- A round that runs nothing. -/
theorem Guarded.of_quiet {content : String} {verdict : Verdict}
    (rejects : ∀ problems, verdict = .rejected problems → problems ≠ [])
    (raises : ∀ text, verdict = .raised text → LetThrough content text)
    (notAccepted : ∀ manifest code, verdict ≠ .accepted manifest code) :
    Guarded content ⟨verdict, []⟩ := by
  constructor
  case accepted => exact fun manifest code accepted => absurd accepted (notAccepted manifest code)
  case rejected => exact rejects
  case raised => exact raises
  case runs =>
    intro run member
    cases member

theorem Guarded.of_problems (content : String) {problems : List String}
    (some_ : problems ≠ []) : Guarded content ⟨.rejected problems, []⟩ := by
  apply Guarded.of_quiet
  · intro others rejected
    cases rejected
    exact some_
  · intro text raised
    cases raised
  · intro manifest code accepted
    cases accepted

theorem Guarded.of_raised {content text : String} (through : LetThrough content text) :
    Guarded content ⟨.raised text, []⟩ := by
  apply Guarded.of_quiet
  · intro problems rejected
    cases rejected
  · intro other raised
    cases raised
    exact through
  · intro manifest code accepted
    cases accepted

theorem tryOut_guarded (sandbox : Option (SandboxRun → SandboxResult)) {content code : String}
    {validated : SkillManifest} (checked : Checked content validated code) :
    Guarded content (tryOut sandbox validated code) := by
  have passes : ∀ runs : List SandboxRun, (∀ run ∈ runs, run.code = code) →
      Guarded content ⟨.accepted validated code, runs⟩ := by
    intro runs own
    constructor
    case accepted =>
      intro manifest other accepted
      cases accepted
      exact checked
    case rejected =>
      intro problems rejected
      cases rejected
    case raised =>
      intro text raised
      cases raised
    case runs =>
      intro run member
      rw [own run member]
      exact checked.clean
  cases sandbox with
  | none => exact passes [] fun run member => by cases member
  | some sandbox =>
      rw [tryOut]
      have own := @smokeEach_runs sandbox code
        (if declaredItemTypes validated = [] then ["FILE"] else declaredItemTypes validated)
      split
      · constructor
        case accepted =>
          intro manifest other accepted
          cases accepted
        case rejected =>
          intro problems rejected
          cases rejected
          exact List.cons_ne_nil _ _
        case raised =>
          intro text raised
          cases raised
        case runs =>
          intro run member
          rw [own run member]
          exact checked.clean
      · exact passes _ own

omit [PythonText] [PlanText] [ManifestText] in
theorem validateSkillCode_eq_error {code text : String} :
    validateSkillCode code = .error text ↔ PythonParser.parse code = .error (.uncaught text) := by
  rw [validateSkillCode]
  cases PythonParser.parse code with
  | error error => cases error <;> simp
  | ok body => simp

theorem examine_guarded (sandbox : Option (SandboxRun → SandboxResult)) (content : String) :
    Guarded content (examine sandbox content) := by
  rw [examine]
  cases splits : splitManifestAndCode content with
  | error text => exact .of_raised (.json splits)
  | ok proposal =>
      cases proposal with
      | none => exact .of_problems content (List.cons_ne_nil _ _)
      | some proposed =>
          dsimp only
          cases validation : validateProposal proposed.1 proposed.2 with
          | error text =>
              have fails : validateSkillCode proposed.2 = .error text := by
                rw [validateProposal] at validation
                cases scanned : validateSkillCode proposed.2 with
                | error other =>
                    rw [scanned] at validation
                    cases validation
                    rfl
                | ok problems =>
                    rw [scanned, ok_bind] at validation
                    split at validation <;> cases validation
              exact .of_raised (.code splits (validateSkillCode_eq_error.mp fails))
          | ok outcome =>
              rcases outcome with ⟨validated, problems⟩
              cases validated with
              | none => exact .of_problems content (validateProposal_rejects validation)
              | some validated =>
                  dsimp only
                  by_cases clean : problems = []
                  · rw [if_pos clean]
                    rw [clean] at validation
                    rcases validateProposal_accepts validation with ⟨valid, scanned⟩
                    exact tryOut_guarded sandbox ⟨⟨proposed.1, splits, valid⟩, scanned⟩
                  · rw [if_neg clean]
                    exact .of_problems content clean

/-! ## What the loop returns -/

namespace CodegenSubAgent

/-- What came of a call: the model failed, or the reply was accepted, or the repairs are used
up, or reading the reply raised an error that is not caught. -/
inductive Ends (agent : CodegenSubAgent) (sandbox : Option (SandboxRun → SandboxResult))
    (sent : List LLMMessage) (call : Nat) : Except AuthoringError CodegenResult → Prop
  | failed {error : ChatError} : agent.chat call sent = .error error →
      Ends agent sandbox sent call (.error (.chat error))
  | raised {reply : LLMReply} {text : String} : agent.chat call sent = .ok reply →
      (examine sandbox reply.content).verdict = .raised text → LetThrough reply.content text →
      Ends agent sandbox sent call (.error (.uncaught text))
  | accepted {reply : LLMReply} {manifest : SkillManifest} {code : String} :
      agent.chat call sent = .ok reply →
      (examine sandbox reply.content).verdict = .accepted manifest code →
      Ends agent sandbox sent call (.ok (drafted manifest code reply))
  | gaveUp {reply : LLMReply} {problems : List String} : call = agent.repairs →
      agent.chat call sent = .ok reply →
      (examine sandbox reply.content).verdict = .rejected problems →
      Ends agent sandbox sent call (.ok (exhausted problems reply))

/-- The reply to a call was rejected, and the next call ends with its problems. -/
def Corrects (agent : CodegenSubAgent) (sandbox : Option (SandboxRun → SandboxResult))
    (call : Nat) (sent next : List LLMMessage) : Prop :=
  ∃ reply problems, agent.chat call sent = .ok reply ∧
    (examine sandbox reply.content).verdict = .rejected problems ∧
      next.getLast? = some ⟨.user, rejection problems⟩

/-- The rounds from the call numbered `first` on. -/
structure Conversation (agent : CodegenSubAgent) (sandbox : Option (SandboxRun → SandboxResult))
    (prompt : List LLMMessage) (first remaining : Nat) (authoring : Authoring) : Prop where
  bounded : authoring.calls.length ≤ remaining + 1
  prompted : ∀ sent ∈ authoring.calls, systemMessages sent = prompt
  corrects : ∀ position sent next, authoring.calls[position]? = some sent →
    authoring.calls[position + 1]? = some next → Corrects agent sandbox (first + position) sent next
  ends : ∃ sent position, authoring.calls[position]? = some sent ∧
    position + 1 = authoring.calls.length ∧ Ends agent sandbox sent (first + position)
      authoring.outcome
  clean : ∀ run ∈ authoring.runs, validateSkillCode run.code = .ok []

theorem conversation_of_last {agent : CodegenSubAgent}
    {sandbox : Option (SandboxRun → SandboxResult)} {prompt sent : List LLMMessage}
    {first : Nat} (remaining : Nat) {runs : List SandboxRun}
    {outcome : Except AuthoringError CodegenResult} (prompted : systemMessages sent = prompt)
    (ends : Ends agent sandbox sent first outcome)
    (clean : ∀ run ∈ runs, validateSkillCode run.code = .ok []) :
    Conversation agent sandbox prompt first remaining ⟨[sent], runs, outcome⟩ := by
  constructor
  case bounded => exact Nat.le_add_left 1 remaining
  case prompted =>
    intro other member
    rw [List.mem_singleton.mp member]
    exact prompted
  case corrects =>
    intro position here next _ isNext
    simp at isNext
  case ends => exact ⟨sent, 0, rfl, rfl, ends⟩
  case clean => exact clean

theorem rounds_first (agent : CodegenSubAgent) (sandbox : Option (SandboxRun → SandboxResult))
    (remaining : Nat) (messages : List LLMMessage) :
    (agent.rounds sandbox remaining messages).calls[0]? =
      some (trimMessages agent.numCtx messages) := by
  rw [rounds.eq_def]
  dsimp only
  split
  · rfl
  · split
    · rfl
    · rfl
    · split
      · rfl
      · rfl

/-- A rejected reply comes before a conversation that starts with the reasons. -/
theorem Conversation.rejected {agent : CodegenSubAgent}
    {sandbox : Option (SandboxRun → SandboxResult)} {prompt messages : List LLMMessage}
    {first remaining : Nat} {reply : LLMReply} {problems : List String} {later : Authoring}
    (prompted : systemMessages (trimMessages agent.numCtx messages) = prompt)
    (answer : agent.chat first (trimMessages agent.numCtx messages) = .ok reply)
    (verdict : (examine sandbox reply.content).verdict = .rejected problems)
    (starts : later.calls[0]? = some (trimMessages agent.numCtx (messages ++
      [⟨.assistant, reply.content⟩, ⟨.user, rejection problems⟩])))
    (conversation : Conversation agent sandbox prompt (first + 1) remaining later) :
    Conversation agent sandbox prompt first (remaining + 1)
      ⟨trimMessages agent.numCtx messages :: later.calls,
        (examine sandbox reply.content).runs ++ later.runs, later.outcome⟩ := by
  constructor
  case bounded => exact Nat.succ_le_succ conversation.bounded
  case prompted =>
    intro sent member
    rcases List.mem_cons.mp member with rfl | inLater
    · exact prompted
    · exact conversation.prompted sent inLater
  case corrects =>
    intro position sent nextSent isSent isNext
    cases position with
    | zero =>
        cases isSent
        refine ⟨reply, problems, answer, verdict, ?_⟩
        rw [List.getElem?_cons_succ, starts] at isNext
        cases isNext
        have isUser : (⟨.user, rejection problems⟩ : LLMMessage).role = .user := rfl
        have latest := WorkflowPlanner.getLast?_trimMessages agent.numCtx
          (messages ++ [⟨.assistant, reply.content⟩]) isUser
        rw [List.append_assoc] at latest
        exact latest
    | succ position =>
        have corrected := conversation.corrects position sent nextSent isSent isNext
        rw [Nat.add_assoc, Nat.add_comm 1] at corrected
        exact corrected
  case ends =>
    rcases conversation.ends with ⟨sent, position, isSent, isLast, ends⟩
    refine ⟨sent, position + 1, isSent, congrArg (· + 1) isLast, ?_⟩
    rw [Nat.add_assoc, Nat.add_comm 1] at ends
    exact ends
  case clean =>
    intro run member
    rcases List.mem_append.mp member with here | inLater
    · exact (examine_guarded sandbox reply.content).runs run here
    · exact conversation.clean run inLater

/-- The rounds call the model until it fails or a reply passes, or until the repairs are used
up, and each call after the first is told why the reply before it was rejected. -/
theorem rounds_conversation (agent : CodegenSubAgent)
    (sandbox : Option (SandboxRun → SandboxResult)) : ∀ {remaining : Nat}
      (messages : List LLMMessage), remaining ≤ agent.repairs →
      Conversation agent sandbox (systemMessages messages) (agent.repairs - remaining) remaining
        (agent.rounds sandbox remaining messages) := by
  intro remaining
  induction remaining with
  | zero =>
      intro messages _
      have prompted := systemMessages_trim agent.numCtx messages
      rw [rounds]
      dsimp only
      cases answer : agent.chat (agent.repairs - 0) (trimMessages agent.numCtx messages) with
      | error error =>
          exact conversation_of_last 0 prompted (.failed answer) fun run member => by cases member
      | ok reply =>
          have guarded := examine_guarded sandbox reply.content
          dsimp only
          cases verdict : (examine sandbox reply.content).verdict with
          | accepted manifest code =>
              exact conversation_of_last 0 prompted (.accepted answer verdict) guarded.runs
          | raised text =>
              exact conversation_of_last 0 prompted
                (.raised answer verdict (guarded.raised text verdict)) guarded.runs
          | rejected problems =>
              exact conversation_of_last 0 prompted (.gaveUp rfl answer verdict) guarded.runs
  | succ remaining induction =>
      intro messages within
      have prompted := systemMessages_trim agent.numCtx messages
      rw [rounds]
      dsimp only
      cases answer : agent.chat (agent.repairs - (remaining + 1))
          (trimMessages agent.numCtx messages) with
      | error error =>
          exact conversation_of_last _ prompted (.failed answer) fun run member => by cases member
      | ok reply =>
          have guarded := examine_guarded sandbox reply.content
          dsimp only
          cases verdict : (examine sandbox reply.content).verdict with
          | accepted manifest code =>
              exact conversation_of_last _ prompted (.accepted answer verdict) guarded.runs
          | raised text =>
              exact conversation_of_last _ prompted
                (.raised answer verdict (guarded.raised text verdict)) guarded.runs
          | rejected problems =>
              dsimp only
              have told : systemMessages (messages ++ [⟨.assistant, reply.content⟩,
                  ⟨.user, rejection problems⟩]) = systemMessages messages := by
                rw [systemMessages_append]
                exact List.append_nil _
              have later := induction (messages ++ [⟨.assistant, reply.content⟩,
                ⟨.user, rejection problems⟩]) (Nat.le_of_succ_le within)
              rw [told] at later
              have next : agent.repairs - remaining = agent.repairs - (remaining + 1) + 1 := by
                omega
              rw [next] at later
              exact later.rejected prompted answer verdict
                (rounds_first agent sandbox remaining _)

/-- A draft that is returned has a manifest that was accepted and code that was scanned. -/
structure Drafts (result : CodegenResult) (manifest : SkillManifest) : Prop where
  isManifest : result.manifest = some manifest
  valid : manifest.Valid
  name : result.name = manifest.name
  description : result.description = manifest.description
  clean : validateSkillCode result.code = .ok []

theorem author_drafts {agent : CodegenSubAgent} {sandbox : Option (SandboxRun → SandboxResult)}
    {request : String} {result : CodegenResult}
    (returns : (agent.author sandbox request).outcome = .ok result) :
    (∃ manifest, Drafts result manifest) ∨ result.manifest = none := by
  have conversation := rounds_conversation agent sandbox
    [⟨.system, agent.prompt request⟩, ⟨.user, request⟩] (Nat.le_refl agent.repairs)
  rcases conversation.ends with ⟨sent, position, _, _, ends⟩
  have sameOutcome : (agent.rounds sandbox agent.repairs [⟨.system, agent.prompt request⟩,
      ⟨.user, request⟩]).outcome = .ok result := returns
  rw [sameOutcome] at ends
  cases ends with
  | @accepted reply manifest code _ verdict =>
      have checked := (examine_guarded sandbox reply.content).accepted manifest code verdict
      rcases checked.proposed with ⟨_, _, accepts⟩
      exact .inl ⟨manifest, rfl, validateManifest_valid accepts, rfl, rfl, checked.clean⟩
  | gaveUp => exact .inr rfl

/-- The error that is let through is one of reading a reply of the model. -/
theorem author_uncaught {agent : CodegenSubAgent}
    {sandbox : Option (SandboxRun → SandboxResult)} {request text : String}
    (raises : (agent.author sandbox request).outcome = .error (.uncaught text)) :
    ∃ call sent reply, agent.chat call sent = .ok reply ∧ LetThrough reply.content text := by
  have conversation := rounds_conversation agent sandbox
    [⟨.system, agent.prompt request⟩, ⟨.user, request⟩] (Nat.le_refl agent.repairs)
  rcases conversation.ends with ⟨sent, position, _, _, ends⟩
  have sameOutcome : (agent.rounds sandbox agent.repairs [⟨.system, agent.prompt request⟩,
      ⟨.user, request⟩]).outcome = .error (.uncaught text) := raises
  rw [sameOutcome] at ends
  cases ends with
  | raised answer _ through => exact ⟨_, sent, _, answer, through⟩

end CodegenSubAgent

end Authoring

end CloudDrive
