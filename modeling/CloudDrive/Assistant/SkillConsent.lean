import CloudDrive.Assistant.SkillLifecycle
import CloudDrive.Assistant.ConfirmationGate

/-! # What a user agreed to

Over any run: what reaches the sandbox was scanned, what is executed was approved, and what the
planner is offered was switched on, each by the user whose skill it is. -/

namespace CloudDrive

open Outcome Relational Execution CodeGuard SkillManifest
open AssistantSkillService AssistantSkillRepository

/-- The user has the skill, and its row has the property. -/
def Stands (userId skillId : Uuid) (property : AssistantSkill → Prop) (state : SkillState) :
    Prop :=
  ∃ row ∈ state.skills, row.id = skillId ∧ row.userId = userId ∧ property row

/-- The skill is installed. -/
def Installed (userId skillId : Uuid) : SkillState → Prop :=
  Stands userId skillId fun row => row.status = .installed

/-- The skill is switched on for the chat. -/
def SwitchedOn (userId skillId : Uuid) : SkillState → Prop :=
  Stands userId skillId fun row => row.chatEnabled = true

/-- The skill has the code. -/
def HasCode (userId skillId : Uuid) (code : String) : SkillState → Prop :=
  Stands userId skillId fun row => row.code = code

/-- The user approved the skill, which was installed ever since, and its code was approved or
was put in its place by the same user since. -/
def Approved (events : List (Event SkillState SkillCall)) (userId skillId : Uuid)
    (code : String) : Prop :=
  ∃ past approval rest, events = past ++ approval :: rest ∧
    approval.action.userId = userId ∧ approval.action.request = .approve skillId ∧
    (∀ event ∈ approval :: rest, Installed userId skillId event.after) ∧
    (HasCode userId skillId code approval.after ∨
      ∃ edit ∈ rest, edit.action.userId = userId ∧ ∃ description chatEnabled,
        edit.action.request = .update skillId description (some code) chatEnabled)

/-- The user switched the skill on, and it stayed on. -/
def OptedIn (events : List (Event SkillState SkillCall)) (userId skillId : Uuid) : Prop :=
  ∃ past switch rest, events = past ++ switch :: rest ∧ switch.action.userId = userId ∧
    (∃ description code, switch.action.request = .update skillId description code (some true)) ∧
    ∀ event ∈ switch :: rest, SwitchedOn userId skillId event.after

section Consent

variable [Platform] [PythonText] [PlanText] [PythonParser] [ManifestText]

/-! ## Where a row comes from -/

omit [Platform] [PythonText] [PlanText] in
/-- A row after a request was there before, or was written by it. -/
inductive Origin (call : SkillCall) (before : SkillState) (row : AssistantSkill) : Prop
  | kept : row ∈ before.skills → Origin call before row
  | drafted : row.status = .pending →
      (row.chatEnabled = true → SwitchedOn row.userId row.id before) → Origin call before row
  | approved (old : AssistantSkill) : old ∈ before.skills → call.request = .approve old.id →
      old.userId = call.userId → row = { old with status := .installed, updatedAt := call.now } →
      Origin call before row
  | edited (old : AssistantSkill) (description code : Option String)
      (chatEnabled : Option Bool) : old ∈ before.skills →
      call.request = .update old.id description code chatEnabled → old.userId = call.userId →
      row.id = old.id → Edits description code chatEnabled old row → Origin call before row

omit [Platform] [PythonText] [PlanText] in
theorem SkillCall.Changes.origin {call : SkillCall} {before after : SkillState}
    (changes : call.Changes before after) {row : AssistantSkill} (member : row ∈ after.skills) :
    Origin call before row := by
  cases changes with
  | nothing same => exact .kept (same ▸ member)
  | drafted text draft _ _ drafted =>
      cases drafted with
      | added _ added =>
          rcases (added.rows row).mp member with kept | rfl
          · exact .kept kept
          · exact .drafted rfl fun on => absurd on Bool.false_ne_true
      | replaced old _ _ replaced =>
          rcases (replaced.rows row).mp member with rfl | ⟨kept, _⟩
          · exact .drafted rfl fun on => ⟨old, replaced.member, rfl, rfl, on⟩
          · exact .kept kept
  | approved old isRequest isOwner replaced =>
      rcases (replaced.rows row).mp member with rfl | ⟨kept, _⟩
      · exact .approved old replaced.member isRequest isOwner rfl
      · exact .kept kept
  | edited old new description code chatEnabled isRequest isOwner replaced edits =>
      rcases (replaced.rows row).mp member with rfl | ⟨kept, _⟩
      · exact .edited old description code chatEnabled replaced.member isRequest isOwner
          replaced.sameId edits
      · exact .kept kept
  | deleted old _ _ _ _ rows => exact .kept ((rows row).mp member).1

variable {call : SkillCall} {before after : SkillState} {userId skillId : Uuid}

theorem SkillStep.installs (taken : SkillStep call before after)
    (missing : ¬ Installed userId skillId before) (there : Installed userId skillId after) :
    call.userId = userId ∧ call.request = .approve skillId := by
  rcases there with ⟨row, member, rfl, rfl, isInstalled⟩
  cases taken.changes.origin member with
  | kept kept => exact absurd ⟨row, kept, rfl, rfl, isInstalled⟩ missing
  | drafted isPending _ =>
      rw [isPending] at isInstalled
      cases isInstalled
  | approved old _ isRequest isOwner same =>
      rw [same]
      exact ⟨isOwner.symm, isRequest⟩
  | edited old _ _ _ among _ _ sameId edits =>
      have wasInstalled : old.status = .installed := edits.status.symm.trans isInstalled
      exact absurd ⟨old, among, sameId.symm, edits.owner.symm, wasInstalled⟩ missing

theorem SkillStep.switchesOn (taken : SkillStep call before after)
    (missing : ¬ SwitchedOn userId skillId before) (there : SwitchedOn userId skillId after) :
    call.userId = userId ∧ ∃ description code,
      call.request = .update skillId description code (some true) := by
  rcases there with ⟨row, member, rfl, rfl, isOn⟩
  cases taken.changes.origin member with
  | kept kept => exact absurd ⟨row, kept, rfl, rfl, isOn⟩ missing
  | drafted _ wasOn => exact absurd (wasOn isOn) missing
  | approved old among _ _ same =>
      rw [same] at isOn missing
      exact absurd ⟨old, among, rfl, rfl, isOn⟩ missing
  | edited old description code chatEnabled among isRequest isOwner sameId edits =>
      rw [edits.chat] at isOn
      cases chatEnabled with
      | none => exact absurd ⟨old, among, sameId.symm, edits.owner.symm, isOn⟩ missing
      | some enabled =>
          have isTrue : enabled = true := isOn
          rw [isTrue] at isRequest
          rw [sameId, edits.owner]
          exact ⟨isOwner.symm, description, code, isRequest⟩

/-- The code of an installed skill changes by an edit of its user. -/
theorem SkillStep.writes {code : String} (taken : SkillStep call before after)
    (installed : Installed userId skillId after) (missing : ¬ HasCode userId skillId code before)
    (there : HasCode userId skillId code after) :
    call.userId = userId ∧ ∃ description chatEnabled,
      call.request = .update skillId description (some code) chatEnabled := by
  rcases there with ⟨row, member, rfl, rfl, isCode⟩
  rcases installed with ⟨other, otherMember, sameId, _, isInstalled⟩
  have same : other = row := Table.eq_of_key_eq otherMember member sameId
  rw [same] at isInstalled
  cases taken.changes.origin member with
  | kept kept => exact absurd ⟨row, kept, rfl, rfl, isCode⟩ missing
  | drafted isPending _ =>
      rw [isPending] at isInstalled
      cases isInstalled
  | approved old among _ _ same =>
      rw [same] at isCode missing
      exact absurd ⟨old, among, rfl, rfl, isCode⟩ missing
  | edited old description newCode chatEnabled among isRequest isOwner sameId edits =>
      rw [edits.code] at isCode
      cases newCode with
      | none => exact absurd ⟨old, among, sameId.symm, edits.owner.symm, isCode⟩ missing
      | some text =>
          have isText : text = code := isCode
          rw [isText] at isRequest
          rw [sameId, edits.owner]
          exact ⟨isOwner.symm, description, chatEnabled, isRequest⟩

/-! ## Over a run -/

variable {firstId : Uuid} {events : List (Event SkillState SkillCall)} {state : SkillState}

/-- What stands at the end was brought about by a step after which it stayed. -/
theorem SkillHistory.since {property : AssistantSkill → Prop}
    (history : SkillHistory firstId events state) (there : Stands userId skillId property state) :
    ∃ past event rest, events = past ++ event :: rest ∧
      SkillStep event.action event.before event.after ∧
      ¬ Stands userId skillId property event.before ∧
      ∀ later ∈ event :: rest, Stands userId skillId property later.after := by
  have nothing : ¬ Stands userId skillId property ⟨Table.empty, firstId⟩ := by
    rintro ⟨row, member, _⟩
    exact Table.not_mem_empty row member
  rcases Run.exists_lost (fun state => ¬ Stands userId skillId property state) history nothing
    (not_not.mpr there) with ⟨past, event, rest, split, missing, gained, stays⟩
  refine ⟨past, event, rest, split, (history.upTo split).2, missing, ?_⟩
  intro later member
  rcases List.mem_cons.mp member with rfl | inRest
  · exact not_not.mp gained
  · exact not_not.mp (stays later inRest)

theorem SkillHistory.approved {code : String} (history : SkillHistory firstId events state)
    (installed : Installed userId skillId state) (hasCode : HasCode userId skillId code state) :
    Approved events userId skillId code := by
  rcases history.since installed with ⟨past, approval, rest, split, taken, missing, stays⟩
  rcases taken.installs missing (stays approval List.mem_cons_self) with ⟨isOwner, isApproval⟩
  refine ⟨past, approval, rest, split, isOwner, isApproval, stays, ?_⟩
  by_cases shown : HasCode userId skillId code approval.after
  · exact .inl shown
  · rcases history.exists_gained (HasCode userId skillId code) split shown hasCode with
      ⟨edit, member, lacks, gained⟩
    rcases List.append_of_mem member with ⟨front, back, rfl⟩
    rw [← List.cons_append, ← List.append_assoc] at split
    have wrote := (history.upTo split).2.writes
      (stays edit (List.mem_cons_of_mem _ member)) lacks gained
    exact .inr ⟨edit, member, wrote⟩

theorem SkillHistory.optedIn (history : SkillHistory firstId events state)
    (on : SwitchedOn userId skillId state) : OptedIn events userId skillId := by
  rcases history.since on with ⟨past, switch, rest, split, taken, missing, stays⟩
  rcases taken.switchesOn missing (stays switch List.mem_cons_self) with ⟨isOwner, isSwitch⟩
  exact ⟨past, switch, rest, split, isOwner, isSwitch, stays⟩

/-! ## What is executed -/

omit [Platform] [PythonText] [PlanText] [PythonParser] [ManifestText] in
theorem executeSkill_runs {host : SkillHost} {itemId : Uuid} {run : SandboxRun}
    (member : run ∈ (executeSkill host userId skillId itemId state).1) :
    ∃ row ∈ state.skills, row.id = skillId ∧ row.userId = userId ∧ row.status = .installed ∧
      row.name ≠ inspectDetailsSkillName ∧ run.code = row.code := by
  rw [executeSkill] at member
  dsimp only at member
  split at member
  · cases member
  · rename_i row found
    rcases Option.filter_eq_some_iff.mp found with ⟨isRow, isInstalled⟩
    rcases getById_eq_some.mp isRow with ⟨among, isId, isOwner⟩
    split at member
    · cases member
    · rename_i generated
      split at member
      · cases member
      · rw [List.mem_singleton.mp member]
        exact ⟨row, among, isId, isOwner, of_decide_eq_true isInstalled, generated, rfl⟩

/-- Whatever request is made after any run, the code that it hands to the sandbox, for a trial
or for good, passes the scan. -/
theorem SkillHistory.runs_scanned (history : SkillHistory firstId events state)
    (call : SkillCall) : ∀ run ∈ (call.react state).runs, validateSkillCode run.code = .ok [] := by
  intro run member
  rw [SkillCall.react] at member
  cases isRequest : call.request with
  | message text =>
      rw [isRequest] at member
      dsimp only at member
      rw [SkillCall.handleAuthoringMessage] at member
      split at member
      · cases member
      · cases hasAgent : call.host.codegen with
        | none =>
            rw [hasAgent] at member
            cases member
        | some agent =>
          rw [hasAgent] at member
          dsimp only at member
          split at member
          · have conversation := CodegenSubAgent.rounds_conversation agent call.host.sandbox
              [⟨.system, agent.prompt text⟩, ⟨.user, text⟩] (Nat.le_refl agent.repairs)
            apply conversation.clean run
            rw [SkillCall.generate] at member
            dsimp only at member
            split at member
            · exact member
            · exact member
            · exact member
          · cases member
  | approve skillId =>
      rw [isRequest] at member
      cases member
  | update skillId description code chatEnabled =>
      rw [isRequest] at member
      cases member
  | delete skillId =>
      rw [isRequest] at member
      cases member
  | execute skillId itemId =>
      rw [isRequest] at member
      rcases executeSkill_runs member with ⟨row, among, _, _, _, generated, isCode⟩
      rw [isCode]
      exact (history.sound.rows row among).code generated

/-- Whatever the run before it, a request to execute a skill runs code only if its user
approved the skill, with that code or before putting that code in its place, and the skill was
neither deleted nor drafted again since. -/
theorem SkillHistory.execution_approved (history : SkillHistory firstId events state)
    {call : SkillCall} {itemId : Uuid} (executes : call.request = .execute skillId itemId) :
    ∀ run ∈ (call.react state).runs, Approved events call.userId skillId run.code := by
  intro run member
  rw [SkillCall.react, executes] at member
  rcases executeSkill_runs member with ⟨row, among, isId, isOwner, isInstalled, _, isCode⟩
  exact history.approved ⟨row, among, isId, isOwner, isInstalled⟩
    ⟨row, among, isId, isOwner, isCode.symm⟩

/-! ## What the planner is offered -/

/-- The skills that were added to a registry which has the names. -/
structure Registers (userId : Uuid) (state : SkillState) (names : List String)
    (added : List AssistantSkill) : Prop where
  rows : ∀ skill ∈ added, skill ∈ state.skills ∧ skill.userId = userId ∧
    skill.status = .installed
  on : ∀ skill ∈ added, skill.chatEnabled = true
  free : ∀ skill ∈ added, skill.name ∉ names
  distinct : (added.map AssistantSkill.name).Nodup

omit [Platform] [PythonText] [PlanText] [PythonParser] [ManifestText] in
theorem Registers.next {names : List String} {added : List AssistantSkill}
    {skill : AssistantSkill} (registers : Registers userId state names added)
    (listed : skill ∈ state.skills ∧ skill.userId = userId ∧ skill.status = .installed) :
    Registers userId state names (registerSkill names added skill) := by
  rw [registerSkill]
  by_cases chosen : skill.chatEnabled = true ∧ skill.name ∉ names ++ added.map AssistantSkill.name
  · rw [if_pos chosen]
    rcases chosen with ⟨isOn, isFree⟩
    rw [List.mem_append, not_or] at isFree
    have each : ∀ {property : AssistantSkill → Prop}, (∀ other ∈ added, property other) →
        property skill → ∀ other ∈ added ++ [skill], property other := by
      intro property before last other member
      rcases List.mem_append.mp member with among | isLast
      · exact before other among
      · exact List.mem_singleton.mp isLast ▸ last
    constructor
    case rows => exact each registers.rows listed
    case on => exact each registers.on isOn
    case free => exact each registers.free isFree.1
    case distinct =>
      rw [List.map_append]
      apply List.nodup_append.mpr
      refine ⟨registers.distinct, List.nodup_singleton _, ?_⟩
      intro name member other isName same
      rw [List.mem_singleton.mp isName] at same
      exact isFree.2 (same ▸ member)
  · rw [if_neg chosen]
    exact registers

omit [Platform] [PythonText] [PlanText] [PythonParser] [ManifestText] in
theorem registerInstalledSkills_registers (names : List String) :
    Registers userId state names (registerInstalledSkills userId state names) := by
  have each : ∀ {skills added : List AssistantSkill}, (∀ skill ∈ skills,
      skill ∈ state.skills ∧ skill.userId = userId ∧ skill.status = .installed) →
      Registers userId state names added →
      Registers userId state names (skills.foldl (registerSkill names) added) := by
    intro skills
    induction skills with
    | nil => exact fun _ registers => registers
    | cons skill rest induction =>
        intro added listed registers
        exact induction (fun other member => listed other (List.mem_cons_of_mem _ member))
          (registers.next (listed skill List.mem_cons_self))
  apply each
  · intro skill member
    rcases List.mem_filter.mp (List.mem_mergeSort.mp member) with ⟨among, isListed⟩
    exact ⟨among, of_decide_eq_true isListed⟩
  · constructor
    case distinct => exact List.nodup_nil
    all_goals exact fun skill member => by cases member

/-- Whatever the run, the planner of a user is offered only skills that this user approved
and switched on, under names that are not taken. -/
theorem SkillHistory.offer_opted_in (history : SkillHistory firstId events state)
    (userId : Uuid) (names : List String) :
    (∀ skill ∈ registerInstalledSkills userId state names,
      Approved events userId skill.id skill.code ∧ OptedIn events userId skill.id ∧
        skill.name ∉ names) ∧
      ((registerInstalledSkills userId state names).map AssistantSkill.name).Nodup := by
  have registers := @registerInstalledSkills_registers userId state names
  refine ⟨?_, registers.distinct⟩
  intro skill member
  rcases registers.rows skill member with ⟨among, isOwner, isInstalled⟩
  have isOn := registers.on skill member
  have installed : Installed userId skill.id state := ⟨skill, among, rfl, isOwner, isInstalled⟩
  exact ⟨history.approved installed ⟨skill, among, rfl, isOwner, rfl⟩,
    history.optedIn ⟨skill, among, rfl, isOwner, isOn⟩, registers.free skill member⟩

end Consent

/-! ## A skill that zips -/

section Zipping

private def zipCode : String := "def run(input_path, output_dir, params): pass"

private def zipReply : String :=
  "\x7b\"name\": \"zip_it\", \"description\": \"Zips.\", \"code\": \"" ++ zipCode ++ "\"\x7d"

/-- The reading of the one reply. -/
@[reducible] private def zipPlanText : PlanText where
  loads _ := .ok (.object [("name", .string "zip_it"), ("description", .string "Zips."),
    ("code", .string zipCode)])
  overflows _ := none
  validate _ := none

/-- The tree of the one function. -/
@[reducible] private def zipParser : PythonParser where
  parse _ := .ok [.node (.functionDef "run" ["input_path", "output_dir", "params"])
    [.node .other []]]

@[reducible] private def asciiManifestText : ManifestText where
  isDecimal char := decide ('0' ≤ char ∧ char ≤ '9')
  decimal_zero := by decide
  decimal_one := by decide
  firstError _ := ("manifest", "invalid")

attribute [local instance] smallPlatform smallPythonText zipPlanText zipParser asciiManifestText

private def zipAgent : CodegenSubAgent where
  prompt request := "You write a skill.\nUser request: " ++ request
  numCtx := 8192
  maxRepair := 3
  chat _ _ := .ok ⟨zipReply, some "stop", none, none⟩

private def zipHost : SkillHost where
  codegen := some zipAgent
  sandbox := some fun _ => ⟨true, .null, none⟩
  hasDrive := true
  getItem _ _ := .ok ⟨"a.txt", .file⟩
  getRawItem _ _ := .ok ⟨"a.txt", .file⟩
  prepare _ _ := .ok ()
  ingest _ := .ok ["a.zip"]
  dumps _ := "null"

private def zipCall (request : SkillRequest) : SkillCall := ⟨1, 0, zipHost, request⟩

private def zipManifest : SkillManifest := ⟨"zip_it", "Zips.", "1.0.0", []⟩

private def zipRow (status : SkillStatus) (chatEnabled : Bool) : AssistantSkill where
  id := 1
  userId := 1
  name := "zip_it"
  description := "Zips."
  manifest := zipManifest.dump
  code := zipCode
  status := status
  chatEnabled := chatEnabled
  createdAt := 0
  updatedAt := 0

private def noSkills : SkillState := ⟨Table.empty, 1⟩

private def zipSkill (status : SkillStatus) (chatEnabled : Bool) : SkillState where
  skills := ⟨[zipRow status chatEnabled], List.nodup_singleton _⟩
  uuid4 := 2

private def zipEvents : List (Event SkillState SkillCall) :=
  [⟨noSkills, zipCall (.message "make a skill that zips"), zipSkill .pending false⟩,
    ⟨zipSkill .pending false, zipCall (.approve 1), zipSkill .installed false⟩,
    ⟨zipSkill .installed false, zipCall (.update 1 none none (some true)),
      zipSkill .installed true⟩]

private theorem zip_authored : (zipAgent.author zipHost.sandbox "make a skill that zips").outcome =
    .ok (CodegenSubAgent.drafted zipManifest zipCode ⟨zipReply, some "stop", none, none⟩) := by
  rw [CodegenSubAgent.author, CodegenSubAgent.rounds]
  rfl

private theorem zip_drafted : ((zipCall (.message "make a skill that zips")).react
    noSkills).committed noSkills = zipSkill .pending false := by
  have noMenu : looksLikeContextMenuSkillRequest "make a skill that zips" = false := by decide
  have generates : looksLikeSkillGenerationRequest "make a skill that zips" = true := by decide
  have routes : (zipCall (.message "make a skill that zips")).react noSkills =
      (zipCall (.message "make a skill that zips")).generate zipAgent "make a skill that zips"
        noSkills := by
    simp [SkillCall.react, SkillCall.handleAuthoringMessage, zipCall, zipHost, noMenu, generates]
  have authored : (zipAgent.author (zipCall (.message "make a skill that zips")).host.sandbox
      "make a skill that zips").outcome =
        .ok (CodegenSubAgent.drafted zipManifest zipCode ⟨zipReply, some "stop", none, none⟩) :=
    zip_authored
  rw [routes, SkillCall.generate, authored]
  rfl

private theorem zipHistory : SkillHistory 1 zipEvents (zipSkill .installed true) := by
  have drafting : SkillStep (zipCall (.message "make a skill that zips")) noSkills
      (zipSkill .pending false) := ⟨trivial, zip_drafted.symm⟩
  have approving : SkillStep (zipCall (.approve 1)) (zipSkill .pending false)
      (zipSkill .installed false) := ⟨trivial, rfl⟩
  have switching : SkillStep (zipCall (.update 1 none none (some true)))
      (zipSkill .installed false) (zipSkill .installed true) := ⟨⟨by simp, by simp⟩, rfl⟩
  exact (((Run.nothing).next drafting).next approving).next switching

private theorem zip_runs : ((zipCall (.execute 1 9)).react (zipSkill .installed true)).runs =
    [⟨zipCode, "FILE"⟩] := by decide

private def zipRuns : List SandboxRun :=
  ((zipCall (.execute 1 9)).react (zipSkill .installed true)).runs

private def zipOffered : List AssistantSkill :=
  registerInstalledSkills 1 (zipSkill .installed true) ["list_items"]

theorem SkillHistory.runs_scanned_zip :
    zipRuns = [⟨zipCode, "FILE"⟩] ∧ validateSkillCode zipCode = .ok [] := by
  refine ⟨zip_runs, ?_⟩
  apply SkillHistory.runs_scanned zipHistory (zipCall (.execute 1 9)) ⟨zipCode, "FILE"⟩
  rw [zip_runs]
  exact List.mem_singleton_self _

theorem SkillHistory.execution_approved_zip :
    zipRuns = [⟨zipCode, "FILE"⟩] ∧ Approved zipEvents 1 1 zipCode := by
  refine ⟨zip_runs, ?_⟩
  have approved := @SkillHistory.execution_approved _ _ _ _ _ 1 1 zipEvents
    (zipSkill .installed true) zipHistory (zipCall (.execute 1 9)) 9 rfl
  apply approved ⟨zipCode, "FILE"⟩
  rw [zip_runs]
  exact List.mem_singleton_self _

theorem SkillHistory.offer_opted_in_zip :
    zipOffered.map AssistantSkill.name = ["zip_it"] ∧ ∀ skill ∈ zipOffered,
      Approved zipEvents 1 skill.id skill.code ∧ OptedIn zipEvents 1 skill.id ∧
        skill.name ∉ ["list_items"] :=
  ⟨by decide +kernel, (SkillHistory.offer_opted_in zipHistory 1 ["list_items"]).1⟩

end Zipping

end CloudDrive
