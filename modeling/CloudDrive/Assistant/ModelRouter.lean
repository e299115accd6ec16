import CloudDrive.Assistant.Privacy

/-! # The model router

`ModelRouter` of `app/assistant/llm/router.py`: the local model first, an external one
when it is asked for or when the local model fails. What the clients answer is not
known; each call is recorded with the messages it sends. -/

namespace CloudDrive

open Patterns Privacy

inductive LLMRole where
  | system
  | user
  | assistant
  | tool
  deriving DecidableEq, Repr

structure LLMMessage where
  role : LLMRole
  content : String
  deriving DecidableEq, Repr

/-- What a client raises, or the router itself with the error before it. -/
inductive ChatError where
  | client (text : String)
  | unavailable (text : String) (cause : Option ChatError)
  | other (text : String)

/-- `except LLMClientError`. -/
def ChatError.isClientError : ChatError → Bool
  | .client _ => true
  | .unavailable _ _ => true
  | .other _ => false

inductive ModelCall (κ : Type) where
  | toLocal (messages : List LLMMessage)
  | toExternal (client : κ) (messages : List LLMMessage)
  deriving DecidableEq

/-- The calls that were made, in order, and what came of them. -/
structure Answer (κ ρ : Type) where
  calls : List (ModelCall κ)
  outcome : Except ChatError ρ

/-- The router with its clients. `ω` is the other arguments of `chat`, which are passed on
as they are, and `localReply` what the local client answers each time it is called. -/
structure ModelRouter (κ ρ ω : Type) where
  localReply : Nat → List LLMMessage → ω → Except ChatError ρ
  externalReply : κ → List LLMMessage → ω → Except ChatError ρ
  external : Option κ
  externalEnabled : Bool
  maxLocalAttempts : Int
  privacyDefault : PrivacyDefault
  externalClients : List (String × κ)

/-- How the attempts with the local client end. -/
inductive LocalOutcome (ρ : Type) where
  | answered (response : ρ)
  | raised (error : ChatError)
  | exhausted (lastError : Option ChatError) (lastUnvalidated : Option ρ)

namespace ModelRouter

section Routing

variable [UnicodeData] {κ ρ ω : Type}

def localTarget : String := "local"

/-- `max(1, max_local_attempts)`. -/
def attempts (router : ModelRouter κ ρ ω) : Nat :=
  (max 1 router.maxLocalAttempts).toNat

/-- `_call_external`. -/
def callExternal (router : ModelRouter κ ρ ω) (client : κ) (messages : List LLMMessage)
    (options : ω) (lastError : Option ChatError) : Answer κ ρ :=
  let joined := "\n".intercalate (messages.map LLMMessage.content)
  let privacy := classifyAndDeidentify joined router.privacyDefault
  if privacy.isSensitive = true ∧ privacy.deidentified = false then
    { calls := [],
      outcome := .error (.unavailable
        "Cannot send privacy-sensitive content to an external model" lastError) }
  else
    let externalMessages :=
      if privacy.deidentified then [⟨.user, privacy.textForExternal⟩] else messages
    { calls := [.toExternal client externalMessages],
      outcome := router.externalReply client externalMessages options }

/-- `_try_external`. -/
def tryExternal (router : ModelRouter κ ρ ω) (messages : List LLMMessage) (options : ω)
    (lastError : Option ChatError) : Answer κ ρ :=
  let disabled : Answer κ ρ :=
    { calls := [],
      outcome := .error (.unavailable
        "Local model failed and external fallback is disabled" lastError) }
  if router.externalEnabled then
    match router.external with
    | none => disabled
    | some client => router.callExternal client messages options lastError
  else
    disabled

/-- The loop over the local attempts that remain, with what the loop remembers. -/
def localAttempts (router : ModelRouter κ ρ ω) (messages : List LLMMessage) (options : ω)
    (validator : Option (ρ → Bool)) :
    Nat → Nat → Option ChatError → Option ρ → List (ModelCall κ) × LocalOutcome ρ
  | 0, _, lastError, lastUnvalidated => ([], .exhausted lastError lastUnvalidated)
  | remaining + 1, attempt, _, lastUnvalidated =>
      match router.localReply attempt messages options with
      | .error error =>
          if error.isClientError then
            let rest := localAttempts router messages options validator remaining (attempt + 1)
              (some error) lastUnvalidated
            (.toLocal messages :: rest.1, rest.2)
          else
            ([.toLocal messages], .raised error)
      | .ok response =>
          if validator.all fun valid => valid response then
            ([.toLocal messages], .answered response)
          else
            let rest := localAttempts router messages options validator remaining (attempt + 1)
              (some (.unavailable "Local model response did not pass validation" none))
              (some response)
            (.toLocal messages :: rest.1, rest.2)

/-- What `chat` does after the local attempts. -/
def afterLocal (router : ModelRouter κ ρ ω) (messages : List LLMMessage) (options : ω)
    (target : Option String) : LocalOutcome ρ → Answer κ ρ
  | .answered response => { calls := [], outcome := .ok response }
  | .raised error => { calls := [], outcome := .error error }
  | .exhausted lastError lastUnvalidated =>
      if target = some localTarget then
        match lastUnvalidated with
        | some response => { calls := [], outcome := .ok response }
        | none =>
            { calls := [],
              outcome := .error (.unavailable "Local model is unavailable" lastError) }
      else
        router.tryExternal messages options lastError

/-- The selected external client, or the fallback one. -/
def selected (router : ModelRouter κ ρ ω) (target : String) : Option κ :=
  (router.externalClients.lookup target).or router.external

def chat (router : ModelRouter κ ρ ω) (messages : List LLMMessage) (options : ω)
    (validator : Option (ρ → Bool)) (target : Option String) : Answer κ ρ :=
  let locally : Answer κ ρ :=
    let tried := router.localAttempts messages options validator router.attempts 0 none none
    let rest := router.afterLocal messages options target tried.2
    { calls := tried.1 ++ rest.calls, outcome := rest.outcome }
  match target with
  | none => locally
  | some name =>
      if name = localTarget then
        locally
      else
        match router.selected name with
        | none =>
            { calls := [],
              outcome := .error (.unavailable
                s!"Selected model '{name}' is not configured" none) }
        | some client => router.callExternal client messages options none

/-! ## What leaves for an external client -/

variable {router : ModelRouter κ ρ ω} {messages sent : List LLMMessage} {options : ω} {client : κ}

/-- A call sends no identifier, and the messages themselves if they have none. -/
structure Private (router : ModelRouter κ ρ ω) (messages sent : List LLMMessage) : Prop where
  optedIn : router.privacyDefault = .nonSensitive
  clean : ∀ message ∈ sent, ¬ HasIdentifier message.content
  faithful : (∀ message ∈ messages, ¬ HasIdentifier message.content) → sent = messages

theorem callExternal_private {lastError : Option ChatError} {chosen : κ}
    (called : .toExternal client sent ∈
      (router.callExternal chosen messages options lastError).calls) :
    Private router messages sent := by
  have inMessages := hasIdentifier_joined (messages.map LLMMessage.content)
  simp only [List.mem_map, exists_exists_and_eq_and] at inMessages
  rw [callExternal] at called
  generalize "\n".intercalate (messages.map LLMMessage.content) = joined at inMessages called
  cases isDefault : router.privacyDefault with
  | sensitive => simp [classifyAndDeidentify, isDefault] at called
  | nonSensitive =>
      by_cases same : redact joined = joined
      · simp [classifyAndDeidentify, isDefault, same] at called
        rw [called.2]
        apply Private.mk isDefault
        · intro message member found
          exact redact_clean joined (same.symm ▸ inMessages.mpr ⟨message, member, found⟩)
        · exact fun _ => rfl
      · simp [classifyAndDeidentify, isDefault, same] at called
        rw [called.2]
        apply Private.mk isDefault
        · intro message member
          rw [List.mem_singleton.mp member]
          exact redact_clean joined
        · intro clean
          apply absurd (redact_eq_self _) same
          intro found
          rcases inMessages.mp found with ⟨message, member, inMessage⟩
          exact clean message member inMessage

omit [UnicodeData] in
theorem localAttempts_local {validator : Option (ρ → Bool)} :
    ∀ (remaining attempt : Nat) (lastError : Option ChatError) (lastUnvalidated : Option ρ),
      ∀ call ∈ (router.localAttempts messages options validator remaining attempt lastError
        lastUnvalidated).1, call = .toLocal messages
  | 0, _, _, _, call, member => by cases member
  | remaining + 1, attempt, lastError, lastUnvalidated, call, member => by
      have later : ∀ (lastError : Option ChatError) (lastUnvalidated : Option ρ),
          ∀ call ∈ (router.localAttempts messages options validator remaining (attempt + 1)
            lastError lastUnvalidated).1, call = .toLocal messages :=
        localAttempts_local remaining (attempt + 1)
      rw [localAttempts] at member
      split at member
      · split at member
        · rcases List.mem_cons.mp member with isFirst | isLater
          · exact isFirst
          · exact later _ _ call isLater
        · exact List.mem_singleton.mp member
      · split at member
        · exact List.mem_singleton.mp member
        · rcases List.mem_cons.mp member with isFirst | isLater
          · exact isFirst
          · exact later _ _ call isLater

theorem tryExternal_private {lastError : Option ChatError}
    (called : .toExternal client sent ∈ (router.tryExternal messages options lastError).calls) :
    Private router messages sent := by
  rw [tryExternal] at called
  split at called
  · split at called
    · cases called
    · exact callExternal_private called
  · cases called

theorem afterLocal_private {target : Option String} {outcome : LocalOutcome ρ}
    (called : .toExternal client sent ∈
      (router.afterLocal messages options target outcome).calls) :
    Private router messages sent := by
  cases outcome with
  | answered | raised => cases called
  | exhausted lastError lastUnvalidated =>
      simp only [afterLocal] at called
      split at called
      · split at called <;> cases called
      · exact tryExternal_private called

theorem chat_calls_private {validator : Option (ρ → Bool)} {target : Option String}
    (called : .toExternal client sent ∈ (router.chat messages options validator target).calls) :
    Private router messages sent := by
  have locally : .toExternal client sent ∈
      (router.localAttempts messages options validator router.attempts 0 none none).1 ++
        (router.afterLocal messages options target
          (router.localAttempts messages options validator router.attempts 0 none none).2).calls →
      Private router messages sent := by
    intro member
    rcases List.mem_append.mp member with isLocal | isLater
    · cases localAttempts_local _ _ _ _ _ isLocal
    · exact afterLocal_private isLater
  cases target with
  | none => exact locally called
  | some name =>
      simp only [chat] at called
      split at called
      · exact locally called
      · split at called
        · cases called
        · exact callExternal_private called

/-- Whatever the clients answer, nothing goes to an external client while the default is
sensitive, and otherwise no address and no identifier does. -/
theorem chat_private (router : ModelRouter κ ρ ω) (messages : List LLMMessage) (options : ω)
    (validator : Option (ρ → Bool)) (target : Option String) :
    (router.privacyDefault = .sensitive → ∀ client sent,
      .toExternal client sent ∉ (router.chat messages options validator target).calls) ∧
    (router.privacyDefault = .nonSensitive → ∀ client sent,
      .toExternal client sent ∈ (router.chat messages options validator target).calls →
        (∀ message ∈ sent, ¬ Found isWordChar emailRe message.content.toList ∧
          ¬ Found isWordChar uuidRe message.content.toList) ∧
        ((∀ message ∈ messages, ¬ Found isWordChar emailRe message.content.toList ∧
          ¬ Found isWordChar uuidRe message.content.toList) → sent = messages)) := by
  constructor
  · intro isDefault client sent called
    rw [(chat_calls_private called).optedIn] at isDefault
    cases isDefault
  · intro _ client sent called
    have isPrivate := chat_calls_private called
    constructor
    · exact fun message member => not_or.mp (isPrivate.clean message member)
    · intro clean
      apply isPrivate.faithful
      exact fun message member => not_or.mpr (clean message member)

end Routing

/-! ## A fallback that hides an address -/

section Fallback

@[reducible] private def asciiOnly : UnicodeData := ⟨fun _ => false⟩

attribute [local instance] asciiOnly

private def fallbackRouter (privacyDefault : PrivacyDefault) : ModelRouter Nat String Unit where
  localReply _ _ _ := .error (.client "connection refused")
  externalReply _ _ _ := .ok "done"
  external := some 1
  externalEnabled := true
  maxLocalAttempts := 1
  privacyDefault := privacyDefault
  externalClients := []

private def mailMessage : LLMMessage := ⟨.user, "mail a@b.org"⟩

theorem chat_private_fallback :
    (∀ client sent, .toExternal client sent ∉
      ((fallbackRouter .sensitive).chat [mailMessage] () none none).calls) ∧
    ((fallbackRouter .nonSensitive).chat [mailMessage] () none none).calls =
      [.toLocal [mailMessage], .toExternal 1 [⟨.user, "mail [email]"⟩]] ∧
    ¬ Found isWordChar emailRe "mail [email]".toList := by
  have sensitive := chat_private (fallbackRouter .sensitive) [mailMessage] () none none
  have open_ := chat_private (fallbackRouter .nonSensitive) [mailMessage] () none none
  have calls : ((fallbackRouter .nonSensitive).chat [mailMessage] () none none).calls =
      [.toLocal [mailMessage], .toExternal 1 [⟨.user, "mail [email]"⟩]] := by decide
  have sent := open_.2 rfl 1 [⟨.user, "mail [email]"⟩] (by simp [calls])
  exact ⟨sensitive.1 rfl, calls, (sent.1 _ (List.mem_singleton_self _)).1⟩

end Fallback

end ModelRouter

end CloudDrive
