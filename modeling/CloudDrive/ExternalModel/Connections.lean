import CloudDrive.Assistant.ModelRouter
import CloudDrive.Foundation.Table
import CloudDrive.Names

/-! # Connections to external models

`app/external_model/service.py` with the rows it manages, and the clients that are built
from them for each request. A chat that selects a connection is answered by the client of
that connection. -/

namespace CloudDrive

open Relational

/-- `str` of a UUID. -/
class UuidText where
  text : Uuid → String
  injective : Function.Injective text

structure ExternalModelConnection where
  id : Uuid
  userId : Uuid
  label : String
  kind : String
  baseUrl : String
  model : String
  secretEncrypted : String
  maskedHint : String
  status : String
  createdAt : Nat
  updatedAt : Nat

instance : Keyed ExternalModelConnection Uuid := ⟨ExternalModelConnection.id⟩

abbrev ConnectionTable := Table ExternalModelConnection

/-- A cipher draws a nonce for each encryption, and decrypts what was encrypted with its
own key. -/
structure CredentialCipher where
  encrypt : Nat → String → String
  decrypt : String → Option String

/-- The clients for one protocol each, with what they are built from. -/
inductive ModelClient where
  | openaiCompatible (baseUrl model : String) (apiKey : Option String)
  | ollama (baseUrl model : String) (apiKey : Option String)
  | codex (authJson model codexBin : String)
  deriving DecidableEq, Repr

/-- `_CredentialTrackingClient` of a connection, or the client that the server configures. -/
inductive ExternalClient where
  | default (inner : ModelClient)
  | tracked (inner : ModelClient) (userId connectionId : Uuid)
  deriving DecidableEq, Repr

structure ExternalModelSettings where
  externalChatModel : String
  codexBin : String

/-- `mask_secret`. -/
def maskSecret (secret : String) : String :=
  let s := (strip secret).toList
  if s = [] then ""
  else if s.length ≤ 8 then String.ofList ('…' :: s.drop (s.length - 2))
  else String.ofList (s.take 3 ++ '…' :: s.drop (s.length - 4))

/-! ## The history of the rows -/

inductive ConnectionChange where
  | create (userId : Uuid) (label kind baseUrl model secret : String) (newId : Uuid)
  | update (userId connectionId : Uuid) (label baseUrl model secret : Option String)
  | delete (userId connectionId : Uuid)
  -- A call was rejected for the credential.
  | invalidate (userId connectionId : Uuid)
  -- The command line tool of Codex has refreshed its token.
  | refresh (userId connectionId : Uuid) (newSecret : String)

/-- A change with the cipher of the server at that time, the nonce it draws, and the time. -/
structure ConnectionRequest where
  change : ConnectionChange
  cipher : Option CredentialCipher
  nonce : Nat
  now : Nat

/-- `repository.get`. -/
def getConnection (table : ConnectionTable) (userId connectionId : Uuid) :
    Option ExternalModelConnection :=
  (table.find? connectionId).filter fun conn => decide (conn.userId = userId)

/-- `repository.update`. -/
def updateConnection (table : ConnectionTable) (userId connectionId : Uuid)
    (label baseUrl model secretEncrypted maskedHint status : Option String) (now : Nat) :
    ConnectionTable :=
  match getConnection table userId connectionId with
  | none => table
  | some conn => table.put { conn with
      label := label.getD conn.label
      baseUrl := baseUrl.getD conn.baseUrl
      model := model.getD conn.model
      secretEncrypted := secretEncrypted.getD conn.secretEncrypted
      maskedHint := maskedHint.getD conn.maskedHint
      status := status.getD conn.status
      updatedAt := now }

/-- The rows that are committed when the request has ended. -/
def ConnectionRequest.apply (request : ConnectionRequest) (table : ConnectionTable) :
    ConnectionTable :=
  match request.change, request.cipher with
  | .create userId label kind baseUrl model secret newId, some cipher =>
      (table.insert? {
        id := newId
        userId := userId
        label := label
        kind := kind
        baseUrl := baseUrl
        model := model
        secretEncrypted := cipher.encrypt request.nonce secret
        maskedHint := maskSecret secret
        status := "active"
        createdAt := request.now
        updatedAt := request.now }).getD table
  | .update userId connectionId label baseUrl model secret, some cipher =>
      updateConnection table userId connectionId label baseUrl model
        (secret.map (cipher.encrypt request.nonce)) (secret.map maskSecret)
        (secret.map fun _ => "active") request.now
  | .create .., none | .update .., none => table
  | .delete userId connectionId, _ =>
      match getConnection table userId connectionId with
      | none => table
      | some conn => table.filter fun row => decide (row.id ≠ conn.id)
  | .invalidate userId connectionId, _ =>
      match getConnection table userId connectionId with
      | none => table
      | some conn => table.put { conn with status := "invalid" }
  | .refresh userId connectionId newSecret, some cipher =>
      updateConnection table userId connectionId none none none
        (some (cipher.encrypt request.nonce newSecret)) (some (maskSecret newSecret)) none
        request.now
  | .refresh .., none => table

/-- The rows after these requests, the first of which found none. -/
def connectionsAfter (history : List ConnectionRequest) : ConnectionTable :=
  history.foldl (fun table request => request.apply table) .empty

/-! ## The clients of a request -/

/-- `ExternalModelConnectionService`, as far as it builds clients. -/
structure ConnectionService where
  cipher : Option CredentialCipher
  settings : ExternalModelSettings

namespace ConnectionService

/-- `_build_client`. -/
def buildClient (service : ConnectionService) (cipher : CredentialCipher)
    (conn : ExternalModelConnection) : Option ExternalClient :=
  match cipher.decrypt conn.secretEncrypted with
  | none => none
  | some secret =>
      let inner :=
        if conn.kind = "openai_compatible" then
          some (ModelClient.openaiCompatible conn.baseUrl conn.model (some secret))
        else if conn.kind = "ollama" then
          some (.ollama conn.baseUrl conn.model (some secret))
        else if conn.kind = "codex" then
          some (.codex secret
            (if conn.model = "" then service.settings.externalChatModel else conn.model)
            service.settings.codexBin)
        else
          none
      inner.map fun inner => .tracked inner conn.userId conn.id

/-- `repository.list_by_user`. -/
def listByUser (table : ConnectionTable) (userId : Uuid) : List ExternalModelConnection :=
  (table.rows.filter fun conn => decide (conn.userId = userId)).insertionSort
    fun left right => left.createdAt ≤ right.createdAt

variable [UuidText]

/-- `build_clients`. The ids are distinct, so that no key is set twice. -/
def buildClients (service : ConnectionService) (userId : Uuid) (table : ConnectionTable) :
    List (String × ExternalClient) :=
  match service.cipher with
  | none => []
  | some cipher => (listByUser table userId).filterMap fun conn =>
      if conn.status ≠ "active" then none
      else (service.buildClient cipher conn).map fun client => (UuidText.text conn.id, client)

/-- The router of a request, with the clients that the committed rows give. -/
def routerFor {ρ ω : Type} (service : ConnectionService) (userId : Uuid) (table : ConnectionTable)
    (configured : ModelRouter ExternalClient ρ ω) : ModelRouter ExternalClient ρ ω :=
  { configured with
    externalEnabled := configured.external.isSome
    externalClients := service.buildClients userId table }

/-! ## The selected connection -/

/-- The client is built from the active connection of the user with this id. -/
structure BuiltFrom (service : ConnectionService) (userId : Uuid) (table : ConnectionTable)
    (target : String) (client : ExternalClient) : Prop where
  connection : ∃ conn ∈ table, conn.userId = userId ∧ UuidText.text conn.id = target ∧
    conn.status = "active" ∧
    ∃ cipher, service.cipher = some cipher ∧ service.buildClient cipher conn = some client

variable {service : ConnectionService} {userId : Uuid} {table : ConnectionTable}
  {target : String} {client : ExternalClient}

theorem mem_buildClients : (target, client) ∈ service.buildClients userId table ↔
    service.BuiltFrom userId table target client := by
  rw [buildClients]
  constructor
  · intro member
    cases isCipher : service.cipher with
    | none =>
        rw [isCipher] at member
        cases member
    | some cipher =>
        rw [isCipher] at member
        rcases List.mem_filterMap.mp member with ⟨conn, listed, kept⟩
        rw [listByUser, List.mem_insertionSort, List.mem_filter, decide_eq_true_eq] at listed
        by_cases active : conn.status = "active"
        · rw [if_neg (not_not.mpr active), Option.map_eq_some_iff] at kept
          rcases kept with ⟨built, isBuilt, same⟩
          cases same
          exact ⟨conn, listed.1, listed.2, rfl, active, cipher, isCipher, isBuilt⟩
        · rw [if_pos active] at kept
          cases kept
  · intro built
    rcases built.connection with ⟨conn, member, isUser, isTarget, active, cipher, isCipher, isBuilt⟩
    rw [isCipher]
    apply List.mem_filterMap.mpr
    refine ⟨conn, ?_, ?_⟩
    · rw [listByUser, List.mem_insertionSort, List.mem_filter, decide_eq_true_eq]
      exact ⟨member, isUser⟩
    · rw [if_neg (not_not.mpr active), isBuilt, Option.map_some, isTarget]

theorem BuiltFrom.unique {other : ExternalClient}
    (built : service.BuiltFrom userId table target client)
    (again : service.BuiltFrom userId table target other) : other = client := by
  rcases built.connection with ⟨conn, member, _, isTarget, _, cipher, isCipher, isBuilt⟩
  rcases again.connection with ⟨conn', member', _, isTarget', _, cipher', isCipher', isBuilt'⟩
  have sameId : conn.id = conn'.id := UuidText.injective (isTarget.trans isTarget'.symm)
  cases Table.eq_of_key_eq member member' sameId
  cases isCipher.symm.trans isCipher'
  exact Option.some.inj (isBuilt'.symm.trans isBuilt)

/-- The lookup finds the client of the selected connection, if there is one. -/
theorem lookup_buildClients : (service.buildClients userId table).lookup target = some client ↔
    service.BuiltFrom userId table target client := by
  constructor
  · intro found
    rcases List.lookup_eq_some_iff.mp found with ⟨earlier, later, split, _⟩
    apply mem_buildClients.mp
    rw [split]
    exact List.mem_append_right _ List.mem_cons_self
  · intro built
    have isSome : ((service.buildClients userId table).lookup target).isSome = true :=
      List.lookup_isSome_iff.mpr ⟨_, mem_buildClients.mpr built, beq_self_eq_true target⟩
    rcases Option.isSome_iff_exists.mp isSome with ⟨other, found⟩
    rcases List.lookup_eq_some_iff.mp found with ⟨earlier, later, split, _⟩
    have again : service.BuiltFrom userId table target other := by
      apply mem_buildClients.mp
      rw [split]
      exact List.mem_append_right _ List.mem_cons_self
    rw [found, built.unique again]

end ConnectionService

/-! ## Choosing a connection -/

section Choosing

open Privacy

variable [UuidText] [UnicodeData] {ρ ω : Type}

/-- Only the client of the connection is called, and without one the call fails. -/
structure HonoursChoice (BuiltFrom : ExternalClient → Prop) (answer : Answer ExternalClient ρ) :
    Prop where
  onlyChosen : ∀ call ∈ answer.calls, ∃ client sent, BuiltFrom client ∧
    call = .toExternal client sent
  orFails : (¬ ∃ client, BuiltFrom client) → ∃ error, answer.outcome = .error error

omit [UuidText] in
theorem callExternal_calls (router : ModelRouter ExternalClient ρ ω) (client : ExternalClient)
    (messages : List LLMMessage) (options : ω) (lastError : Option ChatError) :
    ∀ call ∈ (router.callExternal client messages options lastError).calls,
      ∃ sent, call = .toExternal client sent := by
  intro call member
  rw [ModelRouter.callExternal] at member
  split at member
  · cases member
  · exact ⟨_, List.mem_singleton.mp member⟩

omit [UuidText] in
/-- The gate lets no call pass exactly when everything counts as sensitive. -/
theorem callExternal_refuses_iff (router : ModelRouter ExternalClient ρ ω)
    (client : ExternalClient) (messages : List LLMMessage) (options : ω) :
    (router.callExternal client messages options none).calls = [] ↔
      router.privacyDefault = .sensitive := by
  rw [ModelRouter.callExternal]
  generalize "\n".intercalate (messages.map LLMMessage.content) = joined
  cases isDefault : router.privacyDefault with
  | sensitive => simp [classifyAndDeidentify]
  | nonSensitive =>
      by_cases same : redact joined = joined <;> simp [classifyAndDeidentify, same]

omit [UuidText] in
theorem callExternal_refused {router : ModelRouter ExternalClient ρ ω} {client : ExternalClient}
    {messages : List LLMMessage} {options : ω}
    (refuses : (router.callExternal client messages options none).calls = []) :
    ∃ error, (router.callExternal client messages options none).outcome = .error error := by
  rw [ModelRouter.callExternal] at refuses ⊢
  split at refuses
  · rename_i sensitive
    rw [if_pos sensitive]
    exact ⟨_, rfl⟩
  · cases refuses

/-- After every history, a chat with a selected connection honours the choice exactly when
the id is that of a connection from which a client is built, the server has no client of its
own, or it sends nothing out. -/
theorem chat_honoursChoice_iff (history : List ConnectionRequest) (service : ConnectionService)
    (userId : Uuid) (configured : ModelRouter ExternalClient ρ ω) (messages : List LLMMessage)
    (options : ω) (validator : Option (ρ → Bool)) (target : String)
    (remote : target ≠ ModelRouter.localTarget) :
    HonoursChoice (service.BuiltFrom userId (connectionsAfter history) target)
      ((service.routerFor userId (connectionsAfter history) configured).chat messages options
        validator (some target)) ↔
      (∃ client, service.BuiltFrom userId (connectionsAfter history) target client) ∨
        configured.external = none ∨ configured.privacyDefault = .sensitive := by
  generalize connectionsAfter history = table
  have selects : (service.routerFor userId table configured).selected target =
      ((service.buildClients userId table).lookup target).or configured.external := rfl
  rw [ModelRouter.chat]
  simp only [if_neg remote, selects]
  by_cases given : ∃ client, service.BuiltFrom userId table target client
  · rcases given with ⟨client, built⟩
    rw [ConnectionService.lookup_buildClients.mpr built, Option.some_or]
    apply iff_of_true _ (.inl ⟨client, built⟩)
    constructor
    · intro call member
      rcases callExternal_calls _ _ _ _ _ call member with ⟨sent, isCall⟩
      exact ⟨client, sent, built, isCall⟩
    · exact fun missing => absurd ⟨client, built⟩ missing
  · have missing : (service.buildClients userId table).lookup target = none := by
      rw [Option.eq_none_iff_forall_ne_some]
      exact fun client found => given ⟨client, ConnectionService.lookup_buildClients.mp found⟩
    rw [missing, Option.none_or]
    cases isExternal : configured.external with
    | none =>
        apply iff_of_true _ (.inr (.inl rfl))
        constructor
        · exact fun _ member => absurd member List.not_mem_nil
        · exact fun _ => ⟨_, rfl⟩
    | some fallback =>
        have refuses := callExternal_refuses_iff (service.routerFor userId table configured)
          fallback messages options
        constructor
        · intro honours
          apply Or.inr
          apply Or.inr
          apply refuses.mp
          apply List.eq_nil_iff_forall_not_mem.mpr
          intro call member
          rcases honours.onlyChosen call member with ⟨client, _, built, _⟩
          exact given ⟨client, built⟩
        · intro either
          rcases either with built | noFallback | sensitive
          · exact absurd built given
          · cases noFallback
          · have silent := refuses.mpr sensitive
            constructor
            · intro call member
              rw [silent] at member
              cases member
            · exact fun _ => callExternal_refused silent

end Choosing

/-! ## A connection that is deleted while it is selected -/

section Deleted

@[reducible] private def noWords : UnicodeData := ⟨fun _ => false⟩

@[reducible] private def decimalIds : UuidText where
  text := Nat.repr
  injective := fun _ _ => Nat.repr_injective

attribute [local instance] noWords decimalIds

/-- It writes a mark before what it encrypts. -/
private def markCipher : CredentialCipher where
  encrypt _ plaintext := String.ofList ('#' :: plaintext.toList)
  decrypt ciphertext :=
    match ciphertext.toList with
    | '#' :: plaintext => some (String.ofList plaintext)
    | _ => none

private def markService : ConnectionService := ⟨some markCipher, ⟨"gpt", "codex"⟩⟩

private def addsOllama : ConnectionRequest where
  change := .create 1 "mine" "ollama" "http://ollama" "llama" "key" 7
  cipher := some markCipher
  nonce := 0
  now := 100

private def deletesOllama : ConnectionRequest where
  change := .delete 1 7
  cipher := some markCipher
  nonce := 1
  now := 101

private def ownOllama : ExternalClient :=
  .tracked (.ollama "http://ollama" "llama" (some "key")) 1 7

private def openRouter : ModelRouter ExternalClient String Unit where
  localReply _ _ _ := .ok "local"
  externalReply _ _ _ := .ok "remote"
  external := some (.default (.openaiCompatible "http://api" "gpt" none))
  externalEnabled := true
  maxLocalAttempts := 1
  privacyDefault := .nonSensitive
  externalClients := []

private def chosen (history : List ConnectionRequest) : Answer ExternalClient String :=
  (markService.routerFor 1 (connectionsAfter history) openRouter).chat [⟨.user, "hello"⟩] () none
    (some "7")

theorem chat_honoursChoice_iff_ollama :
    HonoursChoice (markService.BuiltFrom 1 (connectionsAfter [addsOllama]) "7")
        (chosen [addsOllama]) ∧
      (chosen [addsOllama]).calls = [.toExternal ownOllama [⟨.user, "hello"⟩]] := by
  have built : markService.BuiltFrom 1 (connectionsAfter [addsOllama]) "7" ownOllama :=
    ConnectionService.lookup_buildClients.mp (by decide)
  have honours := (chat_honoursChoice_iff [addsOllama] markService 1 openRouter
    [⟨.user, "hello"⟩] () none "7" (by decide)).mpr (.inl ⟨ownOllama, built⟩)
  exact ⟨honours, by decide⟩

/-- The client that the server configures gets the message. -/
theorem deleted_choice_disclosed :
    (chosen [addsOllama, deletesOllama]).calls =
        [.toExternal (.default (.openaiCompatible "http://api" "gpt" none)) [⟨.user, "hello"⟩]] ∧
      ¬ HonoursChoice (markService.BuiltFrom 1 (connectionsAfter [addsOllama, deletesOllama]) "7")
        (chosen [addsOllama, deletesOllama]) := by
  have calls : (chosen [addsOllama, deletesOllama]).calls =
      [.toExternal (.default (.openaiCompatible "http://api" "gpt" none)) [⟨.user, "hello"⟩]] := by
    decide
  apply And.intro calls
  intro honours
  rcases honours.onlyChosen _ (calls ▸ List.mem_singleton_self _) with ⟨client, sent, built, _⟩
  have found := ConnectionService.lookup_buildClients.mpr built
  have nothing : (markService.buildClients 1
      (connectionsAfter [addsOllama, deletesOllama])).lookup "7" = none := by decide
  rw [nothing] at found
  cases found

end Deleted

end CloudDrive
