import CloudDrive.Auth.SingleUse

/-! # The tokens of a tab

`refreshAccessToken` and the interceptors of `src/api/client.ts`, with the endpoints of
`app/auth/router.py` that they call. Any number of requests are on their way at once, and the
refresh that one of them begins is shared by all that are refused while it is pending. -/

namespace CloudDrive

open Outcome Relational Execution Interleaving AuthService

/-- A refresh on its way to the server, with the cookie that it presents, or on its way back. -/
inductive PendingRefresh where
  | posted (cookie : Option String)
  | answered (pair : Option TokenPair)
  deriving DecidableEq, Repr

/-- The server with the cookie jar and the memory of the tab. The results of the refreshes that
are over stand in their order: `null` where one failed. -/
structure ClientStore where
  server : AuthState
  refreshCookie : Option String
  accessToken : Option String
  pendingRefresh : Option PendingRefresh
  refreshed : List (Option String)

/-- How far a request has come: with the header that it carries, or with the number of the
refresh that it awaits. -/
inductive ApiTask where
  | ready (authorization : Option String) (retried : Bool)
  | sent (authorization : Option String) (retried : Bool)
  | awaiting (refresh : Nat)
  | resolved
  | rejected
  deriving DecidableEq, Repr

inductive ApiStatus where
  | ok
  | unauthorized
  | failed
  deriving DecidableEq, Repr

/-- `if (token)`. -/
def nonEmpty (token : Option String) : Option String :=
  token.filter fun text => text ≠ ""

/-- The result is the number of the refresh that the caller shares. -/
def refreshAccessToken (store : ClientStore) : ClientStore × Nat :=
  match store.pendingRefresh with
  | some _ => (store, store.refreshed.length)
  | none =>
      ({ store with pendingRefresh := some (.posted store.refreshCookie) },
        store.refreshed.length)

/-- The interceptors, with what the server answers to a request that carries a header. -/
def ApiTask.act (answer : Option String → AuthState → ApiStatus) (store : ClientStore) :
    ApiTask → Option (ClientStore × ApiTask)
  | .ready authorization retried =>
      some (store, .sent ((nonEmpty store.accessToken).or authorization) retried)
  | .sent authorization retried =>
      match answer authorization store.server with
      | .ok => some (store, .resolved)
      | .failed => some (store, .rejected)
      | .unauthorized =>
          if retried then some (store, .rejected)
          else
            let (after, refresh) := refreshAccessToken store
            some (after, .awaiting refresh)
  | .awaiting refresh =>
      (store.refreshed[refresh]?).map fun token =>
        match nonEmpty token with
        | some token => (store, .ready (some token) true)
        | none => (store, .rejected)
  | .resolved => none
  | .rejected => none

/-- What else happens: a page loads, the server answers the pending refresh, its answer
arrives or is lost, somebody logs in or out, or time passes. -/
inductive ClientChange where
  | loads
  | serves
  | receives
  | loses
  | logsIn (email password : String)
  | clearsToken
  | logsOut
  | elapses (seconds : Nat)
  deriving DecidableEq, Repr

section Client

variable [TokenLibrary]

/-- The endpoint `/auth/refresh`. -/
def refreshEndpoint (cookie : Option String) (server : AuthState) :
    Except AuthError (TokenPair × AuthState) := do
  let token ← orRaise cookie (.unauthorized "No refresh token provided")
  refresh token server

/-- The post was refused or never came back. -/
def ClientStore.settleWithout (store : ClientStore) : ClientStore :=
  { store with
    accessToken := none
    pendingRefresh := none
    refreshed := store.refreshed ++ [none] }

/-- The answer sets the cookie and the token. -/
def ClientStore.settleWith (store : ClientStore) (pair : TokenPair) : ClientStore :=
  { store with
    refreshCookie := some pair.refreshToken
    accessToken := some pair.accessToken
    pendingRefresh := none
    refreshed := store.refreshed ++ [some pair.accessToken] }

def ClientChange.apply (change : ClientChange) (store : ClientStore) : Option ClientStore :=
  match change with
  | .loads => some (refreshAccessToken store).1
  | .serves =>
      match store.pendingRefresh with
      | some (.posted cookie) =>
          match refreshEndpoint cookie store.server with
          | .ok (pair, server) =>
              some { store with
                server := server
                pendingRefresh := some (.answered (some pair)) }
          | .error _ => some { store with pendingRefresh := some (.answered none) }
      | _ => none
  | .receives =>
      match store.pendingRefresh with
      | some (.answered (some pair)) => some (store.settleWith pair)
      | some (.answered none) => some store.settleWithout
      | _ => none
  | .loses => store.pendingRefresh.map fun _ => store.settleWithout
  | .logsIn email password =>
      match login email password store.server with
      | .ok (pair, server) =>
          some { store with
            server := server
            refreshCookie := some pair.refreshToken
            accessToken := some pair.accessToken }
      | .error _ => none
  | .clearsToken => some { store with accessToken := none }
  | .logsOut =>
      some { store with
        server := store.refreshCookie.elim store.server fun token => logout token store.server
        refreshCookie := none }
  | .elapses seconds =>
      some { store with server := { store.server with now := store.server.now + seconds } }

abbrev ClientWorld (ι : Type) := Interleaving.World ι ClientStore ApiTask

abbrev ClientEvent (ι : Type) := Event (ClientWorld ι) (Interleaving.Move ι ClientChange)

def apiRequests {ι : Type} (answer : ι → Option String → AuthState → ApiStatus) :
    Interleaving.Tasks ι ClientStore ApiTask ClientChange where
  act index := ApiTask.act (answer index)
  happen := ClientChange.apply

omit [TokenLibrary] in
/-- A page opens with the cookie of an earlier visit, and every request is still to be sent. -/
def pageOpens {ι : Type} (server : AuthState) (cookie : Option String) : ClientWorld ι where
  store := ⟨server, cookie, none, none, []⟩
  task _ := .ready none false

/-! ## Unrevoked tokens -/

section Unrevoked

variable {token : String} {state after : AuthState} {pair : TokenPair}

theorem unrevoked_of_issue {account : Account} (issues : issue account state = .ok (pair, after)) :
    Unrevoked pair.refreshToken after ∧
      ∀ token, Unrevoked token state → Unrevoked token after := by
  simp only [issue, RefreshTokenRepository.create, bind_eq_ok, orRaise_eq_ok, pure_eq_ok] at issues
  rcases issues with ⟨created, ⟨tokens, inserted, rfl⟩, isPair⟩
  cases isPair
  constructor
  · refine ⟨_, Table.find?_eq_some.mpr ⟨(Table.mem_of_insert? inserted).mpr (.inr rfl), rfl⟩, ?_⟩
    rfl
  · intro token unrevoked
    rcases unrevoked with ⟨found, isFound, notRevoked⟩
    exact ⟨found, Table.find?_insert? inserted isFound, notRevoked⟩

theorem unrevoked_of_refresh {cookie : Option String}
    (refreshes : refreshEndpoint cookie state = .ok (pair, after)) :
    Unrevoked pair.refreshToken after := by
  simp only [refreshEndpoint, refresh, bind_eq_ok] at refreshes
  rcases refreshes with ⟨_, _, _, _, _, _, _, _, issues⟩
  exact (unrevoked_of_issue issues).1

theorem unrevoked_of_login {email password : String}
    (logsIn : login email password state = .ok (pair, after)) :
    Unrevoked pair.refreshToken after ∧
      ∀ token, Unrevoked token state → Unrevoked token after := by
  simp only [login, bind_eq_ok] at logsIn
  rcases logsIn with ⟨_, _, _, _, _, _, issues⟩
  exact unrevoked_of_issue issues

/-- An exchange may fail for other reasons: the token or the account is not good any more. -/
theorem refresh_not_revoked (unrevoked : Unrevoked token state) (message : String) :
    refresh token state ≠ .error (.refreshTokenRevoked message) := by
  rcases unrevoked with ⟨row, isRow, notRevoked⟩
  intro refused
  rw [refresh] at refused
  cases decodes : decode token state.now with
  | error error =>
      rw [decodes] at refused
      cases refused
      rw [decode] at decodes
      split at decodes
      · cases decodes
      · rename_i cause _
        split at decodes
        · cases decodes
        · rename_i foreign
          cases decodes
          exact foreign rfl
  | ok userId =>
      have found : (RefreshTokenRepository.getByHash state (TokenLibrary.hashToken token)).filter
          (fun row => row.revokedAt.isNone) = some row :=
        Option.filter_eq_some_iff.mpr ⟨isRow, Option.isNone_iff_eq_none.mpr notRevoked⟩
      rw [decodes, ok_bind, usable, found] at refused
      by_cases fresh : state.now < row.expiresAt
      · simp only [orRaise, ok_bind, require_true fresh] at refused
        cases active : activeAccount userId state with
        | error error =>
            have sameError : error = .unauthorized "User not found or inactive" := by
              unfold activeAccount orRaise at active
              split at active
              · cases active
              · cases active
                rfl
            rw [sameError] at active
            simp only [pure, Except.pure, ok_bind, active] at refused
            cases refused
        | ok account =>
            simp only [pure, Except.pure, ok_bind, active, issue, RefreshTokenRepository.create,
              orRaise] at refused
            split at refused
            · cases refused
            · cases refused
      · simp only [orRaise, ok_bind, require_false fresh] at refused
        cases refused

end Unrevoked

/-! ## What is presented -/

variable {store after : ClientStore}

/-- Nothing was presented, or the server has not revoked it. -/
def Live (cookie : Option String) (server : AuthState) : Prop :=
  ∀ token ∈ cookie, Unrevoked token server

/-- The pending refresh presents a live token. The cookie is live, unless an answer on its way
will replace it, and then the token in this answer is live. -/
structure ClientStore.Presentable (store : ClientStore) : Prop where
  posted : ∀ cookie, store.pendingRefresh = some (.posted cookie) → Live cookie store.server
  cookie : (∀ pair, store.pendingRefresh ≠ some (.answered (some pair))) →
    Live store.refreshCookie store.server
  answered : ∀ pair, store.pendingRefresh = some (.answered (some pair)) →
    Unrevoked pair.refreshToken store.server

/-- Only the cookie matters while nothing is pending. -/
theorem ClientStore.Presentable.of_idle (idle : store.pendingRefresh = none)
    (live : Live store.refreshCookie store.server) : store.Presentable := by
  constructor
  case posted =>
    intro cookie posted
    rw [idle] at posted
    cases posted
  case cookie => exact fun _ => live
  case answered =>
    intro pair answered
    rw [idle] at answered
    cases answered

theorem ClientStore.Presentable.refreshing (presentable : store.Presentable) :
    (refreshAccessToken store).1.Presentable := by
  rw [refreshAccessToken]
  cases pending : store.pendingRefresh with
  | some _ => exact presentable
  | none =>
      have live : Live store.refreshCookie store.server := by
        apply presentable.cookie
        intro pair answered
        rw [pending] at answered
        cases answered
      constructor
      case posted =>
        intro cookie posted
        cases posted
        exact live
      case cookie => exact fun _ => live
      case answered =>
        intro pair answered
        cases answered

omit [TokenLibrary] in
theorem ApiTask.act_store {answer : Option String → AuthState → ApiStatus} {task next : ApiTask}
    (acts : task.act answer store = some (after, next)) :
    after = store ∨ after = (refreshAccessToken store).1 := by
  cases task with
  | ready authorization retried =>
      cases acts
      exact .inl rfl
  | sent authorization retried =>
      rw [ApiTask.act] at acts
      cases status : answer authorization store.server with
      | ok =>
          rw [status] at acts
          cases acts
          exact .inl rfl
      | failed =>
          rw [status] at acts
          cases acts
          exact .inl rfl
      | unauthorized =>
          rw [status] at acts
          cases retried with
          | true =>
              cases acts
              exact .inl rfl
          | false =>
              cases acts
              exact .inr rfl
  | awaiting refresh =>
      rcases Option.map_eq_some_iff.mp acts with ⟨token, _, wakes⟩
      split at wakes
      · cases wakes
        exact .inl rfl
      · cases wakes
        exact .inl rfl
  | resolved => cases acts
  | rejected => cases acts

/-- No answer with a new token is lost, and nobody logs out while a refresh is pending. -/
def Undisturbed {ι : Type} (event : ClientEvent ι) : Prop :=
  (event.action = .event .loses →
    ∀ pair, event.before.store.pendingRefresh ≠ some (.answered (some pair))) ∧
  (event.action = .event .logsOut → event.before.store.pendingRefresh = none)

theorem ClientStore.Presentable.change (presentable : store.Presentable) {change : ClientChange}
    (applies : change.apply store = some after)
    (kept : change = .loses → ∀ pair, store.pendingRefresh ≠ some (.answered (some pair)))
    (alone : change = .logsOut → store.pendingRefresh = none) : after.Presentable := by
  cases change with
  | loads =>
      cases applies
      exact presentable.refreshing
  | serves =>
      rw [ClientChange.apply] at applies
      split at applies
      · rename_i cookie pending
        split at applies
        · rename_i pair server refreshes
          cases applies
          constructor
          case posted =>
            intro other posted
            cases posted
          case cookie => exact fun unanswered => absurd rfl (unanswered pair)
          case answered =>
            intro other answered
            cases answered
            exact unrevoked_of_refresh refreshes
        · cases applies
          have live : Live store.refreshCookie store.server := by
            apply presentable.cookie
            intro pair answered
            rw [pending] at answered
            cases answered
          constructor
          case posted =>
            intro other posted
            cases posted
          case cookie => exact fun _ => live
          case answered =>
            intro pair answered
            cases answered
      · cases applies
  | receives =>
      rw [ClientChange.apply] at applies
      split at applies
      · rename_i pair pending
        cases applies
        apply ClientStore.Presentable.of_idle rfl
        intro token isToken
        cases isToken
        exact presentable.answered pair pending
      · rename_i pending
        cases applies
        apply ClientStore.Presentable.of_idle rfl
        apply presentable.cookie
        intro pair answered
        rw [pending] at answered
        cases answered
      · cases applies
  | loses =>
      rcases Option.map_eq_some_iff.mp applies with ⟨_, _, rfl⟩
      exact .of_idle rfl (presentable.cookie (kept rfl))
  | logsIn email password =>
      rw [ClientChange.apply] at applies
      split at applies
      · rename_i pair server logsIn
        cases applies
        rcases unrevoked_of_login logsIn with ⟨fresh, others⟩
        constructor
        case posted =>
          intro cookie posted token isToken
          exact others token (presentable.posted cookie posted token isToken)
        case cookie =>
          intro _ token isToken
          cases isToken
          exact fresh
        case answered =>
          intro pair answered
          exact others _ (presentable.answered pair answered)
      · cases applies
  | clearsToken =>
      cases applies
      exact ⟨presentable.posted, presentable.cookie, presentable.answered⟩
  | logsOut =>
      cases applies
      refine ClientStore.Presentable.of_idle ?_ ?_
      · exact alone rfl
      · intro token isToken
        cases isToken
  | elapses seconds =>
      cases applies
      exact ⟨presentable.posted, presentable.cookie, presentable.answered⟩

section Runs

variable {ι : Type} [DecidableEq ι] {answer : ι → Option String → AuthState → ApiStatus}
  {server : AuthState} {cookie : Option String} {events : List (ClientEvent ι)}
  {final : ClientWorld ι}

theorem presentable_of_step {move : Interleaving.Move ι ClientChange}
    {before after : ClientWorld ι} (presentable : before.store.Presentable)
    (taken : (apiRequests answer).Step move before after)
    (undisturbed : Undisturbed ⟨before, move, after⟩) : after.store.Presentable := by
  rcases taken.cases with ⟨index, _, acts, _⟩ | ⟨change, rfl, applies, _⟩
  · rcases ApiTask.act_store acts with same | refreshes
    · exact same ▸ presentable
    · exact refreshes ▸ presentable.refreshing
  · apply presentable.change applies
    · intro isLoss
      exact undisturbed.1 (congrArg Interleaving.Move.event isLoss)
    · intro isLogout
      exact undisturbed.2 (congrArg Interleaving.Move.event isLogout)

/-- However many requests are refused at once, and in whatever order things happen, the server
never refuses a refresh for a token that was used before, as long as no answer with a new token
is lost and nobody logs out while a refresh is pending. -/
theorem presents_unrevoked (runs : (apiRequests answer).Runs (pageOpens server cookie) events final)
    (live : Live cookie server) (undisturbed : ∀ event ∈ events, Undisturbed event) :
    ∀ event ∈ events, event.action = .event .serves →
      ∀ token, event.before.store.pendingRefresh = some (.posted (some token)) →
        Unrevoked token event.before.store.server ∧
          ∀ message, refresh token event.before.store.server ≠
            .error (.refreshTokenRevoked message) := by
  intro event member _ token posted
  rcases List.append_of_mem member with ⟨past, rest, rfl⟩
  let Keep : ClientWorld ι → Prop := fun world => world.store.Presentable
  have presentable : Keep event.before := by
    refine Run.keeps ?_ ?_ (runs.upTo rfl).1
    · exact ClientStore.Presentable.of_idle rfl live
    · intro earlier among before taken
      exact presentable_of_step before taken
        (undisturbed earlier (List.mem_append_left _ among))
  have unrevoked := presentable.posted _ posted token rfl
  exact ⟨unrevoked, refresh_not_revoked unrevoked⟩

/-! ## How far a request gets -/

omit [TokenLibrary] [DecidableEq ι] in
/-- The turns that a request has left at most. -/
def ApiTask.turnsLeft : ApiTask → Nat
  | .ready _ false => 5
  | .sent _ false => 4
  | .awaiting _ => 3
  | .ready _ true => 2
  | .sent _ true => 1
  | .resolved | .rejected => 0

def ApiTask.isReady : ApiTask → Bool
  | .ready .. => true
  | _ => false

/-- The times that a request may still be sent. -/
def ApiTask.sendsLeft : ApiTask → Nat
  | .ready _ false => 2
  | .sent _ false | .awaiting _ | .ready _ true => 1
  | .sent _ true | .resolved | .rejected => 0

/-- The refresh that a request awaits is over, or it is the pending one. -/
def ApiTask.Served (store : ClientStore) (task : ApiTask) : Prop :=
  ∀ refresh, task = .awaiting refresh → refresh < store.refreshed.length ∨
    refresh = store.refreshed.length ∧ store.pendingRefresh.isSome = true

omit [TokenLibrary] in
theorem refreshAccessToken_pending (store : ClientStore) :
    (refreshAccessToken store).1.pendingRefresh.isSome = true ∧
      (refreshAccessToken store).1.refreshed = store.refreshed ∧
      (refreshAccessToken store).2 = store.refreshed.length := by
  rw [refreshAccessToken]
  cases pending : store.pendingRefresh with
  | some refresh => exact ⟨by rw [pending]; rfl, rfl, rfl⟩
  | none => exact ⟨rfl, rfl, rfl⟩

/-- What a turn makes of a request. -/
structure ApiTask.Advances (task next : ApiTask) (after : ClientStore) : Prop where
  turns : next.turnsLeft < task.turnsLeft
  sends : next.sendsLeft + task.isReady.toNat ≤ task.sendsLeft
  served : next.Served after

omit [TokenLibrary] in
theorem ApiTask.act_advances {answer : Option String → AuthState → ApiStatus}
    {task next : ApiTask} (served : task.Served store)
    (acts : task.act answer store = some (after, next)) : task.Advances next after := by
  have settled : ∀ {final : ApiTask}, final = .resolved ∨ final = .rejected →
      final.Served after := by
    intro final ended refresh isAwaiting
    rw [isAwaiting] at ended
    rcases ended with same | same
    · cases same
    · cases same
  cases task with
  | ready authorization retried =>
      cases acts
      constructor
      case turns => cases retried <;> simp [ApiTask.turnsLeft]
      case sends => cases retried <;> exact Nat.le_refl _
      case served =>
        intro refresh isAwaiting
        cases isAwaiting
  | sent authorization retried =>
      rw [ApiTask.act] at acts
      cases status : answer authorization store.server with
      | ok =>
          rw [status] at acts
          cases acts
          exact ⟨by cases retried <;> simp [ApiTask.turnsLeft], Nat.zero_le _, settled (.inl rfl)⟩
      | failed =>
          rw [status] at acts
          cases acts
          exact ⟨by cases retried <;> simp [ApiTask.turnsLeft], Nat.zero_le _, settled (.inr rfl)⟩
      | unauthorized =>
          rw [status] at acts
          cases retried with
          | true =>
              cases acts
              exact ⟨by simp [ApiTask.turnsLeft], Nat.zero_le _, settled (.inr rfl)⟩
          | false =>
              rcases refreshAccessToken_pending store with ⟨pending, same, number⟩
              have isNext : next = .awaiting (refreshAccessToken store).2 := by
                cases acts
                rfl
              have isAfter : after = (refreshAccessToken store).1 := by
                cases acts
                rfl
              rw [isNext, isAfter, number]
              refine ⟨by simp [ApiTask.turnsLeft], Nat.le_refl _, ?_⟩
              intro refresh isAwaiting
              cases isAwaiting
              exact .inr ⟨by rw [same], pending⟩
  | awaiting refresh =>
      rcases Option.map_eq_some_iff.mp acts with ⟨token, _, wakes⟩
      split at wakes
      · cases wakes
        refine ⟨by simp [ApiTask.turnsLeft], Nat.le_refl _, ?_⟩
        intro other isAwaiting
        cases isAwaiting
      · cases wakes
        exact ⟨by simp [ApiTask.turnsLeft], Nat.zero_le _, settled (.inr rfl)⟩
  | resolved => cases acts
  | rejected => cases acts

/-- A refresh that is pending stays pending until its result is there. -/
structure ClientStore.Proceeds (store after : ClientStore) : Prop where
  results : store.refreshed.length ≤ after.refreshed.length
  pending : store.pendingRefresh.isSome = true →
    store.refreshed.length < after.refreshed.length ∨ after.pendingRefresh.isSome = true

omit [TokenLibrary] in
theorem ApiTask.Served.later {task : ApiTask} (served : task.Served store)
    (proceeds : store.Proceeds after) : task.Served after := by
  intro refresh isAwaiting
  rcases served refresh isAwaiting with settled | ⟨isNext, isPending⟩
  · exact .inl (Nat.lt_of_lt_of_le settled proceeds.results)
  · rcases proceeds.pending isPending with longer | stillPending
    · exact .inl (isNext ▸ longer)
    · rcases Nat.lt_or_eq_of_le proceeds.results with longer | same
      · exact .inl (isNext ▸ longer)
      · exact .inr ⟨isNext.trans same, stillPending⟩

omit [TokenLibrary] in
theorem proceeds_of_refresh (store : ClientStore) :
    store.Proceeds (refreshAccessToken store).1 := by
  rcases refreshAccessToken_pending store with ⟨pending, same, _⟩
  exact ⟨Nat.le_of_eq (congrArg List.length same.symm), fun _ => .inr pending⟩

omit [TokenLibrary] in
theorem proceeds_of_settled (pending : after.refreshed.length = store.refreshed.length + 1) :
    store.Proceeds after :=
  ⟨pending ▸ Nat.le_succ _, fun _ => .inl (pending ▸ Nat.lt_succ_self _)⟩

omit [TokenLibrary] in
theorem proceeds_of_same (results : after.refreshed = store.refreshed)
    (pending : store.pendingRefresh.isSome = true → after.pendingRefresh.isSome = true) :
    store.Proceeds after :=
  ⟨Nat.le_of_eq (congrArg List.length results.symm), fun isPending => .inr (pending isPending)⟩

theorem ClientChange.proceeds {change : ClientChange}
    (applies : change.apply store = some after) : store.Proceeds after := by
  cases change with
  | loads =>
      cases applies
      exact proceeds_of_refresh store
  | serves =>
      rw [ClientChange.apply] at applies
      split at applies
      · split at applies
        · cases applies
          exact proceeds_of_same rfl fun _ => rfl
        · cases applies
          exact proceeds_of_same rfl fun _ => rfl
      · cases applies
  | receives =>
      rw [ClientChange.apply] at applies
      split at applies
      · cases applies
        exact proceeds_of_settled List.length_append
      · cases applies
        exact proceeds_of_settled List.length_append
      · cases applies
  | loses =>
      rcases Option.map_eq_some_iff.mp applies with ⟨_, _, rfl⟩
      exact proceeds_of_settled List.length_append
  | logsIn email password =>
      rw [ClientChange.apply] at applies
      split at applies
      · cases applies
        exact proceeds_of_same rfl id
      · cases applies
  | clearsToken =>
      cases applies
      exact proceeds_of_same rfl id
  | logsOut =>
      cases applies
      exact proceeds_of_same rfl id
  | elapses seconds =>
      cases applies
      exact proceeds_of_same rfl id

def turnOf (index : ι) (event : ClientEvent ι) : Bool :=
  decide (event.action = .turn index)

/-- The request is sent, for the first time or again. -/
def sends (index : ι) (event : ClientEvent ι) : Bool :=
  turnOf index event && (event.before.task index).isReady

/-- The bounds on what a request has done, and that no request waits in vain. -/
structure Paced (index : ι) (events : List (ClientEvent ι)) (world : ClientWorld ι) : Prop where
  turns : events.countP (turnOf index) + (world.task index).turnsLeft ≤ 5
  sent : events.countP (sends index) + (world.task index).sendsLeft ≤ 2
  served : ∀ other, (world.task other).Served world.store

theorem Paced.step {index : ι} {past : List (ClientEvent ι)} {before after : ClientWorld ι}
    {move : Interleaving.Move ι ClientChange} (paced : Paced index past before)
    (taken : (apiRequests answer).Step move before after) :
    Paced index (past ++ [⟨before, move, after⟩]) after := by
  rcases taken.cases with ⟨turn, rfl, acts, others⟩ | ⟨change, rfl, applies, same⟩
  · have advances := ApiTask.act_advances (paced.served turn) acts
    have proceeds : before.store.Proceeds after.store := by
      rcases ApiTask.act_store acts with unchanged | refreshes
      · rw [unchanged]
        exact proceeds_of_same rfl id
      · rw [refreshes]
        exact proceeds_of_refresh _
    have served : ∀ other, (after.task other).Served after.store := by
      intro other
      by_cases isTurn : other = turn
      · exact isTurn ▸ advances.served
      · rw [others other isTurn]
        exact (paced.served other).later proceeds
    by_cases own : turn = index
    · subst own
      have counted : [(⟨before, .turn turn, after⟩ : ClientEvent ι)].countP (turnOf turn) = 1 := by
        simp [turnOf]
      have sent : [(⟨before, .turn turn, after⟩ : ClientEvent ι)].countP (sends turn) =
          (before.task turn).isReady.toNat := by
        cases isReady : (before.task turn).isReady <;> simp [sends, turnOf, isReady]
      have turns := advances.turns
      have sends := advances.sends
      have turnsBefore := paced.turns
      have sendsBefore := paced.sent
      refine ⟨?_, ?_, served⟩
      · rw [List.countP_append, counted]
        omega
      · rw [List.countP_append, sent]
        omega
    · have uncounted : [(⟨before, .turn turn, after⟩ : ClientEvent ι)].countP
          (turnOf index) = 0 := by
        simp [turnOf, own]
      have unsent : [(⟨before, .turn turn, after⟩ : ClientEvent ι)].countP (sends index) = 0 := by
        simp [sends, turnOf, own]
      have kept := others index fun isTurn => own isTurn.symm
      refine ⟨?_, ?_, served⟩
      · rw [List.countP_append, uncounted, kept]
        exact paced.turns
      · rw [List.countP_append, unsent, kept]
        exact paced.sent
  · have uncounted : [(⟨before, .event change, after⟩ : ClientEvent ι)].countP
        (turnOf index) = 0 := by
      simp [turnOf]
    have unsent : [(⟨before, .event change, after⟩ : ClientEvent ι)].countP (sends index) = 0 := by
      simp [sends, turnOf]
    refine ⟨?_, ?_, ?_⟩
    · rw [List.countP_append, uncounted, same]
      exact paced.turns
    · rw [List.countP_append, unsent, same]
      exact paced.sent
    · intro other
      rw [same]
      exact (paced.served other).later (ClientChange.proceeds applies)

theorem paced_of_runs (index : ι)
    (runs : (apiRequests answer).Runs (pageOpens server cookie) events final) :
    Paced index events final := by
  induction runs with
  | nothing =>
      refine ⟨Nat.le_refl 5, Nat.le_refl 2, ?_⟩
      intro other refresh isAwaiting
      cases isAwaiting
  | next _ taken induction => exact induction.step taken

omit [TokenLibrary] in
/-- A request that is not settled can go on, or waits for the pending refresh. -/
theorem ApiTask.Served.goesOn {answer : Option String → AuthState → ApiStatus} {task : ApiTask}
    (served : task.Served store) : task = .resolved ∨ task = .rejected ∨
      (task.act answer store).isSome = true ∨
        task = .awaiting store.refreshed.length ∧ store.pendingRefresh.isSome = true := by
  cases task with
  | resolved => exact .inl rfl
  | rejected => exact .inr (.inl rfl)
  | ready authorization retried => exact .inr (.inr (.inl rfl))
  | sent authorization retried =>
      refine .inr (.inr (.inl ?_))
      rw [ApiTask.act]
      cases answer authorization store.server with
      | ok => rfl
      | failed => rfl
      | unauthorized => cases retried <;> rfl
  | awaiting refresh =>
      rcases served refresh rfl with settled | ⟨isNext, isPending⟩
      · refine .inr (.inr (.inl ?_))
        rw [ApiTask.act, List.getElem?_eq_getElem settled]
        rfl
      · exact .inr (.inr (.inr ⟨congrArg ApiTask.awaiting isNext, isPending⟩))

/-- In any order of events a request takes five turns and is sent twice at most, and as long as
it is not settled it can go on, or the refresh that it awaits is the pending one. -/
theorem request_settles (index : ι)
    (runs : (apiRequests answer).Runs (pageOpens server cookie) events final) :
    events.countP (turnOf index) ≤ 5 ∧ events.countP (sends index) ≤ 2 ∧
      (final.task index = .resolved ∨ final.task index = .rejected ∨
        ((apiRequests answer).perform (.turn index) final).isSome = true ∨
        final.task index = .awaiting final.store.refreshed.length ∧
          final.store.pendingRefresh.isSome = true) := by
  have paced := paced_of_runs index runs
  refine ⟨Nat.le_of_add_right_le paced.turns, Nat.le_of_add_right_le paced.sent, ?_⟩
  rw [Tasks.perform, Option.isSome_map]
  exact (paced.served index).goesOn

end Runs

end Client

/-! ## Two requests that share a refresh -/

section TwoRequests

private theorem action_mem_of_trace {ι : Type} [DecidableEq ι]
    {tasks : Interleaving.Tasks ι ClientStore ApiTask ClientChange} :
    ∀ {moves : List (Interleaving.Move ι ClientChange)} {start : ClientWorld ι}
      {event : ClientEvent ι}, event ∈ tasks.trace moves start → event.action ∈ moves
  | [], _, _, member => by cases member
  | move :: rest, start, event, member => by
      rw [Interleaving.Tasks.trace] at member
      cases performed : tasks.perform move start with
      | none =>
          rw [performed] at member
          cases member
      | some next =>
          rw [performed] at member
          rcases List.mem_cons.mp member with rfl | later
          · exact List.mem_cons_self
          · exact List.mem_cons_of_mem _ (action_mem_of_trace later)

/-- A library that knows one token, and takes every token as its own digest. -/
@[reducible] private def oneToken : TokenLibrary where
  createAccessToken userId jti _ := s!"access {userId} {jti}"
  createRefreshToken userId jti _ := s!"refresh {userId} {jti}"
  decodeRefreshToken token _ :=
    if token = "refresh 1 11" then .ok 1 else .error (.unauthorized "Invalid token")
  hashToken token := token
  verifyPassword plain hashed := decide (plain = hashed)
  refreshTokenLifetime := 604800

attribute [local instance] oneToken

private def visited : AuthState where
  accounts := ⟨[⟨1, "tab@example.com", "secret", true⟩], List.nodup_singleton _⟩
  tokens := ⟨[⟨1, "refresh 1 11", 604800, none, 0⟩], List.nodup_singleton _⟩
  now := 60
  uuid4 := 12

/-- Who carries no token is refused. -/
private def needsToken (_ : Bool) (authorization : Option String) (_ : AuthState) : ApiStatus :=
  if authorization.isSome then .ok else .unauthorized

private def sharedRefresh : List (Interleaving.Move Bool ClientChange) :=
  [.turn true, .turn false, .turn true, .turn false, .event .serves, .event .receives,
    .turn true, .turn false, .turn true, .turn false, .turn true, .turn false]

private def reopened : ClientWorld Bool := pageOpens visited (some "refresh 1 11")

private def sharedEvents : List (ClientEvent Bool) :=
  (apiRequests needsToken).trace sharedRefresh reopened

private def bothAnswered : ClientWorld Bool :=
  ((apiRequests needsToken).play sharedRefresh reopened).getD reopened

private theorem sharedRuns : (apiRequests needsToken).Runs reopened sharedEvents bothAnswered :=
  Interleaving.Tasks.runs_of_play rfl

theorem presents_unrevoked_sharedRefresh :
    ∃ event ∈ sharedEvents, event.action = .event .serves ∧
      event.before.store.pendingRefresh = some (.posted (some "refresh 1 11")) ∧
        Unrevoked "refresh 1 11" event.before.store.server := by
  have live : Live (some "refresh 1 11") visited := by
    intro token isToken
    cases isToken
    exact ⟨⟨1, "refresh 1 11", 604800, none, 0⟩, rfl, rfl⟩
  have undisturbed : ∀ event ∈ sharedEvents, Undisturbed event := by
    intro event member
    have among := action_mem_of_trace member
    constructor
    · intro isLoss
      rw [isLoss] at among
      exact absurd among (by decide)
    · intro isLogout
      rw [isLogout] at among
      exact absurd among (by decide)
  have fifth : 4 < sharedEvents.length := by decide
  have member : sharedEvents.get ⟨4, fifth⟩ ∈ sharedEvents := List.get_mem _ _
  refine ⟨sharedEvents.get ⟨4, fifth⟩, member, rfl, rfl, ?_⟩
  exact (presents_unrevoked sharedRuns live undisturbed _ member rfl _ rfl).1

theorem request_settles_sharedRefresh :
    sharedEvents.countP (turnOf true) = 5 ∧ sharedEvents.countP (sends true) ≤ 2 ∧
      bothAnswered.task true = .resolved ∧
      bothAnswered.store.refreshed = [some "access 1 12"] := by
  have settles := request_settles true sharedRuns
  exact ⟨by decide, settles.2.1, by decide, by decide⟩

end TwoRequests

end CloudDrive
