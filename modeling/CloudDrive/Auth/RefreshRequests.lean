import CloudDrive.Auth
import CloudDrive.Foundation.Interleaving

/-! # Requests that present one refresh token

Requests to exchange or to revoke one refresh token, statement by statement. Each reads
the row of the token when it starts. Its update of the row makes others wait for the
commit, with which the new token takes effect. -/

namespace CloudDrive

open Outcome Relational AuthService

inductive AuthAction where
  | refresh
  | logout

/-- What a committed request has done with the token. -/
inductive AuthOutcome where
  | exchanged (pair : TokenPair)
  | loggedOut
  deriving DecidableEq

/-- What is committed, whether a transaction has updated the row and not ended, whether
the database refuses to work, and the outcomes so far, latest first. -/
structure AuthStore where
  state : AuthState
  locked : Bool
  refusing : Bool
  outcomes : List AuthOutcome

/-- How far a request has come, with the row it has read and the time it writes into
`revoked_at`. -/
inductive AuthTask where
  | arriving
  | revoking (row : RefreshToken) (userId : Uuid)
  | revoked (row : RefreshToken) (revokedAt : Timestamp) (userId : Uuid)
  | issuing (row : RefreshToken) (revokedAt : Timestamp) (account : Account)
  | issued (row : RefreshToken) (revokedAt : Timestamp) (pair : TokenPair) (new : RefreshToken)
  | leaving (row : RefreshToken)
  | left (row : RefreshToken) (revokedAt : Timestamp)
  | ended (result : Except AuthError (Option TokenPair))

/-- The request has updated the row. -/
def AuthTask.holdsRow : AuthTask → Bool
  | .revoked .. | .issuing .. | .issued .. | .left .. => true
  | _ => false

section Requests

variable [TokenLibrary]

def AuthAction.start (action : AuthAction) (token : String) (state : AuthState) : AuthTask :=
  match action with
  | .refresh =>
      match decode token state.now with
      | .error error => .ended (.error error)
      | .ok userId =>
          match usable token state with
          | .error error => .ended (.error error)
          | .ok row => .revoking row userId
  | .logout =>
      match (RefreshTokenRepository.getByHash state (TokenLibrary.hashToken token)).filter
          fun row => row.revokedAt.isNone with
      | none => .ended (.ok none)
      | some row => .leaving row

/-- The token is known when the request to revoke it ends at once. -/
def AuthAction.startOutcomes (action : AuthAction) (token : String) (store : AuthStore) :
    List AuthOutcome :=
  match action, RefreshTokenRepository.getByHash store.state (TokenLibrary.hashToken token) with
  | .logout, some row =>
      if row.revokedAt.isNone then store.outcomes else .loggedOut :: store.outcomes
  | _, _ => store.outcomes

omit [TokenLibrary] in
/-- The update of the row. -/
def AuthStore.lockRow (store : AuthStore) (next : AuthTask) : Option (AuthStore × AuthTask) :=
  if store.locked then none else some ({ store with locked := true }, next)

omit [TokenLibrary] in
/-- The transaction is rolled back. -/
def AuthTask.fail (task : AuthTask) (error : AuthError) (store : AuthStore) :
    AuthStore × AuthTask :=
  ({ store with locked := store.locked && !task.holdsRow }, .ended (.error error))

def AuthAction.work (action : AuthAction) (token : String) (store : AuthStore) (task : AuthTask) :
    Option (AuthStore × AuthTask) :=
  match task with
  | .arriving =>
      some ({ store with outcomes := action.startOutcomes token store },
        action.start token store.state)
  | .revoking row userId => store.lockRow (.revoked row store.state.now userId)
  | .revoked row revokedAt userId =>
      match activeAccount userId store.state with
      | .error error => some (task.fail error store)
      | .ok account => some (store, .issuing row revokedAt account)
  | .issuing row revokedAt account =>
      let pair := tokenPair account store.state
      some ({ store with state := drawn store.state },
        .issued row revokedAt pair (issuedRow account.id pair.refreshToken store.state.now))
  | .issued row revokedAt pair new =>
      match RefreshTokenRepository.create new
          (RefreshTokenRepository.revoke row revokedAt store.state) with
      | .error error => some (task.fail error store)
      | .ok state =>
          some ({ store with
              state := state
              locked := false
              outcomes := .exchanged pair :: store.outcomes },
            .ended (.ok (some pair)))
  | .leaving row => store.lockRow (.left row store.state.now)
  | .left row revokedAt =>
      some ({ store with
          state := RefreshTokenRepository.revoke row revokedAt store.state
          locked := false
          outcomes := .loggedOut :: store.outcomes },
        .ended (.ok none))
  | .ended _ => none

def AuthAction.act (action : AuthAction) (token : String) (store : AuthStore) (task : AuthTask) :
    Option (AuthStore × AuthTask) :=
  match task with
  | .ended _ => none
  | task =>
      if store.refusing then some (task.fail .integrityError store)
      else action.work token store task

/-- Time passes, accounts change, another token is stored, or the database begins or
ceases to refuse. -/
inductive AuthChange where
  | elapses (seconds : Nat)
  | accounts (rows : Table Account)
  | stores (row : RefreshToken)
  | refusing (value : Bool)

omit [TokenLibrary] in
def AuthChange.apply (change : AuthChange) (store : AuthStore) : Option AuthStore :=
  match change with
  | .elapses seconds =>
      some { store with state := { store.state with now := store.state.now + seconds } }
  | .accounts rows => some { store with state := { store.state with accounts := rows } }
  | .stores row =>
      (store.state.tokens.insert? row).map fun tokens =>
        { store with state := { store.state with tokens := tokens } }
  | .refusing value => some { store with refusing := value }

abbrev AuthWorld (ι : Type) := Interleaving.World ι AuthStore AuthTask

def tokenRequests {ι : Type} (token : String) (actions : ι → AuthAction) :
    Interleaving.Tasks ι AuthStore AuthTask AuthChange where
  act index := (actions index).act token
  happen := AuthChange.apply

omit [TokenLibrary] in
def tokenArrives {ι : Type} (state : AuthState) : AuthWorld ι where
  store := ⟨state, false, false, []⟩
  task _ := .arriving

/-! ## A request alone -/

section Alone

variable {ι : Type} {token : String} {actions : ι → AuthAction} {index : ι} {store : AuthStore}

theorem act_of_works {action : AuthAction} {task : AuthTask} (works : store.refusing = false) :
    action.act token store task = action.work token store task := by
  cases task <;> simp [AuthAction.act, AuthAction.work, works]

/-- An exchange that no other request interferes with is `refresh`. -/
theorem refresh_alone {state : AuthState} {pair : TokenPair} (isRefresh : actions index = .refresh)
    (works : store.refusing = false) (unlocked : store.locked = false)
    (answers : refresh token store.state = .ok (pair, state)) :
    (tokenRequests token actions).Alone index (store, .arriving)
      ({ store with state := state, outcomes := .exchanged pair :: store.outcomes },
        .ended (.ok (some pair))) := by
  simp only [refresh, issue, bind_eq_ok] at answers
  rcases answers with ⟨userId, decodes, row, isUsable, account, isActive, created, creates, isPair⟩
  cases isPair
  have starts : (actions index).act token store .arriving =
      some (store, .revoking row userId) := by
    rw [act_of_works works, isRefresh]
    simp only [AuthAction.work, AuthAction.startOutcomes, AuthAction.start, decodes, isUsable]
  apply Interleaving.Tasks.Alone.first starts
  have locks : (actions index).act token store (.revoking row userId) =
      some ({ store with locked := true }, .revoked row store.state.now userId) := by
    rw [act_of_works works, AuthAction.work, AuthStore.lockRow, if_neg (by simp [unlocked])]
  apply Interleaving.Tasks.Alone.first locks
  have locked : { store with locked := true }.refusing = false := works
  have checks : (actions index).act token { store with locked := true }
      (.revoked row store.state.now userId) =
        some ({ store with locked := true }, .issuing row store.state.now account) := by
    rw [act_of_works locked]
    simp only [AuthAction.work, isActive]
  apply Interleaving.Tasks.Alone.first checks
  have issues : (actions index).act token { store with locked := true }
      (.issuing row store.state.now account) = some
        ({ store with state := drawn store.state, locked := true },
          .issued row store.state.now (tokenPair account store.state)
            (issuedRow account.id (tokenPair account store.state).refreshToken
              store.state.now)) := act_of_works locked
  apply Interleaving.Tasks.Alone.first issues
  have lockedLater :
      { store with state := drawn store.state, locked := true }.refusing = false := works
  have creates : RefreshTokenRepository.create (issuedRow account.id
      (tokenPair account store.state).refreshToken store.state.now)
      (RefreshTokenRepository.revoke row store.state.now (drawn store.state)) = .ok state :=
    creates
  have commits : (actions index).act token { store with
      state := drawn store.state
      locked := true } (.issued row store.state.now (tokenPair account store.state)
        (issuedRow account.id (tokenPair account store.state).refreshToken store.state.now)) =
      some ({ store with
          state := state
          outcomes := .exchanged (tokenPair account store.state) :: store.outcomes },
        .ended (.ok (some (tokenPair account store.state)))) := by
    rw [act_of_works lockedLater]
    simp only [AuthAction.work, creates, ← unlocked]
  exact .single commits

/-- A logout that no other request interferes with is `logout`. -/
theorem logout_alone (isLogout : actions index = .logout) (works : store.refusing = false)
    (unlocked : store.locked = false) :
    ∃ outcomes, (tokenRequests token actions).Alone index (store, .arriving)
      ({ store with state := logout token store.state, outcomes := outcomes },
        .ended (.ok none)) := by
  cases found : (RefreshTokenRepository.getByHash store.state (TokenLibrary.hashToken token)).filter
      fun row => row.revokedAt.isNone with
  | none =>
      have ends : (actions index).act token store .arriving =
          some ({ store with outcomes := AuthAction.logout.startOutcomes token store },
            .ended (.ok none)) := by
        rw [act_of_works works, isLogout]
        simp only [AuthAction.work, AuthAction.start, found]
      apply Exists.intro _
      simp only [logout, found]
      exact .single ends
  | some row =>
      have starts : (actions index).act token store .arriving =
          some ({ store with outcomes := AuthAction.logout.startOutcomes token store },
            .leaving row) := by
        rw [act_of_works works, isLogout]
        simp only [AuthAction.work, AuthAction.start, found]
      have locks : (actions index).act token { store with
          outcomes := AuthAction.logout.startOutcomes token store } (.leaving row) =
            some ({ store with
              locked := true
              outcomes := AuthAction.logout.startOutcomes token store },
              .left row store.state.now) := by
        have stillWorks : { store with
            outcomes := AuthAction.logout.startOutcomes token store }.refusing = false := works
        rw [act_of_works stillWorks, AuthAction.work, AuthStore.lockRow,
          if_neg (by simp [unlocked])]
      apply Exists.intro (.loggedOut :: AuthAction.logout.startOutcomes token store)
      apply Interleaving.Tasks.Alone.first starts
      apply Interleaving.Tasks.Alone.first locks
      have locked : { store with
          locked := true
          outcomes := AuthAction.logout.startOutcomes token store }.refusing = false := works
      have commits : (actions index).act token { store with
          locked := true
          outcomes := AuthAction.logout.startOutcomes token store } (.left row store.state.now) =
            some ({ store with
              state := RefreshTokenRepository.revoke row store.state.now store.state
              locked := false
              outcomes := .loggedOut :: AuthAction.logout.startOutcomes token store },
              .ended (.ok none)) := act_of_works locked
      simp only [logout, found]
      rw [unlocked]
      exact .single commits

end Alone

end Requests

end CloudDrive
