import CloudDrive.Models

/-! # Authentication

`login`, `refresh` and `logout` of `app/auth/service.py` with the rows they read and
write. A call takes the committed state and gives the state to commit. -/

namespace CloudDrive

open Outcome Relational

/-! ## Rows and errors -/

/-- The columns of `users` that authentication reads. -/
structure Account where
  id : Uuid
  email : String
  passwordHash : String
  isActive : Bool
  deriving DecidableEq, Repr

/-- The unique `token_hash` is the key. -/
structure RefreshToken where
  userId : Uuid
  tokenHash : String
  expiresAt : Timestamp
  revokedAt : Option Timestamp
  createdAt : Timestamp
  deriving DecidableEq, Repr

instance : Keyed Account Uuid := ⟨Account.id⟩
instance : Keyed RefreshToken String := ⟨RefreshToken.tokenHash⟩

@[simp] theorem Account.key_eq (row : Account) : Keyed.key row = row.id := rfl
@[simp] theorem RefreshToken.key_eq (row : RefreshToken) : Keyed.key row = row.tokenHash := rfl

/-- The codes of `AppError`, then what the token library and the database raise. -/
inductive AuthError where
  | invalidCredentials (message : String)
  | userInactive (message : String)
  | unauthorized (message : String)
  | refreshTokenRevoked (message : String)
  | valueError
  | integrityError
  deriving DecidableEq, Repr

/-- `True` for the classes of `AppError`. -/
def AuthError.isAppError : AuthError → Bool
  | .valueError | .integrityError => false
  | _ => true

/-- What the libraries for tokens and passwords compute, and the lifetime of a refresh
token. A token carries the user, a `jti` and the time of issue. -/
class TokenLibrary where
  createAccessToken : Uuid → Uuid → Timestamp → String
  createRefreshToken : Uuid → Uuid → Timestamp → String
  decodeRefreshToken : String → Timestamp → Except AuthError Uuid
  hashToken : String → String
  verifyPassword : String → String → Bool
  refreshTokenLifetime : Nat

/-- The committed rows, the clock, and the next id that `uuid4` draws. -/
structure AuthState where
  accounts : Table Account
  tokens : Table RefreshToken
  now : Timestamp
  uuid4 : Uuid

structure TokenPair where
  account : Account
  accessToken : String
  refreshToken : String
  deriving DecidableEq, Repr

/-! ## Repositories -/

namespace RefreshTokenRepository

def getByHash (state : AuthState) (tokenHash : String) : Option RefreshToken :=
  state.tokens.find? tokenHash

def create (row : RefreshToken) (state : AuthState) : Except AuthError AuthState := do
  let tokens ← orRaise (state.tokens.insert? row) .integrityError
  pure { state with tokens := tokens }

/-- Whatever `revoked_at` is by then. -/
def revoke (row : RefreshToken) (at_ : Timestamp) (state : AuthState) : AuthState :=
  { state with tokens := state.tokens.put { row with revokedAt := some at_ } }

end RefreshTokenRepository

/-! ## The service -/

namespace AuthService

variable [TokenLibrary]

/-- The row that `_issue_refresh_token` and `create` make of a new token. -/
def issuedRow (userId : Uuid) (token : String) (now : Timestamp) : RefreshToken where
  userId := userId
  tokenHash := TokenLibrary.hashToken token
  expiresAt := now + TokenLibrary.refreshTokenLifetime
  revokedAt := none
  createdAt := now

/-- The tokens that an account is given, with the two ids drawn for them. -/
def tokenPair (account : Account) (state : AuthState) : TokenPair where
  account := account
  accessToken := TokenLibrary.createAccessToken account.id state.uuid4 state.now
  refreshToken := TokenLibrary.createRefreshToken account.id (state.uuid4 + 1) state.now

def drawn (state : AuthState) : AuthState := { state with uuid4 := state.uuid4 + 2 }

def issue (account : Account) (state : AuthState) : Except AuthError (TokenPair × AuthState) := do
  let pair := tokenPair account state
  let state ← RefreshTokenRepository.create (issuedRow account.id pair.refreshToken state.now)
    (drawn state)
  pure (pair, state)

def login (email password : String) (state : AuthState) :
    Except AuthError (TokenPair × AuthState) := do
  let account ← orRaise
    (state.accounts.rows.find? fun account => decide (account.email = email))
    (.invalidCredentials "Invalid credentials")
  require (TokenLibrary.verifyPassword password account.passwordHash)
    (.invalidCredentials "Invalid credentials")
  require account.isActive (.userInactive "Account is disabled")
  issue account state

/-- `decode_refresh_token`, whose `AppError`s become one. -/
def decode (token : String) (now : Timestamp) : Except AuthError Uuid :=
  match TokenLibrary.decodeRefreshToken token now with
  | .ok userId => .ok userId
  | .error error => .error (if error.isAppError then .unauthorized "Invalid refresh token"
      else error)

/-- The row of the presented token, when it may still be exchanged. -/
def usable (token : String) (state : AuthState) : Except AuthError RefreshToken := do
  let row ← orRaise ((RefreshTokenRepository.getByHash state (TokenLibrary.hashToken token)).filter
    fun row => row.revokedAt.isNone) (.refreshTokenRevoked "Refresh token has been revoked")
  require (state.now < row.expiresAt) (.unauthorized "Refresh token has expired")
  pure row

omit [TokenLibrary] in
def activeAccount (userId : Uuid) (state : AuthState) : Except AuthError Account :=
  orRaise ((state.accounts.find? userId).filter Account.isActive)
    (.unauthorized "User not found or inactive")

def refresh (token : String) (state : AuthState) : Except AuthError (TokenPair × AuthState) := do
  let userId ← decode token state.now
  let row ← usable token state
  let account ← activeAccount userId state
  issue account (RefreshTokenRepository.revoke row state.now state)

def logout (token : String) (state : AuthState) : AuthState :=
  match (RefreshTokenRepository.getByHash state (TokenLibrary.hashToken token)).filter
      fun row => row.revokedAt.isNone with
  | none => state
  | some row => RefreshTokenRepository.revoke row state.now state

end AuthService

end CloudDrive
