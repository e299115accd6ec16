import CloudDrive.Upload

/-! # Public share links

The guest side of `app/public_share`: sessions, credentials and the writes of an
editor link, which run downstream as the owner of the shared item. A credential
is the payload of a token the service has signed; no other token decodes. -/

namespace CloudDrive

open Outcome Relational

/-- Microseconds since the epoch. -/
abbrev Instant := Nat

def second : Nat := 1000000

def minute : Nat := 60 * second

/-- The settings `share_access_token_expire_minutes`,
`share_access_token_max_lifetime_minutes`, `share_link_attempt_limit` and
`share_link_lockout_minutes`, and the two hashes. -/
class ShareSettings where
  tokenExpireMinutes : Nat
  tokenMaxLifetimeMinutes : Nat
  attemptLimit : Nat
  lockoutMinutes : Nat
  hashToken : String → String
  verifyPassword : String → String → Bool

/-- `LinkPermission`: a link never grants ownership. -/
inductive LinkPermission where
  | viewer
  | downloader
  | editor
  deriving DecidableEq, Repr

structure ShareLink where
  id : Uuid
  itemId : Uuid
  tokenHash : String
  permission : LinkPermission
  passwordHash : Option String
  expiresAt : Option Instant
  isActive : Bool
  attemptWindowStart : Option Instant
  attemptCount : Nat
  lockedUntil : Option Instant
  deriving DecidableEq, Repr

instance : Keyed ShareLink Uuid := ⟨ShareLink.id⟩

@[simp] theorem ShareLink.key_eq (row : ShareLink) : Keyed.key row = row.id := rfl

/-- What the guest paths raise, or what a service downstream raised. -/
inductive ShareError where
  | invalid
  | passwordRequired
  | unauthorized (message : String)
  | forbidden (message : String)
  | invalidOperation (message : String)
  | service (error : ServiceError)
  deriving DecidableEq, Repr

/-! ## Credentials -/

/-- The claims of a share credential: `iat` and `exp` in whole seconds. -/
structure ShareAccessToken where
  sub : Uuid
  itm : Uuid
  prm : LinkPermission
  cst : Instant
  iat : Nat
  exp : Nat
  deriving DecidableEq, Repr

structure ShareAccessClaims where
  linkId : Uuid
  rootItemId : Uuid
  permission : LinkPermission
  chainStartedAt : Instant
  deriving DecidableEq, Repr

section Guest

variable [Platform] [ShareSettings]

def tokenLifetime : Nat := ShareSettings.tokenExpireMinutes * minute

def maxLifetime : Nat := ShareSettings.tokenMaxLifetimeMinutes * minute

def createShareAccessToken (linkId rootItemId : Uuid) (permission : LinkPermission)
    (chainStartedAt : Option Instant) (now : Instant) : ShareAccessToken where
  sub := linkId
  itm := rootItemId
  prm := permission
  cst := chainStartedAt.getD now
  iat := now / second
  exp := (now + tokenLifetime) / second

/-- `jwt.decode` refuses a token that has expired or was issued later than now. -/
def decodeShareAccessToken (now : Instant) (token : ShareAccessToken) :
    Except ShareError ShareAccessClaims := do
  require (token.iat * second ≤ now) (.unauthorized "Invalid or expired share credential")
  require (now < token.exp * second) (.unauthorized "Invalid or expired share credential")
  pure {
    linkId := token.sub
    rootItemId := token.itm
    permission := token.prm
    chainStartedAt := token.cst }

/-- `_Authorized`. -/
structure Authorized where
  claims : ShareAccessClaims
  root : DriveItem
  permission : LinkPermission

/-- `link.expires_at is not None and link.expires_at < now`. -/
def ShareLink.expired (link : ShareLink) (now : Instant) : Bool :=
  link.expiresAt.any fun expiresAt => decide (expiresAt < now)

/-- `link.locked_until is not None and link.locked_until > now`. -/
def ShareLink.locked (link : ShareLink) (now : Instant) : Bool :=
  link.lockedUntil.any fun lockedUntil => decide (now < lockedUntil)

namespace PublicShareService

/-- `except AppError: raise _invalid()`. -/
def orInvalid {α : Type} (outcome : Except ShareError α) : Except ShareError α :=
  match outcome with
  | .ok value => .ok value
  | .error _ => .error .invalid

/-- `_authorize`, with the links and items of the database as they stand. -/
def authorize (links : Table ShareLink) (items : ItemTable) (now : Instant)
    (accessToken : ShareAccessToken) : Except ShareError Authorized := do
  let claims ← orInvalid (decodeShareAccessToken now accessToken)
  let link ← orRaise (links.find? claims.linkId) .invalid
  require (link.isActive = true) .invalid
  require (link.expired now = false) .invalid
  let root ← orRaise (items.find? link.itemId) .invalid
  require (root.isDeleted = false) .invalid
  pure { claims := claims, root := root, permission := link.permission }

/-! ## Sessions -/

structure PublicSessionResponse where
  accessToken : ShareAccessToken
  expiresIn : Nat
  permission : LinkPermission
  item : DriveItem

def sessionResponse (token : ShareAccessToken) (permission : LinkPermission)
    (item : DriveItem) : PublicSessionResponse where
  accessToken := token
  expiresIn := ShareSettings.tokenExpireMinutes * 60
  permission := permission
  item := item

/-- The three columns `_register_attempt` writes. -/
structure AttemptState where
  windowStart : Option Instant
  count : Nat
  lockedUntil : Option Instant
  deriving DecidableEq, Repr

/-- The start of the counting window of an attempt, and the attempts counted in
it before. -/
def countingWindow (now : Instant) (windowStart : Option Instant) (count : Nat) :
    Instant × Nat :=
  match windowStart with
  | none => (now, 0)
  | some start => if minute ≤ now - start then (now, 0) else (start, count)

/-- What `_register_attempt` computes from the window and the count it is given. -/
def registerAttempt (now : Instant) (windowStart : Option Instant) (count : Nat) :
    AttemptState :=
  let window := countingWindow now windowStart count
  { windowStart := some window.1
    count := window.2 + 1
    lockedUntil :=
      if ShareSettings.attemptLimit < window.2 + 1 then
        some (now + ShareSettings.lockoutMinutes * minute)
      else none }

/-- `update_attempt_state`. -/
def updateAttemptState (linkId : Uuid) (state : AttemptState) (links : Table ShareLink) :
    Table ShareLink :=
  links.map
    (fun link =>
      if link.id = linkId then
        { link with
          attemptWindowStart := state.windowStart
          attemptCount := state.count
          lockedUntil := state.lockedUntil }
      else link)
    (fun link => by by_cases same : link.id = linkId <;> simp [same])

/-- The password part of `open_session`: the attempt is counted before the
password is looked at, and stays counted when the request fails. -/
def checkPassword (link : ShareLink) (password : Option String) (now : Instant)
    (links : Table ShareLink) : Except ShareError Unit × Table ShareLink :=
  match link.passwordHash with
  | none => (.ok (), links)
  | some hash =>
      match password with
      | none => (.error .passwordRequired, links)
      | some password =>
          let state := registerAttempt now link.attemptWindowStart link.attemptCount
          let links := updateAttemptState link.id state links
          if state.lockedUntil = none ∧ ShareSettings.verifyPassword password hash = true then
            (.ok (), links)
          else
            (.error .invalid, links)

/-- `open_session`: its result, and the links it commits either way. The clock is
read for the lock, for the attempt and for the new token. -/
def openSession (token : String) (password : Option String)
    (now countedAt issuedAt : Instant) (links : Table ShareLink) (items : ItemTable) :
    Except ShareError PublicSessionResponse × Table ShareLink :=
  match links.rows.find? fun link => decide (link.tokenHash = ShareSettings.hashToken token) with
  | none => (.error .invalid, links)
  | some link =>
      if link.locked now ∨ link.isActive = false ∨ link.expired now then
        (.error .invalid, links)
      else
        let checked := checkPassword link password countedAt links
        let result := do
          checked.1
          let root ← orRaise (items.find? link.itemId) .invalid
          require (root.isDeleted = false) .invalid
          let accessToken :=
            createShareAccessToken link.id link.itemId link.permission none issuedAt
          pure (sessionResponse accessToken link.permission root)
        (result, checked.2)

/-- `refresh_session`; the new token is issued a moment after the checks. -/
def refreshSession (accessToken : ShareAccessToken) (now issuedAt : Instant)
    (links : Table ShareLink) (items : ItemTable) :
    Except ShareError PublicSessionResponse := do
  let auth ← authorize links items now accessToken
  require (now < auth.claims.chainStartedAt + maxLifetime) .invalid
  let token := createShareAccessToken auth.claims.linkId auth.claims.rootItemId
    auth.claims.permission (some auth.claims.chainStartedAt) issuedAt
  pure (sessionResponse token auth.claims.permission auth.root)

/-! ## The subtree of the link -/

/-- The loop of `_resolve_in_subtree`; `_MAX_DEPTH` bounds it. -/
def subtreeWalk (items : ItemTable) (rootId : Uuid) : Nat → Option DriveItem → Bool
  | 0, _ => false
  | _ + 1, none => false
  | fuel + 1, some current =>
      if current.id = rootId then
        true
      else
        match current.parentId with
        | none => false
        | some parentId => subtreeWalk items rootId fuel (items.find? parentId)

def maxDepth : Nat := 64

/-- `_resolve_in_subtree`. -/
def resolveInSubtree (rootId itemId : Uuid) (items : ItemTable) :
    Except ShareError DriveItem := do
  let item ← orRaise (items.find? itemId) .invalid
  require (item.isDeleted = false) .invalid
  require (subtreeWalk items rootId maxDepth (some item) = true) .invalid
  pure item

/-! ## Writes -/

/-- An exception of a service downstream passes through. -/
def downstream {α : Type} (outcome : Except ServiceError α) : Except ShareError α :=
  match outcome with
  | .ok value => .ok value
  | .error error => .error (.service error)

/-- `_assert_can_edit`. -/
def assertCanEdit (auth : Authorized) : Except ShareError Unit :=
  require (auth.permission = .editor) (.forbidden "This link does not allow editing")

/-- `_reload`. -/
def reload (itemId : Uuid) (sys : System) : Except ShareError DriveItem :=
  orRaise (sys.db.items.find? itemId) .invalid

/-- The folder a guest writes into. -/
def guestFolder (auth : Authorized) (folderId : Uuid) (kindMessage : String) (sys : System) :
    Except ShareError DriveItem := do
  let folder ← resolveInSubtree auth.root.id folderId sys.db.items
  require (folder.itemType = .folder) (.invalidOperation kindMessage)
  pure folder

def createFolder (auth : Authorized) (parentId : Uuid) (name : String) (sys : System) :
    Except ShareError (DriveItem × System) := do
  assertCanEdit auth
  let parent ← guestFolder auth parentId "Parent must be a folder" sys
  let (created, sys) ← downstream
    (DriveService.createFolder auth.root.ownerId (some parent.id) name sys)
  let item ← reload created.id sys
  pure (item, sys)

def rename (auth : Authorized) (itemId : Uuid) (newName : String) (sys : System) :
    Except ShareError (DriveItem × System) := do
  assertCanEdit auth
  let item ← resolveInSubtree auth.root.id itemId sys.db.items
  let sys ← downstream (DriveService.rename auth.root.ownerId item.id newName sys)
  let item ← reload item.id sys
  pure (item, sys)

def move (auth : Authorized) (itemId newParentId : Uuid) (sys : System) :
    Except ShareError (DriveItem × System) := do
  assertCanEdit auth
  let item ← resolveInSubtree auth.root.id itemId sys.db.items
  let parent ← guestFolder auth newParentId "Destination must be a folder" sys
  let sys ← downstream (DriveService.move auth.root.ownerId item.id (some parent.id) sys)
  let item ← reload item.id sys
  pure (item, sys)

def trash (auth : Authorized) (itemId : Uuid) (sys : System) : Except ShareError System := do
  assertCanEdit auth
  let item ← resolveInSubtree auth.root.id itemId sys.db.items
  require (item.id ≠ auth.root.id) (.invalidOperation "Cannot trash the shared item itself")
  downstream (TrashService.trashItem auth.root.ownerId item.id sys)

def upload (auth : Authorized) (parentId : Uuid) (filename : String) (stream : List Content)
    (sizeBytes : Nat) (mimeType : Option String) (sys : System) :
    Except ShareError (DriveItem × System) := do
  assertCanEdit auth
  let parent ← guestFolder auth parentId "Uploads need a folder" sys
  let (created, sys) ← downstream (UploadService.uploadSimple auth.root.ownerId
    (some parent.id) filename stream sizeBytes mimeType sys)
  let item ← reload created.id sys
  pure (item, sys)

/-! ## What a successful request has checked -/

omit [Platform] [ShareSettings] in
theorem downstream_eq_ok {α : Type} {outcome : Except ServiceError α} {value : α} :
    downstream outcome = .ok value ↔ outcome = .ok value := by
  cases outcome <;> simp [downstream]

omit [Platform] [ShareSettings] in
theorem orInvalid_eq_ok {α : Type} {outcome : Except ShareError α} {value : α} :
    orInvalid outcome = .ok value ↔ outcome = .ok value := by
  cases outcome <;> simp [orInvalid]

omit [ShareSettings] in
/-- The credential decodes, its link is in force, and the shared item is live. -/
theorem authorize_eq_ok {links : Table ShareLink} {items : ItemTable} {now : Instant}
    {token : ShareAccessToken} {auth : Authorized} :
    authorize links items now token = .ok auth ↔
      (token.iat * second ≤ now ∧ now < token.exp * second) ∧
      ∃ link, links.find? token.sub = some link ∧ link.isActive = true ∧
        link.expired now = false ∧
        ∃ root, items.find? link.itemId = some root ∧ root.isDeleted = false ∧
          auth = ⟨⟨token.sub, token.itm, token.prm, token.cst⟩, root, link.permission⟩ := by
  simp only [authorize, decodeShareAccessToken, bind_eq_ok, orInvalid_eq_ok, require_eq_ok,
    orRaise_eq_ok, pure_eq_ok]
  constructor
  · intro runs
    rcases runs with ⟨_, ⟨_, issued, _, alive, rfl⟩, link, found, _, active, _, valid, root,
      isRoot, _, live, rfl⟩
    exact ⟨⟨issued, alive⟩, link, found, active, valid, root, isRoot, live, rfl⟩
  · intro checked
    rcases checked with ⟨⟨issued, alive⟩, link, found, active, valid, root, isRoot, live, rfl⟩
    exact ⟨_, ⟨(), issued, (), alive, rfl⟩, link, found, (), active, (), valid, root, isRoot, (),
      live, rfl⟩

end PublicShareService

end Guest

end CloudDrive
