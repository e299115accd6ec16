import CloudDrive.PublicShare.Lifetime
import CloudDrive.Foundation.Interleaving

/-! # The password throttle under concurrency

Any number of `open_session` requests on one link. Each reads the row of the link,
computes the attempt state from what it has read, writes it and then looks at the
password. The update locks the row until the request commits, but the state it
writes may be computed from a row that is no longer the committed one. -/

namespace CloudDrive

open Execution Interleaving

section Throttle

variable [ShareSettings] {ι : Type} [DecidableEq ι]

/-- The arguments of `open_session`. -/
structure SessionRequest where
  token : String
  password : Option String

/-- How far a request has come. -/
inductive SessionStage where
  | arriving
  | reading (now : Instant)
  | counting (link : ShareLink) (hash password : String)
  | updating (link : ShareLink) (hash password : String) (state : PublicShareService.AttemptState)
  | updated (hash password : String) (state : PublicShareService.AttemptState)
  | closing (state : PublicShareService.AttemptState) (passed : Bool)
  | ended (result : Except ShareError Unit)

/-- What the throttle is about: a password was verified, by an attempt counted in
this window, or a lock was recorded. -/
inductive Attempt where
  | verified (window : Option Instant) (verifiedAt : Instant)
  | locked (lockedUntil : Instant)
  deriving DecidableEq

/-- The committed row of the link, the clock, the request whose update has locked
the row, and what has happened, latest first. -/
structure LinkStore (ι : Type) where
  link : ShareLink
  now : Instant
  heldBy : Option ι
  history : List Attempt

namespace PublicShareService

/-- The columns of a row that `_register_attempt` reads and writes. -/
def attempts (link : ShareLink) : AttemptState :=
  ⟨link.attemptWindowStart, link.attemptCount, link.lockedUntil⟩

def counted (link : ShareLink) (state : AttemptState) : ShareLink :=
  { link with
    attemptWindowStart := state.windowStart
    attemptCount := state.count
    lockedUntil := state.lockedUntil }

/-- The next action of a request. -/
def openSessionAct (request : SessionRequest) (index : ι) (store : LinkStore ι) :
    SessionStage → Option (LinkStore ι × SessionStage)
  | .arriving => some (store, .reading store.now)
  | .reading now =>
      let link := store.link
      if link.tokenHash ≠ ShareSettings.hashToken request.token ∨ link.locked now ∨
          link.isActive = false ∨ link.expired now then
        some (store, .ended (.error .invalid))
      else
        match link.passwordHash, request.password with
        | none, _ => some (store, .ended (.ok ()))
        | some _, none => some (store, .ended (.error .passwordRequired))
        | some hash, some password => some (store, .counting link hash password)
  | .counting link hash password =>
      some (store, .updating link hash password
        (registerAttempt store.now link.attemptWindowStart link.attemptCount))
  | .updating _ hash password state =>
      if store.heldBy = none then
        some ({ store with heldBy := some index }, .updated hash password state)
      else
        none
  | .updated hash password state =>
      match state.lockedUntil with
      | some _ => some (store, .closing state false)
      | none =>
          some ({ store with history := .verified state.windowStart store.now :: store.history },
            .closing state (ShareSettings.verifyPassword password hash))
  | .closing state passed =>
      -- The commit in `finally`: the attempt stays counted when it has failed.
      some ({ store with
          link := counted store.link state
          heldBy := none
          history := (state.lockedUntil.map Attempt.locked).toList ++ store.history },
        .ended (if passed then .ok () else .error .invalid))
  | .ended _ => none

/-- Requests on one link, while time passes. -/
def openSessions (requests : ι → SessionRequest) :
    Tasks ι (LinkStore ι) SessionStage Nat where
  act index := openSessionAct (requests index) index
  happen elapsed store := some { store with now := store.now + elapsed }

abbrev AttemptWorld (ι : Type) := World ι (LinkStore ι) SessionStage

def allArrive (link : ShareLink) (now : Instant) : AttemptWorld ι where
  store := ⟨link, now, none, []⟩
  task _ := .arriving

end PublicShareService

/-! ## What the throttle promises -/

def Attempt.isVerifiedIn (window : Instant) : Attempt → Bool
  | .verified counted _ => decide (counted = some window)
  | .locked _ => false

def verifiedIn (window : Instant) (history : List Attempt) : Nat :=
  history.countP (Attempt.isVerifiedIn window)

/-- A password verified after a lock was recorded is verified after it has ended. -/
def Attempt.Respects (later earlier : Attempt) : Prop :=
  ∀ window verifiedAt lockedUntil, later = .verified window verifiedAt →
    earlier = .locked lockedUntil → lockedUntil ≤ verifiedAt

structure Throttled (history : List Attempt) : Prop where
  perWindow : ∀ window, verifiedIn window history ≤ ShareSettings.attemptLimit
  locks : history.Pairwise Attempt.Respects

/-- A request that is about to write its attempt state finds the row as it has read
it. -/
def WritesFresh (event : Event (PublicShareService.AttemptWorld ι) (Move ι Nat)) : Prop :=
  ∀ index link hash password state, event.action = .turn index →
    event.before.task index = .updating link hash password state →
    PublicShareService.attempts event.before.store.link = PublicShareService.attempts link

instance (event : Event (PublicShareService.AttemptWorld ι) (Move ι Nat)) :
    Decidable (WritesFresh event) :=
  match isTurn : event.action with
  | .event _ => .isTrue fun _ _ _ _ _ same => nomatch isTurn.symm.trans same
  | .turn index =>
      match stage : event.before.task index with
      | .updating link _ _ _ =>
          decidable_of_iff
            (PublicShareService.attempts event.before.store.link =
              PublicShareService.attempts link) (by
                constructor
                · intro fresh other seen _ _ _ same isUpdating
                  cases isTurn.symm.trans same
                  cases stage.symm.trans isUpdating
                  exact fresh
                · intro fresh
                  exact fresh index link _ _ _ isTurn stage)
      | .arriving | .reading _ | .counting .. | .updated .. | .closing .. | .ended _ =>
          .isTrue (by
            intro other link _ _ _ same isUpdating
            cases isTurn.symm.trans same
            cases stage.symm.trans isUpdating)

namespace PublicShareService

/-- The attempts of `history`, as `state` counts them; `unverified` of those it
counts are still to be looked at. -/
structure Accounts (state : AttemptState) (history : List Attempt) (unverified : Nat) :
    Prop where
  older : ∀ window, 0 < verifiedIn window history →
    ∃ current, state.windowStart = some current ∧ window ≤ current
  perWindow : ∀ window, verifiedIn window history ≤ ShareSettings.attemptLimit
  current : ∀ window, state.windowStart = some window →
    verifiedIn window history + unverified ≤ state.count

theorem Accounts.nothing (state : AttemptState) : Accounts state [] 0 where
  older _ positive := absurd positive (Nat.lt_irrefl 0)
  perWindow _ := Nat.zero_le _
  current _ _ := Nat.zero_le _

theorem Accounts.none_later {state : AttemptState} {history : List Attempt} {unverified : Nat}
    (accounts : Accounts state history unverified) {window : Instant}
    (later : ∀ current, state.windowStart = some current → current < window) :
    verifiedIn window history = 0 := by
  by_contra notNone
  rcases accounts.older window (Nat.pos_of_ne_zero notNone) with ⟨current, isCurrent, before⟩
  exact Nat.lt_irrefl current (Nat.lt_of_lt_of_le (later current isCurrent) before)

omit [ShareSettings] in
/-- An attempt is counted in the window of the row, or opens a window of its own. -/
theorem countingWindow_cases (now : Instant) (windowStart : Option Instant) (count : Nat) :
    (countingWindow now windowStart count = (now, 0) ∧
      ∀ current, windowStart = some current → current < now) ∨
    ∃ current, windowStart = some current ∧
      countingWindow now windowStart count = (current, count) := by
  cases windowStart with
  | none => exact .inl ⟨rfl, fun _ isCurrent => nomatch isCurrent⟩
  | some current =>
      rw [countingWindow]
      by_cases elapsed : minute ≤ now - current
      · rw [if_pos elapsed]
        apply Or.inl
        apply And.intro rfl
        intro start isStart
        cases isStart
        exact Nat.lt_of_sub_pos (Nat.lt_of_lt_of_le (by decide) elapsed)
      · rw [if_neg elapsed]
        exact .inr ⟨current, rfl, rfl⟩

/-- Registering an attempt leaves one to be verified. -/
theorem Accounts.register {state : AttemptState} {history : List Attempt}
    (accounts : Accounts state history 0) (now : Instant) :
    Accounts (registerAttempt now state.windowStart state.count) history 1 := by
  rcases countingWindow_cases now state.windowStart state.count with
    ⟨opens, later⟩ | ⟨current, isCurrent, stays⟩
  · constructor
    case perWindow => exact accounts.perWindow
    case older =>
      intro window positive
      rcases accounts.older window positive with ⟨current, isCurrent, before⟩
      rw [registerAttempt, opens]
      exact ⟨now, rfl, Nat.le_of_lt (Nat.lt_of_le_of_lt before (later current isCurrent))⟩
    case current =>
      intro window isWindow
      rw [registerAttempt, opens] at isWindow ⊢
      cases isWindow
      rw [accounts.none_later later]
  · constructor
    case perWindow => exact accounts.perWindow
    case older =>
      intro window positive
      rcases accounts.older window positive with ⟨same, isSame, before⟩
      cases isCurrent.symm.trans isSame
      rw [registerAttempt, stays]
      exact ⟨current, rfl, before⟩
    case current =>
      intro window isWindow
      rw [registerAttempt, stays] at isWindow ⊢
      cases isWindow
      exact Nat.succ_le_succ (accounts.current current isCurrent)

/-- What `_register_attempt` writes has a window, and is within the limit unless it
locks the link. -/
structure Registered (state : AttemptState) : Prop where
  window : ∃ window, state.windowStart = some window
  within : state.lockedUntil = none → state.count ≤ ShareSettings.attemptLimit

theorem registerAttempt_registered (now : Instant) (windowStart : Option Instant) (count : Nat) :
    Registered (registerAttempt now windowStart count) where
  window := ⟨_, rfl⟩
  within unlocked := by
    by_contra beyond
    have more : ShareSettings.attemptLimit < (countingWindow now windowStart count).2 + 1 :=
      Nat.lt_of_not_le beyond
    simp [registerAttempt, more] at unlocked

/-- Looking at the password uses up the attempt. -/
theorem Accounts.verify {state : AttemptState} {history : List Attempt}
    (accounts : Accounts state history 1) (registered : Registered state)
    (unlocked : state.lockedUntil = none) (now : Instant) :
    Accounts state (.verified state.windowStart now :: history) 0 := by
  rcases registered.window with ⟨window, isWindow⟩
  have within := registered.within unlocked
  have here := accounts.current window isWindow
  have same : verifiedIn window (.verified state.windowStart now :: history) =
      verifiedIn window history + 1 := by
    simp [verifiedIn, Attempt.isVerifiedIn, isWindow]
  have others : ∀ other, other ≠ window →
      verifiedIn other (.verified state.windowStart now :: history) =
        verifiedIn other history := by
    intro other different
    simp [verifiedIn, Attempt.isVerifiedIn, isWindow, Ne.symm different]
  constructor
  case older =>
    intro other positive
    by_cases isSame : other = window
    · rw [isSame]
      exact ⟨window, isWindow, Nat.le_refl _⟩
    · rw [others other isSame] at positive
      exact accounts.older other positive
  case perWindow =>
    intro other
    by_cases isSame : other = window
    · rw [isSame, same]
      exact Nat.le_trans here within
    · rw [others other isSame]
      exact accounts.perWindow other
  case current =>
    intro other isOther
    cases isWindow.symm.trans isOther
    rw [same]
    exact here

/-- An attempt that locks the link is not looked at. -/
theorem Accounts.unused {state : AttemptState} {history : List Attempt}
    (accounts : Accounts state history 1) : Accounts state history 0 where
  older := accounts.older
  perWindow := accounts.perWindow
  current window isWindow := Nat.le_of_succ_le (accounts.current window isWindow)

/-- Recording a lock verifies nothing. -/
theorem Accounts.lock {state : AttemptState} {history : List Attempt}
    (accounts : Accounts state history 0) (lockedUntil : Option Instant) :
    Accounts state ((lockedUntil.map Attempt.locked).toList ++ history) 0 := by
  have same : ∀ window, verifiedIn window ((lockedUntil.map Attempt.locked).toList ++ history) =
      verifiedIn window history := by
    intro window
    cases lockedUntil with
    | none => rfl
    | some until_ => simp [verifiedIn, Attempt.isVerifiedIn]
  constructor
  case older => exact fun window positive => accounts.older window (same window ▸ positive)
  case perWindow => exact fun window => (same window).symm ▸ accounts.perWindow window
  case current =>
    exact fun window isWindow => (same window).symm ▸ accounts.current window isWindow

/-! ## A run -/

variable {before after : LinkStore ι} {index other : ι} {requests : ι → SessionRequest}

/-- The row was not locked when the request looked at it. -/
def Unlocked (link : ShareLink) (now : Instant) : Prop :=
  ∃ readAt, readAt ≤ now ∧ link.locked readAt = false

/-- What holds of a request at each stage. -/
def Holds (store : LinkStore ι) (index : ι) : SessionStage → Prop
  | .arriving | .ended _ => store.heldBy ≠ some index
  | .reading now => store.heldBy ≠ some index ∧ now ≤ store.now
  | .counting link _ _ => store.heldBy ≠ some index ∧ Unlocked link store.now
  | .updating link _ _ state => store.heldBy ≠ some index ∧ Unlocked link store.now ∧
      ∃ countedAt, state = registerAttempt countedAt link.attemptWindowStart link.attemptCount
  | .updated _ _ state => store.heldBy = some index ∧ Registered state ∧
      Accounts state store.history 1
  | .closing state _ => store.heldBy = some index ∧ Accounts state store.history 0

/-- A lock that was recorded has ended, or is still on the row. -/
structure LocksKept (store : LinkStore ι) : Prop where
  recorded : ∀ lockedUntil, .locked lockedUntil ∈ store.history → lockedUntil ≤ store.now ∨
    (store.heldBy = none ∧ store.link.lockedUntil = some lockedUntil)
  respected : store.history.Pairwise Attempt.Respects

structure Throttling (world : AttemptWorld ι) : Prop where
  accounts : world.store.heldBy = none →
    Accounts (attempts world.store.link) world.store.history 0
  locks : LocksKept world.store
  holds : ∀ index, Holds world.store index (world.task index)

omit [ShareSettings] in
theorem Unlocked.later {link : ShareLink} {now later : Instant} (unlocked : Unlocked link now)
    (passes : now ≤ later) : Unlocked link later := by
  rcases unlocked with ⟨readAt, before, notLocked⟩
  exact ⟨readAt, Nat.le_trans before passes, notLocked⟩

omit [ShareSettings] in
/-- The lock of a row that was not locked has ended. -/
theorem Unlocked.ended {link : ShareLink} {now lockedUntil : Instant}
    (unlocked : Unlocked link now) (isLock : link.lockedUntil = some lockedUntil) :
    lockedUntil ≤ now := by
  rcases unlocked with ⟨readAt, before, notLocked⟩
  have ended : ¬ readAt < lockedUntil := by simpa [ShareLink.locked, isLock] using notLocked
  exact Nat.le_trans (Nat.le_of_not_lt ended) before

omit [DecidableEq ι] in
/-- What holds of a request, the others leave alone: only the request whose update
has locked the row adds to the history. -/
theorem Holds.frame {stage : SessionStage} (holds : Holds before other stage)
    (passes : before.now ≤ after.now)
    (held : after.heldBy = some other ↔ before.heldBy = some other)
    (history : before.heldBy = some other → after.history = before.history) :
    Holds after other stage := by
  have notHeld : before.heldBy ≠ some other → after.heldBy ≠ some other :=
    fun free holds => free (held.mp holds)
  cases stage with
  | arriving => exact notHeld holds
  | ended => exact notHeld holds
  | reading => exact ⟨notHeld holds.1, Nat.le_trans holds.2 passes⟩
  | counting => exact ⟨notHeld holds.1, holds.2.later passes⟩
  | updating => exact ⟨notHeld holds.1, holds.2.1.later passes, holds.2.2⟩
  | updated =>
      rw [Holds, history holds.1]
      exact ⟨held.mpr holds.1, holds.2⟩
  | closing =>
      rw [Holds, history holds.1]
      exact ⟨held.mpr holds.1, holds.2⟩

omit [DecidableEq ι] in
theorem Throttling.throttled {world : AttemptWorld ι} (throttling : Throttling world) :
    Throttled world.store.history where
  locks := throttling.locks.respected
  perWindow := by
    cases held : world.store.heldBy with
    | none => exact (throttling.accounts held).perWindow
    | some index =>
        have holds := throttling.holds index
        cases stage : world.task index <;> rw [stage] at holds
        case updated => exact holds.2.2.perWindow
        case closing => exact holds.2.perWindow
        case arriving => exact absurd held holds
        case ended => exact absurd held holds
        case reading => exact absurd held holds.1
        case counting => exact absurd held holds.1
        case updating => exact absurd held holds.1

section Step

variable {world next : AttemptWorld ι}

omit [DecidableEq ι] in
/-- A request reads or computes, and the store stays as it is. -/
theorem Throttling.quiet (throttling : Throttling world) (store : next.store = world.store)
    (others : ∀ other, other ≠ index → next.task other = world.task other)
    (holds : Holds world.store index (next.task index)) : Throttling next := by
  constructor
  case accounts => exact store ▸ throttling.accounts
  case locks => exact store ▸ throttling.locks
  case holds =>
    intro any
    rw [store]
    by_cases same : any = index
    · rw [same]
      exact holds
    · rw [others any same]
      exact throttling.holds any

/-- A request that finds the row as it has read it locks it for its update. -/
theorem Throttling.updates (throttling : Throttling world) {link : ShareLink}
    {hash password : String} {state : AttemptState}
    (stage : world.task index = .updating link hash password state)
    (fresh : attempts world.store.link = attempts link) (free : world.store.heldBy = none)
    (store : next.store = { world.store with heldBy := some index })
    (isNext : next.task index = .updated hash password state)
    (others : ∀ other, other ≠ index → next.task other = world.task other) :
    Throttling next := by
  have holds := throttling.holds index
  rw [stage] at holds
  rcases holds with ⟨_, unlocked, countedAt, isState⟩
  constructor
  case accounts =>
    intro nobody
    rw [store] at nobody
    cases nobody
  case locks =>
    rw [store]
    constructor
    case respected => exact throttling.locks.respected
    case recorded =>
      intro lockedUntil member
      rcases throttling.locks.recorded lockedUntil member with ended | ⟨_, still⟩
      · exact .inl ended
      · have same : link.lockedUntil = some lockedUntil :=
          (congrArg AttemptState.lockedUntil fresh).symm.trans still
        exact .inl (unlocked.ended same)
  case holds =>
    intro any
    by_cases same : any = index
    · rw [same, isNext, store]
      have accounts := throttling.accounts free
      rw [fresh] at accounts
      rw [isState]
      exact ⟨rfl, registerAttempt_registered _ _ _, accounts.register countedAt⟩
    · rw [others any same, store]
      apply Holds.frame (throttling.holds any)
      · exact Nat.le_refl _
      · simp [free, Ne.symm same]
      · intro heldBy
        exact absurd (free.symm.trans heldBy) nofun

/-- The request that has locked the row looks at its password. -/
theorem Throttling.verifies (throttling : Throttling world) {hash password : String}
    {state : AttemptState} (stage : world.task index = .updated hash password state)
    (unlocked : state.lockedUntil = none)
    (store : next.store = { world.store with
      history := .verified state.windowStart world.store.now :: world.store.history })
    {passed : Bool} (isNext : next.task index = .closing state passed)
    (others : ∀ other, other ≠ index → next.task other = world.task other) :
    Throttling next := by
  have holds := throttling.holds index
  rw [stage] at holds
  rcases holds with ⟨held, registered, accounts⟩
  constructor
  case accounts =>
    intro nobody
    rw [store] at nobody
    exact absurd (nobody.symm.trans held) nofun
  case locks =>
    rw [store]
    have ended : ∀ lockedUntil, .locked lockedUntil ∈ world.store.history →
        lockedUntil ≤ world.store.now := by
      intro lockedUntil member
      rcases throttling.locks.recorded lockedUntil member with ended | ⟨nobody, _⟩
      · exact ended
      · exact absurd (nobody.symm.trans held) nofun
    constructor
    case recorded =>
      intro lockedUntil member
      rcases List.mem_cons.mp member with isNew | earlier
      · cases isNew
      · exact .inl (ended lockedUntil earlier)
    case respected =>
      apply List.Pairwise.cons _ throttling.locks.respected
      intro earlier member window verifiedAt lockedUntil isVerified isLocked
      cases isVerified
      exact ended lockedUntil (isLocked ▸ member)
  case holds =>
    intro any
    by_cases same : any = index
    · rw [same, isNext, store]
      exact ⟨held, accounts.verify registered unlocked _⟩
    · rw [others any same, store]
      apply Holds.frame (throttling.holds any)
      · exact Nat.le_refl _
      · exact Iff.rfl
      · intro heldBy
        exact absurd (Option.some.inj (heldBy.symm.trans held)) same

/-- The request that has locked the row commits. -/
theorem Throttling.closes (throttling : Throttling world) {state : AttemptState} {passed : Bool}
    (stage : world.task index = .closing state passed)
    (store : next.store = { world.store with
      link := counted world.store.link state
      heldBy := none
      history := (state.lockedUntil.map Attempt.locked).toList ++ world.store.history })
    {result : Except ShareError Unit} (isNext : next.task index = .ended result)
    (others : ∀ other, other ≠ index → next.task other = world.task other) :
    Throttling next := by
  have holds := throttling.holds index
  rw [stage] at holds
  rcases holds with ⟨held, accounts⟩
  constructor
  case accounts =>
    intro _
    rw [store]
    exact accounts.lock state.lockedUntil
  case locks =>
    rw [store]
    constructor
    case recorded =>
      intro lockedUntil member
      rcases List.mem_append.mp member with isNew | earlier
      · rcases Option.map_eq_some_iff.mp (Option.mem_toList.mp isNew) with ⟨new, isLock, same⟩
        cases same
        exact .inr ⟨rfl, isLock⟩
      · rcases throttling.locks.recorded lockedUntil earlier with ended | ⟨nobody, _⟩
        · exact .inl ended
        · exact absurd (nobody.symm.trans held) nofun
    case respected =>
      apply List.pairwise_append.mpr
      apply And.intro
      · cases state.lockedUntil with
        | none => exact .nil
        | some lockedUntil => exact List.pairwise_singleton _ _
      · apply And.intro throttling.locks.respected
        intro later isNew earlier _ window verifiedAt lockedUntil isVerified
        rcases Option.map_eq_some_iff.mp (Option.mem_toList.mp isNew) with ⟨new, _, isLock⟩
        cases isLock.trans isVerified
  case holds =>
    intro any
    by_cases same : any = index
    · rw [same, isNext, store]
      exact nofun
    · rw [others any same, store]
      apply Holds.frame (throttling.holds any)
      · exact Nat.le_refl _
      · simp [held, Ne.symm same]
      · intro heldBy
        exact absurd (Option.some.inj (heldBy.symm.trans held)) same

omit [DecidableEq ι] in
/-- Time passes. -/
theorem Throttling.tick (throttling : Throttling world) {elapsed : Nat}
    (store : next.store = { world.store with now := world.store.now + elapsed })
    (tasks : next.task = world.task) : Throttling next := by
  have passes : world.store.now ≤ world.store.now + elapsed := Nat.le_add_right _ _
  constructor
  case accounts =>
    rw [store]
    exact throttling.accounts
  case locks =>
    rw [store]
    constructor
    case respected => exact throttling.locks.respected
    case recorded =>
      intro lockedUntil member
      rcases throttling.locks.recorded lockedUntil member with ended | still
      · exact .inl (Nat.le_trans ended passes)
      · exact .inr still
  case holds =>
    intro any
    rw [tasks, store]
    exact (throttling.holds any).frame passes Iff.rfl fun _ => rfl

theorem Throttling.turn (throttling : Throttling world) {request : SessionRequest}
    (acts : openSessionAct request index world.store (world.task index) =
      some (next.store, next.task index))
    (others : ∀ other, other ≠ index → next.task other = world.task other)
    (fresh : ∀ link hash password state,
      world.task index = .updating link hash password state →
      attempts world.store.link = attempts link) : Throttling next := by
  have holds := throttling.holds index
  cases stage : world.task index <;> rw [stage] at acts holds
  case ended => cases acts
  case arriving =>
    simp only [openSessionAct, Option.some.injEq, Prod.mk.injEq] at acts
    rcases acts with ⟨store, isNext⟩
    apply throttling.quiet store.symm others
    rw [← isNext]
    exact ⟨holds, Nat.le_refl _⟩
  case reading now =>
    have refused : ∀ {result}, some (world.store, SessionStage.ended result) =
        some (next.store, next.task index) → Throttling next := by
      intro result same
      simp only [Option.some.injEq, Prod.mk.injEq] at same
      apply throttling.quiet same.1.symm others
      rw [← same.2]
      exact holds.1
    by_cases barred : world.store.link.tokenHash ≠ ShareSettings.hashToken request.token ∨
        world.store.link.locked now ∨ world.store.link.isActive = false ∨
        world.store.link.expired now
    · simp only [openSessionAct, barred, if_true] at acts
      exact refused acts
    · have notLocked : world.store.link.locked now = false := by
        by_contra locked
        exact barred (.inr (.inl (Bool.of_not_eq_false locked)))
      simp only [openSessionAct, barred, if_false] at acts
      cases isHash : world.store.link.passwordHash with
      | none =>
          rw [isHash] at acts
          exact refused acts
      | some hash =>
          cases isPassword : request.password with
          | none =>
              rw [isHash, isPassword] at acts
              exact refused acts
          | some password =>
              simp only [isHash, isPassword, Option.some.injEq, Prod.mk.injEq] at acts
              rcases acts with ⟨store, isNext⟩
              apply throttling.quiet store.symm others
              rw [← isNext]
              exact ⟨holds.1, now, holds.2, notLocked⟩
  case counting link hash password =>
    simp only [openSessionAct, Option.some.injEq, Prod.mk.injEq] at acts
    rcases acts with ⟨store, isNext⟩
    apply throttling.quiet store.symm others
    rw [← isNext]
    exact ⟨holds.1, holds.2, _, rfl⟩
  case updating link hash password state =>
    by_cases free : world.store.heldBy = none
    · simp only [openSessionAct, free, if_true, Option.some.injEq, Prod.mk.injEq] at acts
      rcases acts with ⟨store, isNext⟩
      exact throttling.updates stage (fresh _ _ _ _ stage) free store.symm isNext.symm others
    · simp [openSessionAct, free] at acts
  case updated hash password state =>
    cases unlocked : state.lockedUntil with
    | none =>
        simp only [openSessionAct, unlocked, Option.some.injEq, Prod.mk.injEq] at acts
        rcases acts with ⟨store, isNext⟩
        exact throttling.verifies stage unlocked store.symm isNext.symm others
    | some lockedUntil =>
        simp only [openSessionAct, unlocked, Option.some.injEq, Prod.mk.injEq] at acts
        rcases acts with ⟨store, isNext⟩
        apply throttling.quiet store.symm others
        rw [← isNext]
        exact ⟨holds.1, holds.2.2.unused⟩
  case closing state passed =>
    simp only [openSessionAct, Option.some.injEq, Prod.mk.injEq] at acts
    rcases acts with ⟨store, isNext⟩
    exact throttling.closes stage store.symm isNext.symm others

end Step

omit [DecidableEq ι] in
theorem allArrive_throttling (link : ShareLink) (now : Instant) :
    Throttling (allArrive link now : AttemptWorld ι) where
  accounts _ := Accounts.nothing _
  locks := ⟨fun _ member => absurd member List.not_mem_nil, .nil⟩
  holds _ := nofun

/-- As long as every request writes an attempt state computed from the row that is
committed then, the throttle keeps what it promises, whatever the interleaving. -/
theorem throttled_of_fresh {link : ShareLink} {now : Instant}
    {events : List (Event (AttemptWorld ι) (Move ι Nat))} {final : AttemptWorld ι}
    (runs : (openSessions requests).Runs (allArrive link now) events final)
    (fresh : ∀ event ∈ events, WritesFresh event) : Throttled final.store.history := by
  have throttling : Throttling final := by
    apply runs.keeps (allArrive_throttling link now)
    intro event member throttling step
    rcases step.cases with ⟨index, isTurn, acts, others⟩ | ⟨elapsed, _, happens, tasks⟩
    · exact throttling.turn acts others fun link hash password state stage =>
        fresh event member index link hash password state isTurn stage
    · exact throttling.tick (Option.some.inj happens).symm tasks
  exact throttling.throttled

end PublicShareService

end Throttle

/-! ## Six guesses at the password -/

section SixGuesses

open PublicShareService

attribute [local instance] defaultShareSettings

/-- A link with a password that nobody has tried yet. -/
private def guarded : ShareLink :=
  { soleLink 20 10 with passwordHash := some "secret" }

private def guess (_ : Fin 6) : SessionRequest := ⟨"", some "guess"⟩

/-- One request after the other, or all of them read the row before any writes. -/
private def oneByOne : List (Move (Fin 6) Nat) :=
  (List.finRange 6).flatMap fun index => List.replicate 6 (.turn index)

private def allAtOnce : List (Move (Fin 6) Nat) :=
  ((List.finRange 6).flatMap fun index => List.replicate 2 (.turn index)) ++
    (List.finRange 6).flatMap fun index => List.replicate 4 (.turn index)

private def guessed (schedule : List (Move (Fin 6) Nat)) : AttemptWorld (Fin 6) :=
  ((openSessions guess).play schedule (allArrive guarded minute)).getD (allArrive guarded minute)

theorem throttled_of_fresh_oneByOne :
    ∃ events final, (openSessions guess).Runs (allArrive guarded minute) events final ∧
      Throttled final.store.history ∧ verifiedIn minute final.store.history = 5 := by
  have played : (openSessions guess).play oneByOne (allArrive guarded minute) =
      some (guessed oneByOne) := rfl
  have runs := Tasks.runs_of_play played
  have fresh : ∀ event ∈ (openSessions guess).trace oneByOne (allArrive guarded minute),
      WritesFresh event := by decide
  exact ⟨_, _, runs, throttled_of_fresh runs fresh, by decide⟩

theorem allAtOnce_beyondLimit :
    ∃ events final, (openSessions guess).Runs (allArrive guarded minute) events final ∧
      ¬ Throttled final.store.history := by
  have played : (openSessions guess).play allAtOnce (allArrive guarded minute) =
      some (guessed allAtOnce) := rfl
  have six : verifiedIn minute (guessed allAtOnce).store.history = 6 := by decide
  apply Exists.intro _
  apply Exists.intro (guessed allAtOnce)
  apply And.intro (Tasks.runs_of_play played)
  intro throttled
  have within := throttled.perWindow minute
  rw [six] at within
  exact absurd within (by decide)

end SixGuesses

end CloudDrive
