import CloudDrive.Auth.RefreshRequests
import CloudDrive.Foundation.Execution

/-! # One refresh token, exchanged once

Concurrent requests exchange a refresh token at most once, and never after it was
revoked by a logout, exactly when no exchange is committed over a row that is no longer
unrevoked. -/

namespace CloudDrive

open Outcome Relational Execution AuthService

section Requests

/-! ## Exchange once -/

def AuthOutcome.isExchange : AuthOutcome → Bool
  | .exchanged _ => true
  | .loggedOut => false

/-- The token was exchanged at most once, and not after a logout. -/
structure ExchangedOnce (outcomes : List AuthOutcome) : Prop where
  once : (outcomes.filter AuthOutcome.isExchange).length ≤ 1
  notLoggedOut : outcomes.Pairwise fun later earlier =>
    earlier = .loggedOut → later.isExchange = false

theorem ExchangedOnce.of_cons {last : AuthOutcome} {outcomes : List AuthOutcome}
    (once : ExchangedOnce (last :: outcomes)) : ExchangedOnce outcomes := by
  apply ExchangedOnce.mk _ (List.pairwise_cons.mp once.notLoggedOut).2
  have sublist := (List.sublist_cons_self last outcomes).filter AuthOutcome.isExchange
  exact Nat.le_trans sublist.length_le once.once

/-- An exchange is the first outcome, if there is only one and none after a logout. -/
theorem ExchangedOnce.nothing_before {last : AuthOutcome} {outcomes : List AuthOutcome}
    (once : ExchangedOnce (last :: outcomes)) (exchange : last.isExchange = true) :
    outcomes = [] := by
  cases outcomes with
  | nil => rfl
  | cons earlier rest =>
      cases earlier with
      | exchanged pair =>
          have two := once.once
          rw [List.filter_cons_of_pos exchange, List.filter_cons_of_pos rfl] at two
          simp at two
      | loggedOut =>
          have notExchange :=
            (List.pairwise_cons.mp once.notLoggedOut).1 .loggedOut List.mem_cons_self rfl
          rw [exchange] at notExchange
          cases notExchange

theorem ExchangedOnce.logout {outcomes : List AuthOutcome} (once : ExchangedOnce outcomes) :
    ExchangedOnce (.loggedOut :: outcomes) :=
  ⟨once.once, .cons (fun _ _ _ => rfl) once.notLoggedOut⟩

theorem exchangedOnce_single (pair : TokenPair) : ExchangedOnce [.exchanged pair] :=
  ⟨Nat.le_refl 1, List.pairwise_singleton _ _⟩

variable [TokenLibrary] {ι : Type}

def Unrevoked (token : String) (state : AuthState) : Prop :=
  ∃ row, RefreshTokenRepository.getByHash state (TokenLibrary.hashToken token) = some row ∧
    row.revokedAt = none

def Revoked (token : String) (state : AuthState) : Prop :=
  ∃ row, RefreshTokenRepository.getByHash state (TokenLibrary.hashToken token) = some row ∧
    row.revokedAt ≠ none

omit [TokenLibrary] in
/-- The next action of the request is the commit of an exchange, which the database
carries out. -/
def AuthTask.Exchanges (store : AuthStore) : AuthTask → Prop
  | .issued _ _ _ new => store.refusing = false ∧ store.state.tokens.Fresh new.tokenHash
  | _ => False

/-- An exchange is committed only while the committed row is unrevoked. -/
def ExchangesUnrevoked (token : String)
    (event : Event (AuthWorld ι) (Interleaving.Move ι AuthChange)) : Prop :=
  ∀ index, event.action = .turn index →
    (event.before.task index).Exchanges event.before.store →
    Unrevoked token event.before.store.state

theorem not_unrevoked_of_revoked {token : String} {state : AuthState}
    (revoked : Revoked token state) : ¬ Unrevoked token state := by
  intro unrevoked
  rcases revoked with ⟨row, found, isRevoked⟩
  rcases unrevoked with ⟨other, isOther, notRevoked⟩
  cases found.symm.trans isOther
  exact isRevoked notRevoked

/-! ## What an action does -/

omit [TokenLibrary] in
/-- The row that a request has read. -/
def AuthTask.row : AuthTask → Option RefreshToken
  | .arriving | .ended _ => none
  | .revoking row _ | .revoked row .. | .issuing row .. | .issued row .. | .leaving row
  | .left row _ => some row

/-- An action is inverted once, for all invariants. -/
inductive AuthActs (token : String) (store after : AuthStore) (task next : AuthTask) : Prop where
  | starts : after.state = store.state →
      (after.outcomes = store.outcomes ∨
        after.outcomes = .loggedOut :: store.outcomes ∧ Revoked token store.state) →
      (∀ row ∈ next.row, row.tokenHash = TokenLibrary.hashToken token ∧
        Unrevoked token store.state) → ¬ task.Exchanges store → AuthActs token store after task next
  | quiet : after.state.tokens = store.state.tokens → after.outcomes = store.outcomes →
      (∀ row ∈ next.row, row ∈ task.row) → ¬ task.Exchanges store →
      AuthActs token store after task next
  | settles {row : RefreshToken} {revokedAt : Timestamp} {last : AuthOutcome} : row ∈ task.row →
      (after.state.tokens = store.state.tokens.put { row with revokedAt := some revokedAt } ∨
        ∃ new, (store.state.tokens.put { row with revokedAt := some revokedAt }).insert? new =
          some after.state.tokens) →
      after.outcomes = last :: store.outcomes → next.row = none →
      (last.isExchange = true ↔ task.Exchanges store) → AuthActs token store after task next

variable {token : String} {action : AuthAction} {store after : AuthStore} {task next : AuthTask}

theorem usable_ok {state : AuthState} {row : RefreshToken} (isUsable : usable token state = .ok row) :
    row.tokenHash = TokenLibrary.hashToken token ∧ Unrevoked token state := by
  simp only [usable, bind_eq_ok, orRaise_eq_ok, require_eq_ok, pure_eq_ok,
    Option.filter_eq_some_iff, Option.isNone_iff_eq_none] at isUsable
  rcases isUsable with ⟨found, ⟨isFound, notRevoked⟩, _, _, rfl⟩
  exact ⟨(Table.find?_eq_some.mp isFound).2, found, isFound, notRevoked⟩

theorem AuthAction.starts_row :
    ∀ row ∈ (action.start token store.state).row,
      row.tokenHash = TokenLibrary.hashToken token ∧ Unrevoked token store.state := by
  intro row holds
  cases action with
  | refresh =>
      simp only [start] at holds
      split at holds
      · cases holds
      · split at holds
        · cases holds
        · rename_i isUsable
          cases holds
          exact usable_ok isUsable
  | logout =>
      simp only [start] at holds
      split at holds
      · cases holds
      · rename_i found
        cases holds
        rcases Option.filter_eq_some_iff.mp found with ⟨isFound, notRevoked⟩
        exact ⟨(Table.find?_eq_some.mp isFound).2, row, isFound,
          Option.isNone_iff_eq_none.mp notRevoked⟩

theorem AuthAction.starts_outcomes : action.startOutcomes token store = store.outcomes ∨
    action.startOutcomes token store = .loggedOut :: store.outcomes ∧
      Revoked token store.state := by
  cases action with
  | refresh => exact .inl rfl
  | logout =>
      cases found : RefreshTokenRepository.getByHash store.state
          (TokenLibrary.hashToken token) with
      | none => simp only [startOutcomes, found, true_or]
      | some row =>
          simp only [startOutcomes, found]
          by_cases fresh : row.revokedAt = none
          · exact .inl (if_pos (Option.isNone_iff_eq_none.mpr fresh))
          · exact .inr ⟨if_neg (mt Option.isNone_iff_eq_none.mp fresh), row, found, fresh⟩

omit [TokenLibrary] in
theorem exchanges_iff {row : RefreshToken} {revokedAt : Timestamp} {pair : TokenPair}
    {new : RefreshToken} (works : store.refusing = false) :
    (AuthTask.issued row revokedAt pair new).Exchanges store ↔ ∃ state,
      RefreshTokenRepository.create new
        (RefreshTokenRepository.revoke row revokedAt store.state) = .ok state := by
  constructor
  · intro exchanges
    rcases Table.insert?_of_fresh (Table.fresh_put.mpr exchanges.2) with ⟨tokens, inserted, _⟩
    exact ⟨_, by rw [RefreshTokenRepository.create, RefreshTokenRepository.revoke, inserted]; rfl⟩
  · intro creates
    rcases creates with ⟨state, creates⟩
    simp only [RefreshTokenRepository.create, bind_eq_ok, orRaise_eq_ok] at creates
    rcases creates with ⟨tokens, inserted, _⟩
    exact ⟨works, Table.fresh_put.mp (Table.insert?_eq_some.mp inserted).1⟩

omit [TokenLibrary] in
theorem AuthTask.fail_acts {error : AuthError} (cannot : ¬ task.Exchanges store) [TokenLibrary] :
    AuthActs token store (task.fail error store).1 task (task.fail error store).2 :=
  .quiet rfl rfl (fun _ holds => nomatch holds) cannot

theorem AuthAction.work_acts (works : store.refusing = false)
    (acts : action.work token store task = some (after, next)) :
    AuthActs token store after task next := by
  cases task with
  | arriving =>
      cases acts
      exact .starts rfl starts_outcomes starts_row not_false
  | revoking row userId =>
      simp only [work, AuthStore.lockRow] at acts
      split_ifs at acts
      cases acts
      exact .quiet rfl rfl (fun _ holds => holds) not_false
  | revoked row revokedAt userId =>
      simp only [work] at acts
      split at acts
      · cases acts
        apply AuthTask.fail_acts
        exact not_false
      · cases acts
        exact .quiet rfl rfl (fun _ holds => holds) not_false
  | issuing row revokedAt account =>
      cases acts
      exact .quiet rfl rfl (fun _ holds => holds) not_false
  | issued row revokedAt pair new =>
      simp only [work] at acts
      split at acts
      · rename_i error fails
        cases acts
        apply AuthTask.fail_acts
        intro exchanges
        rcases (exchanges_iff works).mp exchanges with ⟨state, creates⟩
        rw [fails] at creates
        cases creates
      · rename_i state creates
        cases acts
        have exchanges : (AuthTask.issued row revokedAt pair new).Exchanges store :=
          (exchanges_iff works).mpr ⟨state, creates⟩
        simp only [RefreshTokenRepository.create, bind_eq_ok, orRaise_eq_ok, pure_eq_ok] at creates
        rcases creates with ⟨tokens, inserted, rfl⟩
        exact .settles rfl (.inr ⟨new, inserted⟩) rfl rfl (by simp [AuthOutcome.isExchange, exchanges])
  | leaving row =>
      simp only [work, AuthStore.lockRow] at acts
      split_ifs at acts
      cases acts
      exact .quiet rfl rfl (fun _ holds => holds) not_false
  | left row revokedAt =>
      cases acts
      exact .settles rfl (.inl rfl) rfl rfl (by simp [AuthOutcome.isExchange, AuthTask.Exchanges])
  | ended result => cases acts

theorem AuthAction.acts (acts : action.act token store task = some (after, next)) :
    AuthActs token store after task next := by
  by_cases refuses : store.refusing = true
  · have cannot : ¬ task.Exchanges store := by
      cases task with
      | issued row revokedAt pair new => exact fun exchanges => by simp [exchanges.1] at refuses
      | _ => exact not_false
    have fails : task.fail .integrityError store = (after, next) := by
      cases task with
      | ended result => cases acts
      | _ => simpa [act, refuses] using acts
    have isAfter : after = (task.fail .integrityError store).1 := by rw [fails]
    have isNext : next = (task.fail .integrityError store).2 := by rw [fails]
    rw [isAfter, isNext]
    exact AuthTask.fail_acts cannot
  · rw [Bool.not_eq_true] at refuses
    rw [act_of_works refuses] at acts
    exact work_acts refuses acts

/-! ## A run -/

/-- The row that is found after `revoke`, whatever was inserted beside it. -/
theorem revoked_of_put {before state : AuthState} {row found : RefreshToken}
    {revokedAt : Timestamp} (isToken : row.tokenHash = TokenLibrary.hashToken token)
    (isFound : RefreshTokenRepository.getByHash before (TokenLibrary.hashToken token) = some found)
    (tokens : state.tokens = before.tokens.put { row with revokedAt := some revokedAt } ∨
      ∃ new, (before.tokens.put { row with revokedAt := some revokedAt }).insert? new =
        some state.tokens) : Revoked token state := by
  rw [RefreshTokenRepository.getByHash, ← isToken] at isFound
  have written : (before.tokens.put { row with revokedAt := some revokedAt }).find? row.tokenHash =
      some { row with revokedAt := some revokedAt } := Table.find?_put isFound
  apply Exists.intro { row with revokedAt := some revokedAt }
  constructor
  · rw [RefreshTokenRepository.getByHash, ← isToken]
    rcases tokens with same | ⟨new, inserted⟩
    · rw [same]
      exact written
    · exact Table.find?_insert? inserted written
  · exact Option.some_ne_none revokedAt

/-- What a run keeps. Once a request has settled the token its row is revoked, and
while a request holds the row, it is unrevoked or another request has settled it. -/
structure TokenKept (token : String) (world : AuthWorld ι) : Prop where
  used : world.store.outcomes ≠ [] → Revoked token world.store.state
  holds : ∀ index, ∀ row ∈ (world.task index).row,
    row.tokenHash = TokenLibrary.hashToken token ∧
      (Unrevoked token world.store.state ∨ world.store.outcomes ≠ [])

theorem tokenArrives_kept (state : AuthState) :
    TokenKept token (tokenArrives state : AuthWorld ι) :=
  ⟨fun something => absurd rfl something, fun _ _ holds => nomatch holds⟩

/-- A request holds the row of a token that is stored. -/
theorem TokenKept.found {world : AuthWorld ι} (kept : TokenKept token world) {index : ι}
    {row : RefreshToken} (holds : row ∈ (world.task index).row) :
    ∃ found, RefreshTokenRepository.getByHash world.store.state
      (TokenLibrary.hashToken token) = some found := by
  rcases (kept.holds index row holds).2 with ⟨found, isFound, _⟩ | something
  · exact ⟨found, isFound⟩
  · rcases kept.used something with ⟨found, isFound, _⟩
    exact ⟨found, isFound⟩

section Step

variable [DecidableEq ι] {before world : AuthWorld ι} {index : ι}

theorem TokenKept.turn (kept : TokenKept token before)
    (others : ∀ other, other ≠ index → world.task other = before.task other)
    (acts : AuthActs token before.store world.store (before.task index) (world.task index)) :
    TokenKept token world := by
  cases acts with
  | starts state outcomes row _ =>
      have something : before.store.outcomes ≠ [] → world.store.outcomes ≠ [] := by
        intro something
        rcases outcomes with same | ⟨logout, _⟩
        · exact same ▸ something
        · exact logout ▸ List.cons_ne_nil _ _
      constructor
      case used =>
        intro now
        rw [state]
        rcases outcomes with same | ⟨_, revoked⟩
        · exact kept.used (same ▸ now)
        · exact revoked
      case holds =>
        intro any held holds
        rw [state]
        by_cases same : any = index
        · rw [same] at holds
          exact ⟨(row held holds).1, .inl (row held holds).2⟩
        · rw [others any same] at holds
          exact ⟨(kept.holds any held holds).1, (kept.holds any held holds).2.imp id something⟩
  | quiet tokens outcomes row _ =>
      have sameRow : ∀ tokenHash, RefreshTokenRepository.getByHash world.store.state tokenHash =
          RefreshTokenRepository.getByHash before.store.state tokenHash := fun tokenHash => by
        rw [RefreshTokenRepository.getByHash, tokens, RefreshTokenRepository.getByHash]
      constructor
      case used =>
        rw [outcomes, Revoked, sameRow]
        exact kept.used
      case holds =>
        intro any held holds
        rw [outcomes, Unrevoked, sameRow]
        by_cases same : any = index
        · rw [same] at holds
          exact kept.holds index held (row held holds)
        · rw [others any same] at holds
          exact kept.holds any held holds
  | settles holds tokens outcomes noRow _ =>
      rcases kept.found holds with ⟨found, isFound⟩
      have revoked : Revoked token world.store.state :=
        revoked_of_put (kept.holds index _ holds).1 isFound tokens
      apply TokenKept.mk fun _ => revoked
      intro any held holdsNow
      by_cases same : any = index
      · rw [same, noRow] at holdsNow
        cases holdsNow
      · rw [others any same] at holdsNow
        exact ⟨(kept.holds any held holdsNow).1, .inr (outcomes ▸ List.cons_ne_nil _ _)⟩

omit [DecidableEq ι] in
theorem TokenKept.change (kept : TokenKept token before) {change : AuthChange}
    (tasks : world.task = before.task) (happens : change.apply before.store = some world.store) :
    TokenKept token world ∧ world.store.outcomes = before.store.outcomes := by
  have stays : world.store.outcomes = before.store.outcomes ∧ ∀ row,
      RefreshTokenRepository.getByHash before.store.state (TokenLibrary.hashToken token) =
        some row →
      RefreshTokenRepository.getByHash world.store.state (TokenLibrary.hashToken token) =
        some row := by
    cases change with
    | stores new =>
        rcases Option.map_eq_some_iff.mp happens with ⟨tokens, inserted, isStore⟩
        rw [← isStore]
        exact ⟨rfl, fun row found => Table.find?_insert? inserted found⟩
    | _ =>
        rw [← Option.some.inj happens]
        exact ⟨rfl, fun row found => found⟩
  rcases stays with ⟨outcomes, rows⟩
  apply And.intro _ outcomes
  constructor
  case used =>
    rw [outcomes]
    intro something
    rcases kept.used something with ⟨row, found, revoked⟩
    exact ⟨row, rows row found, revoked⟩
  case holds =>
    rw [tasks, outcomes]
    intro index held holds
    apply And.intro (kept.holds index held holds).1
    rcases (kept.holds index held holds).2 with ⟨row, found, fresh⟩ | something
    · exact .inl ⟨row, rows row found, fresh⟩
    · exact .inr something

end Step

variable [DecidableEq ι] {state : AuthState} {actions : ι → AuthAction}
  {events : List (Event (AuthWorld ι) (Interleaving.Move ι AuthChange))} {final : AuthWorld ι}

theorem tokenKept_of_runs
    (runs : (tokenRequests token actions).Runs (tokenArrives state) events final) :
    TokenKept token final := by
  apply runs.keeps (tokenArrives_kept state)
  intro event _ kept step
  rcases step.cases with ⟨index, _, acts, others⟩ | ⟨change, _, happens, tasks⟩
  · exact kept.turn others (AuthAction.acts acts)
  · exact (kept.change tasks happens).1

omit [TokenLibrary] in
/-- A step that exchanges nothing. -/
theorem exchangedOnce_of_silent {before after : List AuthOutcome}
    (outcomes : after = before ∨ after = .loggedOut :: before) :
    ExchangedOnce after ↔ ExchangedOnce before := by
  rcases outcomes with rfl | rfl
  · exact Iff.rfl
  · exact ⟨ExchangedOnce.of_cons, ExchangedOnce.logout⟩

/-- One step exchanges the token while it is unrevoked, or it spoils the outcomes. -/
theorem exchangedOnce_step {before after : AuthWorld ι} {move : Interleaving.Move ι AuthChange}
    (kept : TokenKept token before) (step : (tokenRequests token actions).Step move before after) :
    ExchangedOnce after.store.outcomes ↔
      ExchangedOnce before.store.outcomes ∧ ExchangesUnrevoked token ⟨before, move, after⟩ := by
  rcases step.cases with ⟨index, isTurn, acts, others⟩ | ⟨change, isEvent, happens, tasks⟩
  · have condition : ExchangesUnrevoked token ⟨before, move, after⟩ ↔
        ((before.task index).Exchanges before.store → Unrevoked token before.store.state) := by
      constructor
      · exact fun unrevoked => unrevoked index isTurn
      · intro unrevoked other same
        cases isTurn.symm.trans same
        exact unrevoked
    rw [condition]
    cases AuthAction.acts acts with
    | starts _ outcomes _ cannot =>
        rw [exchangedOnce_of_silent (outcomes.imp id And.left)]
        exact ⟨fun once => ⟨once, fun exchanges => absurd exchanges cannot⟩, And.left⟩
    | quiet _ outcomes _ cannot =>
        rw [exchangedOnce_of_silent (.inl outcomes)]
        exact ⟨fun once => ⟨once, fun exchanges => absurd exchanges cannot⟩, And.left⟩
    | @settles row _ last holds _ outcomes _ exchange =>
        cases last with
        | loggedOut =>
            rw [exchangedOnce_of_silent (.inr outcomes)]
            have cannot : ¬ (before.task index).Exchanges before.store := fun exchanges =>
              nomatch exchange.mpr exchanges
            exact ⟨fun once => ⟨once, fun exchanges => absurd exchanges cannot⟩, And.left⟩
        | exchanged pair =>
            rw [outcomes]
            constructor
            · intro once
              apply And.intro once.of_cons
              intro _
              rcases (kept.holds index row holds).2 with unrevoked | something
              · exact unrevoked
              · exact absurd (once.nothing_before rfl) something
            · intro both
              have unrevoked := both.2 (exchange.mp rfl)
              have nothing : before.store.outcomes = [] := by
                by_contra something
                exact not_unrevoked_of_revoked (kept.used something) unrevoked
              rw [nothing]
              exact exchangedOnce_single pair
  · rw [exchangedOnce_of_silent (.inl (kept.change tasks happens).2)]
    have condition : ExchangesUnrevoked token ⟨before, move, after⟩ := fun index same =>
      nomatch isEvent.symm.trans same
    exact ⟨fun once => ⟨once, condition⟩, And.left⟩

/-- A refresh token is exchanged at most once, and not after a logout, in exactly those
runs in which no exchange is committed over a row that is not unrevoked. -/
theorem exchangedOnce_iff
    (runs : (tokenRequests token actions).Runs (tokenArrives state) events final) :
    ExchangedOnce final.store.outcomes ↔ ∀ event ∈ events, ExchangesUnrevoked token event := by
  induction runs with
  | nothing =>
      constructor
      · exact fun _ _ none => nomatch none
      · exact fun _ => ⟨Nat.zero_le 1, .nil⟩
  | @next past middle final action run taken induction =>
      rw [exchangedOnce_step (tokenKept_of_runs run) taken, induction]
      constructor
      · intro both event member
        rcases List.mem_append.mp member with before | isLast
        · exact both.1 event before
        · exact List.mem_singleton.mp isLast ▸ both.2
      · intro all
        constructor
        · exact fun event member => all event (List.mem_append_left _ member)
        · exact all _ (List.mem_append_right _ List.mem_cons_self)

end Requests

/-! ## Two exchanges of one token -/

section TwoExchanges

/-- A library that knows one token, and takes every token as its own digest. -/
@[reducible] private def plainTokens : TokenLibrary where
  createAccessToken userId jti _ := s!"access {userId} {jti}"
  createRefreshToken userId jti _ := s!"refresh {userId} {jti}"
  decodeRefreshToken token _ :=
    if token = "refresh 1 11" then .ok 1 else .error (.unauthorized "Invalid token")
  hashToken token := token
  verifyPassword plain hashed := decide (plain = hashed)
  refreshTokenLifetime := 604800

attribute [local instance] plainTokens

private def oneAccount : AuthState where
  accounts := ⟨[⟨1, "a@example.com", "secret", true⟩], List.nodup_singleton _⟩
  tokens := .empty
  now := 0
  uuid4 := 10

/-- The state after a login, which has given the token `refresh 1 11`. -/
private def loggedIn : AuthState :=
  match login "a@example.com" "secret" oneAccount with
  | .ok (_, state) => state
  | .error _ => oneAccount

private def refreshAndLogout : Bool → AuthAction
  | true => .refresh
  | false => .logout

private def bothRefresh (_ : Bool) : AuthAction := .refresh

private abbrev TokenMove := Interleaving.Move Bool AuthChange

private def refreshThenLogout : List TokenMove :=
  List.replicate 5 (.turn true) ++ [.turn false]

private def tokenReadTwice : List TokenMove :=
  [.turn true, .turn false] ++ List.replicate 4 (.turn true) ++ List.replicate 4 (.turn false)

private def playedTokens (actions : Bool → AuthAction) (moves : List TokenMove) :
    AuthWorld Bool :=
  ((tokenRequests "refresh 1 11" actions).play moves (tokenArrives loggedIn)).getD
    (tokenArrives loggedIn)

theorem exchangedOnce_iff_refreshThenLogout :
    ∃ events final, (tokenRequests "refresh 1 11" refreshAndLogout).Runs (tokenArrives loggedIn)
        events final ∧
      final.store.outcomes =
        [.loggedOut, .exchanged ⟨⟨1, "a@example.com", "secret", true⟩, "access 1 12",
          "refresh 1 13"⟩] ∧
      ∀ event ∈ events, ExchangesUnrevoked "refresh 1 11" event := by
  have played : (tokenRequests "refresh 1 11" refreshAndLogout).play refreshThenLogout
      (tokenArrives loggedIn) = some (playedTokens refreshAndLogout refreshThenLogout) := rfl
  have runs := Interleaving.Tasks.runs_of_play played
  have outcomes : (playedTokens refreshAndLogout refreshThenLogout).store.outcomes =
      [.loggedOut, .exchanged ⟨⟨1, "a@example.com", "secret", true⟩, "access 1 12",
        "refresh 1 13"⟩] := by decide
  apply Exists.intro _
  apply Exists.intro (playedTokens refreshAndLogout refreshThenLogout)
  apply And.intro runs
  apply And.intro outcomes
  apply (exchangedOnce_iff runs).mp
  rw [outcomes]
  exact (exchangedOnce_single _).logout

theorem tokenReadTwice_exchangedTwice :
    ∃ events final, (tokenRequests "refresh 1 11" bothRefresh).Runs (tokenArrives loggedIn)
        events final ∧ ¬ ExchangedOnce final.store.outcomes := by
  have played : (tokenRequests "refresh 1 11" bothRefresh).play tokenReadTwice
      (tokenArrives loggedIn) = some (playedTokens bothRefresh tokenReadTwice) := rfl
  apply Exists.intro _
  apply Exists.intro (playedTokens bothRefresh tokenReadTwice)
  apply And.intro (Interleaving.Tasks.runs_of_play played)
  intro once
  exact absurd once.once (by decide)

end TwoExchanges

end CloudDrive
