import CloudDrive.Operation
import CloudDrive.PublicShare

/-! # How long a share credential lives

A refresh is refused at the cap of its chain, but the token it issues lives for
a whole token lifetime from then on. -/

namespace CloudDrive

open Outcome Relational Execution

namespace PublicShareService

section Chains

variable [Platform] [ShareSettings]

/-- A credential with the time it was issued at, and the time the first one of
its chain was. -/
structure Issued where
  token : ShareAccessToken
  issuedAt : Instant
  chainStart : Instant

structure GuestState where
  links : Table ShareLink
  items : ItemTable
  issued : List Issued

inductive SessionCall where
  | openSession (token : String) (password : Option String) (now countedAt issuedAt : Instant)
  | refreshSession (accessToken : ShareAccessToken) (now issuedAt : Instant)
  | elsewhere

/-- Sessions are opened and refreshed, and in between the owner may do anything
to the links and the drive. -/
inductive SessionStep : SessionCall → GuestState → GuestState → Prop
  | opened {before : GuestState} {token : String} {password : Option String}
      {now countedAt issuedAt : Instant} {response : PublicSessionResponse}
      {links : Table ShareLink} :
      openSession token password now countedAt issuedAt before.links before.items =
        (.ok response, links) →
      SessionStep (.openSession token password now countedAt issuedAt) before
        { before with
          links := links
          issued := before.issued ++ [⟨response.accessToken, issuedAt, issuedAt⟩] }
  | refreshed {before : GuestState} {earlier : Issued} {now issuedAt : Instant}
      {response : PublicSessionResponse} :
      earlier ∈ before.issued → now ≤ issuedAt →
      refreshSession earlier.token now issuedAt before.links before.items = .ok response →
      SessionStep (.refreshSession earlier.token now issuedAt) before
        { before with
          issued := before.issued ++ [⟨response.accessToken, issuedAt, earlier.chainStart⟩] }
  | elsewhere {before : GuestState} {links : Table ShareLink} {items : ItemTable} :
      SessionStep .elsewhere before { before with links := links, items := items }

/-- What the service wrote into the token. -/
structure Genuine (issued : Issued) : Prop where
  cst : issued.token.cst = issued.chainStart
  iat : issued.token.iat = issued.issuedAt / second
  exp : issued.token.exp = (issued.issuedAt + tokenLifetime) / second

theorem openSession_token {token : String} {password : Option String}
    {now countedAt issuedAt : Instant} {links after : Table ShareLink} {items : ItemTable}
    {response : PublicSessionResponse}
    (runs : openSession token password now countedAt issuedAt links items =
      (.ok response, after)) :
    ∃ link : ShareLink, response.accessToken =
      createShareAccessToken link.id link.itemId link.permission none issuedAt := by
  rw [openSession] at runs
  split at runs
  · cases runs
  · rename_i link found
    split at runs
    · cases runs
    · have result := congrArg Prod.fst runs
      simp only [bind_eq_ok, pure_eq_ok] at result
      rcases result with ⟨_, _, _, _, _, _, rfl⟩
      exact ⟨link, rfl⟩

theorem refreshSession_token {accessToken : ShareAccessToken} {now issuedAt : Instant}
    {links : Table ShareLink} {items : ItemTable} {response : PublicSessionResponse}
    (runs : refreshSession accessToken now issuedAt links items = .ok response) :
    now < accessToken.cst + maxLifetime ∧
      response.accessToken = createShareAccessToken accessToken.sub accessToken.itm
        accessToken.prm (some accessToken.cst) issuedAt := by
  simp only [refreshSession, bind_eq_ok, require_eq_ok, pure_eq_ok, authorize_eq_ok] at runs
  rcases runs with ⟨_, ⟨_, _, _, _, _, _, _, _, rfl⟩, _, early, rfl⟩
  exact ⟨early, rfl⟩

def AllGenuine (state : GuestState) : Prop :=
  ∀ issued ∈ state.issued, Genuine issued

theorem AllGenuine.step {action : SessionCall} {before after : GuestState}
    (genuine : AllGenuine before) (taken : SessionStep action before after) :
    AllGenuine after := by
  cases taken with
  | opened runs =>
      intro issued member
      rcases List.mem_append.mp member with earlier | new
      · exact genuine issued earlier
      · rcases openSession_token runs with ⟨link, isToken⟩
        rw [List.mem_singleton.mp new, isToken]
        exact ⟨rfl, rfl, rfl⟩
  | refreshed among _ runs =>
      intro issued member
      rcases List.mem_append.mp member with earlier | new
      · exact genuine issued earlier
      · rw [List.mem_singleton.mp new, (refreshSession_token runs).2]
        exact ⟨(genuine _ among).cst, rfl, rfl⟩
  | elsewhere => exact genuine

theorem allGenuine_of_run {start final : GuestState}
    {events : List (Event GuestState SessionCall)}
    (run : Run SessionStep start events final) (fresh : start.issued = []) :
    AllGenuine final := by
  have initial : AllGenuine start := by
    intro issued member
    rw [fresh] at member
    cases member
  exact run.keeps initial fun _ _ genuine taken => genuine.step taken

/-! ## The cap -/

/-- Whatever became of the link and the drive, `_authorize` does not accept the
credential any more once its chain has reached the cap. -/
def CappedFrom (issued : Issued) : Prop :=
  ∀ (links : Table ShareLink) (items : ItemTable) (now : Instant),
    issued.chainStart + maxLifetime ≤ now →
      ∀ auth, authorize links items now issued.token ≠ .ok auth

/-- The expiry, in whole seconds, is not after the cap. -/
def IssuedInTime (issued : Issued) : Prop :=
  (issued.issuedAt + tokenLifetime) / second * second ≤ issued.chainStart + maxLifetime

/-- A drive with one shared folder. -/
def soleRoot (itemId : Uuid) : DriveItem where
  id := itemId
  ownerId := 1
  parentId := none
  itemType := .folder
  name := "Shared"
  mimeType := none
  extension := none
  sizeBytes := 0
  storageKey := none
  checksumSha256 := none
  isStarred := false
  isDeleted := false
  deletedAt := none
  createdBy := 1
  updatedBy := none
  createdAt := 0
  updatedAt := 0

def soleItems (itemId : Uuid) : ItemTable where
  rows := [soleRoot itemId]
  nodup := List.nodup_singleton _
  fits row member := by
    rw [List.mem_singleton.mp member]
    exact ⟨show "Shared".length ≤ 512 by decide, by simp [soleRoot], by simp [soleRoot]⟩
  slotsFree := List.pairwise_singleton _ _
  parentsExist row member top step := by
    rw [List.mem_singleton.mp member] at step
    cases step

def soleLink (linkId itemId : Uuid) : ShareLink where
  id := linkId
  itemId := itemId
  tokenHash := ""
  permission := .viewer
  passwordHash := none
  expiresAt := none
  isActive := true
  attemptWindowStart := none
  attemptCount := 0
  lockedUntil := none

def soleLinks (linkId itemId : Uuid) : Table ShareLink where
  rows := [soleLink linkId itemId]
  nodup := List.nodup_singleton _

omit [ShareSettings] in
/-- An active link and a live folder are enough for a token that has not expired. -/
theorem authorize_sole {token : ShareAccessToken} {now : Instant}
    (issued : token.iat * second ≤ now) (alive : now < token.exp * second) :
    ∃ auth, authorize (soleLinks token.sub token.itm) (soleItems token.itm) now token =
      .ok auth := by
  have isLink : (soleLinks token.sub token.itm).find? token.sub =
      some (soleLink token.sub token.itm) :=
    Table.find?_eq_some.mpr ⟨List.mem_singleton_self _, rfl⟩
  have isRoot : (soleItems token.itm).find? token.itm = some (soleRoot token.itm) :=
    ItemTable.find?_eq_some.mpr ⟨List.mem_singleton_self _, rfl⟩
  exact ⟨_, authorize_eq_ok.mpr ⟨⟨issued, alive⟩, soleLink token.sub token.itm, isLink, rfl, rfl,
    soleRoot token.itm, isRoot, rfl, rfl⟩⟩

omit [Platform] in
/-- A token outlives the moment it is issued at. -/
theorem lt_expiry (positive : 0 < ShareSettings.tokenExpireMinutes) (issuedAt : Nat) :
    issuedAt < (issuedAt + tokenLifetime) / second * second := by
  unfold tokenLifetime minute second
  omega

/-- In every run of the session calls, a credential is dead from the cap of its
chain on exactly when its own expiry is not after the cap. -/
theorem capped_iff_issuedInTime (positive : 0 < ShareSettings.tokenExpireMinutes)
    {start final : GuestState} {events : List (Event GuestState SessionCall)}
    (run : Run SessionStep start events final) (fresh : start.issued = []) :
    ∀ issued ∈ final.issued, CappedFrom issued ↔ IssuedInTime issued := by
  intro issued member
  have genuine := allGenuine_of_run run fresh issued member
  constructor
  · intro capped
    by_contra late
    have expiry : issued.chainStart + maxLifetime < issued.token.exp * second := by
      rw [genuine.exp]
      exact Nat.lt_of_not_le late
    have living : issued.issuedAt < issued.token.exp * second := by
      rw [genuine.exp]
      exact lt_expiry positive issued.issuedAt
    have begun : issued.token.iat * second ≤ issued.issuedAt := by
      rw [genuine.iat]
      exact Nat.div_mul_le_self _ _
    let now := max (issued.chainStart + maxLifetime) issued.issuedAt
    rcases authorize_sole (begun.trans (le_max_right _ _))
        (show now < issued.token.exp * second from max_lt expiry living) with ⟨auth, accepted⟩
    exact capped _ _ now (le_max_left _ _) auth accepted
  · intro inTime links items now late auth accepted
    have alive := (authorize_eq_ok.mp accepted).1.2
    rw [genuine.exp] at alive
    exact absurd (alive.trans_le (inTime.trans late)) (Nat.lt_irrefl _)

end Chains

/-! ## Refreshing late -/

section LateRefresh

attribute [local instance] smallPlatform

/-- The default settings, with hashes that keep the text. -/
@[reducible] def defaultShareSettings : ShareSettings where
  tokenExpireMinutes := 15
  tokenMaxLifetimeMinutes := 240
  attemptLimit := 5
  lockoutMinutes := 5
  hashToken text := text
  verifyPassword password hash := decide (password = hash)

attribute [local instance] defaultShareSettings

private def opening : GuestState := ⟨soleLinks 20 10, soleItems 10, []⟩

private def issuedAfter (renewals : Nat) : Issued where
  token := createShareAccessToken 20 10 .viewer (some 0) (renewals * (14 * minute))
  issuedAt := renewals * (14 * minute)
  chainStart := 0

/-- A session opened at time 0 and refreshed every 14 minutes. -/
private def refreshed (renewals : Nat) : GuestState where
  links := soleLinks 20 10
  items := soleItems 10
  issued := (List.range (renewals + 1)).map issuedAfter

private theorem stillValid (renewals : Nat) :
    renewals * (14 * minute) / second * second ≤ (renewals + 1) * (14 * minute) := by
  unfold minute second
  omega

private theorem stillAlive (renewals : Nat) :
    (renewals + 1) * (14 * minute) <
      (renewals * (14 * minute) + tokenLifetime) / second * second := by
  show (renewals + 1) * (14 * minute) <
    (renewals * (14 * minute) + 15 * minute) / second * second
  unfold minute second
  omega

private theorem beforeCap (renewals : Nat) (small : renewals + 1 ≤ 17) :
    (renewals + 1) * (14 * minute) < 0 + maxLifetime := by
  show (renewals + 1) * (14 * minute) < 0 + 240 * minute
  unfold minute second
  omega

private theorem renewed : ∀ renewals ≤ 17, ∃ events,
    Run SessionStep opening events (refreshed renewals)
  | 0, _ => by
      have opens : openSession "" none 0 0 0 opening.links opening.items =
          (.ok (sessionResponse (createShareAccessToken 20 10 .viewer none 0) .viewer
            (soleRoot 10)), opening.links) := rfl
      exact ⟨_, Run.single (.opened opens)⟩
  | renewals + 1, small => by
      rcases renewed renewals (by omega) with ⟨events, run⟩
      have among : issuedAfter renewals ∈ (refreshed renewals).issued :=
        List.mem_map_of_mem List.self_mem_range_succ
      have refreshes : refreshSession (issuedAfter renewals).token
          ((renewals + 1) * (14 * minute)) ((renewals + 1) * (14 * minute))
          (refreshed renewals).links (refreshed renewals).items =
          .ok (sessionResponse (issuedAfter (renewals + 1)).token .viewer (soleRoot 10)) := by
        simp only [refreshSession, bind_eq_ok, require_eq_ok, pure_eq_ok, authorize_eq_ok]
        refine ⟨_, ⟨⟨stillValid renewals, stillAlive renewals⟩, soleLink 20 10, rfl, rfl, rfl,
          soleRoot 10, rfl, rfl, rfl⟩, (), beforeCap renewals small, rfl⟩
      have next := run.next (.refreshed among le_rfl refreshes)
      have sameState : refreshed (renewals + 1) = { refreshed renewals with
          issued := (refreshed renewals).issued ++ [issuedAfter (renewals + 1)] } := by
        simp [refreshed, List.range_succ]
      rw [sameState]
      exact ⟨_, next⟩

private def lastIssued : Issued := issuedAfter 17

private theorem lastIssued_mem : lastIssued ∈ (refreshed 17).issued :=
  List.mem_map_of_mem List.self_mem_range_succ

/-- The token of the sixteenth refresh, at minute 224, expires at minute 239. -/
theorem capped_iff_issuedInTime_inTime :
    issuedAfter 16 ∈ (refreshed 17).issued ∧ CappedFrom (issuedAfter 16) := by
  have among : issuedAfter 16 ∈ (refreshed 17).issued :=
    List.mem_map_of_mem (List.mem_range.mpr (by decide))
  rcases renewed 17 le_rfl with ⟨events, run⟩
  exact ⟨among, (capped_iff_issuedInTime (by decide) run rfl (issuedAfter 16) among).mpr
    (by unfold IssuedInTime; decide)⟩

/-- The last refresh is at minute 238, the cap at 240; at 250 the credential is
still accepted. -/
theorem lateRefresh_accepted :
    (∃ events, Run SessionStep opening events (refreshed 17)) ∧
      lastIssued ∈ (refreshed 17).issued ∧
      lastIssued.chainStart + maxLifetime ≤ 250 * minute ∧
      ∃ auth, authorize opening.links opening.items (250 * minute) lastIssued.token =
        .ok auth :=
  ⟨renewed 17 le_rfl, lastIssued_mem, by decide, authorize_sole (by decide) (by decide)⟩

end LateRefresh

end PublicShareService

end CloudDrive
