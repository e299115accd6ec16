import CloudDrive.Upload.Accounting
import CloudDrive.Upload.Assembly

/-! # The quota as a ceiling

`used_bytes` stays within the quota for as long as every file that is stored fits in the
space that is free at that moment. Neither upload path checks this: `upload_simple` looks at
the declared size and passes over what open sessions have reserved, and `complete_session`
looks at nothing. -/

namespace CloudDrive

open Outcome Relational Execution QuotaService UploadSessionService

section Ceiling

variable [Platform]

instance (users : Table User) (userId : Uuid) : Decidable (WithinQuota users userId) :=
  inferInstanceAs (Decidable (∀ user ∈ users.find? userId, _))

instance (users : Table User) (userId : Uuid) (bytes : Nat) :
    Decidable (HasRoom users userId bytes) :=
  inferInstanceAs (Decidable (∀ user ∈ users.find? userId, _))

/-- For whom the request stores a file, and of how many bytes: those of the body, or those
of the chunks that the session holds. -/
def Op.stores (before : System) : Op → Option (Uuid × Nat)
  | .uploadSimple userId _ _ stream _ _ => some (userId, stream.flatten.length)
  | .completeSession userId sessionId => some (userId, mergedSize before sessionId)
  | _ => none

/-- What the request stores for the user fits in the free space. -/
def Op.Fits (userId : Uuid) (before : System) (op : Op) : Prop :=
  ∀ file ∈ op.stores before, file.1 = userId → HasRoom before.db.users userId file.2

instance (userId : Uuid) (before : System) (op : Op) : Decidable (op.Fits userId before) :=
  inferInstanceAs (Decidable (∀ file ∈ op.stores before, _))

theorem Op.fits_of_stores {userId actorId : Uuid} {before : System} {op : Op} {bytes : Nat}
    (isFile : op.stores before = some (actorId, bytes)) :
    op.Fits userId before ↔ (actorId = userId → HasRoom before.db.users userId bytes) := by
  rw [Op.Fits, isFile]
  exact ⟨fun fits => fits _ rfl, fun fits file among => Option.some.inj among ▸ fits⟩

theorem Op.fits_of_none {userId : Uuid} {before : System} {op : Op}
    (nothing : op.stores before = none) : op.Fits userId before := by
  intro file among
  rw [nothing] at among
  cases among

/-- A request keeps the counter within the quota exactly when what it stores fits. -/
theorem Op.Charges.keepsQuota_iff {op : Op} {before : System} {users : Table User}
    {userId : Uuid} (charges : op.Charges before users)
    (within : WithinQuota before.db.users userId) :
    WithinQuota users userId ↔ op.Fits userId before := by
  cases charges with
  | nothing uncharged =>
      apply iff_of_true within
      apply Op.fits_of_none
      cases op with
      | uploadSimple => exact uncharged.elim
      | completeSession => exact uncharged.elim
      | _ => rfl
  | @uploaded actorId =>
      rw [Op.fits_of_stores rfl]
      by_cases same : actorId = userId
      · rw [same, withinQuota_add]
        exact ⟨fun room _ => room, fun fits => fits rfl⟩
      · rw [withinQuota_other (Ne.symm same)]
        exact ⟨fun _ isUser => absurd isUser same, fun _ => within⟩
  | @completed actorId sessionId =>
      rw [Op.fits_of_stores rfl]
      by_cases same : actorId = userId
      · rw [same, withinQuota_add]
        exact ⟨fun room _ => room, fun fits => fits rfl⟩
      · rw [withinQuota_other (Ne.symm same)]
        exact ⟨fun _ isUser => absurd isUser same, fun _ => within⟩
  | deleted freed => exact iff_of_true (withinQuota_subtract freed within) (Op.fits_of_none rfl)
  | emptied freed => exact iff_of_true (withinQuota_subtract freed within) (Op.fits_of_none rfl)

/-- Over a run of requests of any users, restores of snapshots apart, the counter is within
the quota in every state exactly when everything that is stored fits when it is stored. -/
theorem withinQuota_iff {userId : Uuid} {start final : System} {events : List (Event System Op)}
    (run : Run Op.Commits start events final)
    (noRestore : ∀ event ∈ events, event.action.NoSnapshotRestore)
    (starts : WithinQuota start.db.users userId) :
    (∀ event ∈ events, WithinQuota event.after.db.users userId) ↔
      ∀ event ∈ events, event.action.Fits userId event.before := by
  induction run with
  | nothing => exact ⟨fun _ _ member => (List.not_mem_nil member).elim,
      fun _ _ member => (List.not_mem_nil member).elim⟩
  | @next past middle final op run commits induction =>
      have earlier := induction fun event member => noRestore event (List.mem_append_left _ member)
      have charges := Op.charges (noRestore ⟨middle, op, final⟩ (by simp)) commits
      have last : WithinQuota middle.db.users userId →
          (WithinQuota final.db.users userId ↔ op.Fits userId middle) := charges.keepsQuota_iff
      simp only [List.forall_mem_append, List.forall_mem_singleton]
      constructor
      · intro both
        have within : WithinQuota middle.db.users userId :=
          run.holds (fun sys => WithinQuota sys.db.users userId) starts both.1
        exact ⟨earlier.mp both.1, (last within).mp both.2⟩
      · intro both
        have pastWithin := earlier.mpr both.1
        have within : WithinQuota middle.db.users userId :=
          run.holds (fun sys => WithinQuota sys.db.users userId) starts pastWithin
        exact ⟨pastWithin, (last within).mpr both.2⟩

/-- A body of no more than the declared size fits. -/
theorem UploadService.uploadSimple_fits {actorId userId : Uuid} {parentId : Option Uuid}
    {filename : String} {stream : List Content} {sizeBytes : Nat} {mimeType : Option String}
    {sys after : System} {item : DriveItem}
    (runs : uploadSimple actorId parentId filename stream sizeBytes mimeType sys =
      .ok (item, after)) (declared : stream.flatten.length ≤ sizeBytes) :
    (Op.uploadSimple actorId parentId filename stream sizeBytes mimeType).Fits userId sys := by
  apply (Op.fits_of_stores rfl).mpr
  intro same user found
  rw [← same] at found
  have room := (uploadSimple_charges runs).1 user found
  omega

end Ceiling

/-! ## A quota of two bytes

A session for two bytes is open, and two bytes are uploaded beside it. -/

section TwoBytes

attribute [local instance] twoByteChunks

private def besideSession : List Op :=
  [.createSession 1 "kept" 2 none none, .uploadSimple 1 none "beside" [[65, 66]] 2 none,
    .uploadChunk 1 10 0 [[67, 68]], .completeSession 1 10]

theorem withinQuota_iff_quietDay :
    (Op.trace besideSession quietDay).map Event.action = besideSession ∧
      ∀ event ∈ Op.trace besideSession quietDay, WithinQuota event.after.db.users 1 := by
  cases runs : Op.commitAll besideSession quietDay with
  | error => cases runs
  | ok final =>
      apply And.intro (Op.trace_actions runs)
      have run := Op.run_trace (by simp [besideSession, Op.Offered]) runs
      have noRestore : ∀ event ∈ Op.trace besideSession quietDay,
          event.action.NoSnapshotRestore := by
        intro event member
        have isOne := Op.action_mem_of_trace member
        simp only [besideSession, List.mem_cons, List.not_mem_nil, or_false] at isOne
        rcases isOne with isOne | isOne | isOne | isOne <;> rw [isOne] <;> trivial
      apply (withinQuota_iff run noRestore (by decide)).mpr
      decide

private def narrow : System := { quietDay with
  db := { quietDay.db with
    users := ⟨[{ id := 1, email := "a@example.org", quotaBytes := 2, usedBytes := 0 }],
      by decide⟩ } }

theorem withinQuota_reserved_overshoots :
    WithinQuota narrow.db.users 1 ∧ ∃ final events, Run Op.Commits narrow events final ∧
      events.map Event.action = besideSession ∧ ¬ WithinQuota final.db.users 1 := by
  apply And.intro (by decide)
  cases runs : Op.commitAll besideSession narrow with
  | error => cases runs
  | ok final =>
      apply Exists.intro final
      apply Exists.intro (Op.trace besideSession narrow)
      apply And.intro (Op.run_trace (by simp [besideSession, Op.Offered]) runs)
      apply And.intro (Op.trace_actions runs)
      cases runs
      decide

end TwoBytes

end CloudDrive
