import CloudDrive.Storage.Commands
import CloudDrive.Operation

/-! # Permanent deletion that fails on the way

`_reclaim_blobs` deletes blobs as soon as the rows of one item are gone, and the
router commits after the last item. Whatever fails in between brings the rows back
and not the blobs. -/

namespace CloudDrive

open Outcome Relational Interruption Execution

namespace TrashService

section Interrupted

variable [Platform]

/-! ## The requests, command by command -/

/-- The order in which a loop over a set of keys takes them. -/
structure SetOrder where
  toList : List StorageKey → List StorageKey
  nodup : ∀ keys, (toList keys).Nodup
  mem_toList : ∀ {keys key}, key ∈ toList keys ↔ key ∈ keys

/-- One key of the loop in `_reclaim_blobs`. -/
def reclaimBlob (key : StorageKey) (sys : System) : Request System :=
  if isReferencedBySnapshot sys.db key then
    pure sys
  else if (sys.storage.find? key).isSome then do
    let _ ← Work.command (.delete key)
    pure (Storage.delete key sys)
  else
    pure sys

/-- `permanent_delete`. After the blobs come the quota and the activity log, which
may fail as the commit may. -/
def permanentDeletion (order : SetOrder) (userId itemId : Uuid) (sys : System) :
    Request System := do
  let item ← Work.of (orRaise (sys.db.items.find? itemId) (.notFound "Item not found"))
  let _ ← Work.of (require (item.ownerId = userId) (.forbidden "Forbidden"))
  let _ ← Work.of (require (item.isDeleted = true)
    (.invalidOperation "Item must be trashed before permanent deletion"))
  let below ← Work.of (descendants sys item)
  let state ← Work.of (forEach deleteRow (below.reverse ++ [item])
    ({ freed := 0, keys := [] }, sys))
  let sys ← Work.forEach reclaimBlob (order.toList state.1.keys) state.2
  if 0 < state.1.freed then
    pure (QuotaService.subtractUsedBytes userId state.1.freed sys)
  else
    pure sys

/-- `empty_trash`. -/
def emptying (order : SetOrder) (userId : Uuid) (allDeleted : List DriveItem) (sys : System) :
    Request System :=
  Work.forEach (fun item sys => permanentDeletion order userId item.id sys)
    (topLevel allDeleted) sys

/-! ## Undisturbed -/

theorem reclaimBlobs_cons (key : StorageKey) (rest : List StorageKey) (sys : System) :
    reclaimBlobs rest (reclaimBlobs [key] sys) = reclaimBlobs (key :: rest) sys := by
  have storage : (reclaimBlobs rest (reclaimBlobs [key] sys)).storage =
      (reclaimBlobs (key :: rest) sys).storage := by
    apply Table.ext_rows
    simp only [reclaimBlobs, System.withStorage, Table.filter, List.filter_filter]
    congr 1
    funext object
    cases referenced : isReferencedBySnapshot sys.db object.key with
    | true => simp
    | false => simp [Bool.and_comm]
  exact congrArg sys.withStorage storage

/-- Only the set of the keys matters, not the order. -/
theorem reclaimBlobs_congr {keys others : List StorageKey} (sys : System)
    (same : ∀ key, key ∈ keys ↔ key ∈ others) :
    reclaimBlobs keys sys = reclaimBlobs others sys := by
  have storage : (reclaimBlobs keys sys).storage = (reclaimBlobs others sys).storage := by
    apply Table.ext_rows
    simp only [reclaimBlobs, System.withStorage, Table.filter, same]
  exact congrArg sys.withStorage storage

theorem reclaimBlobs_nil (sys : System) : reclaimBlobs [] sys = sys := by
  have storage : (reclaimBlobs [] sys).storage = sys.storage := by
    apply Table.ext_rows
    simp [reclaimBlobs, System.withStorage, Table.filter]
  exact congrArg sys.withStorage storage

theorem reclaimBlob_outcome (key : StorageKey) (sys : System) :
    (reclaimBlob key sys).outcome = .ok (reclaimBlobs [key] sys) := by
  have unchanged : (∀ object ∈ sys.storage.rows, object.key ≠ key ∨
      isReferencedBySnapshot sys.db object.key = true) → reclaimBlobs [key] sys = sys := by
    intro stays
    have storage : (reclaimBlobs [key] sys).storage = sys.storage := by
      apply Table.ext_rows
      apply List.filter_eq_self.mpr
      intro object member
      rcases stays object member with different | referenced
      · simp [different]
      · simp [referenced]
    exact congrArg sys.withStorage storage
  rw [reclaimBlob]
  split_ifs with referenced stored
  · rw [unchanged, Work.outcome_pure]
    intro object member
    by_cases isKey : object.key = key
    · exact .inr (isKey ▸ referenced)
    · exact .inl isKey
  · have storage : (reclaimBlobs [key] sys).storage = (Storage.delete key sys).storage := by
      apply Table.ext_rows
      apply List.filter_congr
      intro object member
      by_cases isKey : object.key = key <;> simp [isKey, referenced]
    exact congrArg (fun storage => Except.ok (sys.withStorage storage)) storage.symm
  · rw [unchanged, Work.outcome_pure]
    intro object member
    apply Or.inl
    intro isKey
    have found := Table.find?_key (show object ∈ sys.storage from member)
    rw [StoredObject.key_eq, isKey] at found
    exact stored (by rw [found]; rfl)

theorem reclaiming_outcome : ∀ (keys : List StorageKey) (sys : System),
    (Work.forEach reclaimBlob keys sys).outcome = .ok (reclaimBlobs keys sys)
  | [], sys => by rw [reclaimBlobs_nil, Work.forEach, Work.outcome_pure]
  | key :: rest, sys => by
      rw [Work.forEach, Work.outcome_bind, reclaimBlob_outcome]
      exact (reclaiming_outcome rest _).trans (congrArg Except.ok (reclaimBlobs_cons key rest sys))

/-- Undisturbed, the request is `permanentDelete`. -/
theorem permanentDeletion_outcome (order : SetOrder) (userId itemId : Uuid) (sys : System) :
    (permanentDeletion order userId itemId sys).outcome = permanentDelete userId itemId sys := by
  have settles : ∀ state : Reclaimed × System,
      (Work.forEach reclaimBlob (order.toList state.1.keys) state.2 >>= fun sys =>
        if 0 < state.1.freed then pure (QuotaService.subtractUsedBytes userId state.1.freed sys)
        else pure sys : Request System).outcome = .ok (settle userId state.1 state.2) := by
    intro state
    rw [Work.outcome_bind, reclaiming_outcome,
      reclaimBlobs_congr state.2 fun key => order.mem_toList]
    show Work.outcome (if _ then _ else _) = _
    rw [settle]
    split_ifs <;> rfl
  simp only [permanentDeletion, permanentDelete, Work.outcome_bind, Work.outcome_of]
  simp only [← Work.outcome_bind, settles]
  rfl

/-- Undisturbed, the request is `emptyTrash`. -/
theorem emptying_outcome (order : SetOrder) (userId : Uuid) (allDeleted : List DriveItem)
    (sys : System) :
    (emptying order userId allDeleted sys).outcome = emptyTrash userId allDeleted sys := by
  rw [emptying, emptyTrash]
  generalize topLevel allDeleted = items
  induction items generalizing sys with
  | nil => rfl
  | cons item rest induction =>
      rw [Work.forEach, Work.outcome_bind, permanentDeletion_outcome, forEach_cons]
      exact congrArg _ (funext induction)

/-! ## What is deleted -/

/-- Versions and blobs went since `start`, and none came. -/
structure Shrunk (start sys : System) : Prop where
  versions : ∀ version ∈ sys.db.versions, version ∈ start.db.versions
  storage : ∀ object ∈ sys.storage, object ∈ start.storage

theorem reclaimBlobs_storage {keys : List StorageKey} {sys : System} {object : StoredObject}
    (stays : object ∈ (reclaimBlobs keys sys).storage) : object ∈ sys.storage :=
  (Table.mem_filter.mp stays).1

theorem Shrunk.permanentDelete {start sys after : System} (shrunk : Shrunk start sys)
    {userId itemId : Uuid} (runs : permanentDelete userId itemId sys = .ok after) :
    Shrunk start after := by
  rcases permanentDelete_ok runs with ⟨_, _, _, _, _, _, _, reclaimed, middle, erased, _, rfl⟩
  rcases settle_eq userId reclaimed middle with ⟨users, same⟩
  rw [same]
  constructor
  · intro version member
    exact shrunk.versions version ((erased.versions version).mp member).1
  · intro object member
    have before := reclaimBlobs_storage member
    rw [erased.storage] at before
    exact shrunk.storage object before

/-- A blob goes only if it was stored, and only if it was a candidate. -/
theorem reclaimBlob_loses {start sys : System} {key : StorageKey}
    (candidate : ∃ version ∈ start.db.versions, version.storageKey = key)
    (storage : ∀ object ∈ sys.storage, object ∈ start.storage) :
    (reclaimBlob key sys).Only (StorageCommand.Loses start) := by
  rcases candidate with ⟨version, member, sameKey⟩
  have named : NamesBlob start.db key := by
    apply Or.inl
    rw [SnapshotService.referencedStorageKeys, List.mem_append, List.mem_append, List.mem_map]
    exact .inl (.inr ⟨version, member, sameKey⟩)
  rw [reclaimBlob]
  split_ifs with referenced stored
  · exact Work.only_of _ _
  · rcases Option.isSome_iff_exists.mp stored with ⟨object, found⟩
    rcases Table.find?_eq_some.mp found with ⟨objectMem, isKey⟩
    have loses : StorageCommand.Loses start (.delete key) :=
      ⟨key, rfl, named, object, storage object objectMem, isKey⟩
    exact (Work.only_command loses).bind fun _ _ => Work.only_of _ _
  · exact Work.only_of _ _

theorem reclaiming_loses {start sys : System} {keys : List StorageKey}
    (candidates : ∀ key ∈ keys, ∃ version ∈ start.db.versions, version.storageKey = key)
    (storage : ∀ object ∈ sys.storage, object ∈ start.storage) :
    (Work.forEach reclaimBlob keys sys).Only (StorageCommand.Loses start) := by
  apply Work.only_forEach fun sys : System => ∀ object ∈ sys.storage, object ∈ start.storage
  · intro key among before within
    apply And.intro (reclaimBlob_loses (candidates key among) within)
    intro after done
    rw [reclaimBlob_outcome] at done
    cases done
    exact fun object stays => within object (reclaimBlobs_storage stays)
  · exact storage

theorem permanentDeletion_loses {start sys : System} (shrunk : Shrunk start sys)
    (order : SetOrder) (userId itemId : Uuid) :
    (permanentDeletion order userId itemId sys).Only (StorageCommand.Loses start) := by
  rw [permanentDeletion]
  apply (Work.only_of _ _).bind
  intro item _
  apply (Work.only_of _ _).bind
  intro _ _
  apply (Work.only_of _ _).bind
  intro _ _
  apply (Work.only_of _ _).bind
  intro below _
  apply (Work.only_of _ _).bind
  intro state deleted
  rcases deleteRows_ok deleted with ⟨erased, keys⟩
  have candidates : ∀ key ∈ order.toList state.1.keys,
      ∃ version ∈ start.db.versions, version.storageKey = key := by
    intro key among
    rcases keys key (order.mem_toList.mp among) with initial | ⟨version, member, _, sameKey⟩
    · cases initial
    · exact ⟨version, shrunk.versions version member, sameKey⟩
  have storage : ∀ object ∈ state.2.storage, object ∈ start.storage := by
    rw [erased.storage]
    exact shrunk.storage
  apply (reclaiming_loses candidates storage).bind
  intro sys _
  split_ifs <;> exact Work.only_of _ _

theorem emptying_loses (order : SetOrder) (userId : Uuid) (allDeleted : List DriveItem)
    (sys : System) :
    (emptying order userId allDeleted sys).Only (StorageCommand.Loses sys) := by
  apply Work.only_forEach (Shrunk sys)
  · intro item _ before shrunk
    apply And.intro (permanentDeletion_loses shrunk order userId item.id)
    intro after done
    rw [permanentDeletion_outcome] at done
    exact shrunk.permanentDelete done
  · exact ⟨fun _ member => member, fun _ member => member⟩

/-! ## When a failure leaves every blob -/

/-- The two routes. `allDeleted` is the answer of `get_all_deleted`. -/
inductive DeletionRequest where
  | permanentDelete (userId itemId : Uuid)
  | emptyTrash (userId : Uuid) (allDeleted : List DriveItem)

def DeletionRequest.work (order : SetOrder) (sys : System) : DeletionRequest → Request System
  | .permanentDelete userId itemId => permanentDeletion order userId itemId sys
  | .emptyTrash userId allDeleted => emptying order userId allDeleted sys

theorem DeletionRequest.loses (request : DeletionRequest) (order : SetOrder) (sys : System) :
    (request.work order sys).Only (StorageCommand.Loses sys) := by
  cases request with
  | permanentDelete userId itemId =>
      exact permanentDeletion_loses ⟨fun _ member => member, fun _ member => member⟩ _ _ _
  | emptyTrash userId allDeleted => exact emptying_loses order userId allDeleted sys

/-- A request that fails keeps every blob that the rolled-back database names exactly
when it fails before it has told the storage to delete one. -/
theorem keepsBlobs_iff_nothingDeleted (request : DeletionRequest) (order : SetOrder)
    (sys : System) {given : List StorageCommand}
    (fails : given ∈ (request.work order sys).failures) :
    KeepsBlobs sys (rolledBack sys given) ↔ given = [] :=
  keepsBlobs_iff_of_loses ((request.loses order sys).onFailure given fails)

end Interrupted

/-! ## A file beside a live folder

`Old` holds `plan.txt` and the live folder `Notes`, in which `Drafts` was trashed
before `Old`. Emptying the trash deletes `Old` with the blob of the file, and then
does not find `Drafts`. -/

section Beside

attribute [local instance] smallPlatform

private def trashHalf : List Op :=
  [.createFolder 1 none "Old", .createFolder 1 (some 10) "Notes",
    .createFolder 1 (some 11) "Drafts", .uploadSimple 1 (some 10) "plan.txt" [] 0 none,
    .trashItem 1 12, .trashItem 1 10]

private def halfTrashed : System := afterFirstDay trashHalf

private def emptiesTrash : DeletionRequest :=
  .emptyTrash 1 (TrashRepository.getAllDeleted halfTrashed 1)

/-- Each key where the list has it first. -/
private def asListed : SetOrder where
  toList keys := keys.dedup
  nodup := List.nodup_dedup
  mem_toList := List.mem_dedup

private theorem emptiesTrash_deletes :
    (emptiesTrash.work asListed halfTrashed).commands = [.delete (.file 1 13 1)] := by
  decide

theorem keepsBlobs_iff_emptiesTrash :
    KeepsBlobs halfTrashed
        (rolledBack halfTrashed (emptiesTrash.work asListed halfTrashed).commands) ↔
      (emptiesTrash.work asListed halfTrashed).commands = [] :=
  keepsBlobs_iff_nothingDeleted emptiesTrash asListed halfTrashed
    (emptiesTrash.work asListed halfTrashed).atTheEnd

theorem emptiesTrash_losesBlob :
    (∃ events, History firstDay events halfTrashed) ∧
      (emptiesTrash.work asListed halfTrashed).outcome = .error (.notFound "Item not found") ∧
      (emptiesTrash.work asListed halfTrashed).commands ∈
        (emptiesTrash.work asListed halfTrashed).failures ∧
      ¬ KeepsBlobs halfTrashed
        (rolledBack halfTrashed (emptiesTrash.work asListed halfTrashed).commands) := by
  have history : History firstDay (Op.trace trashHalf firstDay) halfTrashed :=
    firstDay_trace (by simp [trashHalf, Op.Offered]) rfl
  have named : NamesBlob halfTrashed.db (.file 1 13 1) := .inl (by decide)
  have stored : ∃ object ∈ halfTrashed.storage.rows, object.key = .file 1 13 1 := by decide
  have lost : ¬ ∃ object ∈ (rolledBack halfTrashed [.delete (.file 1 13 1)]).storage.rows,
      object.key = .file 1 13 1 := by decide
  apply And.intro ⟨_, history⟩
  apply And.intro rfl
  apply And.intro (emptiesTrash.work asListed halfTrashed).atTheEnd
  rw [emptiesTrash_deletes]
  intro keeps
  exact lost (keeps _ (by rwa [rolledBack_db]) stored)

end Beside

end TrashService

end CloudDrive
