import CloudDrive.Snapshot
import CloudDrive.Upload.Effects
import CloudDrive.Foundation.Interruption

/-! # The storage under a request that fails

What a failed request wrote to the database is rolled back. What it told the blob
storage stays done. -/

namespace CloudDrive

open Relational Interruption

variable [Platform]

inductive StorageCommand where
  | save (key : StorageKey) (content : Content)
  | delete (key : StorageKey)
  deriving DecidableEq

def StorageCommand.perform (sys : System) : StorageCommand → System
  | .save key content => Storage.saveStream key [content] sys
  | .delete key => Storage.delete key sys

def StorageCommand.key : StorageCommand → StorageKey
  | .save key _ => key
  | .delete key => key

abbrev Request (α : Type) := Work StorageCommand ServiceError α

/-- The state that a request leaves when it fails after these commands. -/
def rolledBack (start : System) (given : List StorageCommand) : System :=
  given.foldl StorageCommand.perform start

theorem rolledBack_db (given : List StorageCommand) (start : System) :
    (rolledBack start given).db = start.db := by
  induction given generalizing start with
  | nil => rfl
  | cons command rest induction =>
      apply (induction (command.perform start)).trans
      cases command <;> rfl

theorem stored_iff_find {sys : System} {key : StorageKey} :
    Stored sys key ↔ ∃ object, sys.storage.find? key = some object := by
  constructor
  · intro stored
    rcases stored with ⟨object, member, rfl⟩
    exact ⟨object, Table.find?_key member⟩
  · intro found
    rcases found with ⟨object, search⟩
    exact ⟨object, Table.find?_eq_some.mp search⟩

/-- A command is about one key. -/
theorem perform_find {start : System} {command : StorageCommand} {key : StorageKey}
    (different : command.key ≠ key) :
    (command.perform start).storage.find? key = start.storage.find? key := by
  apply Option.ext
  intro object
  rw [Table.find?_eq_some, Table.find?_eq_some]
  apply and_congr_left
  intro isKey
  cases command with
  | save saved content =>
      rw [← isKey] at different
      constructor
      · intro member
        rcases Table.mem_save.mp member with rfl | earlier
        · exact absurd rfl different
        · exact earlier.1
      · exact fun member => Table.mem_save.mpr (.inr ⟨member, Ne.symm different⟩)
  | delete gone =>
      rw [← isKey] at different
      constructor
      · exact fun member => (Table.mem_filter.mp member).1
      · exact fun member => Table.mem_filter.mpr ⟨member, decide_eq_true (Ne.symm different)⟩

theorem rolledBack_find {key : StorageKey} : ∀ {given : List StorageCommand} {start : System},
    (∀ command ∈ given, command.key ≠ key) →
    (rolledBack start given).storage.find? key = start.storage.find? key
  | [], _, _ => rfl
  | command :: rest, start, different => by
      have later : (rolledBack (command.perform start) rest).storage.find? key =
          (command.perform start).storage.find? key :=
        rolledBack_find fun other member => different other (List.mem_cons_of_mem _ member)
      exact later.trans (perform_find (different command List.mem_cons_self))

/-- A blob that was deleted and not saved is gone. -/
theorem not_stored_of_delete {key : StorageKey} : ∀ {given : List StorageCommand}
    {start : System}, (∀ content, .save key content ∉ given) →
    .delete key ∈ given ∨ ¬ Stored start key → ¬ Stored (rolledBack start given) key
  | [], _, _, either => by
      rcases either with deleted | missing
      · cases deleted
      · exact missing
  | command :: rest, start, notSaved, either => by
      apply not_stored_of_delete fun content member =>
        notSaved content (List.mem_cons_of_mem _ member)
      by_cases isKey : command.key = key
      · apply Or.inr
        cases command with
        | save saved content =>
            rw [← isKey] at notSaved
            exact absurd List.mem_cons_self (notSaved content)
        | delete gone =>
            intro stored
            rcases stored with ⟨object, member, rfl⟩
            exact of_decide_eq_true (Table.mem_filter.mp member).2 isKey.symm
      · rcases either with deleted | missing
        · rcases List.mem_cons.mp deleted with rfl | later
          · exact absurd rfl isKey
          · exact .inl later
        · apply Or.inr
          rw [stored_iff_find, perform_find isKey, ← stored_iff_find]
          exact missing

/-- A row of some table names the blob. -/
def NamesBlob (db : Database) (key : StorageKey) : Prop :=
  key ∈ SnapshotService.referencedStorageKeys db ∨
    ∃ chunk ∈ db.chunks, chunk.storageKey = key

/-- Whatever the database of `after` names and was stored is still stored. -/
def KeepsBlobs (start after : System) : Prop :=
  ∀ key, NamesBlob after.db key → Stored start key → Stored after key

/-- The command deletes a blob that the state names and stores. -/
def StorageCommand.Loses (start : System) (command : StorageCommand) : Prop :=
  ∃ key, command = .delete key ∧ NamesBlob start.db key ∧ Stored start key

/-- A request whose every command deletes a blob that is named and stored can only
fail before its first command. -/
theorem keepsBlobs_iff_of_loses {start : System} {given : List StorageCommand}
    (loses : ∀ command ∈ given, command.Loses start) :
    KeepsBlobs start (rolledBack start given) ↔ given = [] := by
  constructor
  · intro keeps
    cases given with
    | nil => rfl
    | cons command rest =>
        rcases loses command List.mem_cons_self with ⟨key, rfl, named, stored⟩
        have still := keeps key (by rwa [rolledBack_db]) stored
        have notSaved : ∀ content, .save key content ∉ (.delete key :: rest) := by
          intro content member
          rcases loses _ member with ⟨_, isDelete, _⟩
          cases isDelete
        exact absurd still (not_stored_of_delete notSaved (.inl List.mem_cons_self))
  · intro nothing
    rw [nothing]
    exact fun key named stored => stored

end CloudDrive
