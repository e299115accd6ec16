import CloudDrive.Upload.RoundTrip
import CloudDrive.Snapshot.SiblingNames

/-! # Names that are looked for and names that are written

What the numbering returns, and when the database takes a row under a name. The check of
a name compares it as it is written; the unique index compares lower case. -/

namespace CloudDrive

open Outcome Relational

/-! ## The names the numbering tries -/

/-- The name of round `round`: the name itself, then `stem (1).ext`, `stem (2).ext`, .. -/
def variant (filename : String) (round : Nat) : String :=
  triedName (splitName filename).1 (splitName filename).2 1 filename round

theorem triedName_shift (stem ext name : String) (counter round : Nat) :
    triedName stem ext (counter + 1) (numberedName stem counter ext) round =
      triedName stem ext counter name (round + 1) := by
  cases round with
  | zero => rfl
  | succ round =>
      show numberedName stem (counter + 1 + round) ext =
        numberedName stem (counter + (round + 1)) ext
      rw [Nat.add_assoc, Nat.add_comm 1]

section Numbering

variable [Platform] {items : ItemTable} {parentId : Option Uuid} {ownerId : Uuid}

/-- One live item of the owner bears the name there. -/
def TakenOnce (items : ItemTable) (parentId : Option Uuid) (ownerId : Uuid) (name : String) :
    Prop :=
  (sameName items name parentId ownerId none).length = 1

def NotTaken (items : ItemTable) (parentId : Option Uuid) (ownerId : Uuid) (name : String) :
    Prop :=
  sameName items name parentId ownerId none = []

instance (name : String) : Decidable (TakenOnce items parentId ownerId name) :=
  inferInstanceAs (Decidable (_ = _))

instance (name : String) : Decidable (NotTaken items parentId ownerId name) :=
  inferInstanceAs (Decidable (_ = _))

/-- The numbering stops in this round: all names before it are taken once, this one is
not. -/
def StopsAt (items : ItemTable) (parentId : Option Uuid) (ownerId : Uuid) (filename : String)
    (round : Nat) : Prop :=
  (∀ earlier < round, TakenOnce items parentId ownerId (variant filename earlier)) ∧
    NotTaken items parentId ownerId (variant filename round)

theorem nameExists_eq_false_iff {name : String} {excludeId : Option Uuid} :
    nameExistsInParent items name parentId ownerId excludeId = .ok false ↔
      sameName items name parentId ownerId excludeId = [] := by
  rcases found : sameName items name parentId ownerId excludeId with
    _ | ⟨first, _ | ⟨second, rest⟩⟩ <;> simp [nameExistsInParent, found]

theorem nameExists_eq_true_iff {name : String} {excludeId : Option Uuid} :
    nameExistsInParent items name parentId ownerId excludeId = .ok true ↔
      (sameName items name parentId ownerId excludeId).length = 1 := by
  rcases found : sameName items name parentId ownerId excludeId with
    _ | ⟨first, _ | ⟨second, rest⟩⟩ <;> simp [nameExistsInParent, found]

theorem numberName_stops {stem ext : String} : ∀ {fuel counter : Nat} {name given : String},
    numberName items parentId ownerId stem ext fuel counter name = .ok given →
    ∃ round, given = triedName stem ext counter name round ∧
      (∀ earlier < round,
        TakenOnce items parentId ownerId (triedName stem ext counter name earlier)) ∧
      NotTaken items parentId ownerId given
  | 0, _, _, _, resolved => by cases resolved
  | fuel + 1, counter, name, given, resolved => by
      simp only [numberName, bind_eq_ok] at resolved
      rcases resolved with ⟨taken, exist, resolved⟩
      cases taken with
      | false =>
          cases pure_eq_ok.mp resolved
          exact ⟨0, rfl, fun _ less => absurd less (Nat.not_lt_zero _),
            nameExists_eq_false_iff.mp exist⟩
      | true =>
          rcases numberName_stops resolved with ⟨round, isGiven, before, free⟩
          rw [triedName_shift stem ext name] at isGiven
          apply Exists.intro (round + 1)
          apply And.intro isGiven
          apply And.intro _ free
          intro earlier less
          cases earlier with
          | zero => exact nameExists_eq_true_iff.mp exist
          | succ earlier =>
              rw [← triedName_shift stem ext name]
              exact before earlier (Nat.lt_of_succ_lt_succ less)

/-- With enough rounds the loop returns the first name that is not taken. -/
theorem numberName_runs {stem ext : String} : ∀ {round fuel counter : Nat} {name : String},
    (∀ earlier < round,
      TakenOnce items parentId ownerId (triedName stem ext counter name earlier)) →
    NotTaken items parentId ownerId (triedName stem ext counter name round) →
    numberName items parentId ownerId stem ext fuel counter name =
        .ok (triedName stem ext counter name round) ∨
      numberName items parentId ownerId stem ext fuel counter name = .error .diverged
  | _, 0, _, _, _, _ => .inr rfl
  | 0, fuel + 1, counter, name, _, free => by
      have notTaken : nameExistsInParent items name parentId ownerId none = .ok false :=
        nameExists_eq_false_iff.mpr free
      apply Or.inl
      rw [numberName, notTaken]
      rfl
  | round + 1, fuel + 1, counter, name, before, free => by
      have taken : nameExistsInParent items name parentId ownerId none = .ok true :=
        nameExists_eq_true_iff.mpr (before 0 (Nat.succ_pos round))
      rw [numberName, taken, ← triedName_shift stem ext name]
      rw [← triedName_shift stem ext name] at free
      apply numberName_runs _ free
      intro earlier less
      rw [triedName_shift stem ext name]
      exact before (earlier + 1) (Nat.succ_lt_succ less)

/-- The loop returns the name of the round in which it stops, and raises when there is
none. -/
theorem resolveName_eq_ok_iff {filename given : String} :
    resolveName items parentId ownerId filename = .ok given ↔
      ∃ round, given = variant filename round ∧
        StopsAt items parentId ownerId filename round := by
  constructor
  · intro resolved
    rcases numberName_stops resolved with ⟨round, rfl, before, free⟩
    exact ⟨round, rfl, before, free⟩
  · intro stops
    rcases stops with ⟨round, rfl, before, free⟩
    rcases numberName_runs before free with runs | diverged
    · exact runs
    · exact absurd diverged (resolveName_ne_diverged items parentId ownerId filename)

end Numbering

/-! ## When a row is taken -/

namespace ItemTable

variable [Platform] {table : ItemTable}

/-- The row may stand beside the other ones under the unique index. -/
def IndexAllows (table : ItemTable) (row : DriveItem) : Prop :=
  ∀ other ∈ table.rows, other.id ≠ row.id → ¬ SameSlot other row

instance (row : DriveItem) : Decidable (table.IndexAllows row) :=
  inferInstanceAs (Decidable (∀ other ∈ table.rows, _))

theorem indexAllows_of_fresh {row : DriveItem} (fresh : ∀ old ∈ table, old.id ≠ row.id) :
    table.IndexAllows row ↔ ∀ old ∈ table, ¬ SameSlot old row :=
  ⟨fun allows old member => allows old member (fresh old member),
    fun apart old member _ => apart old member⟩

theorem change_taken {old : DriveItem} {rewrite : DriveItem → DriveItem}
    (member : old ∈ table) (keepsId : (rewrite old).id = old.id) :
    (∃ after, table.change old.id rewrite = .ok after) ↔ (rewrite old).Fits ∧
      table.IndexAllows (rewrite old) ∧
      ∀ top ∈ (rewrite old).parentId, top ∈ table.rows.map DriveItem.id := by
  let rows := table.rows.map fun row => if row.id = old.id then rewrite row else row
  have ids : rows.map DriveItem.id = table.rows.map DriveItem.id := by
    rw [List.map_map]
    apply List.map_congr_left
    intro row rowMem
    rw [Function.comp_apply]
    split
    · rename_i same
      rw [eq_of_id_eq rowMem member same, keepsId]
    · rfl
  have members : ∀ row, row ∈ rows ↔
      row = rewrite old ∨ (row ∈ table ∧ row.id ≠ old.id) := by
    intro row
    constructor
    · intro rewritten
      rcases List.mem_map.mp rewritten with ⟨source, sourceMem, rfl⟩
      by_cases same : source.id = old.id
      · rw [if_pos same, eq_of_id_eq sourceMem member same]
        exact .inl rfl
      · rw [if_neg same]
        exact .inr ⟨sourceMem, same⟩
    · intro either
      rcases either with rfl | ⟨rowMem, different⟩
      · exact List.mem_map.mpr ⟨old, member, if_pos rfl⟩
      · exact List.mem_map.mpr ⟨row, rowMem, if_neg different⟩
  have distinct : (rows.map DriveItem.id).Nodup := by
    rw [ids]
    exact table.nodup
  show (∃ after, flush rows = .ok after) ↔ _
  rw [flush_eq_ok_iff, Consistent, SnapshotService.slotsFree_iff distinct]
  constructor
  · intro consistent
    rcases consistent with ⟨_, fits, slots, parents⟩
    have isNew := (members (rewrite old)).mpr (.inl rfl)
    apply And.intro (fits _ isNew)
    apply And.intro
    · intro other otherMem different same
      have kept := (members other).mpr (.inr ⟨otherMem, keepsId ▸ different⟩)
      exact different (slots other kept _ isNew same)
    · rw [← ids]
      exact parents _ isNew
  · intro taken
    rcases taken with ⟨fits, allows, parent⟩
    apply And.intro distinct
    constructor
    · intro row rowMem
      rcases (members row).mp rowMem with rfl | ⟨inTable, _⟩
      · exact fits
      · exact table.fits row inTable
    constructor
    · intro left leftMem right rightMem same
      rcases (members left).mp leftMem with rfl | ⟨leftOld, leftOther⟩
      · rcases (members right).mp rightMem with rfl | ⟨rightOld, rightOther⟩
        · rfl
        · exact absurd (SnapshotService.SameSlot.symm same)
            (allows right rightOld (keepsId ▸ rightOther))
      · rcases (members right).mp rightMem with rfl | ⟨rightOld, _⟩
        · exact absurd same (allows left leftOld (keepsId ▸ leftOther))
        · exact (SnapshotService.slotsFree_iff table.nodup).mp table.slotsFree left leftOld
            right rightOld same
    · intro row rowMem top isParent
      rw [ids]
      rcases (members row).mp rowMem with rfl | ⟨inTable, _⟩
      · exact parent top isParent
      · exact table.parentsExist row inTable top isParent

/-- A row that stays under a parent of the table, or at the root. -/
theorem change_taken_iff {old : DriveItem} {rewrite : DriveItem → DriveItem}
    (member : old ∈ table) (keepsId : (rewrite old).id = old.id)
    (fits : (rewrite old).Fits)
    (parent : ∀ top ∈ (rewrite old).parentId, top ∈ table.rows.map DriveItem.id) :
    (∃ after, table.change old.id rewrite = .ok after) ↔
      table.IndexAllows (rewrite old) := by
  rw [change_taken member keepsId]
  exact ⟨fun taken => taken.2.1, fun allows => ⟨fits, allows, parent⟩⟩

theorem change_raises (table : ItemTable) (itemId : Uuid) (rewrite : DriveItem → DriveItem) :
    Raises (· = .integrityError) (table.change itemId rewrite) := by
  intro error refused
  unfold change flush at refused
  split at refused
  · cases refused
  · cases refused
    rfl

theorem add_raises (table : ItemTable) (item : DriveItem) :
    Raises (· = .integrityError) (table.add item) := by
  intro error refused
  unfold add flush at refused
  split at refused
  · cases refused
  · cases refused
    rfl

end ItemTable

end CloudDrive
