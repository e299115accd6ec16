import Mathlib.Data.List.Perm.Basic
import Mathlib.Data.List.Nodup

/-! # Keyed tables

A table is a list of rows whose keys are pairwise different. The uniqueness of
the key is a field, so a table that violates its primary key cannot be built
and a lookup determines the row. -/

namespace Relational

class Keyed (ρ : Type u) (κ : outParam (Type v)) where
  key : ρ → κ

structure Table (ρ : Type u) {κ : outParam (Type v)} [Keyed ρ κ] where
  rows : List ρ
  nodup : (rows.map Keyed.key).Nodup

namespace Table

variable {ρ : Type u} {κ : Type v} [Keyed ρ κ]

instance : Membership ρ (Table ρ) where
  mem table row := row ∈ table.rows

@[simp] theorem mem_rows {table : Table ρ} {row : ρ} :
    row ∈ table.rows ↔ row ∈ table := Iff.rfl

theorem ext_rows {left right : Table ρ} (equal : left.rows = right.rows) :
    left = right := by
  cases left
  cases right
  cases equal
  rfl

instance [DecidableEq ρ] : DecidableEq (Table ρ) := fun left right =>
  decidable_of_iff (left.rows = right.rows)
    ⟨ext_rows, fun equal => congrArg rows equal⟩

/-- The key determines the row. -/
theorem eq_of_key_eq {table : Table ρ} {left right : ρ}
    (leftMem : left ∈ table) (rightMem : right ∈ table)
    (sameKey : Keyed.key left = Keyed.key right) : left = right :=
  List.inj_on_of_nodup_map table.nodup leftMem rightMem sameKey

def empty : Table ρ := ⟨[], by simp⟩

@[simp] theorem not_mem_empty (row : ρ) : ¬ row ∈ (empty : Table ρ) :=
  List.not_mem_nil

/-! ## Deleting and rewriting rows -/

def filter (table : Table ρ) (keep : ρ → Bool) : Table ρ where
  rows := table.rows.filter keep
  nodup := table.nodup.sublist (List.filter_sublist.map _)

@[simp] theorem mem_filter {table : Table ρ} {keep : ρ → Bool} {row : ρ} :
    row ∈ table.filter keep ↔ row ∈ table ∧ keep row = true :=
  List.mem_filter

def map (table : Table ρ) (change : ρ → ρ)
    (keeps : ∀ row, Keyed.key (change row) = Keyed.key row) : Table ρ where
  rows := table.rows.map change
  nodup := by
    have sameKeys : (table.rows.map change).map Keyed.key =
        table.rows.map Keyed.key := by
      simp [List.map_map, Function.comp_def, keeps]
    rw [sameKeys]
    exact table.nodup

@[simp] theorem mem_map {table : Table ρ} {change : ρ → ρ}
    {keeps : ∀ row, Keyed.key (change row) = Keyed.key row} {row : ρ} :
    row ∈ table.map change keeps ↔ ∃ source ∈ table, change source = row :=
  List.mem_map

/-! ## Operations that address one key -/

variable [DecidableEq κ]

theorem filter_fresh {table : Table ρ} {key : κ} (fresh : ∀ row ∈ table, Keyed.key row ≠ key) :
    table.filter (fun row => decide (Keyed.key row ≠ key)) = table := by
  apply ext_rows
  apply List.filter_eq_self.mpr
  intro row member
  exact decide_eq_true (fresh row member)

/-- Rewriting the row of a key is not seen beside that row. -/
theorem filter_map {table : Table ρ} {change : ρ → ρ}
    {keeps : ∀ row, Keyed.key (change row) = Keyed.key row} {key : κ}
    (others : ∀ row, Keyed.key row ≠ key → change row = row) :
    (table.map change keeps).filter (fun row => decide (Keyed.key row ≠ key)) =
      table.filter fun row => decide (Keyed.key row ≠ key) := by
  apply ext_rows
  show (table.rows.map change).filter (fun row => decide (Keyed.key row ≠ key)) =
    table.rows.filter fun row => decide (Keyed.key row ≠ key)
  rw [List.filter_map]
  have same : (fun row => decide (Keyed.key row ≠ key)) ∘ change =
      fun row => decide (Keyed.key row ≠ key) := by
    funext row
    rw [Function.comp_apply, keeps]
  rw [same]
  have unchanged : ∀ row ∈ table.rows.filter fun row => decide (Keyed.key row ≠ key),
      change row = row := fun row member =>
    others row (of_decide_eq_true (List.mem_filter.mp member).2)
  rw [List.map_congr_left unchanged, List.map_id']

def find? (table : Table ρ) (key : κ) : Option ρ :=
  table.rows.find? fun row => decide (Keyed.key row = key)

theorem find?_eq_some {table : Table ρ} {key : κ} {row : ρ} :
    table.find? key = some row ↔ row ∈ table ∧ Keyed.key row = key := by
  constructor
  · intro found
    exact ⟨List.mem_of_find?_eq_some found, by
      simpa using List.find?_some found⟩
  · rintro ⟨member, rfl⟩
    cases found : table.find? (Keyed.key row) with
    | none =>
        have absent := List.find?_eq_none.mp found row member
        simp at absent
    | some other =>
        have sameKey : Keyed.key other = Keyed.key row := by
          simpa using List.find?_some found
        rw [eq_of_key_eq (List.mem_of_find?_eq_some found) member sameKey]

theorem find?_eq_none {table : Table ρ} {key : κ} :
    table.find? key = none ↔ ∀ row ∈ table, Keyed.key row ≠ key := by
  simp [find?, List.find?_eq_none]

theorem find?_key {table : Table ρ} {row : ρ} (member : row ∈ table) :
    table.find? (Keyed.key row) = some row :=
  find?_eq_some.mpr ⟨member, rfl⟩

def Fresh (table : Table ρ) (key : κ) : Prop :=
  ∀ row ∈ table.rows, Keyed.key row ≠ key

instance (table : Table ρ) (key : κ) : Decidable (table.Fresh key) :=
  inferInstanceAs (Decidable (∀ row ∈ table.rows, Keyed.key row ≠ key))

/-- `INSERT`: refused when the key is taken. -/
def insert? (table : Table ρ) (row : ρ) : Option (Table ρ) :=
  if fresh : table.Fresh (Keyed.key row) then
    some {
      rows := table.rows ++ [row]
      nodup := by
        rw [List.map_append, List.nodup_append]
        refine ⟨table.nodup, by simp, ?_⟩
        intro key keyMem other otherMem equal
        rcases List.mem_map.mp keyMem with ⟨source, sourceMem, rfl⟩
        rcases List.mem_map.mp otherMem with ⟨added, addedMem, rfl⟩
        rw [List.mem_singleton.mp addedMem] at equal
        exact fresh source sourceMem equal }
  else
    none

theorem insert?_eq_some {table after : Table ρ} {row : ρ} :
    table.insert? row = some after ↔
      table.Fresh (Keyed.key row) ∧ after.rows = table.rows ++ [row] := by
  constructor
  · intro inserted
    by_cases fresh : table.Fresh (Keyed.key row)
    · simp only [insert?, fresh, dite_true, Option.some.injEq] at inserted
      exact ⟨fresh, by rw [← inserted]⟩
    · simp [insert?, fresh] at inserted
  · rintro ⟨fresh, rows⟩
    simp only [insert?, fresh, dite_true, Option.some.injEq]
    exact ext_rows rows.symm

theorem insert?_of_fresh {table : Table ρ} {row : ρ}
    (fresh : table.Fresh (Keyed.key row)) :
    ∃ after, table.insert? row = some after ∧ after.rows = table.rows ++ [row] := by
  obtain ⟨after, inserted⟩ : ∃ after, table.insert? row = some after := by
    simp only [insert?, fresh, dite_true]
    exact ⟨_, rfl⟩
  exact ⟨after, inserted, (insert?_eq_some.mp inserted).2⟩

/-- `UPDATE ... WHERE key = k`: replaces the row with the key of `row`, if any. -/
def put (table : Table ρ) (row : ρ) : Table ρ :=
  table.map (fun old => if Keyed.key old = Keyed.key row then row else old) (by
    intro old
    by_cases same : Keyed.key old = Keyed.key row
    · simp [same]
    · simp [same])

theorem mem_put {table : Table ρ} {row other : ρ} :
    other ∈ table.put row ↔
      (other = row ∧ ∃ old ∈ table, Keyed.key old = Keyed.key row) ∨
      (other ∈ table ∧ Keyed.key other ≠ Keyed.key row) := by
  rw [put, mem_map]
  constructor
  · rintro ⟨old, oldMem, rfl⟩
    by_cases same : Keyed.key old = Keyed.key row
    · exact .inl ⟨by simp [same], old, oldMem, same⟩
    · exact .inr (by simpa [same] using oldMem)
  · rintro (⟨rfl, old, oldMem, same⟩ | ⟨member, different⟩)
    · exact ⟨old, oldMem, by simp [same]⟩
    · exact ⟨other, member, by simp [different]⟩

theorem mem_of_insert? {table after : Table ρ} {row other : ρ}
    (inserted : table.insert? row = some after) : other ∈ after ↔ other ∈ table ∨ other = row := by
  rw [← mem_rows, (insert?_eq_some.mp inserted).2, List.mem_append, List.mem_singleton]
  rfl

/-- An insertion leaves what is found where it is. -/
theorem find?_insert? {table after : Table ρ} {row old : ρ} {key : κ}
    (inserted : table.insert? row = some after) (found : table.find? key = some old) :
    after.find? key = some old := by
  rcases find?_eq_some.mp found with ⟨member, isKey⟩
  exact find?_eq_some.mpr ⟨(mem_of_insert? inserted).mpr (.inl member), isKey⟩

theorem find?_put {table : Table ρ} {row old : ρ}
    (found : table.find? (Keyed.key row) = some old) :
    (table.put row).find? (Keyed.key row) = some row := by
  rcases find?_eq_some.mp found with ⟨member, isKey⟩
  exact find?_eq_some.mpr ⟨mem_put.mpr (.inl ⟨rfl, old, member, isKey⟩), rfl⟩

/-- An update changes no key. -/
theorem fresh_put {table : Table ρ} {row : ρ} {key : κ} :
    (table.put row).Fresh key ↔ table.Fresh key := by
  constructor
  · intro fresh old member isKey
    by_cases same : Keyed.key old = Keyed.key row
    · exact fresh row (mem_put.mpr (.inl ⟨rfl, old, member, same⟩)) (same.symm.trans isKey)
    · exact fresh old (mem_put.mpr (.inr ⟨member, same⟩)) isKey
  · intro fresh other member
    rcases mem_put.mp member with ⟨rfl, old, isOld, same⟩ | ⟨isOld, _⟩
    · exact fun isKey => fresh old isOld (same.trans isKey)
    · exact fresh other isOld

/-- Insert or overwrite the row with the key of `row`. -/
def save (table : Table ρ) (row : ρ) : Table ρ :=
  match table.insert? row with
  | some inserted => inserted
  | none => table.put row

theorem mem_save {table : Table ρ} {row other : ρ} :
    other ∈ table.save row ↔
      other = row ∨ (other ∈ table ∧ Keyed.key other ≠ Keyed.key row) := by
  by_cases fresh : table.Fresh (Keyed.key row)
  · have inserted : (table.save row).rows = table.rows ++ [row] := by
      simp [save, insert?, fresh]
    rw [← mem_rows, inserted, List.mem_append, List.mem_singleton]
    constructor
    · rintro (member | rfl)
      · exact .inr ⟨member, fresh other member⟩
      · exact .inl rfl
    · rintro (rfl | ⟨member, _⟩)
      · exact .inr rfl
      · exact .inl member
  · have replaced : table.save row = table.put row := by
      simp [save, insert?, fresh]
    have taken : ∃ old ∈ table, Keyed.key old = Keyed.key row := by
      simpa [Fresh] using fresh
    rw [replaced, mem_put]
    simp [taken]

theorem find?_save {table : Table ρ} {row : ρ} {key : κ} :
    (table.save row).find? key =
      if Keyed.key row = key then some row else table.find? key := by
  by_cases same : Keyed.key row = key
  · rw [if_pos same]
    exact find?_eq_some.mpr ⟨mem_save.mpr (.inl rfl), same⟩
  · rw [if_neg same]
    apply Option.ext
    intro other
    rw [find?_eq_some, find?_eq_some]
    constructor
    · intro found
      rcases mem_save.mp found.1 with rfl | ⟨member, _⟩
      · exact absurd found.2 same
      · exact ⟨member, found.2⟩
    · intro found
      exact ⟨mem_save.mpr (.inr ⟨found.1, fun isKey => same (isKey.symm.trans found.2)⟩), found.2⟩

/-- A saved row is not seen beside its key. -/
theorem filter_save {table : Table ρ} {row : ρ} {key : κ} (isKey : Keyed.key row = key) :
    (table.save row).filter (fun other => decide (Keyed.key other ≠ key)) =
      table.filter fun other => decide (Keyed.key other ≠ key) := by
  by_cases fresh : table.Fresh (Keyed.key row)
  · apply ext_rows
    have inserted : (table.save row).rows = table.rows ++ [row] := by
      simp [save, insert?, fresh]
    show (table.save row).rows.filter (fun other => decide (Keyed.key other ≠ key)) =
      table.rows.filter fun other => decide (Keyed.key other ≠ key)
    rw [inserted, List.filter_append]
    simp [isKey]
  · have replaced : table.save row = table.put row := by
      simp [save, insert?, fresh]
    rw [replaced, put]
    apply filter_map
    intro other different
    rw [isKey, if_neg different]

theorem find?_map {table : Table ρ} {change : ρ → ρ}
    {keeps : ∀ row, Keyed.key (change row) = Keyed.key row} {key : κ} :
    (table.map change keeps).find? key = (table.find? key).map change := by
  apply Option.ext
  intro other
  rw [find?_eq_some, mem_map, Option.map_eq_some_iff]
  constructor
  · intro found
    rcases found with ⟨⟨source, member, rfl⟩, isKey⟩
    exact ⟨source, find?_eq_some.mpr ⟨member, (keeps source).symm.trans isKey⟩, rfl⟩
  · intro found
    rcases found with ⟨source, isSource, rfl⟩
    rcases find?_eq_some.mp isSource with ⟨member, isKey⟩
    exact ⟨⟨source, member, rfl⟩, (keeps source).trans isKey⟩

end Table

/-! ## Association lists -/

theorem lookup_cons_of_ne {κ : Type u} {ν : Type v} [BEq κ] [LawfulBEq κ] {key other : κ}
    {value : ν} {entries : List (κ × ν)} (different : other ≠ key) :
    ((key, value) :: entries).lookup other = entries.lookup other := by
  rw [List.lookup_cons, beq_false_of_ne different]

end Relational
