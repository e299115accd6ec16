import CloudDrive.Foundation.Table
import Mathlib.Algebra.GroupWithZero.Nat
import Mathlib.Algebra.Order.BigOperators.Group.Finset

/-! # Sums over tables

The sum of a weight over the rows of a table, and how it changes with the rows. The key
makes the rows of a table different, so the sum depends on which rows there are only. -/

namespace Relational.Table

variable {ρ : Type u} {κ : Type v} [Keyed ρ κ]

def total (table : Table ρ) (weight : ρ → Nat) : Nat :=
  (table.rows.map weight).sum

theorem total_eq_zero_iff {table : Table ρ} {weight : ρ → Nat} :
    table.total weight = 0 ↔ ∀ row ∈ table, weight row = 0 := by
  rw [total, List.sum_eq_zero_iff, List.forall_mem_map]
  rfl

theorem nodup_rows (table : Table ρ) : table.rows.Nodup :=
  table.nodup.of_map _

section Finite

variable [DecidableEq ρ]

theorem total_eq_sum (table : Table ρ) (weight : ρ → Nat) :
    table.total weight = table.rows.toFinset.sum weight :=
  (List.sum_toFinset weight table.nodup_rows).symm

theorem mem_toFinset {table : Table ρ} {row : ρ} : row ∈ table.rows.toFinset ↔ row ∈ table :=
  List.mem_toFinset

/-- Fewer rows weigh less. -/
theorem total_le {left right : Table ρ} (sub : ∀ row ∈ left, row ∈ right) (weight : ρ → Nat) :
    left.total weight ≤ right.total weight := by
  rw [total_eq_sum, total_eq_sum]
  apply Finset.sum_le_sum_of_subset
  intro row member
  exact mem_toFinset.mpr (sub row (mem_toFinset.mp member))

/-- A table weighs no more than one that has a row of at least the weight under the key of
every row that weighs anything. -/
theorem total_le_of_matched [DecidableEq κ] {left right : Table ρ} {weight : ρ → Nat}
    (matched : ∀ row ∈ left, weight row ≠ 0 → ∃ other ∈ right,
      Keyed.key other = Keyed.key row ∧ weight row ≤ weight other) :
    left.total weight ≤ right.total weight := by
  let partner : ρ → ρ := fun row => (right.find? (Keyed.key row)).getD row
  let heavy := left.rows.toFinset.filter fun row => weight row ≠ 0
  have partnered : ∀ row ∈ heavy, partner row ∈ right ∧
      Keyed.key (partner row) = Keyed.key row ∧ weight row ≤ weight (partner row) := by
    intro row among
    rcases Finset.mem_filter.mp among with ⟨member, weighs⟩
    rcases matched row (mem_toFinset.mp member) weighs with ⟨other, otherMem, sameKey, most⟩
    have isPartner : partner row = other := by
      show (right.find? (Keyed.key row)).getD row = other
      rw [find?_eq_some.mpr ⟨otherMem, sameKey⟩, Option.getD_some]
    rw [isPartner]
    exact ⟨otherMem, sameKey, most⟩
  have injective : Set.InjOn partner heavy := by
    intro first firstMem second secondMem same
    have sameKey := (partnered first firstMem).2.1.symm.trans
      ((congrArg Keyed.key same).trans (partnered second secondMem).2.1)
    have inLeft : ∀ row ∈ heavy, row ∈ left :=
      fun row among => mem_toFinset.mp (Finset.mem_filter.mp among).1
    exact eq_of_key_eq (inLeft first firstMem) (inLeft second secondMem) sameKey
  have within : heavy.image partner ⊆ right.rows.toFinset := by
    intro other among
    rcases Finset.mem_image.mp among with ⟨row, rowMem, rfl⟩
    exact mem_toFinset.mpr (partnered row rowMem).1
  calc
    left.total weight = heavy.sum weight := by
      rw [total_eq_sum]
      exact (Finset.sum_filter_ne_zero _).symm
    _ ≤ heavy.sum fun row => weight (partner row) :=
      Finset.sum_le_sum fun row among => (partnered row among).2.2
    _ = (heavy.image partner).sum weight := (Finset.sum_image injective).symm
    _ ≤ right.rows.toFinset.sum weight := Finset.sum_le_sum_of_subset within
    _ = right.total weight := (total_eq_sum right weight).symm

theorem total_congr {left right : Table ρ} (same : ∀ row, row ∈ left ↔ row ∈ right)
    (weight : ρ → Nat) : left.total weight = right.total weight :=
  Nat.le_antisymm (total_le (fun row => (same row).mp) weight)
    (total_le (fun row => (same row).mpr) weight)

theorem weight_le_total {table : Table ρ} {row : ρ} (member : row ∈ table) (weight : ρ → Nat) :
    weight row ≤ table.total weight := by
  rw [total_eq_sum]
  exact Finset.single_le_sum (fun _ _ => Nat.zero_le _) (mem_toFinset.mpr member)

theorem total_added {table after : Table ρ} {new : ρ}
    (rows : ∀ row, row ∈ after ↔ row ∈ table ∨ row = new) (fresh : new ∉ table)
    (weight : ρ → Nat) : after.total weight = table.total weight + weight new := by
  have inserted : after.rows.toFinset = insert new table.rows.toFinset := by
    apply Finset.ext
    intro row
    rw [mem_toFinset, Finset.mem_insert, mem_toFinset, rows, Or.comm]
  have absent : new ∉ table.rows.toFinset := fun member => fresh (mem_toFinset.mp member)
  rw [total_eq_sum, total_eq_sum, inserted, Finset.sum_insert absent, Nat.add_comm]

/-- The rows that a filter keeps and those that it drops weigh what the table weighs. -/
theorem total_filter (table : Table ρ) (keep : ρ → Bool) (weight : ρ → Nat) :
    (table.filter keep).total weight + (table.filter fun row => !keep row).total weight =
      table.total weight := by
  have kept : (table.filter keep).rows.toFinset =
      table.rows.toFinset.filter fun row => keep row = true := by
    apply Finset.ext
    intro row
    rw [mem_toFinset, Finset.mem_filter, mem_toFinset, mem_filter]
  have dropped : (table.filter fun row => !keep row).rows.toFinset =
      table.rows.toFinset.filter fun row => ¬ keep row = true := by
    apply Finset.ext
    intro row
    rw [mem_toFinset, Finset.mem_filter, mem_toFinset, mem_filter, Bool.not_eq_true',
      Bool.not_eq_true]
  rw [total_eq_sum, total_eq_sum, total_eq_sum, kept, dropped]
  exact Finset.sum_filter_add_sum_filter_not _ _ _

/-- One row was replaced by another of its key. -/
theorem total_replaced {table after : Table ρ} {old new : ρ} (member : old ∈ table)
    (rows : ∀ row, row ∈ after ↔
      row = new ∨ (row ∈ table ∧ Keyed.key row ≠ Keyed.key old))
    (sameKey : Keyed.key new = Keyed.key old) (weight : ρ → Nat) :
    after.total weight + weight old = table.total weight + weight new := by
  have rest : after.rows.toFinset = insert new (table.rows.toFinset.erase old) := by
    apply Finset.ext
    intro row
    rw [mem_toFinset, Finset.mem_insert, Finset.mem_erase, mem_toFinset, rows]
    apply or_congr_right
    constructor
    · exact fun kept => ⟨fun isOld => kept.2 (congrArg Keyed.key isOld), kept.1⟩
    · exact fun kept => ⟨kept.2, fun isKey => kept.1 (eq_of_key_eq kept.2 member isKey)⟩
  have absent : new ∉ table.rows.toFinset.erase old := by
    intro among
    rcases Finset.mem_erase.mp among with ⟨different, inTable⟩
    exact different (eq_of_key_eq (mem_toFinset.mp inTable) member sameKey)
  have taken := Finset.add_sum_erase table.rows.toFinset weight (mem_toFinset.mpr member)
  rw [total_eq_sum, total_eq_sum, rest, Finset.sum_insert absent, ← taken]
  omega

/-- A rewrite that leaves all rows but one as they are. -/
theorem total_changed {table after : Table ρ} {old : ρ} {change : ρ → ρ} (member : old ∈ table)
    (rows : after.rows = table.rows.map change)
    (sameKey : Keyed.key (change old) = Keyed.key old)
    (others : ∀ row ∈ table, Keyed.key row ≠ Keyed.key old → change row = row)
    (weight : ρ → Nat) :
    after.total weight + weight old = table.total weight + weight (change old) := by
  apply total_replaced member _ sameKey
  intro row
  rw [← mem_rows, rows, List.mem_map]
  constructor
  · intro among
    rcases among with ⟨source, inTable, rfl⟩
    by_cases isKey : Keyed.key source = Keyed.key old
    · exact .inl (congrArg change (eq_of_key_eq inTable member isKey))
    · rw [others source inTable isKey]
      exact .inr ⟨inTable, isKey⟩
  · intro among
    rcases among with rfl | ⟨inTable, different⟩
    · exact ⟨old, member, rfl⟩
    · exact ⟨row, inTable, others row inTable different⟩

end Finite

/-- A sum over the rows that meet a condition. -/
theorem sum_filter (rows : List ρ) (keep : ρ → Bool) (weight : ρ → Nat) :
    ((rows.filter keep).map weight).sum =
      (rows.map fun row => if keep row = true then weight row else 0).sum := by
  induction rows with
  | nil => rfl
  | cons row rest induction =>
      cases kept : keep row with
      | true =>
          rw [List.filter_cons_of_pos kept, List.map_cons, List.map_cons, List.sum_cons,
            List.sum_cons, if_pos kept, induction]
      | false =>
          have dropped : ¬ keep row = true := by rw [kept]; exact Bool.false_ne_true
          rw [List.filter_cons_of_neg dropped, List.map_cons, List.sum_cons, if_neg dropped,
            Nat.zero_add, induction]

end Relational.Table
