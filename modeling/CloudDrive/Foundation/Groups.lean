import Mathlib.Algebra.BigOperators.Group.List.Basic
import Mathlib.Algebra.Order.BigOperators.Group.List
import Mathlib.Algebra.Order.Monoid.Canonical.Defs
import Mathlib.Algebra.Order.Ring.Nat
import Mathlib.Data.List.Count
import Mathlib.Data.List.Perm.Subperm

/-! # Sums in groups

The weight of a list, added up group by group, and two such sums compared group by group. -/

namespace Groups

variable {α : Type u} {β : Type v}

/-- The weight of a list of groups in which one group only weighs something. -/
theorem sum_single [DecidableEq β] {groups : List β} (distinct : groups.Nodup) {mine : β}
    (member : mine ∈ groups) (weight : Nat) :
    (groups.map fun other => if mine = other then weight else 0).sum = weight := by
  have others : ∀ other, other ≠ mine → other ∈ groups →
      (if mine = other then weight else 0) = 0 :=
    fun other different _ => if_neg different.symm
  rw [List.sum_map_eq_nsmul_single mine _ others, distinct.count, if_pos member,
    one_nsmul, if_pos rfl]

/-- Added up group by group, every element counts once. -/
theorem sum_by_group [DecidableEq β] {groups : List β} (distinct : groups.Nodup)
    (group : α → β) (weight : α → Nat) :
    ∀ elements : List α, (∀ element ∈ elements, group element ∈ groups) →
      (groups.map fun name => ((elements.filter fun element =>
        decide (group element = name)).map weight).sum).sum = (elements.map weight).sum
  | [], _ => by simp
  | element :: rest, covered => by
      have later := sum_by_group distinct group weight rest
        fun other among => covered other (List.mem_cons_of_mem _ among)
      have split : ∀ name, (((element :: rest).filter fun other =>
          decide (group other = name)).map weight).sum =
          (if group element = name then weight element else 0) +
            ((rest.filter fun other => decide (group other = name)).map weight).sum := by
        intro name
        rw [List.filter_cons]
        by_cases mine : group element = name
        · rw [decide_eq_true mine, if_pos rfl, if_pos mine, List.map_cons, List.sum_cons]
        · rw [decide_eq_false mine, if_neg Bool.false_ne_true, if_neg mine, Nat.zero_add]
      rw [List.map_congr_left fun name _ => split name, List.sum_map_add, later,
        sum_single distinct (covered element List.mem_cons_self), List.map_cons, List.sum_cons]

/-- One sum is within another when what exceeds in some groups is within what is left in
others. -/
theorem sum_le_iff_excess (groups : List β) (left right : β → Nat) :
    (groups.map left).sum ≤ (groups.map right).sum ↔
      (groups.map fun name => left name - right name).sum ≤
        (groups.map fun name => right name - left name).sum := by
  have balance : (groups.map left).sum + (groups.map fun name => right name - left name).sum =
      (groups.map right).sum + (groups.map fun name => left name - right name).sum := by
    rw [← List.sum_map_add, ← List.sum_map_add]
    apply congrArg List.sum
    apply List.map_congr_left
    intro name _
    omega
  omega

/-- A part of a list in which nothing is twice weighs no more than the list. -/
theorem sum_le_of_subset {part whole : List α} (distinct : part.Nodup) (subset : part ⊆ whole)
    (weight : α → Nat) : (part.map weight).sum ≤ (whole.map weight).sum := by
  rcases List.subperm_of_subset distinct subset with ⟨same, perm, sublist⟩
  rw [← (perm.map weight).sum_eq]
  exact (sublist.map weight).sum_le_sum fun _ _ => Nat.zero_le _

end Groups
