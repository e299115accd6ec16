import Mathlib.Logic.Relation
import Mathlib.Order.WellFounded

/-! # Failures that spread along dependencies

What depends directly on a failed or blocked node is blocked. When the dependencies are
well founded, the blocked nodes are those from which a failed one is reached. -/

namespace Propagation

open Relation

variable {α : Type u} {dependsOn : α → α → Prop} (failed blocked : α → Prop)

theorem blocked_of_reaches
    (spreads : ∀ node source, dependsOn node source → failed source ∨ blocked source →
      blocked node)
    {node source : α} (reaches : TransGen dependsOn node source) (fails : failed source) :
    blocked node := by
  induction reaches using TransGen.head_induction_on with
  | single direct => exact spreads _ _ direct (.inl fails)
  | head direct _ induction => exact spreads _ _ direct (.inr induction)

theorem reaches_of_blocked
    (caused : ∀ node, blocked node → ∃ source, dependsOn node source ∧
      (failed source ∨ blocked source))
    (wellFounded : WellFounded fun source node => dependsOn node source) (node : α)
    (isBlocked : blocked node) : ∃ source, TransGen dependsOn node source ∧ failed source := by
  induction node using wellFounded.induction with
  | _ node induction =>
      rcases caused node isBlocked with ⟨source, direct, fails | alsoBlocked⟩
      · exact ⟨source, .single direct, fails⟩
      · rcases induction source direct alsoBlocked with ⟨origin, reaches, fails⟩
        exact ⟨origin, .head direct reaches, fails⟩

end Propagation
